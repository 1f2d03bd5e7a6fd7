import StructEndian.Proofs.Generation.Output

/-!
# Generating from lines in two parts

Lines that are appended declare members behind those that are there already. What has been
written for the first part stays: the same failure, the same statements in front, and the same
signatures if the first part has the tag. If the second part starts with an ordinary member, or
has no members, then what is written for both parts is what is written for each of them alone.

## Main results

* `declaredMembers_append`, `structTag_append`: members and tag of lines in two parts.
* `exists_generate_append_eq_ok_iff`: two parts succeed together exactly if each of them does.
* `generate_append_keeps`: what has been written stays when lines are appended.
* `map_statementsIn_generate_append`: the statement lines of two parts, the second of which
  starts with an ordinary member.
* `generate_append_ordinary`: such parts are generated from independently.
-/

namespace StructEndian

/-! ### Lines in two parts -/

/-- The members of two parts are those of the one and those of the other. -/
theorem declaredMembers_append (lines lines' : List Text) :
    declaredMembers (lines ++ lines') = declaredMembers lines ++ declaredMembers lines' :=
  List.flatMap_append

/-- **The tag of the first part** is the tag of both. -/
theorem structTag_append {lines : List Text} (h : structTag lines ≠ []) (lines' : List Text) :
    structTag (lines ++ lines') = structTag lines := by
  rw [structTag] at h
  rw [structTag, structTag, List.findSome?_append]
  cases htag : lines.findSome? fun line => taggedWord line.stripComment.words with
  | none => simp [htag] at h
  | some tag => rfl

/-- A name that is given and not blank is used whatever the tag is. -/
theorem Options.nameFor_eq_nameFor {o : Options} {name : Text} (hname : o.name = some name)
    (hblank : name.trim ≠ []) (tag tag' : Text) : o.nameFor tag = o.nameFor tag' := by
  have hgiven : o.givenName = some name.trim := by
    rw [givenName, hname]
    simp [hblank]
  rw [nameFor, nameFor, hgiven]
  rfl

/-- **A failure in the first part** is the failure of both. -/
theorem generate_append_eq_error {o : Options} {lines : List Text} {e : UnsupportedBitField}
    (h : generate o lines = .error e) (lines' : List Text) :
    generate o (lines ++ lines') = .error e := by
  obtain ⟨m, hm, rfl⟩ := generate_eq_error_iff.mp h
  refine generate_eq_error_iff.mpr ⟨m, ?_, rfl⟩
  rw [declaredMembers_append, List.find?_append, hm, Option.some_or]

/-- **Two parts succeed together** exactly if each of them does, since a member is supported or
not by itself. -/
theorem exists_generate_append_eq_ok_iff {o : Options} {lines lines' : List Text} :
    (∃ out, generate o (lines ++ lines') = .ok out) ↔
      (∃ out, generate o lines = .ok out) ∧ ∃ out, generate o lines' = .ok out := by
  rw [exists_generate_eq_ok_iff, exists_generate_eq_ok_iff, exists_generate_eq_ok_iff,
    declaredMembers_append, List.forall_mem_append]

/-! ### Appended lines -/

/-- The statement lines of the first part stand in front of those of both. -/
theorem prefix_statementsIn_append {o : Options} (ho : o.layout = false)
    {lines lines' out out' : List Text} (h : generate o lines = .ok out)
    (h' : generate o (lines ++ lines') = .ok out') (d : Direction) :
    statementsIn d out <+: statementsIn d out' := by
  have houtline := map_statementsIn_generate ho lines d
  have houtline' := map_statementsIn_generate ho (lines ++ lines') d
  rw [h, Except.ok_map, Except.map_map] at houtline
  rw [h', Except.ok_map, Except.map_map, declaredMembers_append, outline,
    Outline.addAll_append] at houtline'
  obtain ⟨t, ht, hout⟩ := Except.map_eq_ok_iff.mp houtline.symm
  rw [← outline, ht, Except.ok_bind] at houtline'
  obtain ⟨u, hu, hout'⟩ := Except.map_eq_ok_iff.mp houtline'.symm
  obtain ⟨added, hadded⟩ := Outline.body_prefix_of_addAll hu
  rw [← hout, ← hout', ← hadded, statementLines_append]
  exact List.prefix_append _ _

/-- The signatures of the first part are those of both, if the tag is in the first part or the
name is given. -/
theorem exists_signatureIn {o : Options} (ho : o.layout = false)
    {lines lines' out out' : List Text} (h : generate o lines = .ok out)
    (h' : generate o (lines ++ lines') = .ok out') (hne : out ≠ [])
    (hname : structTag lines ≠ [] ∨ ∃ name, o.name = some name ∧ name.trim ≠ [])
    (d : Direction) : ∃ s, signatureIn d out = some s ∧ signatureIn d out' = some s := by
  have hmembers := declaredMembers_ne_nil h hne
  have hmembers' : declaredMembers (lines ++ lines') ≠ [] := by
    rw [declaredMembers_append]
    exact List.append_ne_nil_of_left_ne_nil hmembers _
  have htag : o.nameFor (structTag lines) = o.nameFor (structTag (lines ++ lines')) := by
    rcases hname with htag | ⟨name, hname, hblank⟩
    · rw [structTag_append htag]
    · exact Options.nameFor_eq_nameFor hname hblank _ _
  obtain ⟨c, hc, hnoThrow, hsignature⟩ := exists_signature_of_generate ho h hmembers
  obtain ⟨c', hc', hnoThrow', hsignature'⟩ := exists_signature_of_generate ho h' hmembers'
  refine ⟨c.signature d, hsignature d, ?_⟩
  rw [hsignature' d, Conversion.signature_congr (hc'.trans (htag.symm.trans hc.symm))
    (hnoThrow'.trans hnoThrow.symm)]

/-- **What has been written stays** when lines are appended. A failure stays the same failure;
where there is none for all lines there was none before; the statement lines for either direction
are kept in front; and so is the tag, and the signatures with it or with a name that is given. -/
theorem generate_append_keeps (o : Options) (ho : o.layout = false) (lines lines' : List Text) :
    (∀ e, generate o lines = .error e → generate o (lines ++ lines') = .error e) ∧
    (∀ out', generate o (lines ++ lines') = .ok out' → ∃ out, generate o lines = .ok out) ∧
    (∀ out out', generate o lines = .ok out → generate o (lines ++ lines') = .ok out' →
      out ≠ [] →
        (∀ d, statementsIn d out <+: statementsIn d out') ∧
        (structTag lines ≠ [] ∨ (∃ name, o.name = some name ∧ name.trim ≠ []) →
          ∀ d, ∃ s, signatureIn d out = some s ∧ signatureIn d out' = some s)) ∧
    (structTag lines ≠ [] → structTag (lines ++ lines') = structTag lines) := by
  exact ⟨fun e h => generate_append_eq_error h lines',
    fun out' h' => (exists_generate_append_eq_ok_iff.mp ⟨out', h'⟩).1,
    fun out out' h h' hne => ⟨prefix_statementsIn_append ho h h', exists_signatureIn ho h h' hne⟩,
    fun h => structTag_append h lines'⟩

/-- Lines that end while a storage is half full. -/
def openLines : List Text :=
  ["struct Frame \x7b // the first part", "  short id; int low : 20;"]

/-- Lines that fill the storage, open another one and go on behind it. -/
def closingLines : List Text :=
  ["  int high : 12; int more : 4;", "  float rate; \x7d;"]

/-- The statement for the storage is kept when it is filled. -/
theorem generate_append_keeps_openLines :
    ∃ out out', generate {} openLines = .ok out ∧
      generate {} (openLines ++ closingLines) = .ok out' ∧ out ≠ [] ∧
      (∀ d, statementsIn d out <+: statementsIn d out') ∧
      ∀ d, ∃ s, signatureIn d out = some s ∧ signatureIn d out' = some s := by
  have hsupported : ∀ m ∈ declaredMembers (openLines ++ closingLines), ¬ m.IsUnsupported := by
    decide +kernel
  have hkeeps := generate_append_keeps {} rfl openLines closingLines
  obtain ⟨out', h'⟩ := exists_generate_eq_ok_iff.mpr hsupported
  obtain ⟨out, h⟩ := hkeeps.2.1 out' h'
  have hne : out ≠ [] := by
    rintro rfl
    exact absurd (generate_eq_nil_iff.mp h) (by decide +kernel)
  obtain ⟨hstatements, hsignatures⟩ := hkeeps.2.2.1 out out' h h' hne
  exact ⟨out, out', h, h', hne, hstatements, hsignatures (Or.inl (by decide +kernel))⟩

/-! ### Parts that start with an ordinary member -/

/-- **The statement lines of two parts**, the second of which starts with an ordinary member, are
those of the one and those of the other, and there are any exactly if both have some. -/
theorem map_statementsIn_generate_append {o : Options} (ho : o.layout = false)
    (lines : List Text) {lines' : List Text}
    (h : ∀ m ∈ (declaredMembers lines').head?, m.isBitField = false) (d : Direction) :
    (generate o (lines ++ lines')).map (statementsIn d) =
      (generate o lines).map (statementsIn d) >>= fun front =>
        ((generate o lines').map (statementsIn d)).map (front ++ ·) := by
  rw [map_statementsIn_generate ho, map_statementsIn_generate ho, map_statementsIn_generate ho,
    declaredMembers_append, map_body_outline_append _ h, Except.map_bind, Except.bind_map,
    Except.bind_map]
  refine bind_congr fun t => ?_
  simp only [Except.map_map, statementLines_append]

/-- **An ordinary member is a barrier.** If the second part of some lines starts with one, or has
no members, then generating from both parts succeeds exactly if it does from each of them, and
the statement lines for either direction are those of the one and those of the other. -/
theorem generate_append_ordinary (o : Options) (ho : o.layout = false)
    (lines lines' : List Text)
    (h : ∀ m ∈ (declaredMembers lines').head?, m.isBitField = false) :
    ((∃ out'', generate o (lines ++ lines') = .ok out'') ↔
      (∃ out, generate o lines = .ok out) ∧ ∃ out', generate o lines' = .ok out') ∧
    ∀ out out' out'', generate o lines = .ok out → generate o lines' = .ok out' →
      generate o (lines ++ lines') = .ok out'' →
        ∀ d, statementsIn d out'' = statementsIn d out ++ statementsIn d out' := by
  refine ⟨exists_generate_append_eq_ok_iff, fun out out' out'' hout hout' hout'' d => ?_⟩
  have hparts := map_statementsIn_generate_append ho lines h d
  rw [hout, hout', hout'', Except.ok_map, Except.ok_map, Except.ok_bind, Except.ok_map,
    Except.ok_map] at hparts
  exact Except.ok.inj hparts

/-- Lines that start with an ordinary member and go on with a bit-field of the type and sign in
front of it. -/
def barrierLines : List Text :=
  ["  char mark; int high : 12;", "\x7d;"]

/-- A storage that is half full is not filled behind the barrier. -/
theorem generate_append_ordinary_barrierLines :
    (∀ m ∈ (declaredMembers barrierLines).head?, m.isBitField = false) ∧
    ∃ out out' out'', generate {} openLines = .ok out ∧ generate {} barrierLines = .ok out' ∧
      generate {} (openLines ++ barrierLines) = .ok out'' ∧
      ∀ d, statementsIn d out'' = statementsIn d out ++ statementsIn d out' := by
  have hhead : ∀ m ∈ (declaredMembers barrierLines).head?, m.isBitField = false := by
    decide +kernel
  have hsupported : ∀ m ∈ declaredMembers (openLines ++ barrierLines), ¬ m.IsUnsupported := by
    decide +kernel
  have hbarrier := generate_append_ordinary {} rfl openLines barrierLines hhead
  obtain ⟨out'', h''⟩ := exists_generate_eq_ok_iff.mpr hsupported
  obtain ⟨⟨out, h⟩, out', h'⟩ := hbarrier.1.mp ⟨out'', h''⟩
  exact ⟨hhead, out, out', out'', h, h', h'', hbarrier.2 out out' out'' h h' h''⟩

end StructEndian
