import Mathlib.Data.List.Basic
import StructEndian.Proofs.Declaration.Printing
import StructEndian.Proofs.Declaration.Tag

/-!
# Reading a printed structure back

A structure is printed as its tag, its declarations between braces, and blanks and line ends
wherever they may stand. Splitting the text into lines, stripping comments, cutting the lines
into pieces and reading each of them gives the members back that were printed, in order, and
the tag is found as well. How the text is broken into lines does not matter.

## Main definitions

* `structText`: the text of a structure.

## Main results

* `allPieces_structText`: the pieces of a printed structure are its declarations.
* `members_of_texts`: every declaration is read back.
* `declaredMembers_structText`: so is a printed structure, with its tag.
-/

namespace StructEndian

/-! ### What is printed -/

/-- The text of some declarations, each with its semicolon and what stands behind it. -/
def bodyText (ds : List Declaration) : Text :=
  ds.flatMap fun d => d.text ++ ';' :: d.behind

/-- The **text** of a structure with the given tag and declarations, where `lead` stands
behind the opening brace. -/
def structText (tag lead : Text) (ds : List Declaration) : Text :=
  headText tag ++ '\x7b' :: (lead ++ (bodyText ds ++ "\x7d;"))

/-! ### Characters -/

/-- The characters that declarations are **printed** with: word characters, inline blanks,
brackets and colons. -/
def isPrinted (c : Char) : Bool :=
  isWordChar c || (isBlank c && c ≠ '\n') || c = '[' || c = ']' || c = ':'

/-- Word characters are printed. -/
theorem isPrinted_of_isWordChar {c : Char} (h : isWordChar c = true) : isPrinted c = true := by
  simp [isPrinted, h]

/-- Inline blanks are printed. -/
theorem isPrinted_of_mem_isInline {s : Text} (hs : s.isInline = true) :
    ∀ c ∈ s, isPrinted c = true := by
  intro c hc
  obtain ⟨hblank, hne⟩ := Text.isInline_iff.1 hs c hc
  simp [isPrinted, hblank, hne]

/-- A character of joined texts is one of the texts or of the separators. -/
theorem Text.mem_join {separator : Text} {ts : List Text} {c : Char}
    (h : c ∈ join separator ts) : c ∈ separator ∨ ∃ t ∈ ts, c ∈ t := by
  fun_induction join separator ts with
  | case1 => simp at h
  | case2 t => exact Or.inr ⟨t, by simp, h⟩
  | case3 t ts hne ih =>
      rw [List.mem_append, List.mem_append] at h
      rcases h with (h | h) | h
      · exact Or.inr ⟨t, by simp, h⟩
      · exact Or.inl h
      · rcases ih h with h | ⟨u, hu, h⟩
        · exact Or.inl h
        · exact Or.inr ⟨u, by simp [hu], h⟩

namespace Declaration

variable {d : Declaration}

/-- What is behind the name is printed with them. -/
theorem isPrinted_of_mem_suffixText (hd : d.IsPrintable) :
    ∀ c ∈ d.suffixText, isPrinted c = true := by
  intro c hc
  rw [suffixText] at hc
  split at hc
  · rw [List.mem_cons, List.mem_append, List.mem_singleton] at hc
    rcases hc with rfl | hc | rfl
    · decide
    · exact isPrinted_of_isWordChar (isWordChar_of_isDigit (List.all_eq_true.1 hd.count c hc))
    · decide
  · split at hc
    · rw [List.mem_append, List.mem_cons, List.mem_append] at hc
      rcases hc with hc | rfl | hc | hc
      · exact isPrinted_of_mem_isInline hd.before c hc
      · decide
      · exact isPrinted_of_mem_isInline hd.after c hc
      · exact isPrinted_of_isWordChar (isWordChar_of_isDigit (Text.isDigit_of_mem_decimal hc))
    · simp at hc

/-- A declaration is printed with them. -/
theorem isPrinted_of_mem_text (hd : d.IsPrintable) : ∀ c ∈ d.text, isPrinted c = true := by
  intro c hc
  rw [text, List.mem_append, List.mem_append, List.mem_append, Member.storageType_eq_join] at hc
  rcases hc with hc | hc | hc | hc
  · rcases Text.mem_join hc with hc | ⟨w, hw, hc⟩
    · obtain rfl : c = ' ' := by simpa using hc
      decide
    · exact isPrinted_of_isWordChar
        (Text.isWordChar_of_mem (Member.isWord_of_mem_typeWords hd.base w hw) c hc)
  · exact isPrinted_of_mem_isInline hd.gap c hc
  · exact isPrinted_of_isWordChar (Text.isWordChar_of_mem hd.name c hc)
  · exact isPrinted_of_mem_suffixText hd c hc

/-- A declaration does not contain other characters, semicolons and slashes among them. -/
theorem notMem_text (hd : d.IsPrintable) {c : Char} (hc : isPrinted c = false) :
    c ∉ d.text := fun hmem => Text.ne_of_class (isPrinted_of_mem_text hd c hmem) hc rfl

/-- A declaration does not end in a blank. -/
theorem isBlank_of_mem_getLast? (hd : d.IsPrintable) :
    ∀ c ∈ d.text.getLast?, isBlank c = false := by
  have hword : ∀ c ∈ d.member.name.getLast?, isBlank c = false := fun c hc =>
    isBlank_of_isWordChar (Text.isWordChar_of_mem hd.name c (List.mem_of_mem_getLast? hc))
  have hname := Text.ne_nil_of_isWord hd.name
  intro c hc
  rw [text, List.getLast?_append_of_ne_nil _ (by simp [hname]),
    List.getLast?_append_of_ne_nil _ (by simp [hname]), suffixText] at hc
  split at hc
  · rw [← List.cons_append, ← List.append_assoc, List.getLast?_concat] at hc
    obtain rfl := Option.some.inj hc
    decide
  · split at hc
    · rw [← List.cons_append, ← List.append_assoc, ← List.append_assoc,
        List.getLast?_append_of_ne_nil _ (Text.decimal_ne_nil _)] at hc
      have hdigit := Text.isDigit_of_mem_decimal (List.mem_of_mem_getLast? hc)
      exact isBlank_of_isWordChar (isWordChar_of_isDigit hdigit)
    · rw [List.append_nil] at hc
      exact hword c hc

/-- A printed declaration is a piece as it stands. -/
theorem piecesBetween_text (hd : d.IsPrintable) : piecesBetween d.text = [d.text] := by
  obtain ⟨c, s, htext, hc⟩ := exists_cons_text hd
  have hne : d.text ≠ [] := by simp [htext]
  have hhead : ∀ e ∈ d.text.head?, isBlank e = false := by
    intro e he
    rw [htext] at he
    obtain rfl := Option.some.inj he
    exact isBlank_of_isWordChar hc
  exact piecesBetween_eq_singleton hne hhead (isBlank_of_mem_getLast? hd)
    (notMem_text hd (by decide)) (notMem_text hd (by decide))

end Declaration

/-! ### Members -/

variable {tag lead : Text} {ds : List Declaration}

/-- The pieces of the declarations, up to the closing brace. -/
theorem allPieces_bodyText (hds : ∀ d ∈ ds, d.IsPrintable) :
    allPieces (bodyText ds ++ "\x7d;") = ds.map Declaration.text := by
  induction ds with
  | nil => exact allPieces_append_brace (a := []) (by simp) (by simp) (by decide) ";"
  | cons d ds ih =>
      have hd := hds d (by simp)
      have hbody : bodyText (d :: ds) ++ "\x7d;" =
          d.text ++ ';' :: (d.behind ++ (bodyText ds ++ "\x7d;")) := by
        simp [bodyText]
      rw [hbody,
        allPieces_append_semicolon (Declaration.notMem_text hd (by decide))
          (Declaration.notMem_text hd (by decide)),
        allPieces_blanks (List.all_eq_true.1 hd.behind), Declaration.piecesBetween_text hd,
        ih fun d' hd' => hds d' (by simp [hd'])]
      rfl

/-- **The pieces of a printed structure** are its declarations. -/
theorem allPieces_structText (htag : tag.isWord = true) (hlead : lead.all isBlank = true)
    (hds : ∀ d ∈ ds, d.IsPrintable) :
    allPieces (structText tag lead ds) = ds.map Declaration.text := by
  rw [structText, allPieces_append_brace (notMem_headText htag (by decide) (by decide))
      (notMem_headText htag (by decide) (by decide)) (by decide),
    allPieces_blanks (List.all_eq_true.1 hlead), allPieces_bodyText hds]

/-- Every declaration is read back. -/
theorem members_of_texts (hds : ∀ d ∈ ds, d.IsPrintable) :
    ((ds.map Declaration.text).map readPiece).filterMap Reading.member? =
      ds.map Declaration.declared := by
  induction ds with
  | nil => rfl
  | cons d ds ih =>
      have hd : (readPiece d.text).member? = some d.declared := by
        rw [Declaration.readPiece_text (hds d (by simp))]
        rfl
      rw [List.map_cons, List.map_cons, List.filterMap_cons_some hd,
        ih fun d' hd' => hds d' (by simp [hd']), List.map_cons]

/-- There is no slash in the declarations. -/
theorem slash_notMem_bodyText (hds : ∀ d ∈ ds, d.IsPrintable) : '/' ∉ bodyText ds := by
  intro hmem
  obtain ⟨d, hd, hmem⟩ := List.mem_flatMap.1 hmem
  rw [List.mem_append, List.mem_cons] at hmem
  rcases hmem with hmem | hmem | hmem
  · exact Declaration.notMem_text (hds d hd) (by decide) hmem
  · exact absurd hmem (by decide)
  · exact absurd (List.all_eq_true.1 (hds d hd).behind '/' hmem) (by decide)

/-- **A printed structure is read back**: its lines declare the members that were printed, in
order, and its tag is found. -/
theorem declaredMembers_structText (htag : tag.isWord = true)
    (hlead : lead.all isBlank = true) (hds : ∀ d ∈ ds, d.IsPrintable) :
    declaredMembers (structText tag lead ds).lines = ds.map Declaration.declared ∧
      structTag (structText tag lead ds).lines = tag := by
  have hbehind : '/' ∉ lead ++ (bodyText ds ++ "\x7d;") := by
    rw [List.mem_append, List.mem_append]
    rintro (hmem | hmem | hmem)
    · exact absurd (List.all_eq_true.1 hlead '/' hmem) (by decide)
    · exact slash_notMem_bodyText hds hmem
    · exact absurd hmem (by decide)
  have hall : '/' ∉ structText tag lead ds := by
    rw [structText, List.mem_append, List.mem_cons]
    rintro (hmem | hmem | hmem)
    · exact notMem_headText htag (by decide) (by decide) hmem
    · exact absurd hmem (by decide)
    · exact hbehind hmem
  refine ⟨?_, structTag_lines htag hbehind⟩
  rw [declaredMembers_lines hall, allPieces_structText htag hlead hds, members_of_texts hds]

/-- Declarations whose names are keywords: an array, two bit-fields, and a member of a type with
another name, all but the last on one line. -/
def keywordDeclarations : List Declaration :=
  let bitField : Declaration :=
    { member := { name := "int", base := .long, bits := 3 }
      gap := " ", count := "0", before := " ", after := "\t", behind := [] }
  let array : Member := { sign := .unsigned, name := "long", base := .longLong, isArray := true }
  let wide : Member := { sign := .signed, name := "unsigned", base := .int, bits := 32 }
  [{ bitField with member := array, count := "16" }, bitField,
    { bitField with member := wide, before := [], behind := "\r\n  " },
    { bitField with member := { name := "type", base := .other "struct" } }]

/-- The round trip of these declarations. -/
theorem declaredMembers_structText_keywords :
    declaredMembers (structText "struct" "\n" keywordDeclarations).lines =
        keywordDeclarations.map Declaration.declared ∧
      structTag (structText "struct" "\n" keywordDeclarations).lines = "struct" :=
  declaredMembers_structText (by decide) (by decide) (by decide)

end StructEndian
