import StructEndian.Proofs.Declaration.Spelling
import StructEndian.Proofs.Generation.Mirror

/-!
# Reading the written lines back

The generated lines are put into one text with a line feed behind each of them. Whoever cuts this
text into lines gets the generated ones back, if no line holds a line feed or ends in a carriage
return. That is so for all parts that the lines are put together from: words of the generator,
numbers, names and types of members, which are spelled as identifiers, and the name of the
structure, which is trimmed.

## Main definitions

* `Text.IsLine`: a text that is read back when a line feed is put behind it.
* `Text.unlines`: lines with a line feed behind each of them.

## Main results

* `Text.lines_unlines`: lines are read back.
* `isLine_of_mem_generate`: the lines of an output are lines.
-/

namespace StructEndian

namespace Text

/-! ### Lines -/

/-- A text is a **line** if it holds no line feed and does not end in a carriage return. -/
def IsLine (s : Text) : Prop :=
  '\n' ∉ s ∧ s.getLast? ≠ some '\r'

instance : DecidablePred IsLine := fun s =>
  inferInstanceAs (Decidable ('\n' ∉ s ∧ s.getLast? ≠ some '\r'))

/-- Lines with a line feed behind each of them. -/
def unlines (lines : List Text) : Text :=
  lines.flatMap (· ++ ['\n'])

/-- A line with a line feed behind it is the first line. -/
theorem lines_append_cons {s : Text} (hs : s.IsLine) (t : Text) :
    lines (s ++ '\n' :: t) = s :: lines t := by
  induction s with
  | nil => rw [List.nil_append, lines]
  | cons c s ih =>
      obtain ⟨hfeed, hlast⟩ := hs
      rw [List.mem_cons, not_or] at hfeed
      have hs : IsLine s := by
        refine ⟨hfeed.2, fun h => hlast ?_⟩
        rw [List.getLast?_cons, h, Option.getD_some]
      have hreturn : ∀ u, c = '\r' → s ++ '\n' :: t = '\n' :: u → False := by
        rintro u rfl heq
        cases s with
        | nil => exact hlast rfl
        | cons d s => exact hfeed.2 ((List.cons.inj heq).1 ▸ List.mem_cons_self)
      rw [List.cons_append, lines, ih hs]
      · exact fun h => hfeed.1 h.symm
      · exact hreturn

/-- **Lines are read back** from a text in which line feeds stand behind them. -/
theorem lines_unlines {ls : List Text} (h : ∀ s ∈ ls, s.IsLine) : lines (unlines ls) = ls := by
  induction ls with
  | nil => rfl
  | cons s ls ih =>
      obtain ⟨hs, hls⟩ := List.forall_mem_cons.mp h
      rw [unlines, List.flatMap_cons, List.append_assoc, List.singleton_append,
        lines_append_cons hs, ← unlines, ih hls]

/-- Two lines make one. -/
theorem IsLine.append {s t : Text} (hs : s.IsLine) (ht : t.IsLine) : (s ++ t).IsLine := by
  refine ⟨fun h => (List.mem_append.mp h).elim hs.1 ht.1, ?_⟩
  rw [List.getLast?_append]
  cases hlast : t.getLast? with
  | none => exact hs.2
  | some c =>
      rw [Option.some_or, ← hlast]
      exact ht.2

/-- Lines around two lines make one with them. -/
theorem IsLine.interleave {a b c s t : Text} (hs : s.IsLine) (ht : t.IsLine) (ha : a.IsLine)
    (hb : b.IsLine) (hc : c.IsLine) : (a ++ s ++ b ++ t ++ c).IsLine :=
  (((ha.append hs).append hb).append ht).append hc

/-- A text whose characters are of a class without line feeds and carriage returns is a line. -/
theorem isLine_of_class {s : Text} {P : Char → Prop} (h : ∀ c ∈ s, P c)
    (hfeed : ¬ P '\n') (hreturn : ¬ P '\r') : s.IsLine :=
  ⟨fun hmem => hfeed (h _ hmem), fun hlast => hreturn (h _ (List.mem_of_getLast? hlast))⟩

/-- Trimming leaves no carriage return at the end. -/
theorem isLine_trimEnd {s : Text} (h : '\n' ∉ s) : (trimEnd s).IsLine := by
  refine ⟨fun hmem => h (mem_of_mem_trimEnd hmem), fun hlast => ?_⟩
  rw [trimEnd, List.getLast?_reverse] at hlast
  have hblank := List.head?_dropWhile_not isBlank s.reverse
  rw [hlast] at hblank
  exact absurd hblank (by decide)

theorem isLine_trim {s : Text} (h : '\n' ∉ s) : (trim s).IsLine :=
  isLine_trimEnd fun hmem => h ((List.dropWhile_suffix _).subset hmem)

theorem isLine_decimal (n : Nat) : (decimal n).IsLine :=
  isLine_of_class (fun _ hc => isDigit_of_mem_decimal hc) (by decide) (by decide)

/-- Lines are joined to a line. -/
theorem isLine_join {separator : Text} (hseparator : separator.IsLine) {ls : List Text}
    (h : ∀ s ∈ ls, s.IsLine) : (join separator ls).IsLine := by
  induction ls with
  | nil => exact show IsLine [] by decide
  | cons s ls ih =>
      obtain ⟨hs, hls⟩ := List.forall_mem_cons.mp h
      cases ls with
      | nil => exact hs
      | cons t ls => exact (hs.append hseparator).append (ih hls)

theorem IsSpelled.isLine {w : Text} (hw : w.IsSpelled) : w.IsLine :=
  isLine_of_class hw (by decide) (by decide)

end Text

open Text (IsLine isLine_decimal isLine_join)

/-! ### Parts of lines -/

/-- A name for a structure is a line if the given one is. -/
theorem Options.isLine_nameFor {o : Options} (h : ∀ name ∈ o.name, '\n' ∉ name)
    (lines : List Text) : (o.nameFor (structTag lines)).IsLine := by
  rw [nameFor]
  cases hgiven : o.givenName with
  | none =>
      by_cases htag : structTag lines = []
      · rw [Option.getD_none, if_pos htag]
        decide
      · rw [Option.getD_none, if_neg htag]
        exact Text.isLine_of_class (fun c hc => isWordChar_of_mem_structTag hc) (by decide)
          (by decide)
  | some given =>
      rw [givenName, Option.filter_eq_some_iff, Option.map_eq_some_iff] at hgiven
      obtain ⟨⟨name, hname, rfl⟩, -⟩ := hgiven
      exact Text.isLine_trim (h name hname)

/-- The storage type of a spelled member is a line. -/
theorem Member.IsSpelled.isLine_storageType {m : Member} (hm : m.IsSpelled) :
    m.storageType.IsLine := by
  have hbase : m.base.name.IsLine := Text.isLine_of_class hm.base (by decide) (by decide)
  unfold Member.storageType
  cases m.sign with
  | default => exact hbase
  | signed | unsigned => exact IsLine.append (by decide) hbase

theorem isLine_memberText {name : Text} (h : name.IsLine) : (memberText name).IsLine :=
  IsLine.append (by decide) h

theorem Primitive.isLine_name (q : Primitive) (d : Direction) : (q.name d).IsLine := by
  cases q <;> cases d <;> decide

theorem isLine_elementText {name : Text} (h : name.IsLine) : (elementText name).IsLine :=
  (isLine_memberText h).append (by decide)

theorem isLine_loopHeader {name : Text} (h : name.IsLine) : (loopHeader name).IsLine := by
  have hmember := isLine_memberText h
  unfold loopHeader
  exact hmember.interleave hmember (by decide) (by decide) (by decide)

theorem Address.isLine_text {a : Address} (h : ∀ name ∈ a.anchor, name.IsLine) :
    a.text.IsLine := by
  have horigin : (originText a.anchor).IsLine := by
    unfold originText
    split
    · next name hanchor =>
        have hmember := isLine_memberText (h name hanchor)
        exact hmember.interleave hmember (by decide) (by decide) (by decide)
    · exact IsLine.append (by decide) (by decide)
  unfold text
  split
  · exact horigin
  · exact (horigin.append (by decide)).append (isLine_decimal _)

/-! ### Regions -/

/-- A region is **spelled** if its members are, and with them the anchor of its address. -/
structure Region.IsSpelled (r : Region) : Prop where
  /-- The members are spelled. -/
  members : ∀ m ∈ r.members, m.IsSpelled
  /-- The anchor is a line. -/
  anchor : ∀ first others storage address, r = .bits first others storage address →
    ∀ name ∈ address.anchor, name.IsLine

/-- Regions with spelled members are spelled, if the address that they start from is written from
a line. -/
theorem isSpelled_of_addressedFrom {here : Address} {rs : List Region} (h : AddressedFrom here rs)
    (hhere : ∀ name ∈ here.anchor, name.IsLine)
    (hrs : ∀ r ∈ rs, ∀ m ∈ r.members, m.IsSpelled) : ∀ r ∈ rs, r.IsSpelled := by
  induction rs generalizing here with
  | nil => simp
  | cons r rs ih =>
      obtain ⟨hr, hlater⟩ := h
      obtain ⟨hfirst, hrest⟩ := List.forall_mem_cons.mp hrs
      refine List.forall_mem_cons.mpr ⟨⟨hfirst, fun first others storage address hbits => ?_⟩,
        ih hlater ?_ hrest⟩
      · rw [hr first others storage address hbits]
        exact hhere
      · cases r with
        | scalar m | array m =>
            intro name hname
            obtain rfl := Option.some.inj hname
            exact (hfirst m List.mem_cons_self).name.isLine
        | bits first others storage address => exact hhere

/-- The place that a spelled region is converted at is a line. -/
theorem Region.IsSpelled.isLine_place {r : Region} (hr : r.IsSpelled) : r.place.IsLine := by
  cases r with
  | scalar m => exact isLine_memberText (hr.members m List.mem_cons_self).name.isLine
  | array m => exact isLine_elementText (hr.members m List.mem_cons_self).name.isLine
  | bits first others storage address =>
      have htype := (hr.members first List.mem_cons_self).isLine_storageType
      have haddress := Address.isLine_text (hr.anchor _ _ _ _ rfl)
      rw [place, storageText]
      exact htype.interleave haddress (by decide) (by decide) (by decide)

/-- The body lines of a spelled region are lines. -/
theorem Region.IsSpelled.isLine_text {model : DataModel} {r : Region} (hr : r.IsSpelled)
    {l : BodyLine} (hl : l ∈ r.bodyLines model) (d : Direction) : (l.text d).IsLine := by
  obtain ⟨rfl, -, ⟨m, harray, htext⟩ | ⟨margin, hmargin, htext⟩⟩ := Region.of_mem_bodyLines hl
  · rw [harray] at hr
    rw [htext]
    have hheader := isLine_loopHeader (hr.members m List.mem_cons_self).name.isLine
    exact IsLine.append (by decide) hheader
  · have hmargin : margin.IsLine := Text.isLine_of_class hmargin (by decide) (by decide)
    have hplace := hr.isLine_place
    have hname := l.primitive.isLine_name d
    rw [htext]
    exact ((hplace.interleave hname hmargin (by decide) (by decide)).append hplace).append
      (by decide)

/-! ### Rows of the listing -/

namespace Row

/-- The five cells of a row. -/
theorem forall_mem_cells_iff {P : Text → Prop} {r : Row} :
    (∀ cell ∈ r.cells, P cell) ↔
      P r.group ∧ P r.members ∧ P r.storage ∧ P r.bits ∧ P r.address := by
  simp [cells]

/-- The cells of the row of a spelled region are lines. -/
theorem isLine_of_mem_cells {r : Region} (hr : r.IsSpelled) :
    ∀ cell ∈ (ofRegion r).cells, cell.IsLine := by
  have hgroup := isLine_decimal r.lead.group
  have hstorage := (hr.members _ r.lead_mem_members).isLine_storageType
  have hdash : IsLine ("-" : Text) := by decide
  cases r with
  | scalar m =>
      have hname := (hr.members m List.mem_cons_self).name.isLine
      have hplace := isLine_memberText hname
      exact forall_mem_cells_iff.mpr ⟨hgroup, hname, hstorage, hdash, hplace⟩
  | array m =>
      have hname := (hr.members m List.mem_cons_self).name.isLine
      have hmembers : IsLine (m.name ++ ("[]" : Text)) := hname.append (by decide)
      have hplace := isLine_memberText hname
      exact forall_mem_cells_iff.mpr ⟨hgroup, hmembers, hstorage, hdash, hplace⟩
  | bits first others storage address =>
      have hnames : ∀ name ∈ (first :: others).map Member.name, name.IsLine := by
        intro name hname
        obtain ⟨m, hm, rfl⟩ := List.mem_map.mp hname
        exact (hr.members m hm).name.isLine
      have hmembers : IsLine (Text.join ", " ((first :: others).map Member.name)) :=
        isLine_join (by decide) hnames
      have hbits : ∀ used : Nat,
          IsLine (Text.decimal used ++ ("/" : Text) ++ Text.decimal (8 * storage)) := fun used =>
        ((isLine_decimal used).append (by decide)).append (isLine_decimal _)
      have haddress := Address.isLine_text (hr.anchor _ _ _ _ rfl)
      exact forall_mem_cells_iff.mpr ⟨hgroup, hmembers, hstorage, hbits _, haddress⟩

/-- The line of a row is a line if its cells are. -/
theorem isLine_line {r : Row} (h : ∀ cell ∈ r.cells, cell.IsLine) (ws : List Nat) :
    (line ws r).IsLine := by
  have hpad : ∀ cell ∈ List.zipWith pad ws r.cells, cell.IsLine := by
    intro cell hcell
    rw [← List.map_uncurry_zip_eq_zipWith] at hcell
    obtain ⟨⟨width, cell⟩, hmem, rfl⟩ := List.mem_map.mp hcell
    have hblanks : IsLine (List.replicate (width - cell.length) ' ') :=
      Text.isLine_of_class (fun c hc => List.eq_of_mem_replicate hc) (by decide) (by decide)
    exact (h cell (List.of_mem_zip hmem).2).append hblanks
  have hjoined : IsLine (Text.join "  " (List.zipWith pad ws r.cells)) :=
    isLine_join (by decide) hpad
  unfold line
  exact Text.isLine_trimEnd (IsLine.append (by decide) hjoined).1

end Row

/-! ### Outputs -/

/-- The lines of a listing of spelled regions are lines. -/
theorem isLine_of_mem_listing {model : DataModel} {tag : Text} (htag : tag.IsLine)
    {rs : List Region} (hrs : ∀ r ∈ rs, r.IsSpelled) :
    ∀ line ∈ listing model tag rs, line.IsLine := by
  have htitle : (listingTitle model tag).IsLine := by
    unfold listingTitle
    exact htag.interleave (isLine_decimal _) (by decide) (by decide) (by decide)
  have hrows : ∀ row ∈ Row.header :: rs.map Row.ofRegion, ∀ cell ∈ row.cells, cell.IsLine := by
    refine List.forall_mem_cons.mpr ⟨by decide, fun row hrow => ?_⟩
    obtain ⟨r, hr, rfl⟩ := List.mem_map.mp hrow
    exact Row.isLine_of_mem_cells (hrs r hr)
  intro line hline
  unfold listing at hline
  rcases List.mem_cons.mp hline with rfl | hline
  · decide
  rcases List.mem_cons.mp hline with rfl | hline
  · exact htitle
  rcases List.mem_cons.mp hline with rfl | hline
  · decide
  rcases List.mem_append.mp hline with hline | hline
  · obtain ⟨row, hrow, rfl⟩ := List.mem_map.mp hline
    exact Row.isLine_line (hrows row hrow) _
  · obtain rfl := List.mem_singleton.mp hline
    decide

/-- The signatures for a line are lines. -/
theorem Conversion.isLine_signature {c : Conversion} (htag : c.tag.IsLine) (d : Direction) :
    (c.signature d).IsLine := by
  have hsuffix : d.suffix.IsLine := by cases d <;> decide
  have hmark : IsLine (if c.noThrow then (" noexcept" : Text) else []) := by
    split <;> decide
  have hname : (c.functionName d).IsLine := by
    unfold functionName
    exact htag.interleave hsuffix (by decide) (by decide) (by decide)
  unfold signature
  have hfront := hname.interleave htag (a := "void ") (b := "(") (c := "* ") (by decide) (by decide)
    (by decide)
  exact ((hfront.append (by decide)).append (by decide)).append hmark

/-- The lines of the function for spelled regions are lines. -/
theorem isLine_of_mem_function (model : DataModel) {tag : Text} (htag : tag.IsLine)
    (noThrow : Bool) {rs : List Region} (hrs : ∀ r ∈ rs, r.IsSpelled) (d : Direction) :
    ∀ line ∈ (Conversion.ofRegions model tag noThrow rs).function d, line.IsLine := by
  intro line hline
  rw [Conversion.function, Conversion.bodyLines_ofRegions] at hline
  rcases List.mem_cons.mp hline with rfl | hline
  · exact Conversion.isLine_signature htag d
  rcases List.mem_cons.mp hline with rfl | hline
  · decide
  rcases List.mem_append.mp hline with hline | hline
  · obtain ⟨l, hl, rfl⟩ := List.mem_map.mp hline
    obtain ⟨r, hr, hl⟩ := List.mem_flatMap.mp hl
    exact (hrs r hr).isLine_text hl d
  · obtain rfl := List.mem_singleton.mp hline
    decide

/-- The regions of packed members are spelled if they have been declared. -/
theorem isSpelled_of_mem_regions {model : DataModel} {lines : List Text} {grouped : List Member}
    {n : Nat} {rs : List Region} (hpack : pack model (declaredMembers lines) = .ok (grouped, n))
    (hrs : regions model grouped = .ok rs) : ∀ r ∈ rs, r.IsSpelled := by
  refine isSpelled_of_addressedFrom (addressedFrom_of_regionsFrom hrs) (by simp) ?_
  exact forall_mem_members_of_pack (fun _ _ hm => ⟨hm.name, hm.base⟩) hpack hrs fun _ hm =>
    isSpelled_of_mem_declaredMembers hm

/-- **The generated lines are lines**, whatever they are generated from, if the name that is given
for the structure holds no line feed. -/
theorem isLine_of_mem_generate {o : Options} (hname : ∀ name ∈ o.name, '\n' ∉ name)
    {lines out : List Text} (h : generate o lines = .ok out) : ∀ line ∈ out, line.IsLine := by
  rcases generate_cases h with rfl | ⟨grouped, n, rs, hpack, hrs, rfl⟩
  · simp
  · have hspelled := isSpelled_of_mem_regions hpack hrs
    have htag := Options.isLine_nameFor hname lines
    have hfunction := isLine_of_mem_function o.model htag o.noThrow hspelled
    intro line hline
    rcases List.mem_append.mp hline with hline | hline
    · split at hline
      · exact isLine_of_mem_listing htag hspelled line hline
      · exact absurd hline List.not_mem_nil
    rcases List.mem_append.mp hline with hline | hline
    · exact hfunction _ line hline
    rcases List.mem_cons.mp hline with rfl | hline
    · decide
    · exact hfunction _ line hline

end StructEndian
