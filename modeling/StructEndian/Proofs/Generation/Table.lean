import Mathlib.Data.List.DropRight
import Mathlib.Data.List.Forall2
import StructEndian.Proofs.Declaration.WellFormed
import StructEndian.Proofs.Generation.Lines

/-!
# The listing is a table

The listing is written in columns that are as wide in characters as their widest cell is in bytes of
UTF-8, and every line is trimmed at its end. So it is not plain that the columns stand below each
other when names are not ASCII, or that trimming leaves the last cell alone. Both follow from what a
cell looks like: it has no more characters than bytes, so it fits its column, and its last character
is no blank, so the blanks behind it are those that have been added.

The numbers of the rows and the agreement with the functions come from the regions: their leads are
in the groups from `1` on, and what the functions convert is spelled as in the row.

## Main definitions

* `Text.columns`, `Text.stripped`: how a line is cut into columns, and a column without the spaces at
  its end.
* `Text.Tabulates`: cells are read back from a line by cutting it at some positions.
* `Text.IsFirm`: a text that ends in a character that is no blank.
* `Row.spread`, `Row.starts`: the line of a row without blanks at its end, and where its columns start.
* `Row.Fits`: a row that is no wider than the columns.
* `Row.AgreesWith`, `IsListed`: what is claimed of a row of shared storage, and of an output.

## Main results

* `Row.tabulates_spread`: cells that fit their columns are read back.
* `Row.fits_widths`: every row of a table fits its columns.
* `Row.tabulates_line`: the lines of a table are read back at the same positions.
* `Row.isFirm_of_mem_cells`: the cells for declared members end in no blank.
* `generate_table`: an output with a listing lists its regions.
-/

namespace StructEndian

namespace Text

/-! ### Columns -/

/-- The **columns** of a line that is cut at some positions: from each position up to the next, and
from the last one to the end. -/
def columns : List Nat → Text → List Text
  | start :: next :: starts, s => (s.drop start).take (next - start) :: columns (next :: starts) s
  | [start], s => [s.drop start]
  | [], _ => []

/-- A text without the spaces at its end. -/
def stripped (s : Text) : Text :=
  s.rdropWhile (· = ' ')

/-- A line **tabulates** cells at some positions if they are read back by cutting it there and
dropping the spaces behind them, with any number of spaces behind the line. Columns are two spaces
apart. -/
structure Tabulates (starts : List Nat) (cells : List Text) (line : Text) : Prop where
  /-- The cells are read back. -/
  cells (k : Nat) : (columns starts (line ++ List.replicate k ' ')).map stripped = cells
  /-- All columns but the last end in two spaces. -/
  gap (k : Nat) : ∀ column ∈ (columns starts (line ++ List.replicate k ' ')).dropLast,
    ("  " : Text) <:+ column

/-- **The first column** ends where the second starts. -/
theorem columns_append (front column rest : Text) (starts : List Nat) :
    columns (front.length :: (front ++ column).length :: starts) (front ++ column ++ rest) =
      column :: columns ((front ++ column).length :: starts) (front ++ column ++ rest) := by
  have hwidth : (front ++ column).length - front.length = column.length := by
    rw [List.length_append]
    omega
  rw [columns, hwidth, List.append_assoc, List.drop_left, List.take_left]

/-! ### Firm texts -/

/-- A text is **firm** if it ends in a character that is no blank. -/
def IsFirm (s : Text) : Prop :=
  ∃ c ∈ s.getLast?, isBlank c = false

instance : DecidablePred IsFirm := fun s =>
  decidable_of_iff (s.getLast?.any fun c => !isBlank c) (by simp [IsFirm, Option.any_eq_true])

/-- What is put in front of a firm text does not matter. -/
theorem IsFirm.prepend {t : Text} (ht : t.IsFirm) (s : Text) : (s ++ t).IsFirm := by
  obtain ⟨c, hc, hblank⟩ := ht
  refine ⟨c, ?_, hblank⟩
  rw [List.getLast?_append, Option.mem_def.mp hc]
  rfl

/-- A text is firm if there is something in it and none of it is blank. -/
theorem isFirm_of_forall {s : Text} (hne : s ≠ []) (h : ∀ c ∈ s, isBlank c = false) : s.IsFirm :=
  ⟨s.getLast hne, List.getLast?_eq_some_getLast hne, h _ (List.getLast_mem hne)⟩

theorem isFirm_decimal (n : Nat) : (decimal n).IsFirm := by
  refine isFirm_of_forall (decimal_ne_nil n) fun c hc => ?_
  exact isBlank_of_isWordChar (isWordChar_of_isDigit (isDigit_of_mem_decimal hc))

/-- Names are firm. -/
theorem IsSpelled.isFirm {w : Text} (hw : w.IsSpelled) (hne : w ≠ []) : w.IsFirm :=
  isFirm_of_forall hne hw.isBlank_of_mem

/-- A trimmed text is firm if there is something left. -/
theorem isFirm_trim {s : Text} (hne : trim s ≠ []) : (trim s).IsFirm :=
  ⟨(trim s).getLast hne, List.getLast?_eq_some_getLast hne,
    isBlank_of_mem_getLast?_trim (List.getLast?_eq_some_getLast hne)⟩

/-- Firm texts are joined to a firm text. -/
theorem isFirm_join (separator : Text) {ts : List Text} (hne : ts ≠ []) (h : ∀ t ∈ ts, t.IsFirm) :
    (join separator ts).IsFirm := by
  induction ts with
  | nil => exact absurd rfl hne
  | cons t ts ih =>
      obtain ⟨ht, hts⟩ := List.forall_mem_cons.mp h
      cases ts with
      | nil => exact ht
      | cons t' ts => exact (ih (List.cons_ne_nil _ _) hts).prepend _

/-- A firm text is what is left when blanks behind it are dropped. -/
theorem IsFirm.rdropWhile_append {s : Text} (hs : s.IsFirm) {p : Char → Bool}
    (hp : p ' ' = true) (hfirm : ∀ c, isBlank c = false → p c = false) (n : Nat) :
    (s ++ List.replicate n ' ').rdropWhile p = s := by
  obtain ⟨c, hc, hblank⟩ := hs
  obtain ⟨front, rfl⟩ := List.getLast?_eq_some_iff.mp hc
  induction n with
  | zero =>
      rw [List.replicate_zero, List.append_nil,
        List.rdropWhile_concat_neg _ _ _ (by simp [hfirm c hblank])]
  | succ n ih =>
      rw [List.replicate_succ', ← List.append_assoc, List.rdropWhile_concat_pos _ _ _ hp, ih]

/-- Trimming its end takes the blanks behind a firm text away. -/
theorem IsFirm.trimEnd_append {s : Text} (hs : s.IsFirm) (n : Nat) :
    trimEnd (s ++ List.replicate n ' ') = s :=
  hs.rdropWhile_append (p := isBlank) (by decide) (fun _ h => h) n

/-- Only the spaces behind a firm text are dropped. -/
theorem IsFirm.stripped_append {s : Text} (hs : s.IsFirm) (n : Nat) :
    stripped (s ++ List.replicate n ' ') = s := by
  refine hs.rdropWhile_append (by simp) (fun c hc => ?_) n
  refine decide_eq_false fun heq => ?_
  rw [heq] at hc
  exact absurd hc (by decide)

end Text

namespace Row

open Text (columns Tabulates)

/-! ### Lines of a table -/

/-- Cells **spread** over columns of some widths, two blanks apart. The last one is not padded. -/
def spread : List (Nat × Text) → Text
  | [] => []
  | [(_, cell)] => cell
  | (width, cell) :: ps => pad width cell ++ "  " ++ spread ps

/-- Where columns of some widths **start**, if the first starts at a position. -/
def starts : Nat → List Nat → List Nat
  | _, [] => []
  | position, width :: widths => position :: starts (position + width + 2) widths

/-- Padding the last cell, too, adds blanks at the end. -/
theorem exists_join_eq_spread (ps : List (Nat × Text)) :
    ∃ n, Text.join "  " (ps.map fun p => pad p.1 p.2) = spread ps ++ List.replicate n ' ' := by
  fun_induction spread ps with
  | case1 => exact ⟨0, rfl⟩
  | case2 width cell => exact ⟨width - cell.length, rfl⟩
  | case3 width cell ps hne ih =>
      obtain ⟨n, hn⟩ := ih
      obtain ⟨p, ps, rfl⟩ := List.exists_cons_of_ne_nil hne
      have hjoin : Text.join "  " (((width, cell) :: p :: ps).map fun p => pad p.1 p.2) =
          pad width cell ++ "  " ++ Text.join "  " ((p :: ps).map fun p => pad p.1 p.2) := rfl
      refine ⟨n, ?_⟩
      rw [hjoin, hn, List.append_assoc _ (spread _)]

/-- The line ends in its last cell. -/
theorem isFirm_spread {ps : List (Nat × Text)} (hne : ps ≠ []) (h : ∀ p ∈ ps, p.2.IsFirm) :
    (spread ps).IsFirm := by
  fun_induction spread ps with
  | case1 => exact absurd rfl hne
  | case2 width cell => exact h _ List.mem_cons_self
  | case3 width cell ps hrest ih =>
      exact (ih hrest (List.forall_mem_cons.mp h).2).prepend _

theorem length_pad {width : Nat} {cell : Text} (h : cell.length ≤ width) :
    (pad width cell).length = width := by
  rw [pad, List.length_append, List.length_replicate]
  omega

/-- A padded cell with two blanks behind it is the cell and blanks. -/
theorem pad_append_gap (width : Nat) (cell : Text) :
    pad width cell ++ "  " = cell ++ List.replicate (width - cell.length + 2) ' ' := by
  rw [pad, List.append_assoc, ← List.replicate_append_replicate]
  rfl

/-- **The first column** of a line with others behind it is the padded cell with two blanks, and the
others start behind it. -/
theorem columns_starts {width : Nat} {cell : Text} (hcell : cell.length ≤ width) (front rest : Text)
    (next : Nat) (widths : List Nat) :
    columns (starts front.length (width :: next :: widths))
        (front ++ (pad width cell ++ "  ") ++ rest) =
      (pad width cell ++ "  ") ::
        columns (starts (front ++ (pad width cell ++ "  ")).length (next :: widths))
          (front ++ (pad width cell ++ "  ") ++ rest) := by
  have hlength : (front ++ (pad width cell ++ "  ")).length = front.length + width + 2 := by
    rw [List.length_append, List.length_append, length_pad hcell]
    rfl
  rw [starts, ← hlength]
  exact Text.columns_append front _ rest _

/-- **Spread cells are read back** column by column, whatever stands in front of the first one. -/
theorem tabulates_spread {ps : List (Nat × Text)} (hfit : ∀ p ∈ ps, p.2.length ≤ p.1)
    (hfirm : ∀ p ∈ ps, p.2.IsFirm) (front : Text) :
    Tabulates (starts front.length (ps.map Prod.fst)) (ps.map Prod.snd) (front ++ spread ps) := by
  -- the columns that have been cut off are moved to the front
  fun_induction spread ps generalizing front with
  | case1 => exact ⟨fun k => rfl, fun k => by simp [starts, columns]⟩
  | case2 width cell =>
      have hcell : cell.IsFirm := hfirm _ List.mem_cons_self
      have hcut : ∀ k, columns (starts front.length [width]) (front ++ cell ++ List.replicate k ' ') =
          [cell ++ List.replicate k ' '] := fun k => by
        rw [starts, starts, columns, List.append_assoc, List.drop_left]
      constructor
      case cells =>
        intro k
        rw [List.map_singleton, List.map_singleton, hcut, List.map_singleton, hcell.stripped_append]
      case gap =>
        intro k
        rw [List.map_singleton, hcut]
        simp
  | case3 width cell ps hne ih =>
      obtain ⟨hcell, hfit⟩ := List.forall_mem_cons.mp hfit
      obtain ⟨hfirst, hfirm⟩ := List.forall_mem_cons.mp hfirm
      have hrest := ih hfit hfirm (front ++ (pad width cell ++ "  "))
      obtain ⟨p, ps, rfl⟩ := List.exists_cons_of_ne_nil hne
      set column : Text := pad width cell ++ "  " with hcolumn
      have hcut : ∀ k, columns (starts front.length (((width, cell) :: p :: ps).map Prod.fst))
          (front ++ (column ++ spread (p :: ps)) ++ List.replicate k ' ') =
          column :: columns (starts (front ++ column).length ((p :: ps).map Prod.fst))
            (front ++ column ++ spread (p :: ps) ++ List.replicate k ' ') := fun k => by
        rw [← List.append_assoc front, List.append_assoc (front ++ column)]
        exact columns_starts hcell front _ _ _
      constructor
      case cells =>
        intro k
        rw [hcut, List.map_cons, hrest.cells, hcolumn, pad_append_gap, hfirst.stripped_append]
        rfl
      case gap =>
        intro k
        have hnil : columns (starts (front ++ column).length ((p :: ps).map Prod.fst))
            (front ++ column ++ spread (p :: ps) ++ List.replicate k ' ') ≠ [] := fun h => by
          have hcells := hrest.cells k
          rw [h] at hcells
          cases hcells
        rw [hcut, List.dropLast_cons_of_ne_nil hnil]
        exact List.forall_mem_cons.mpr ⟨⟨pad width cell, rfl⟩, hrest.gap k⟩

/-! ### Widths of columns -/

/-- A row **fits** columns of some widths if its cells do. -/
def Fits (ws : List Nat) (r : Row) : Prop :=
  List.Forall₂ (fun width (cell : Text) => cell.length ≤ width) ws r.cells

/-- What fits some widths fits larger ones. -/
theorem forall₂_zipWith_max {ws us : List Nat} {cells : List Text}
    (h : List.Forall₂ (fun width (cell : Text) => cell.length ≤ width) ws cells)
    (hlength : us.length = ws.length) :
    List.Forall₂ (fun width (cell : Text) => cell.length ≤ width) (List.zipWith max ws us) cells := by
  induction h generalizing us with
  | nil => exact List.Forall₂.nil
  | @cons w cell ws cells hcell _ ih =>
      cases us with
      | nil => cases hlength
      | cons u us => exact (ih (Nat.succ.inj hlength)).cons (hcell.trans (le_max_left w u))

/-- Widths **enlarged** for a row: the step that the widths of a table are folded with. -/
def enlarge (ws : List Nat) (r : Row) : List Nat :=
  List.zipWith max ws (r.cells.map Text.utf8Width)

/-- What fits some widths fits the enlarged ones. -/
theorem Fits.enlarge {ws : List Nat} {r : Row} (h : Fits ws r) (r' : Row) : Fits (enlarge ws r') r :=
  forall₂_zipWith_max h h.length_eq.symm

/-- A row fits the widths that have been enlarged for it. -/
theorem fits_enlarge {ws : List Nat} (hws : ws.length = 5) (r : Row) : Fits (enlarge ws r) r := by
  have hself : Fits (r.cells.map Text.utf8Width) r :=
    List.forall₂_map_left_iff.mpr (List.forall₂_same.mpr fun cell _ => Text.length_le_utf8Width cell)
  rw [Fits, enlarge, List.zipWith_comm_of_comm max_comm]
  exact forall₂_zipWith_max hself (by rw [hws]; rfl)

/-- **Rows fit** the widths that have been enlarged for all of them, and so does what has fitted
before. -/
theorem fits_foldl_enlarge {ws : List Nat} (hws : ws.length = 5) (rows : List Row) :
    (∀ r, Fits ws r → Fits (rows.foldl enlarge ws) r) ∧
      ∀ r ∈ rows, Fits (rows.foldl enlarge ws) r := by
  induction rows generalizing ws with
  | nil => exact ⟨fun r h => h, by simp⟩
  | cons first rows ih =>
      have hfirst := fits_enlarge hws first
      obtain ⟨hkept, hrows⟩ := ih (hfirst.length_eq.trans rfl)
      exact ⟨fun r h => hkept r (h.enlarge first),
        List.forall_mem_cons.mpr ⟨hkept first hfirst, hrows⟩⟩

/-- **Every row of a table fits** its columns. -/
theorem fits_widths {rows : List Row} {r : Row} (hr : r ∈ rows) : Fits (widths rows) r :=
  (fits_foldl_enlarge rfl rows).2 r hr

/-- **A line of a table is read back**, at the same positions for all rows. -/
theorem tabulates_line {rows : List Row} {r : Row} (hr : r ∈ rows)
    (hfirm : ∀ cell ∈ r.cells, cell.IsFirm) :
    Tabulates (starts 4 (widths rows)) r.cells (line (widths rows) r) := by
  have hfits := List.forall₂_iff_zip.mp (fits_widths hr)
  generalize widths rows = ws at hfits ⊢
  obtain ⟨hlength, hfits⟩ := hfits
  have hfst : (ws.zip r.cells).map Prod.fst = ws := List.map_fst_zip hlength.le
  have hsnd : (ws.zip r.cells).map Prod.snd = r.cells := List.map_snd_zip hlength.ge
  have hcells : ∀ p ∈ ws.zip r.cells, p.2.IsFirm := fun p hp => hfirm _ (List.of_mem_zip hp).2
  have hne : ws.zip r.cells ≠ [] := fun h => by
    rw [h] at hsnd
    cases hsnd
  have hline : line ws r = " *  " ++ spread (ws.zip r.cells) := by
    obtain ⟨n, hn⟩ := exists_join_eq_spread (ws.zip r.cells)
    have hspread := (isFirm_spread hne hcells).prepend " *  "
    have hpad : List.zipWith pad ws r.cells = (ws.zip r.cells).map fun p => pad p.1 p.2 :=
      List.map_uncurry_zip_eq_zipWith.symm
    rw [line, hpad, hn, ← List.append_assoc, hspread.trimEnd_append]
  have htable := tabulates_spread (fun p hp => hfits hp) hcells " *  "
  rw [hfst, hsnd, ← hline] at htable
  exact htable

end Row

/-! ### Cells -/

/-- The type that spelled words come to is firm. -/
theorem Slots.isFirm_typeText {s : Slots} (hwords : ∀ w ∈ s.words, w.IsSpelled)
    (hne : s.typeText ≠ []) : s.typeText.IsFirm := by
  rw [typeText] at hne ⊢
  split
  · next hnil =>
      rw [hnil] at hne
      cases hint : s.int with
      | none =>
          rw [hint] at hne
          exact absurd rfl hne
      | some w =>
          rw [hint] at hne
          exact (hwords w (by simp [words, hint])).isFirm hne
  · next htrim => exact Text.isFirm_trim htrim

/-- A member is **legible** if neither its name nor that of its type ends in a blank. -/
structure Member.IsLegible (m : Member) : Prop where
  /-- The name is firm. -/
  name : m.name.IsFirm
  /-- The name of the base type is firm. -/
  base : m.base.name.IsFirm

/-- Declared members are legible. -/
theorem isLegible_of_mem_declaredMembers {lines : List Text} {m : Member}
    (h : m ∈ declaredMembers lines) : m.IsLegible := by
  obtain ⟨piece, hpiece⟩ := exists_of_mem_declaredMembers h
  obtain ⟨-, hname, hbase⟩ := source_of_readPiece hpiece
  obtain ⟨s, hwords, -, htype⟩ := exists_slots_of_readPiece hpiece
  constructor
  case name => exact (isSpelled_of_readPiece hpiece).name.isFirm hname
  case base =>
    rw [htype] at hbase ⊢
    exact Slots.isFirm_typeText hwords hbase

/-- The regions of packed members are made of legible ones if they have been declared. -/
theorem isLegible_of_mem_regions {model : DataModel} {lines : List Text} {grouped : List Member}
    {n : Nat} {rs : List Region} (hpack : pack model (declaredMembers lines) = .ok (grouped, n))
    (hrs : regions model grouped = .ok rs) : ∀ r ∈ rs, ∀ m ∈ r.members, m.IsLegible :=
  forall_mem_members_of_pack (fun _ _ hm => ⟨hm.name, hm.base⟩) hpack hrs fun _ hm =>
    isLegible_of_mem_declaredMembers hm

/-- The storage type of a legible member is firm. -/
theorem Member.IsLegible.isFirm_storageType {m : Member} (hm : m.IsLegible) :
    m.storageType.IsFirm := by
  rw [storageType]
  split
  · exact hm.base
  · exact hm.base.prepend _

/-- Addresses are firm. -/
theorem Address.isFirm_text (a : Address) : a.text.IsFirm := by
  rw [text]
  split
  · cases a.anchor with
    | none => exact show (originText none).IsFirm by decide
    | some name => exact Text.IsFirm.prepend (t := ")") (by decide) _
  · exact (Text.isFirm_decimal _).prepend _

/-- The cells of the row of a region with legible members are firm. -/
theorem Row.isFirm_of_mem_cells {r : Region} (hr : ∀ m ∈ r.members, m.IsLegible) :
    ∀ cell ∈ (ofRegion r).cells, cell.IsFirm := by
  have hgroup := Text.isFirm_decimal r.lead.group
  have hstorage := (hr _ r.lead_mem_members).isFirm_storageType
  have hdash : Text.IsFirm "-" := by decide
  cases r with
  | scalar m =>
      have hname := (hr m List.mem_cons_self).name
      exact forall_mem_cells_iff.mpr ⟨hgroup, hname, hstorage, hdash, hname.prepend _⟩
  | array m =>
      have hname := (hr m List.mem_cons_self).name
      have hmembers : Text.IsFirm (m.name ++ "[]") := Text.IsFirm.prepend (by decide) _
      exact forall_mem_cells_iff.mpr ⟨hgroup, hmembers, hstorage, hdash, hname.prepend _⟩
  | bits first others storage address =>
      have hmembers : (Text.join ", " ((first :: others).map Member.name)).IsFirm := by
        refine Text.isFirm_join _ (List.cons_ne_nil _ _) fun name hname => ?_
        obtain ⟨m, hm, rfl⟩ := List.mem_map.mp hname
        exact (hr m hm).name
      have hbits := fun used : Text => (Text.isFirm_decimal (8 * storage)).prepend used
      exact forall_mem_cells_iff.mpr ⟨hgroup, hmembers, hstorage, hbits _, address.isFirm_text⟩

/-! ### Listings -/

/-- A row **agrees** with what the functions do to shared storage: it tells the bits used and
available and all members that share the storage, and the functions convert the storage by one
statement, at the place that the cells for the type and the address spell. -/
structure Row.AgreesWith (model : DataModel) (row : Row) (first : Member) (others : List Member)
    (storage : Nat) (address : Address) : Prop where
  /-- The bits used are those of all members, and the bits available those of the storage. -/
  bits : row.bits = Text.decimal ((first :: others).map Member.bits).sum ++ "/" ++
    Text.decimal (8 * storage)
  /-- The members are listed in order. -/
  members : row.members = Text.join ", " ((first :: others).map Member.name)
  /-- The line for the storage in each of the functions. -/
  statement : ∃ q, model.primitive first.base = some q ∧ ∀ d,
    ((Region.bits first others storage address).bodyLines model).map (BodyLine.text d) =
      [indentation ++ ("*(" ++ row.storage ++ "*)(" ++ row.address ++ ")") ++ " = " ++ q.name d ++
        "(" ++ ("*(" ++ row.storage ++ "*)(" ++ row.address ++ ")") ++ ");"]

/-- The row of shared storage agrees with the functions. -/
theorem Row.agreesWith_ofRegion {model : DataModel} {first : Member} {storage : Nat}
    (hstorage : model.bitStorage first.base = some storage) (others : List Member)
    (address : Address) :
    (ofRegion (.bits first others storage address)).AgreesWith model first others storage
      address := by
  obtain ⟨q, hq, -⟩ := Option.map_eq_some_iff.mp (DataModel.width_primitive_of_bitStorage hstorage)
  constructor
  case bits => rfl
  case members => rfl
  case statement =>
    refine ⟨q, hq, fun d => ?_⟩
    rw [Region.bodyLines, Region.lead, hq]
    rfl

/-- An output **lists** regions if a table with one row for each of them stands in front of the
functions that convert them. -/
structure IsListed (o : Options) (tag : Text) (rs : List Region) (out : List Text) : Prop where
  /-- There are three lines in front of the table and one behind it, and all lines of the table are
  read back at the same positions. -/
  table : ∃ (header : Text) (table : List Text) (starts : List Nat),
    out = ("/*" : Text) :: listingTitle o.model tag :: (" *" : Text) :: header ::
      (table ++ (" */" : Text) :: (Conversion.ofRegions o.model tag o.noThrow rs).functions) ∧
    Text.Tabulates starts Row.header.cells header ∧
    List.Forall₂ (fun r => Text.Tabulates starts (Row.ofRegion r).cells) rs table
  /-- The rows are numbered from `1` on. -/
  group : ∀ i r, rs[i]? = some r → (Row.ofRegion r).group = Text.decimal (i + 1)
  /-- The statements in the functions are those for the regions. -/
  statements : ∀ d, statementsIn d out =
    (rs.flatMap (Region.bodyLines o.model)).map (BodyLine.text d)
  /-- The rows of shared storage agree with their statements. -/
  storage : ∀ first others storage address, Region.bits first others storage address ∈ rs →
    (Row.ofRegion (.bits first others storage address)).AgreesWith o.model first others storage
      address

/-- **The listing is a table that agrees with the functions.** With a listing, an output that is not
empty lists the regions of the packed members. -/
theorem generate_table (o : Options) (ho : o.layout = true) {lines out : List Text}
    (h : generate o lines = .ok out) (hne : out ≠ []) :
    ∃ grouped n rs, pack o.model (declaredMembers lines) = .ok (grouped, n) ∧
      regions o.model grouped = .ok rs ∧ IsListed o (o.nameFor (structTag lines)) rs out := by
  obtain ⟨grouped, n, rs, hpack, hrs, rfl⟩ := (generate_cases h).resolve_left hne
  refine ⟨grouped, n, rs, hpack, hrs, ?_⟩
  have hlegible := isLegible_of_mem_regions hpack hrs
  constructor
  case table =>
    set rows := Row.header :: rs.map Row.ofRegion with hrows
    refine ⟨Row.line (Row.widths rows) Row.header,
      (rs.map Row.ofRegion).map (Row.line (Row.widths rows)), Row.starts 4 (Row.widths rows), ?_,
      Row.tabulates_line List.mem_cons_self (by decide), ?_⟩
    · rw [Plan.lines, if_pos ho, listing, ← hrows, hrows, List.map_cons]
      simp only [List.cons_append, List.append_assoc, List.nil_append]
      rfl
    · rw [List.map_map, List.forall₂_map_right_iff]
      refine List.forall₂_same.mpr fun r hr => ?_
      exact Row.tabulates_line (List.mem_cons_of_mem _ (List.mem_map_of_mem hr))
        (Row.isFirm_of_mem_cells (hlegible r hr))
  case group =>
    intro i r hi
    have hgroup : (List.range' 1 n)[i]? = some r.lead.group := by
      rw [← map_group_lead_of_pack hpack hrs, List.getElem?_map, hi]
      rfl
    obtain ⟨hlt, hnumber⟩ := List.getElem?_eq_some_iff.mp hgroup
    rw [List.getElem_range'] at hnumber
    have hcell : (Row.ofRegion r).group = Text.decimal r.lead.group := by cases r <;> rfl
    rw [hcell, ← hnumber]
    congr 1
    omega
  case statements =>
    intro d
    rw [statementsIn_lines]
    exact statementLines_filterMap o.model d rs
  case storage =>
    intro first others storage address hr
    exact Row.agreesWith_ofRegion (bitStorage_of_mem_regionsFrom hrs hr) others address

/-- Lines with names that take more bytes than characters, of bit-fields as well as of an array. -/
def accentedLines : List Text :=
  ["struct Frame \x7b int größe : 20; int naïve : 12;", "  unsigned short ß[4]; über z; \x7d;"]

/-- Their regions are listed. -/
theorem generate_table_accentedLines :
    ∃ out, generate { layout := true } accentedLines = .ok out ∧ out ≠ [] ∧
      ∃ grouped n rs, pack {} (declaredMembers accentedLines) = .ok (grouped, n) ∧
        regions {} grouped = .ok rs ∧ IsListed { layout := true } "Frame" rs out := by
  obtain ⟨out, h, hne⟩ := exists_generate_ne_nil { layout := true } accentedLines
    (by decide +kernel) (by decide +kernel)
  obtain ⟨grouped, n, rs, hpack, hrs, hlisted⟩ := generate_table { layout := true } rfl h hne
  have htag : ({ layout := true } : Options).nameFor (structTag accentedLines) = "Frame" := by
    decide +kernel
  rw [htag] at hlisted
  exact ⟨out, h, hne, grouped, n, rs, hpack, hrs, hlisted⟩

end StructEndian
