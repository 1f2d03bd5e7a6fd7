import Mathlib.Data.List.Forall2
import StructEndian.Function
import StructEndian.Proofs.Region.Walk

/-!
# Bit-fields are anonymous

A bit-field cannot be addressed: the functions convert the storage that it is in. So its name must
not stand in them, neither as the member that is converted nor as the anchor of an address, and its
exact width must not matter once it is in a group. This is said of two lists of grouped members that
are the same to anyone who does not see the names and widths of bit-fields: either both of them have
regions or neither has, and the functions are the same, line for line.

The walk looks at a member in two places only: at its group, to cut the list, and at what
`Member.Resembles` compares, to make a region of it.

## Main definitions

* `Member.Resembles`: members that are told apart by their group or a bit-field's name or width only.
* `Statement.names`, `Region.names`: the names that are addressed.

## Main results

* `Member.Resembles.exists_ofGroup`: resembling leads are converted by the same statement and have the
  same address behind them.
* `exists_regionsFrom_of_resembles`: so do the walks over resembling members.
* `exists_mem_of_mem_names`: the names that are addressed are those of ordinary members.
* `regions_anonymous`: all of it about the functions for grouped members.
-/

namespace StructEndian

/-! ### Resembling members -/

/-- Members **resemble** each other if they are of one kind and type, and of one name unless they are
bit-fields. Their groups, their widths and the texts that they were declared by may differ. -/
structure Member.Resembles (m m' : Member) : Prop where
  /-- Both are bit-fields, or neither is. -/
  isBitField : m.isBitField = m'.isBitField
  /-- They are of one sign. -/
  sign : m.sign = m'.sign
  /-- They are of one base type. -/
  base : m.base = m'.base
  /-- Both are arrays, or neither is. -/
  isArray : m.isArray = m'.isArray
  /-- Ordinary members are of one name. -/
  name : m.isBitField = false → m.name = m'.name

namespace Member

theorem Resembles.symm {m m' : Member} (h : m.Resembles m') : m'.Resembles m where
  isBitField := h.isBitField.symm
  sign := h.sign.symm
  base := h.base.symm
  isArray := h.isArray.symm
  name hb := (h.name (h.isBitField.trans hb)).symm

/-- A member resembles itself in another group. -/
theorem resembles_inGroup (m : Member) (k : Nat) : m.Resembles (m.inGroup k) :=
  ⟨rfl, rfl, rfl, rfl, fun _ => rfl⟩

/-- **Resembling leads** have regions alike, whatever their followers are: these are converted by the
same statement, and unnamed storage behind them has the same address. -/
theorem Resembles.exists_ofGroup {m m' : Member} (h : m.Resembles m') {model : DataModel}
    {here : Address} {followers : List Member} {r : Region}
    (hr : Region.ofGroup model here m followers = .ok r) (followers' : List Member) :
    ∃ r', Region.ofGroup model here m' followers' = .ok r' ∧
      r'.statement? model = r.statement? model ∧ r'.addressAfter here = r.addressAfter here := by
  rcases Region.ofGroup_cases hr with ⟨hb, -⟩ | ⟨storage, hb, hs, rfl⟩
  · have hb' := h.isBitField.symm.trans hb
    obtain rfl : (if m.isArray then Region.array m else .scalar m) = r := by
      simpa [Region.ofGroup, hb] using hr
    refine ⟨if m'.isArray then .array m' else .scalar m', by simp [Region.ofGroup, hb'], ?_, ?_⟩
    · rw [← h.isArray]
      cases m.isArray <;> simp [Region.statement?, Region.lead, h.base, h.name hb]
    · rw [← h.isArray]
      cases m.isArray <;> simp [Region.addressAfter, h.name hb]
  · have hb' := h.isBitField.symm.trans hb
    have hs' : model.bitStorage m'.base = some storage := h.base ▸ hs
    have htype : m'.storageType = m.storageType := by
      rw [storageType, storageType, h.sign, h.base]
    refine ⟨.bits m' followers' storage here, by simp [Region.ofGroup, hb', hs'], ?_, rfl⟩
    simp [Region.statement?, Region.lead, h.base, htype]

end Member

/-! ### Resembling lists -/

/-- What is dropped from related lists by tests that agree leaves related lists. -/
theorem forall₂_dropWhile {α β : Type} {R : α → β → Prop} {p : α → Bool} {q : β → Bool}
    (hpq : ∀ a b, R a b → p a = q b) {l : List α} {l' : List β} (h : List.Forall₂ R l l') :
    List.Forall₂ R (l.dropWhile p) (l'.dropWhile q) := by
  induction h with
  | nil => exact List.Forall₂.nil
  | @cons a b l l' hab hl ih =>
      cases hp : p a with
      | true =>
          rw [List.dropWhile_cons_of_pos hp, List.dropWhile_cons_of_pos (hpq a b hab ▸ hp)]
          exact ih
      | false =>
          have hq : q b = false := hpq a b hab ▸ hp
          rw [List.dropWhile_cons_of_neg (by simp [hp]), List.dropWhile_cons_of_neg (by simp [hq])]
          exact hl.cons hab

/-- Grouped members **resemble** others if they do so position by position and are in the same
groups. -/
def Resembling (ms ms' : List Member) : Prop :=
  List.Forall₂ (fun m m' => m.group = m'.group ∧ m.Resembles m') ms ms'

theorem Resembling.symm {ms ms' : List Member} (h : Resembling ms ms') : Resembling ms' ms :=
  h.flip.imp fun _ _ hm => ⟨hm.1.symm, hm.2.symm⟩

variable {model : DataModel}

/-- **Walks over resembling members** come to regions alike, with the same statements. -/
theorem exists_regionsFrom_of_resembles {here : Address} {ms ms' : List Member} {rs : List Region}
    (h : regionsFrom model here ms = .ok rs) (hms : Resembling ms ms') :
    ∃ rs', regionsFrom model here ms' = .ok rs' ∧
      rs'.filterMap (Region.statement? model) = rs.filterMap (Region.statement? model) := by
  induction h using regionsFrom_induction generalizing ms' with
  | nil here h =>
      cases hms
      exact ⟨[], h, rfl⟩
  | cons here lead rest r later h hlater hr ih =>
      cases hms with
      | @cons _ lead' _ rest' hlead hrest =>
          obtain ⟨hgroup, hlead⟩ := hlead
          -- groups agree, so both lists are cut at the same position
          obtain ⟨r', hr', hstatement, haddress⟩ :=
            hlead.exists_ofGroup hr (rest'.takeWhile (·.group = lead'.group))
          obtain ⟨later', hlater', hstatements⟩ :=
            ih (forall₂_dropWhile (q := (·.group = lead'.group))
              (fun m m' hm => by rw [hm.1, hgroup]) hrest)
          refine ⟨r' :: later', ?_, ?_⟩
          · rw [regionsFrom_cons, hr', Except.ok_bind, haddress, hlater', Except.ok_map]
          · rw [List.filterMap_cons, List.filterMap_cons, hstatement, hstatements]

/-! ### Names -/

/-- The **names** that a statement addresses: a member, or the anchor of an address. -/
def Statement.names : Statement → List Text
  | scalar name _ | array name _ => [name]
  | storage _ address _ => address.anchor.toList

/-- The **names** that a region is addressed by. -/
def Region.names : Region → List Text
  | scalar m | array m => [m.name]
  | bits _ _ _ address => address.anchor.toList

/-- A statement addresses its region. -/
theorem Region.names_of_statement?_eq_some {r : Region} {s : Statement}
    (h : r.statement? model = some s) : s.names = r.names := by
  obtain ⟨q, -, rfl⟩ := Option.map_eq_some_iff.mp h
  cases r <;> rfl

/-- **The names that are addressed** are those of ordinary members, apart from the anchor that the
walk starts with. -/
theorem exists_mem_of_mem_names {here : Address} {ms : List Member} {rs : List Region}
    (h : regionsFrom model here ms = .ok rs) {r : Region} (hr : r ∈ rs) {name : Text}
    (hname : name ∈ r.names) :
    name ∈ here.anchor ∨ ∃ m ∈ ms, m.isBitField = false ∧ m.name = name := by
  induction h using regionsFrom_induction with
  | nil here h => exact absurd hr List.not_mem_nil
  | cons here lead rest first later h hlater hgroup ih =>
      have hrest : (∃ m ∈ rest.dropWhile (·.group = lead.group), m.isBitField = false ∧ m.name = name) →
          ∃ m ∈ lead :: rest, m.isBitField = false ∧ m.name = name := by
        rintro ⟨m, hm, hmember⟩
        exact ⟨m, List.mem_cons_of_mem lead ((List.dropWhile_suffix _).subset hm), hmember⟩
      rcases Region.ofGroup_cases hgroup with ⟨hb, hfirst⟩ | ⟨storage, -, -, rfl⟩
      · have hlead : name = lead.name → ∃ m ∈ lead :: rest, m.isBitField = false ∧ m.name = name :=
          fun heq => ⟨lead, List.mem_cons_self, hb, heq.symm⟩
        have hnames : first.names = [lead.name] ∧
            (first.addressAfter here).anchor = some lead.name := by
          rcases hfirst with rfl | rfl <;> exact ⟨rfl, rfl⟩
        rcases List.mem_cons.mp hr with rfl | hr
        · rw [hnames.1] at hname
          exact Or.inr (hlead (List.mem_singleton.mp hname))
        · rcases ih hr with hanchor | hmember
          · rw [hnames.2] at hanchor
            exact Or.inr (hlead (Option.some.inj hanchor).symm)
          · exact Or.inr (hrest hmember)
      · rcases List.mem_cons.mp hr with rfl | hr
        · exact Or.inl (Option.mem_toList.mp hname)
        · exact (ih hr).imp id hrest

/-! ### Functions -/

/-- **Bit-fields are anonymous.** Of two lists of grouped members that differ in nothing but the names
and widths of bit-fields and in the texts of declarations, either both can be cut into regions or
neither can, and then the functions for each direction are the same. Every name that is addressed in
them is that of an ordinary member. -/
theorem regions_anonymous (model : DataModel) {ms ms' : List Member} (h : Resembling ms ms')
    (tag : Text) (noThrow : Bool) :
    ((∃ e, regions model ms = .error e) ↔ ∃ e, regions model ms' = .error e) ∧
    (∀ rs rs', regions model ms = .ok rs → regions model ms' = .ok rs' → ∀ d,
      (Conversion.ofRegions model tag noThrow rs).function d =
        (Conversion.ofRegions model tag noThrow rs').function d) ∧
    (∀ rs, regions model ms = .ok rs → ∀ s ∈ (Conversion.ofRegions model tag noThrow rs).body,
      ∀ name ∈ s.names, ∃ m ∈ ms, m.isBitField = false ∧ m.name = name) := by
  have hok : ∀ {ms ms'}, Resembling ms ms' → (∃ rs, regions model ms = .ok rs) →
      ∃ rs, regions model ms' = .ok rs := by
    rintro ms ms' h ⟨rs, hrs⟩
    obtain ⟨rs', hrs', -⟩ := exists_regionsFrom_of_resembles hrs h
    exact ⟨rs', hrs'⟩
  refine ⟨?_, fun rs rs' hrs hrs' d => ?_, fun rs hrs s hs name hname => ?_⟩
  · rw [← not_iff_not, ← Except.exists_eq_ok_iff, ← Except.exists_eq_ok_iff]
    exact ⟨hok h, hok h.symm⟩
  · obtain ⟨rs'', hrs'', hbody⟩ := exists_regionsFrom_of_resembles hrs h
    obtain rfl : rs'' = rs' := Except.ok.inj (hrs''.symm.trans hrs')
    rw [Conversion.ofRegions, Conversion.ofRegions, hbody]
  · obtain ⟨r, hr, hstatement⟩ := List.mem_filterMap.mp hs
    rw [Region.names_of_statement?_eq_some hstatement] at hname
    exact (exists_mem_of_mem_names hrs hr hname).resolve_left fun hanchor => by cases hanchor

/-- Grouped members with bit-fields in front of an ordinary member and behind it. -/
def namedFields : List Member :=
  [{ name := "low", base := .int, bits := 20, group := 1 },
    { name := "high", base := .int, bits := 12, group := 1 },
    { name := "mark", base := .char, group := 2 },
    { name := "flag", base := .short, sign := .unsigned, bits := 1, group := 3 }]

/-- The same with other names and widths of the bit-fields. -/
def renamedFields : List Member :=
  [{ name := "mark", base := .int, bits := 7, group := 1 },
    { name := "x", base := .int, bits := 4000000000, group := 1 },
    { name := "mark", base := .char, group := 2, source := "char mark" },
    { name := "mark", base := .short, sign := .unsigned, bits := 16, group := 3 }]

/-- Both have regions, the functions for these are the same, and the only name in them is that of the
ordinary member. -/
theorem regions_anonymous_renamedFields :
    Resembling namedFields renamedFields ∧
    ∃ rs rs', regions {} namedFields = .ok rs ∧ regions {} renamedFields = .ok rs' ∧
      (∀ d, (Conversion.ofRegions {} "S" true rs).function d =
        (Conversion.ofRegions {} "S" true rs').function d) ∧
      ∀ s ∈ (Conversion.ofRegions {} "S" true rs).body, ∀ name ∈ s.names, name = "mark" := by
  have h : Resembling namedFields renamedFields :=
    .cons ⟨rfl, rfl, rfl, rfl, rfl, by decide⟩ <| .cons ⟨rfl, rfl, rfl, rfl, rfl, by decide⟩ <|
      .cons ⟨rfl, rfl, rfl, rfl, rfl, by decide⟩ <| .cons ⟨rfl, rfl, rfl, rfl, rfl, by decide⟩ .nil
  obtain ⟨hfails, hfunction, hnames⟩ := regions_anonymous {} h "S" true
  obtain ⟨rs, hrs⟩ : ∃ rs, regions {} namedFields = .ok rs := ⟨_, by rw [regions]; cbv⟩
  obtain ⟨rs', hrs'⟩ : ∃ rs', regions {} renamedFields = .ok rs' :=
    Except.exists_eq_ok_iff.mpr fun he => by
      obtain ⟨e, he⟩ := hfails.mpr he
      rw [hrs] at he
      cases he
  refine ⟨h, rs, rs', hrs, hrs', hfunction rs rs' hrs hrs', fun s hs name hname => ?_⟩
  have hmark : ∀ m ∈ namedFields, m.isBitField = false → m.name = "mark" := by decide
  obtain ⟨m, hm, hb, rfl⟩ := hnames rs hrs s hs name hname
  exact hmark m hm hb

end StructEndian
