import Mathlib.Data.List.Forall2
import StructEndian.Packing

/-!
# What the packer does in one step

Everything that is proved about packing rests on a case distinction over one step: an
ordinary member closes the run, a bit-field joins the run, or a bit-field opens a new one.
A walk over a list of members is such steps one after the other.

## Main results

* `Packer.advance_cases`: the three ways in which the packer goes on.
* `Packer.placeAll_cons_eq_ok`: a walk is a first step and the walk behind it.
* `Packer.placeAll_forall₂`, `pack_forall₂`: only groups change, and the order is kept.
* `bitStorage_of_mem_pack`: a bit-field that has been packed is of a type with storage.
-/

namespace StructEndian

/-- A run admits the members of its type and sign that fit. -/
theorem Run.admits_iff {r : Run} {m : Member} :
    r.admits m = true ↔ m.base = r.base ∧ m.sign = r.sign ∧ r.used + m.bits ≤ r.capacity := by
  simp [Run.admits, and_assoc]

namespace Packer

/-! ### One step -/

/-- A run is opened for a bit-field whose type has storage, in a new group. -/
theorem openRun_eq_ok {model : DataModel} {p p' : Packer} {m : Member}
    (h : p.openRun model m = .ok p') :
    ∃ bytes, model.bitStorage m.base = some bytes ∧
      p' = ⟨p.group + 1, some ⟨m.base, m.sign, m.bits, 8 * bytes⟩⟩ := by
  rw [openRun] at h
  cases hs : model.bitStorage m.base with
  | none => simp [hs] at h
  | some bytes =>
      rw [hs] at h
      exact ⟨bytes, rfl, (Except.ok.inj h).symm⟩

/-- **What one step does.** An ordinary member closes the run and takes a new group; a
bit-field that the run admits joins it and its group; any other bit-field opens a run and
takes a new group. -/
theorem advance_cases {model : DataModel} {p p' : Packer} {m : Member}
    (h : p.advance model m = .ok p') :
    (m.isBitField = false ∧ p' = ⟨p.group + 1, none⟩) ∨
    (∃ r, m.isBitField = true ∧ p.run = some r ∧ r.admits m = true ∧
      p' = { p with run := some { r with used := r.used + m.bits } }) ∨
    (∃ bytes, m.isBitField = true ∧ (∀ r, p.run = some r → r.admits m = false) ∧
      model.bitStorage m.base = some bytes ∧
      p' = ⟨p.group + 1, some ⟨m.base, m.sign, m.bits, 8 * bytes⟩⟩) := by
  cases hb : m.isBitField with
  | false =>
      simp only [advance, hb, Bool.false_eq_true, if_false, Except.ok.injEq] at h
      exact Or.inl ⟨rfl, h.symm⟩
  | true =>
      simp only [advance, hb, if_true] at h
      cases hr : p.run with
      | none =>
          simp only [hr] at h
          obtain ⟨bytes, hs, rfl⟩ := openRun_eq_ok h
          exact Or.inr (Or.inr ⟨bytes, rfl, fun r hr' => by simp at hr', hs, rfl⟩)
      | some r =>
          simp only [hr] at h
          cases ha : r.admits m with
          | true =>
              simp only [ha, if_true, Except.ok.injEq] at h
              exact Or.inr (Or.inl ⟨r, rfl, rfl, ha, h.symm⟩)
          | false =>
              simp only [ha, Bool.false_eq_true, if_false] at h
              obtain ⟨bytes, hs, rfl⟩ := openRun_eq_ok h
              refine Or.inr (Or.inr ⟨bytes, rfl, fun r' hr' => ?_, hs, rfl⟩)
              obtain rfl : r = r' := Option.some.inj hr'
              exact ha

/-! ### A walk -/

/-- Placing a member is taking the step and putting the member in the group behind it. -/
theorem place_eq_ok_iff {model : DataModel} {p p' : Packer} {m m' : Member} :
    p.place model m = .ok (p', m') ↔ p.advance model m = .ok p' ∧ m' = m.inGroup p'.group := by
  rw [place]
  cases p.advance model m with
  | error e => simp [Except.map]
  | ok q =>
      simp only [Except.map, Except.ok.injEq, Prod.mk.injEq]
      constructor
      · rintro ⟨rfl, rfl⟩
        exact ⟨rfl, rfl⟩
      · rintro ⟨rfl, rfl⟩
        exact ⟨rfl, rfl⟩

/-- A walk over a list that is not empty is a first step and a walk over the rest. -/
theorem placeAll_cons_eq_ok {model : DataModel} {p p' : Packer} {m : Member}
    {ms placed : List Member} (h : p.placeAll model (m :: ms) = .ok (p', placed)) :
    ∃ q rest, p.advance model m = .ok q ∧ q.placeAll model ms = .ok (p', rest) ∧
      placed = m.inGroup q.group :: rest := by
  rw [placeAll] at h
  cases hp : p.place model m with
  | error e => simp [hp, bind, Except.bind] at h
  | ok first =>
      obtain ⟨q, m'⟩ := first
      obtain ⟨hq, rfl⟩ := place_eq_ok_iff.mp hp
      cases hr : q.placeAll model ms with
      | error e => simp [hp, hr, bind, Except.bind] at h
      | ok last =>
          obtain ⟨p'', rest⟩ := last
          simp only [hp, hr, bind, Except.bind, pure, Except.pure, Except.ok.injEq,
            Prod.mk.injEq] at h
          obtain ⟨rfl, rfl⟩ := h
          exact ⟨q, rest, hq, hr, rfl⟩

/-- A walk keeps the order and changes nothing about a member but its group. -/
theorem placeAll_forall₂ {model : DataModel} {p p' : Packer} {ms placed : List Member}
    (h : p.placeAll model ms = .ok (p', placed)) :
    List.Forall₂ (fun m m' => m' = m.inGroup m'.group) ms placed := by
  induction ms generalizing p placed with
  | nil =>
      obtain ⟨rfl, rfl⟩ := Prod.mk.inj (Except.ok.inj h)
      exact List.Forall₂.nil
  | cons m ms ih =>
      obtain ⟨q, rest, -, hrest, rfl⟩ := placeAll_cons_eq_ok h
      exact List.Forall₂.cons rfl (ih hrest)

/-- What holds of all members whatever their groups are holds of the placed ones. -/
theorem forall_mem_of_placeAll {P : Member → Prop} (hP : ∀ m k, P m → P (m.inGroup k))
    {model : DataModel} {p p' : Packer} {ms placed : List Member}
    (h : p.placeAll model ms = .ok (p', placed)) (hms : ∀ m ∈ ms, P m) : ∀ m ∈ placed, P m := by
  have hplaced := placeAll_forall₂ h
  clear h
  induction hplaced with
  | nil => exact hms
  | cons hm _ ih =>
      obtain ⟨hfirst, hrest⟩ := List.forall_mem_cons.mp hms
      rw [hm]
      exact List.forall_mem_cons.mpr ⟨hP _ _ hfirst, ih hrest⟩

/-! ### Types with storage -/

/-- A packer is **supported** if bit-fields of its open run's type can have storage. -/
def IsSupported (model : DataModel) (p : Packer) : Prop :=
  ∀ r, p.run = some r → ∃ bytes, model.bitStorage r.base = some bytes

/-- Behind one step the packer is supported again, and so is a bit-field that was placed. -/
theorem IsSupported.advance {model : DataModel} {p p' : Packer} {m : Member}
    (hp : p.IsSupported model) (h : p.advance model m = .ok p') :
    p'.IsSupported model ∧
      (m.isBitField = true → ∃ bytes, model.bitStorage m.base = some bytes) := by
  rcases advance_cases h with ⟨hb, rfl⟩ | ⟨r, hb, hr, ha, rfl⟩ | ⟨bytes, hb, -, hs, rfl⟩
  · refine ⟨fun r hr => by simp at hr, fun hb' => ?_⟩
    rw [hb] at hb'
    exact absurd hb' (by simp)
  · obtain ⟨bytes, hs⟩ := hp r hr
    have hbase : m.base = r.base := (Run.admits_iff.mp ha).1
    refine ⟨fun r' hr' => ?_, fun _ => ⟨bytes, hbase ▸ hs⟩⟩
    obtain rfl := Option.some.inj hr'
    exact ⟨bytes, hs⟩
  · refine ⟨fun r' hr' => ?_, fun _ => ⟨bytes, hs⟩⟩
    obtain rfl := Option.some.inj hr'
    exact ⟨bytes, hs⟩

/-- All bit-fields of a walk that starts supported are of types with storage. -/
theorem IsSupported.placeAll {model : DataModel} {p p' : Packer} {ms placed : List Member}
    (hp : p.IsSupported model) (h : p.placeAll model ms = .ok (p', placed)) :
    ∀ m ∈ placed, m.isBitField = true → ∃ bytes, model.bitStorage m.base = some bytes := by
  induction ms generalizing p placed with
  | nil =>
      obtain ⟨rfl, rfl⟩ := Prod.mk.inj (Except.ok.inj h)
      intro m hm
      exact absurd hm (List.not_mem_nil)
  | cons m ms ih =>
      obtain ⟨q, rest, hq, hrest, rfl⟩ := placeAll_cons_eq_ok h
      obtain ⟨hsupp, hm⟩ := hp.advance hq
      intro m' hm'
      rcases List.mem_cons.mp hm' with rfl | hm'
      · exact hm
      · exact ih hsupp hrest m' hm'

end Packer

/-! ### Whole structures -/

/-- Packing is a walk of a new packer. -/
theorem pack_eq_ok {model : DataModel} {ms grouped : List Member} {n : Nat}
    (h : pack model ms = .ok (grouped, n)) :
    ∃ p, Packer.placeAll model {} ms = .ok (p, grouped) ∧ p.group = n := by
  rw [pack] at h
  cases hp : Packer.placeAll model {} ms with
  | error e => simp [hp, Except.map] at h
  | ok last =>
      obtain ⟨p, placed⟩ := last
      simp only [hp, Except.map, Except.ok.injEq, Prod.mk.injEq] at h
      obtain ⟨rfl, rfl⟩ := h
      exact ⟨p, rfl, rfl⟩

/-- Packing keeps the order and changes nothing about a member but its group. -/
theorem pack_forall₂ {model : DataModel} {ms grouped : List Member} {n : Nat}
    (h : pack model ms = .ok (grouped, n)) :
    List.Forall₂ (fun m m' => m' = m.inGroup m'.group) ms grouped := by
  obtain ⟨p, hp, -⟩ := pack_eq_ok h
  exact Packer.placeAll_forall₂ hp

/-- What holds of all members whatever their groups are holds of the packed ones. -/
theorem forall_mem_of_pack {P : Member → Prop} (hP : ∀ m k, P m → P (m.inGroup k))
    {model : DataModel} {ms grouped : List Member} {n : Nat}
    (h : pack model ms = .ok (grouped, n)) (hms : ∀ m ∈ ms, P m) : ∀ m ∈ grouped, P m := by
  obtain ⟨p, hp, -⟩ := pack_eq_ok h
  exact Packer.forall_mem_of_placeAll hP hp hms

/-- Members that differ in their groups only have the same ordinary names. -/
theorem map_name_filter_of_forall₂ {ms grouped : List Member}
    (h : List.Forall₂ (fun m m' => m' = m.inGroup m'.group) ms grouped) :
    (grouped.filter (!·.isBitField)).map Member.name =
      (ms.filter (!·.isBitField)).map Member.name := by
  induction h with
  | nil => rfl
  | @cons m m' ms grouped hm _ ih =>
      rw [hm]
      cases hb : m.isBitField with
      | false =>
          rw [List.filter_cons_of_pos (by simp [hb]), List.filter_cons_of_pos (by simp [hb]),
            List.map_cons, List.map_cons, ih, Member.name_inGroup]
      | true =>
          rw [List.filter_cons_of_neg (by simp [hb]), List.filter_cons_of_neg (by simp [hb]), ih]

/-- A bit-field that has been packed is of a type with storage. -/
theorem bitStorage_of_mem_pack {model : DataModel} {ms grouped : List Member} {n : Nat}
    (h : pack model ms = .ok (grouped, n)) :
    ∀ m ∈ grouped, m.isBitField = true → ∃ bytes, model.bitStorage m.base = some bytes := by
  obtain ⟨p, hp, -⟩ := pack_eq_ok h
  exact Packer.IsSupported.placeAll (fun r hr => by simp at hr) hp

end StructEndian
