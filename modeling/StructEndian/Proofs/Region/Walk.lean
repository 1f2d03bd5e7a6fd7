import Mathlib.Data.List.Basic
import StructEndian.Proofs.Packing.Step
import StructEndian.Proofs.Result
import StructEndian.Region

/-!
# Walking over regions

Grouped members are cut into regions one group at a time, and the address of unnamed storage
is carried along. The recursion and its two ways to fail are dealt with here once: everything
else about regions is proved with `regionsFrom_induction`, or with `group_induction` where there
may be none.

## Main definitions

* `Region.name?`: the name of a region, if it is an ordinary member.
* `AddressedFrom`: every shared storage has the address that the regions in front of it lead
  to.

## Main results

* `regionsFrom_cons`: a walk is a first region and the walk behind its group.
* `group_induction`, `regionsFrom_induction`: what holds of every list of members, and of its
  regions.
* `exists_regionsFrom`: bit-fields whose types have storage can be cut into regions.
* `addressedFrom_of_regionsFrom`: the addresses are the ones that are carried along.
* `names_sublist_of_regionsFrom`: the named regions are ordinary members in their order.
-/

namespace StructEndian

namespace Region

/-- The name of a region. The storage that bit-fields share has none. -/
def name? : Region → Option Text
  | scalar m | array m => some m.name
  | bits _ _ _ _ => none

/-- **What a region can be**: its lead alone if that is an ordinary member, and otherwise
storage of the lead's type. -/
theorem ofGroup_cases {model : DataModel} {here : Address} {lead : Member}
    {followers : List Member} {r : Region} (h : ofGroup model here lead followers = .ok r) :
    (lead.isBitField = false ∧ (r = scalar lead ∨ r = array lead)) ∨
    (∃ storage, lead.isBitField = true ∧ model.bitStorage lead.base = some storage ∧
      r = bits lead followers storage here) := by
  rw [ofGroup] at h
  cases hb : lead.isBitField with
  | false =>
      simp only [hb, Bool.false_eq_true, if_false, Except.ok.injEq] at h
      cases ha : lead.isArray with
      | false => exact Or.inl ⟨rfl, Or.inl (by simpa [ha] using h.symm)⟩
      | true => exact Or.inl ⟨rfl, Or.inr (by simpa [ha] using h.symm)⟩
  | true =>
      simp only [hb, if_true] at h
      cases hs : model.bitStorage lead.base with
      | none => simp [hs] at h
      | some storage =>
          simp only [hs, Except.ok.injEq] at h
          exact Or.inr ⟨storage, rfl, rfl, h.symm⟩

/-- There is a region for every lead whose type has storage, if it needs any. -/
theorem exists_ofGroup {model : DataModel} {lead : Member}
    (h : lead.isBitField = true → ∃ bytes, model.bitStorage lead.base = some bytes)
    (here : Address) (followers : List Member) :
    ∃ r, ofGroup model here lead followers = .ok r := by
  cases hb : lead.isBitField with
  | false => exact ⟨_, by rw [ofGroup, hb]; rfl⟩
  | true =>
      obtain ⟨bytes, hs⟩ := h hb
      exact ⟨bits lead followers bytes here, by rw [ofGroup, hb, if_pos rfl, hs]⟩

end Region

/-! ### The walk -/

/-- The regions of a list that is not empty are the first one and those behind its group, whether
there are any or not. -/
theorem regionsFrom_cons (model : DataModel) (here : Address) (lead : Member)
    (rest : List Member) :
    regionsFrom model here (lead :: rest) =
      Region.ofGroup model here lead (rest.takeWhile (·.group = lead.group)) >>= fun r =>
        (regionsFrom model (r.addressAfter here) (rest.dropWhile (·.group = lead.group))).map
          (r :: ·) := by
  rw [regionsFrom]
  refine bind_congr fun r => ?_
  cases regionsFrom model (r.addressAfter here) (rest.dropWhile (·.group = lead.group)) <;> rfl

/-- If there are regions then there is a first one, and there are those behind its group. -/
theorem regionsFrom_cons_eq_ok {model : DataModel} {here : Address} {lead : Member}
    {rest : List Member} {rs : List Region}
    (h : regionsFrom model here (lead :: rest) = .ok rs) :
    ∃ r later, Region.ofGroup model here lead (rest.takeWhile (·.group = lead.group)) = .ok r ∧
      regionsFrom model (r.addressAfter here) (rest.dropWhile (·.group = lead.group)) =
        .ok later ∧ rs = r :: later := by
  rw [regionsFrom_cons] at h
  obtain ⟨r, hr, h⟩ := Except.bind_eq_ok_iff.mp h
  obtain ⟨later, hlater, rfl⟩ := Except.map_eq_ok_iff.mp h
  exact ⟨r, later, hr, hlater, rfl⟩

/-- **Induction over the groups** of a list: a property of every list of members holds if it holds
of the empty one and is kept when a group is put in front. -/
@[elab_as_elim] theorem group_induction {motive : List Member → Prop} (nil : motive [])
    (cons : ∀ lead rest, motive (rest.dropWhile (·.group = lead.group)) → motive (lead :: rest))
    (ms : List Member) : motive ms := by
  match ms with
  | [] => exact nil
  | lead :: rest => exact cons lead rest (group_induction nil cons _)
termination_by ms.length
decreasing_by
  have hle := (List.dropWhile_sublist (l := rest) (·.group = lead.group)).length_le
  simp only [List.length_cons]
  omega

/-- **Induction over a walk**: a property of an address, the members from there on and their
regions holds of every walk if it holds at the end and is kept when a group is put in
front. -/
@[elab_as_elim] theorem regionsFrom_induction {model : DataModel}
    {motive : ∀ here ms rs, regionsFrom model here ms = .ok rs → Prop}
    (nil : ∀ here h, motive here [] [] h)
    (cons : ∀ here lead rest r later h hlater,
      Region.ofGroup model here lead (rest.takeWhile (·.group = lead.group)) = .ok r →
      motive (r.addressAfter here) (rest.dropWhile (·.group = lead.group)) later hlater →
      motive here (lead :: rest) (r :: later) h)
    {here : Address} {ms : List Member} {rs : List Region}
    (h : regionsFrom model here ms = .ok rs) : motive here ms rs h := by
  induction ms using group_induction generalizing here rs with
  | nil =>
      have hnil : rs = [] := by
        rw [regionsFrom] at h
        exact (Except.ok.inj h).symm
      subst hnil
      exact nil here h
  | cons lead rest ih =>
      obtain ⟨r, later, hr, hlater, rfl⟩ := regionsFrom_cons_eq_ok h
      exact cons here lead rest r later h hlater hr (ih hlater)

/-- **Cutting into regions succeeds** if the types of all bit-fields have storage. -/
theorem exists_regionsFrom {model : DataModel} (here : Address) (ms : List Member)
    (h : ∀ m ∈ ms, m.isBitField = true → ∃ bytes, model.bitStorage m.base = some bytes) :
    ∃ rs, regionsFrom model here ms = .ok rs := by
  induction ms using group_induction generalizing here with
  | nil => exact ⟨[], by rw [regionsFrom]⟩
  | cons lead rest ih =>
      obtain ⟨r, hr⟩ := Region.exists_ofGroup (h lead List.mem_cons_self) here
        (rest.takeWhile (·.group = lead.group))
      obtain ⟨later, hlater⟩ := ih (r.addressAfter here)
        fun m hm => h m (List.mem_cons_of_mem lead ((List.dropWhile_suffix _).subset hm))
      exact ⟨r :: later, by rw [regionsFrom_cons, hr, Except.ok_bind, hlater, Except.ok_map]⟩

/-! ### Names and addresses -/

/-- Regions are **addressed from** `here` if every shared storage has the address that the
regions in front of it lead to. -/
def AddressedFrom : Address → List Region → Prop
  | _, [] => True
  | here, r :: rs =>
      (∀ first others storage address, r = .bits first others storage address →
        address = here) ∧ AddressedFrom (r.addressAfter here) rs

/-- A walk gives every shared storage the address that it has carried along. -/
theorem addressedFrom_of_regionsFrom {model : DataModel} {here : Address} {ms : List Member}
    {rs : List Region} (h : regionsFrom model here ms = .ok rs) : AddressedFrom here rs := by
  induction h using regionsFrom_induction with
  | nil here h => trivial
  | cons here lead rest r later h hlater hr ih =>
      refine ⟨fun first others storage address hbits => ?_, ih⟩
      rcases Region.ofGroup_cases hr with ⟨-, rfl | rfl⟩ | ⟨_, -, -, rfl⟩
      · cases hbits
      · cases hbits
      · cases hbits
        rfl

/-- A region that shares storage is of the size that its lead's type asks for. -/
theorem bitStorage_of_mem_regionsFrom {model : DataModel} {here : Address} {ms : List Member}
    {rs : List Region} (h : regionsFrom model here ms = .ok rs) {first : Member}
    {others : List Member} {storage : Nat} {address : Address}
    (hr : Region.bits first others storage address ∈ rs) :
    model.bitStorage first.base = some storage := by
  induction h using regionsFrom_induction with
  | nil here h => exact absurd hr List.not_mem_nil
  | cons here lead rest r later h hlater hgroup ih =>
      rcases List.mem_cons.mp hr with hhead | hr
      · rcases Region.ofGroup_cases hgroup with ⟨-, rfl | rfl⟩ | ⟨_, -, hs, rfl⟩
        · cases hhead
        · cases hhead
        · cases hhead
          exact hs
      · exact ih hr

/-- The named regions are ordinary members, in their order. -/
theorem names_sublist_of_regionsFrom {model : DataModel} {here : Address} {ms : List Member}
    {rs : List Region} (h : regionsFrom model here ms = .ok rs) :
    (rs.filterMap Region.name?).Sublist ((ms.filter (!·.isBitField)).map Member.name) := by
  induction h using regionsFrom_induction with
  | nil here h => exact List.Sublist.refl _
  | cons here lead rest r later h hlater hgroup ih =>
      have hrest := ih.trans
        (((List.dropWhile_sublist (l := rest) (·.group = lead.group)).filter _).map Member.name)
      rcases Region.ofGroup_cases hgroup with ⟨hb, rfl | rfl⟩ | ⟨_, hb, -, rfl⟩
      · rw [List.filter_cons_of_pos (by simp [hb])]
        exact hrest.cons_cons lead.name
      · rw [List.filter_cons_of_pos (by simp [hb])]
        exact hrest.cons_cons lead.name
      · rw [List.filter_cons_of_neg (by simp [hb])]
        exact hrest

end StructEndian
