import Mathlib.Algebra.GroupWithZero.Nat
import StructEndian.Proofs.Memory.Span
import StructEndian.Proofs.Region.Walk

/-!
# Regions in memory

The regions of a packed structure lie one behind the other. How large they are is left open
where the declarations do not say it: an array may have any number of elements, and a member
that is not converted may take any number of bytes. Whatever they are, the address that is
written for shared storage leads to the place where that storage lies.

## Main definitions

* `Placement`: regions with their spans, and `Placement.find?` for those with a name.
* `Region.size`: the bytes of a region for given extents of the named members.
* `consecutive`: the placement of regions one behind the other.
* `Address.resolve`: the place that an address leads to.

## Main results

* `pairwise_consecutive`, `of_mem_consecutive`: regions do not overlap and lie in the
  structure.
* `Placement.find?_eq_some`: with distinct names every named region is found.
* `resolve_of_mem_consecutive`: addresses that are carried along lead to the storage.
-/

namespace StructEndian

/-- A **placement**: regions and the spans of bytes where they lie. -/
abbrev Placement := List (Region × Span)

namespace Placement

/-- The number of bytes that all regions take. -/
def size (placed : Placement) : Nat :=
  (placed.map fun x => x.2.size).sum

/-- The names of the regions that have one. -/
def names (placed : Placement) : List Text :=
  placed.filterMap fun x => x.1.name?

/-- The span of the first region of the given name. -/
def find? (placed : Placement) (name : Text) : Option Span :=
  placed.findSome? fun x => if x.1.name? = some name then some x.2 else none

/-- **A named region is found** if no two regions have one name. -/
theorem find?_eq_some {placed : Placement} {r : Region} {s : Span} {name : Text}
    (hnames : placed.names.Nodup) (hmem : (r, s) ∈ placed) (hname : r.name? = some name) :
    placed.find? name = some s := by
  induction placed with
  | nil => exact absurd hmem List.not_mem_nil
  | cons x placed ih =>
      rw [find?, List.findSome?_cons]
      rcases List.mem_cons.mp hmem with rfl | hmem
      · simp only [hname, if_true]
      · have hrest : (names placed).Nodup :=
          hnames.sublist ((List.sublist_cons_self x placed).filterMap _)
        have hne : x.1.name? ≠ some name := by
          intro hx
          have hcons : names (x :: placed) = name :: names placed :=
            List.filterMap_cons_some hx
          rw [hcons] at hnames
          refine (List.nodup_cons.mp hnames).1 ?_
          exact List.mem_filterMap.mpr ⟨(r, s), hmem, hname⟩
        rw [if_neg hne]
        exact ih hrest hmem

end Placement

/-- The **size of a region**, where `extent` says for every named member how many elements it
has if it is converted as an array, and how many bytes it takes if it is not converted. -/
def Region.size (model : DataModel) (extent : Text → Nat) : Region → Nat
  | scalar m =>
      match model.primitive m.base with
      | some q => q.width
      | none => extent m.name
  | array m =>
      match model.primitive m.base with
      | some q => extent m.name * q.width
      | none => extent m.name
  | bits _ _ storage _ => storage

/-- The **placement one behind the other**, from the place `start` on. -/
def consecutive (size : Region → Nat) : Nat → List Region → Placement
  | _, [] => []
  | start, r :: rs => (r, ⟨start, size r⟩) :: consecutive size (start + size r) rs

/-- The place that an **address leads to**: the offset behind the end of the anchor, or behind
the start of the structure. It leads nowhere if there is no anchor of that name. -/
def Address.resolve (placed : Placement) (a : Address) : Option Nat :=
  match a.anchor with
  | none => some a.offset
  | some name => (placed.find? name).map fun s => s.stop + a.offset

/-! ### One behind the other -/

theorem map_fst_consecutive (size : Region → Nat) (start : Nat) (rs : List Region) :
    (consecutive size start rs).map Prod.fst = rs := by
  induction rs generalizing start with
  | nil => rfl
  | cons r rs ih => rw [consecutive, List.map_cons, ih]

theorem names_consecutive (size : Region → Nat) (start : Nat) (rs : List Region) :
    (consecutive size start rs).names = rs.filterMap Region.name? := by
  conv_rhs => rw [← map_fst_consecutive size start rs, List.filterMap_map]
  rfl

/-- Every region lies between the start and the end of all, and is of its size. -/
theorem of_mem_consecutive {size : Region → Nat} {start : Nat} {rs : List Region} {r : Region}
    {s : Span} (h : (r, s) ∈ consecutive size start rs) :
    start ≤ s.start ∧ s.stop ≤ start + (consecutive size start rs).size ∧ s.size = size r := by
  induction rs generalizing start with
  | nil => exact absurd h List.not_mem_nil
  | cons r' rs ih =>
      have hsize : (consecutive size start (r' :: rs)).size =
          size r' + (consecutive size (start + size r') rs).size := by
        simp [consecutive, Placement.size]
      rw [hsize]
      rcases List.mem_cons.mp h with heq | h
      · obtain ⟨rfl, rfl⟩ := Prod.mk.inj heq
        refine ⟨Nat.le_refl _, ?_, rfl⟩
        simp only [Span.stop]
        omega
      · obtain ⟨hstart, hstop, hs⟩ := ih h
        exact ⟨by omega, by omega, hs⟩

/-- Each region ends before the next one starts. -/
theorem pairwise_consecutive (size : Region → Nat) (start : Nat) (rs : List Region) :
    (consecutive size start rs).Pairwise fun x y => x.2.stop ≤ y.2.start := by
  induction rs generalizing start with
  | nil => exact List.Pairwise.nil
  | cons r rs ih =>
      refine List.pairwise_cons.mpr ⟨fun x hx => ?_, ih _⟩
      exact (of_mem_consecutive (r := x.1) (s := x.2) hx).1

/-! ### Addresses -/

theorem resolve_after {placed : Placement} {name : Text} {s : Span}
    (h : placed.find? name = some s) : (Address.after name).resolve placed = some s.stop := by
  simp [Address.resolve, Address.after, h]

theorem resolve_skip {placed : Placement} {a : Address} {place : Nat} (bytes : Nat)
    (h : a.resolve placed = some place) :
    (a.skip bytes).resolve placed = some (place + bytes) := by
  rw [Address.resolve] at h ⊢
  rw [Address.skip]
  cases ha : a.anchor with
  | none =>
      simp only [ha, Option.some.injEq] at h ⊢
      omega
  | some name =>
      simp only [ha, Option.map_eq_some_iff] at h ⊢
      obtain ⟨s, hs, rfl⟩ := h
      exact ⟨s, hs, by omega⟩

/-- If an address leads to the start of a region, the address behind the region leads to its
end. -/
theorem resolve_addressAfter {placed : Placement} {model : DataModel} {extent : Text → Nat}
    {r : Region} {s : Span} {here : Address} (hnames : placed.names.Nodup)
    (hmem : (r, s) ∈ placed) (hsize : s.size = r.size model extent)
    (hhere : here.resolve placed = some s.start) :
    (r.addressAfter here).resolve placed = some s.stop := by
  cases r with
  | scalar m => exact resolve_after (Placement.find?_eq_some hnames hmem rfl)
  | array m => exact resolve_after (Placement.find?_eq_some hnames hmem rfl)
  | bits first others storage address =>
      have hstorage : s.size = storage := hsize
      rw [Span.stop, hstorage]
      exact resolve_skip storage hhere

/-- **Addresses lead to the storage.** In a placement that ends in regions one behind the
other, addressed from the place where they start, the address of every shared storage leads
to the start of its span. -/
theorem resolve_of_mem_consecutive {placed before : Placement} {model : DataModel}
    {extent : Text → Nat} {start : Nat} {rs : List Region} {here : Address}
    (hplaced : placed = before ++ consecutive (Region.size model extent) start rs)
    (hnames : placed.names.Nodup) (hhere : here.resolve placed = some start)
    (haddr : AddressedFrom here rs) {first : Member} {others : List Member} {storage : Nat}
    {address : Address} {s : Span}
    (h : (.bits first others storage address, s) ∈
      consecutive (Region.size model extent) start rs) :
    address.resolve placed = some s.start := by
  induction rs generalizing before start here with
  | nil => exact absurd h List.not_mem_nil
  | cons r rs ih =>
      obtain ⟨hfirst, hrest⟩ := haddr
      rw [consecutive] at hplaced h
      rcases List.mem_cons.mp h with heq | h
      · obtain ⟨hr, rfl⟩ := Prod.mk.inj heq
        rw [hfirst first others storage address hr.symm]
        exact hhere
      · have hmem : (r, ⟨start, r.size model extent⟩) ∈ placed := by
          rw [hplaced]
          exact List.mem_append_right before List.mem_cons_self
        have hplaced' : placed = (before ++ [(r, ⟨start, r.size model extent⟩)]) ++
            consecutive (Region.size model extent) (start + r.size model extent) rs := by
          rw [hplaced, List.append_assoc]
          rfl
        exact ih hplaced' (resolve_addressAfter hnames hmem rfl hhere) hrest h

end StructEndian
