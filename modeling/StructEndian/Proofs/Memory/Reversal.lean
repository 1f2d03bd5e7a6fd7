import Mathlib.Data.List.Forall2
import StructEndian.Function
import StructEndian.Proofs.Memory.Placement

/-!
# The generated functions in memory

A statement of a generated function converts the numbers at the place that it names. Here a
function is carried out on the bytes of a packed structure, statement by statement, and every
step may fail: a name or an anchor may be missing, and a primitive may find too few bytes.
For packed members nothing fails. Every statement reverses the numbers of its own region and
no two statements meet, so each of the two functions undoes the other.

## Main definitions

* `Statement.touched`: the spans that a statement converts.
* `Statement.run`, `Conversion.run`: a statement and a function, carried out on a buffer.
* `Placement.IsSound`: a placement in which regions and addresses are where they should be.
* `Conversion.IsReversible`: what is claimed of a conversion in memory.

## Main results

* `Placement.IsSound.touched_statement`: a statement converts its own region from end to end.
* `Placement.IsSound.isReversible`: conversions of sound placements are reversible.
* `pack_isReversible`: the functions for packed members are reversible, whatever the sizes.
-/

namespace StructEndian

/-! ### Carrying out statements -/

/-- The spans that a statement **touches**: the named member, every element of the named
array, or the number at the address. There are none if the place does not exist. -/
def Statement.touched (placed : Placement) : Statement → Option (List Span)
  | scalar name q => (placed.find? name).map fun s => [⟨s.start, q.width⟩]
  | array name q => (placed.find? name).map fun s => s.cut q.width
  | storage _ address q => (address.resolve placed).map fun start => [⟨start, q.width⟩]

/-- **Run** a statement: apply its primitive to all that it touches. -/
def Statement.run (placed : Placement) (d : Direction) (buffer : Bytes) (st : Statement) :
    Option Bytes :=
  (st.touched placed).bind fun spans =>
    spans.foldlM (fun bs s => st.primitive.applyAt d bs s.start) buffer

/-- **Run** the function for one direction: its statements in order. -/
def Conversion.run (placed : Placement) (d : Direction) (c : Conversion) (buffer : Bytes) :
    Option Bytes :=
  c.body.foldlM (Statement.run placed d) buffer

/-- A statement that touches spans of its primitive's width reverses them. -/
theorem Statement.run_eq_some {placed : Placement} {d : Direction} {buffer : Bytes}
    {st : Statement} {spans : List Span} (htouched : st.touched placed = some spans)
    (h : ∀ s ∈ spans, s.size = st.primitive.width ∧ s.stop ≤ buffer.length) :
    st.run placed d buffer = some (buffer.reverseSpans spans) := by
  rw [run, htouched, Option.bind_some, Primitive.foldlM_applyAt h]

/-- Statements that touch spans of their primitives' widths reverse all of them. -/
theorem foldlM_run_eq_some {placed : Placement} {d : Direction} {buffer : Bytes}
    {body : List Statement} {touched : List (List Span)}
    (htouched : List.Forall₂ (fun st spans => st.touched placed = some spans ∧
      ∀ s ∈ spans, s.size = st.primitive.width) body touched)
    (hstop : ∀ s ∈ touched.flatten, s.stop ≤ buffer.length) :
    body.foldlM (Statement.run placed d) buffer =
      some (buffer.reverseSpans touched.flatten) := by
  induction htouched generalizing buffer with
  | nil => rfl
  | @cons st spans body touched hst _ ih =>
      rw [List.flatten_cons] at hstop
      have hspans : ∀ s ∈ spans, s.stop ≤ buffer.length := fun s hs =>
        hstop s (List.mem_append_left _ hs)
      have hrun : st.run placed d buffer = some (buffer.reverseSpans spans) :=
        Statement.run_eq_some hst.1 fun s hs => ⟨hst.2 s hs, hspans s hs⟩
      have hrest : ∀ s ∈ touched.flatten, s.stop ≤ (buffer.reverseSpans spans).length :=
        fun s hs => by
          rw [Bytes.length_reverseSpans hspans]
          exact hstop s (List.mem_append_right _ hs)
      rw [List.foldlM_cons, hrun, List.flatten_cons, Bytes.reverseSpans_append]
      exact ih hrest

/-! ### Sound placements -/

/-- A placement is **sound** if names are distinct, regions have their sizes and lie one behind
the other inside of it, and the address of every shared storage leads there. -/
structure Placement.IsSound (model : DataModel) (extent : Text → Nat) (placed : Placement) :
    Prop where
  /-- No two regions have one name. -/
  names : placed.names.Nodup
  /-- Regions are of their sizes. -/
  sizes : ∀ r s, (r, s) ∈ placed → s.size = r.size model extent
  /-- Every region ends before the next one starts. -/
  apart : placed.Pairwise fun x y => x.2.stop ≤ y.2.start
  /-- Every region ends inside of the placement. -/
  inside : ∀ r s, (r, s) ∈ placed → s.stop ≤ placed.size
  /-- Shared storage is of the size of its type, and its address leads to its start. -/
  storage : ∀ first others storage address s, (.bits first others storage address, s) ∈ placed →
    model.bitStorage first.base = some storage ∧ address.resolve placed = some s.start

/-- Regions of grouped members with distinct ordinary names, one behind the other, are placed
soundly. -/
theorem isSound_consecutive {model : DataModel} {ms : List Member} {rs : List Region}
    (h : regions model ms = .ok rs)
    (hnames : ((ms.filter (!·.isBitField)).map Member.name).Nodup) (extent : Text → Nat) :
    (consecutive (Region.size model extent) 0 rs).IsSound model extent := by
  have hnodup : (consecutive (Region.size model extent) 0 rs).names.Nodup := by
    rw [names_consecutive]
    exact hnames.sublist (names_sublist_of_regionsFrom h)
  refine ⟨hnodup, fun r s hr => (of_mem_consecutive hr).2.2, pairwise_consecutive _ _ _,
    fun r s hr => ?_, fun first others storage address s hr => ⟨?_, ?_⟩⟩
  · have hstop := (of_mem_consecutive hr).2.1
    rwa [Nat.zero_add] at hstop
  · have hmem := List.mem_map_of_mem (f := Prod.fst) hr
    rw [map_fst_consecutive] at hmem
    exact bitStorage_of_mem_regionsFrom h hmem
  · exact resolve_of_mem_consecutive (List.nil_append _).symm hnodup rfl
      (addressedFrom_of_regionsFrom h) hr

namespace Placement

/-- **A statement converts its own region** from end to end, number by number. -/
theorem IsSound.touched_statement {model : DataModel} {extent : Text → Nat}
    {placed : Placement} (hp : placed.IsSound model extent) {r : Region} {s : Span}
    {st : Statement} (hr : (r, s) ∈ placed) (hst : r.statement? model = some st) :
    st.touched placed = some (s.cut st.primitive.width) ∧ st.primitive.width ∣ s.size := by
  obtain ⟨q, hq, rfl⟩ := Option.map_eq_some_iff.mp hst
  have hsize := hp.sizes r s hr
  -- a span of just the width is its own only part
  have hone : s.size = q.width → [(⟨s.start, q.width⟩ : Span)] = s.cut q.width := fun hw => by
    have hs : s = ⟨s.start, q.width⟩ := by rw [← hw]
    rw [hs, Span.cut_self q.width_pos]
  cases r with
  | scalar m =>
      have hq' : model.primitive m.base = some q := hq
      simp only [Region.size, hq'] at hsize
      refine ⟨?_, hsize ▸ Nat.dvd_refl _⟩
      simp only [Statement.touched, Statement.primitive, Placement.find?_eq_some hp.names hr rfl,
        Option.map_some, hone hsize]
  | array m =>
      have hq' : model.primitive m.base = some q := hq
      simp only [Region.size, hq'] at hsize
      refine ⟨?_, hsize ▸ Nat.dvd_mul_left _ _⟩
      simp only [Statement.touched, Statement.primitive, Placement.find?_eq_some hp.names hr rfl,
        Option.map_some]
  | bits first others storage address =>
      obtain ⟨hs, hresolve⟩ := hp.storage first others storage address s hr
      have hw := DataModel.width_primitive_of_bitStorage hs
      have hq' : model.primitive first.base = some q := hq
      rw [hq', Option.map_some] at hw
      have hsize' : s.size = q.width := hsize.trans (Option.some.inj hw).symm
      refine ⟨?_, hsize' ▸ Nat.dvd_refl _⟩
      simp only [Statement.touched, Statement.primitive, hresolve, Option.map_some, hone hsize']

end Placement

/-! ### Reversible conversions -/

/-- A conversion of the regions of a placement is **reversible**: storage, statements and
buffers are related as they should be, and the function for one direction undoes the function
for the other. -/
structure Conversion.IsReversible (model : DataModel) (placed : Placement) (c : Conversion) :
    Prop where
  /-- Shared storage has a primitive of its size, and its address leads to its start. -/
  storage : ∀ first others storage address s, (.bits first others storage address, s) ∈ placed →
    (∃ q, model.primitive first.base = some q ∧ q.width = storage) ∧
      address.resolve placed = some s.start
  /-- The statement of a region touches all of the region, in numbers of its width. -/
  own : ∀ r s st, (r, s) ∈ placed → r.statement? model = some st →
    st.touched placed = some (s.cut st.primitive.width) ∧ st.primitive.width ∣ s.size
  /-- All places that the statements name exist. The spans there do not overlap and lie in the
  structure. Both functions reverse these spans and keep every other byte. -/
  spans : ∃ touched : List (List Span),
    List.Forall₂ (fun st spans => st.touched placed = some spans) c.body touched ∧
    touched.flatten.Pairwise Span.Disjoint ∧
    (∀ s ∈ touched.flatten, s.stop ≤ placed.size) ∧
    ∀ d buffer, buffer.length = placed.size →
      ∃ converted, c.run placed d buffer = some converted ∧
        converted.length = buffer.length ∧
        (∀ s ∈ touched.flatten, ∀ i ∈ s, converted[i]? = buffer[s.mirror i]?) ∧
        ∀ i, (∀ s ∈ touched.flatten, i ∉ s) → converted[i]? = buffer[i]?
  /-- Running one function and then either restores the buffer. -/
  restores : ∀ d d' buffer, buffer.length = placed.size →
    (c.run placed d buffer).bind (c.run placed d') = some buffer

namespace Placement

/-- The statements that convert the regions of a placement. -/
def statements (model : DataModel) (placed : Placement) : List Statement :=
  placed.filterMap fun x => x.1.statement? model

/-- The spans that the regions of a placement are converted in. -/
def converted (model : DataModel) (placed : Placement) : List (List Span) :=
  placed.filterMap fun x => (x.1.statement? model).map fun st => x.2.cut st.primitive.width

/-- Every converted span is part of a region of the placement. -/
theorem exists_of_mem_converted {model : DataModel} {placed : Placement} {spans : List Span}
    (h : spans ∈ placed.converted model) :
    ∃ r s width, (r, s) ∈ placed ∧ spans = s.cut width := by
  obtain ⟨⟨r, s⟩, hr, hspans⟩ := List.mem_filterMap.mp h
  obtain ⟨st, -, rfl⟩ := Option.map_eq_some_iff.mp hspans
  exact ⟨r, s, st.primitive.width, hr, rfl⟩

/-- The statements of a sound placement touch the spans that its regions are converted in. -/
theorem IsSound.forall₂_touched {model : DataModel} {extent : Text → Nat} {placed : Placement}
    (hp : placed.IsSound model extent) :
    List.Forall₂ (fun st spans => st.touched placed = some spans ∧
        ∀ s ∈ spans, s.size = st.primitive.width)
      (placed.statements model) (placed.converted model) := by
  have hpart : ∀ part : Placement, (∀ x ∈ part, x ∈ placed) →
      List.Forall₂ (fun st spans => st.touched placed = some spans ∧
          ∀ s ∈ spans, s.size = st.primitive.width)
        (statements model part) (converted model part) := by
    intro part hsub
    induction part with
    | nil => exact List.Forall₂.nil
    | cons x part ih =>
        have hrest := ih fun y hy => hsub y (List.mem_cons_of_mem x hy)
        cases hst : x.1.statement? model with
        | none =>
            simp only [statements, converted, List.filterMap_cons, hst, Option.map_none]
            exact hrest
        | some st =>
            simp only [statements, converted, List.filterMap_cons, hst, Option.map_some]
            have htouched := (hp.touched_statement (hsub x List.mem_cons_self) hst).1
            exact List.Forall₂.cons ⟨htouched, fun s hs => (Span.of_mem_cut hs).1⟩ hrest
  exact hpart placed fun x hx => hx

/-- The spans of a sound placement's conversion do not overlap. -/
theorem IsSound.pairwise_converted {model : DataModel} {extent : Text → Nat}
    {placed : Placement} (hp : placed.IsSound model extent) :
    (placed.converted model).flatten.Pairwise Span.Disjoint := by
  refine List.pairwise_flatten.mpr ⟨fun spans hspans => ?_, ?_⟩
  · obtain ⟨_, s, width, -, rfl⟩ := exists_of_mem_converted hspans
    exact s.pairwise_cut width
  · -- regions end before the next one starts, and spans stay in their regions
    refine List.pairwise_filterMap.mpr (hp.apart.imp fun {x y} hxy spans hx spans' hy => ?_)
    obtain ⟨st, -, rfl⟩ := Option.map_eq_some_iff.mp hx
    obtain ⟨st', -, rfl⟩ := Option.map_eq_some_iff.mp hy
    intro s hs s' hs'
    have hstop := (Span.of_mem_cut hs).2.2
    have hstart := (Span.of_mem_cut hs').2.1
    exact Or.inl (by omega)

/-- The spans of a sound placement's conversion lie in the structure. -/
theorem IsSound.stop_le_of_mem_converted {model : DataModel} {extent : Text → Nat}
    {placed : Placement} (hp : placed.IsSound model extent) :
    ∀ s ∈ (placed.converted model).flatten, s.stop ≤ placed.size := by
  intro t ht
  obtain ⟨spans, hspans, ht⟩ := List.mem_flatten.mp ht
  obtain ⟨r, s, width, hr, rfl⟩ := exists_of_mem_converted hspans
  exact Nat.le_trans (Span.of_mem_cut ht).2.2 (hp.inside r s hr)

/-- **The conversion of a sound placement is reversible.** -/
theorem IsSound.isReversible {model : DataModel} {extent : Text → Nat} {placed : Placement}
    (hp : placed.IsSound model extent) {c : Conversion}
    (hc : c.body = placed.statements model) :
    c.IsReversible model placed := by
  have htouched := hp.forall₂_touched
  rw [← hc] at htouched
  have hstop : ∀ buffer : Bytes, buffer.length = placed.size →
      ∀ s ∈ (placed.converted model).flatten, s.stop ≤ buffer.length := fun buffer hlen s hs => by
    rw [hlen]
    exact hp.stop_le_of_mem_converted s hs
  have hrun : ∀ d buffer, buffer.length = placed.size →
      c.run placed d buffer = some (buffer.reverseSpans (placed.converted model).flatten) :=
    fun d buffer hlen => foldlM_run_eq_some htouched (hstop buffer hlen)
  refine ⟨fun first others storage address s hr => ?_,
    fun r s st hr hst => hp.touched_statement hr hst,
    ⟨placed.converted model, htouched.imp fun _ _ h => h.1, hp.pairwise_converted,
      hp.stop_le_of_mem_converted, fun d buffer hlen => ?_⟩, fun d d' buffer hlen => ?_⟩
  · obtain ⟨hs, hresolve⟩ := hp.storage first others storage address s hr
    exact ⟨Option.map_eq_some_iff.mp (DataModel.width_primitive_of_bitStorage hs), hresolve⟩
  · refine ⟨_, hrun d buffer hlen, Bytes.length_reverseSpans (hstop buffer hlen), ?_, ?_⟩
    · intro s hs i hi
      exact Bytes.getElem?_reverseSpans_of_mem (hstop buffer hlen) hp.pairwise_converted hs hi
    · intro i hi
      exact Bytes.getElem?_reverseSpans_of_forall_not_mem (hstop buffer hlen) hi
  · have hlen' : (buffer.reverseSpans (placed.converted model).flatten).length = placed.size := by
      rw [Bytes.length_reverseSpans (hstop buffer hlen), hlen]
    rw [hrun d buffer hlen, Option.bind_some, hrun d' _ hlen',
      Bytes.reverseSpans_reverseSpans (hstop buffer hlen) hp.pairwise_converted]

end Placement

/-- **The functions for packed members are reversible.** Whatever list of members the packer
accepts, if its ordinary members have distinct names, it can be cut into regions; and laid out
one behind the other with any extents, the regions are converted by two functions of which
each undoes the other. -/
theorem pack_isReversible {model : DataModel} {ms grouped : List Member} {n : Nat}
    (h : pack model ms = .ok (grouped, n))
    (hnames : ((ms.filter (!·.isBitField)).map Member.name).Nodup) (extent : Text → Nat)
    (tag : Text) (noThrow : Bool) :
    ∃ rs, regions model grouped = .ok rs ∧
      (Conversion.ofRegions model tag noThrow rs).IsReversible model
        (consecutive (Region.size model extent) 0 rs) := by
  obtain ⟨rs, hrs⟩ := exists_regionsFrom {} grouped (bitStorage_of_mem_pack h)
  have hgrouped : ((grouped.filter (!·.isBitField)).map Member.name).Nodup := by
    rw [map_name_filter_of_forall₂ (pack_forall₂ h)]
    exact hnames
  refine ⟨rs, hrs, (isSound_consecutive hrs hgrouped extent).isReversible ?_⟩
  conv_lhs => rw [← map_fst_consecutive (Region.size model extent) 0 rs]
  rw [Conversion.ofRegions, List.filterMap_map]
  rfl

/-- Members of all kinds: storage at the start of the structure, an array, a member that is not
converted, and two storages behind it. -/
def mixedMembers : List Member :=
  [{ name := "a", base := .short, bits := 3 }, { name := "x", base := .int, isArray := true },
    { name := "c", base := .char }, { name := "u", base := .long, bits := 20 },
    { name := "v", base := .long, bits := 12 }, { name := "w", base := .longLong, bits := 40 }]

/-- Members of all kinds are converted reversibly. -/
theorem pack_isReversible_mixedMembers :
    pack {} mixedMembers =
      .ok (List.zipWith Member.inGroup mixedMembers [1, 2, 3, 4, 4, 5], 5) ∧
    ((mixedMembers.filter (!·.isBitField)).map Member.name).Nodup ∧
    ∃ rs, regions {} (List.zipWith Member.inGroup mixedMembers [1, 2, 3, 4, 4, 5]) = .ok rs ∧
      (Conversion.ofRegions {} "S" false rs).IsReversible {}
        (consecutive (Region.size {} fun _ => 2) 0 rs) := by
  have hpack : pack {} mixedMembers =
      .ok (List.zipWith Member.inGroup mixedMembers [1, 2, 3, 4, 4, 5], 5) := by decide
  have hnames : ((mixedMembers.filter (!·.isBitField)).map Member.name).Nodup := by decide
  exact ⟨hpack, hnames, pack_isReversible hpack hnames (fun _ => 2) "S" false⟩

/-- A number behind a member that is not converted. -/
example :
    (Conversion.mk "S" false [.storage "int" (.after "c") .long]).run
      [(.scalar { name := "c", base := .char }, ⟨0, 1⟩),
        (.bits { name := "u", base := .int, bits := 4 } [] 4 (.after "c"), ⟨1, 4⟩)]
      .toBig [9, 1, 2, 3, 4] = some [9, 4, 3, 2, 1] := by
  decide

end StructEndian
