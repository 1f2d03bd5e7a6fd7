import Mathlib.Data.List.Basic
import StructEndian.Primitive

/-!
# Converting spans of a buffer

A conversion function works on parts of a buffer: it applies a primitive to the bytes of one
number after the other. Each application reverses a span of bytes. If the spans lie in the
buffer and no two of them overlap, the order in which they are reversed does not matter, and
reversing all of them twice changes nothing.

## Main definitions

* `Span`: consecutive bytes of a buffer, with `Span.mirror` for their reversal and `Span.cut`
  for the numbers of one width in them.
* `Bytes.reverseSpan`, `Bytes.reverseSpans`: a buffer with one or several spans reversed.
* `Primitive.applyAt`: a primitive applied inside a buffer.

## Main results

* `Bytes.getElem?_reverseSpans_of_mem`, `Bytes.getElem?_reverseSpans_of_forall_not_mem`: where
  every byte goes.
* `Bytes.reverseSpans_reverseSpans`: disjoint spans are restored by a second reversal.
* `Primitive.foldlM_applyAt`: applying a primitive to spans reverses them.
-/

namespace StructEndian

/-- A **span** of consecutive bytes. -/
structure Span where
  /-- The place of the first byte. -/
  start : Nat
  /-- The number of bytes. -/
  size : Nat
deriving DecidableEq, Repr

namespace Span

/-- The place behind the last byte. -/
def stop (s : Span) : Nat :=
  s.start + s.size

/-- A place belongs to a span if one of its bytes is there. -/
instance : Membership Nat Span :=
  ⟨fun s i => s.start ≤ i ∧ i < s.stop⟩

theorem mem_iff {s : Span} {i : Nat} : i ∈ s ↔ s.start ≤ i ∧ i < s.stop :=
  Iff.rfl

/-- Two spans are **disjoint** if one of them ends where the other starts, or earlier. -/
def Disjoint (s t : Span) : Prop :=
  s.stop ≤ t.start ∨ t.stop ≤ s.start

/-- The place that the byte at `i` comes from when the span is reversed. -/
def mirror (s : Span) (i : Nat) : Nat :=
  s.start + (s.stop - 1 - i)

/-- The spans of `width` bytes, one behind the other, that fit into a span. -/
def cut (s : Span) (width : Nat) : List Span :=
  (List.range (s.size / width)).map fun k => ⟨s.start + k * width, width⟩

/-- Reversing keeps places in the span. -/
theorem mirror_mem {s : Span} {i : Nat} (h : i ∈ s) : s.mirror i ∈ s := by
  rw [mem_iff, stop] at h ⊢
  rw [mirror, stop]
  omega

/-- Reversing twice leads back. -/
theorem mirror_mirror {s : Span} {i : Nat} (h : i ∈ s) : s.mirror (s.mirror i) = i := by
  rw [mem_iff, stop] at h
  rw [mirror, mirror, stop]
  omega

/-- Disjoint spans have no place in common. -/
theorem Disjoint.not_mem {s t : Span} {i : Nat} (h : s.Disjoint t) (hs : i ∈ s) : i ∉ t := by
  intro ht
  rw [mem_iff] at hs ht
  rcases h with h | h <;> omega

/-! ### Cutting -/

/-- The spans that are cut out have the given width and lie in the span. -/
theorem of_mem_cut {s t : Span} {width : Nat} (h : t ∈ s.cut width) :
    t.size = width ∧ s.start ≤ t.start ∧ t.stop ≤ s.stop := by
  obtain ⟨k, hk, rfl⟩ := List.mem_map.mp h
  have hlt := List.mem_range.mp hk
  have hle : (k + 1) * width ≤ s.size :=
    Nat.le_trans (Nat.mul_le_mul_right width hlt) (Nat.div_mul_le_self s.size width)
  refine ⟨rfl, Nat.le_add_right _ _, ?_⟩
  rw [Nat.succ_mul] at hle
  simp only [stop]
  omega

/-- The spans that are cut out do not overlap. -/
theorem pairwise_cut (s : Span) (width : Nat) : (s.cut width).Pairwise Disjoint := by
  refine List.pairwise_map.mpr (List.pairwise_lt_range.imp fun {j k} hjk => Or.inl ?_)
  have hle : (j + 1) * width ≤ k * width := Nat.mul_le_mul_right width hjk
  rw [Nat.succ_mul] at hle
  simp only [stop]
  omega

/-- A span of just the width is cut into itself. -/
theorem cut_self {start width : Nat} (h : 0 < width) :
    (⟨start, width⟩ : Span).cut width = [⟨start, width⟩] := by
  simp [cut, Nat.div_self h]

end Span

namespace Bytes

/-- A buffer with the bytes of one span reversed. -/
def reverseSpan (bs : Bytes) (s : Span) : Bytes :=
  bs.take s.start ++ ((bs.drop s.start).take s.size).reverse ++ bs.drop s.stop

/-- A buffer with the bytes of several spans reversed, one span after the other. -/
def reverseSpans (bs : Bytes) (spans : List Span) : Bytes :=
  spans.foldl reverseSpan bs

/-! ### One span -/

@[simp] theorem length_reverseSpan {bs : Bytes} {s : Span} (h : s.stop ≤ bs.length) :
    (bs.reverseSpan s).length = bs.length := by
  rw [Span.stop] at h
  simp only [reverseSpan, Span.stop, List.length_append, List.length_take, List.length_reverse,
    List.length_drop]
  omega

/-- Inside the span a byte comes from its mirror place. -/
theorem getElem?_reverseSpan_of_mem {bs : Bytes} {s : Span} {i : Nat}
    (h : s.stop ≤ bs.length) (hi : i ∈ s) : (bs.reverseSpan s)[i]? = bs[s.mirror i]? := by
  rw [Span.stop] at h
  rw [Span.mem_iff, Span.stop] at hi
  have htake : (bs.take s.start).length = s.start := by
    rw [List.length_take]
    omega
  have hmid : ((bs.drop s.start).take s.size).length = s.size := by
    rw [List.length_take, List.length_drop]
    omega
  rw [reverseSpan, List.getElem?_append_left (by
      rw [List.length_append, htake, List.length_reverse, hmid]; omega),
    List.getElem?_append_right (by omega), htake, List.getElem?_reverse (by omega), hmid,
    List.getElem?_take_of_lt (by omega), List.getElem?_drop]
  congr 1
  rw [Span.mirror, Span.stop]
  omega

/-- Outside the span nothing changes. -/
theorem getElem?_reverseSpan_of_not_mem {bs : Bytes} {s : Span} {i : Nat}
    (h : s.stop ≤ bs.length) (hi : i ∉ s) : (bs.reverseSpan s)[i]? = bs[i]? := by
  rw [Span.stop] at h
  rw [Span.mem_iff, Span.stop] at hi
  have htake : (bs.take s.start).length = s.start := by
    rw [List.length_take]
    omega
  have hmid : (((bs.drop s.start).take s.size).reverse).length = s.size := by
    rw [List.length_reverse, List.length_take, List.length_drop]
    omega
  rw [reverseSpan, List.append_assoc]
  rcases Nat.lt_or_ge i s.start with hlt | hge
  · rw [List.getElem?_append_left (by omega), List.getElem?_take_of_lt hlt]
  · rw [List.getElem?_append_right (by omega), List.getElem?_append_right (by omega), htake, hmid,
      List.getElem?_drop]
    congr 1
    rw [Span.stop]
    omega

/-! ### Several spans -/

theorem reverseSpans_append (bs : Bytes) (spans spans' : List Span) :
    bs.reverseSpans (spans ++ spans') = (bs.reverseSpans spans).reverseSpans spans' :=
  List.foldl_append

theorem length_reverseSpans {bs : Bytes} {spans : List Span}
    (h : ∀ s ∈ spans, s.stop ≤ bs.length) : (bs.reverseSpans spans).length = bs.length := by
  induction spans generalizing bs with
  | nil => rfl
  | cons s spans ih =>
      have hs := h s List.mem_cons_self
      have hlen : (bs.reverseSpan s).length = bs.length := length_reverseSpan hs
      have hrest : ∀ t ∈ spans, t.stop ≤ (bs.reverseSpan s).length := fun t ht => by
        rw [hlen]
        exact h t (List.mem_cons_of_mem s ht)
      exact (ih hrest).trans hlen

/-- A byte in no span stays where it is. -/
theorem getElem?_reverseSpans_of_forall_not_mem {bs : Bytes} {spans : List Span} {i : Nat}
    (h : ∀ s ∈ spans, s.stop ≤ bs.length) (hi : ∀ s ∈ spans, i ∉ s) :
    (bs.reverseSpans spans)[i]? = bs[i]? := by
  induction spans generalizing bs with
  | nil => rfl
  | cons s spans ih =>
      have hs := h s List.mem_cons_self
      have hrest : ∀ t ∈ spans, t.stop ≤ (bs.reverseSpan s).length := fun t ht => by
        rw [length_reverseSpan hs]
        exact h t (List.mem_cons_of_mem s ht)
      calc (bs.reverseSpans (s :: spans))[i]?
          = (bs.reverseSpan s)[i]? := ih hrest fun t ht => hi t (List.mem_cons_of_mem s ht)
        _ = bs[i]? := getElem?_reverseSpan_of_not_mem hs (hi s List.mem_cons_self)

/-- A byte in one of several disjoint spans comes from its mirror place there. -/
theorem getElem?_reverseSpans_of_mem {bs : Bytes} {spans : List Span} {s : Span} {i : Nat}
    (h : ∀ s ∈ spans, s.stop ≤ bs.length) (hd : spans.Pairwise Span.Disjoint)
    (hs : s ∈ spans) (hi : i ∈ s) : (bs.reverseSpans spans)[i]? = bs[s.mirror i]? := by
  induction spans generalizing bs with
  | nil => exact absurd hs List.not_mem_nil
  | cons t spans ih =>
      obtain ⟨ht, hd⟩ := List.pairwise_cons.mp hd
      have hstop := h t List.mem_cons_self
      have hrest : ∀ u ∈ spans, u.stop ≤ (bs.reverseSpan t).length := fun u hu => by
        rw [length_reverseSpan hstop]
        exact h u (List.mem_cons_of_mem t hu)
      rcases List.mem_cons.mp hs with rfl | hs
      · calc (bs.reverseSpans (s :: spans))[i]?
            = (bs.reverseSpan s)[i]? :=
              getElem?_reverseSpans_of_forall_not_mem hrest fun u hu => (ht u hu).not_mem hi
          _ = bs[s.mirror i]? := getElem?_reverseSpan_of_mem hstop hi
      · calc (bs.reverseSpans (t :: spans))[i]?
            = (bs.reverseSpan t)[s.mirror i]? := ih hrest hd hs
          _ = bs[s.mirror i]? := getElem?_reverseSpan_of_not_mem hstop fun hmem =>
              (ht s hs).not_mem hmem (Span.mirror_mem hi)

/-- **Reversing disjoint spans twice** restores the buffer. -/
theorem reverseSpans_reverseSpans {bs : Bytes} {spans : List Span}
    (h : ∀ s ∈ spans, s.stop ≤ bs.length) (hd : spans.Pairwise Span.Disjoint) :
    (bs.reverseSpans spans).reverseSpans spans = bs := by
  have h' : ∀ s ∈ spans, s.stop ≤ (bs.reverseSpans spans).length := fun s hs => by
    rw [length_reverseSpans h]
    exact h s hs
  refine List.ext_getElem? fun i => ?_
  by_cases hi : ∃ s ∈ spans, i ∈ s
  · obtain ⟨s, hs, hi⟩ := hi
    rw [getElem?_reverseSpans_of_mem h' hd hs hi,
      getElem?_reverseSpans_of_mem h hd hs (Span.mirror_mem hi), Span.mirror_mirror hi]
  · have hno : ∀ s ∈ spans, i ∉ s := fun s hs hmem => hi ⟨s, hs, hmem⟩
    rw [getElem?_reverseSpans_of_forall_not_mem h' hno,
      getElem?_reverseSpans_of_forall_not_mem h hno]

end Bytes

/-! ### Applying primitives -/

namespace Primitive

/-- Apply a primitive to the bytes of a buffer from `start` on. There is no result if the
buffer ends too early. -/
def applyAt (q : Primitive) (d : Direction) (buffer : Bytes) (start : Nat) : Option Bytes :=
  match q.apply d (buffer.drop start) with
  | (true, tail) => some (buffer.take start ++ tail)
  | (false, _) => none

theorem width_pos (q : Primitive) : 0 < q.width := by
  cases q <;> decide

/-- A primitive that finds enough bytes reverses them. -/
theorem applyAt_eq_some {q : Primitive} {d : Direction} {buffer : Bytes} {start : Nat}
    (h : start + q.width ≤ buffer.length) :
    q.applyAt d buffer start = some (buffer.reverseSpan ⟨start, q.width⟩) := by
  have hle : q.width ≤ (buffer.drop start).length := by
    rw [List.length_drop]
    omega
  simp only [applyAt, apply, if_pos hle, convert_eq_reverse, Bytes.reverseSpan, Span.stop,
    List.drop_drop, List.append_assoc]

/-- **Applying a primitive to spans** of its width, one after the other, reverses them. -/
theorem foldlM_applyAt {q : Primitive} {d : Direction} {buffer : Bytes} {spans : List Span}
    (h : ∀ s ∈ spans, s.size = q.width ∧ s.stop ≤ buffer.length) :
    spans.foldlM (fun bs s => q.applyAt d bs s.start) buffer =
      some (buffer.reverseSpans spans) := by
  induction spans generalizing buffer with
  | nil => rfl
  | cons s spans ih =>
      obtain ⟨hsize, hstop⟩ := h s List.mem_cons_self
      have hspan : (⟨s.start, q.width⟩ : Span) = s := by rw [← hsize]
      have hfirst : q.applyAt d buffer s.start = some (buffer.reverseSpan s) := by
        rw [applyAt_eq_some (by rw [← hsize]; exact hstop), hspan]
      rw [List.foldlM_cons, hfirst]
      refine ih fun t ht => ⟨(h t (List.mem_cons_of_mem s ht)).1, ?_⟩
      rw [Bytes.length_reverseSpan hstop]
      exact (h t (List.mem_cons_of_mem s ht)).2

end Primitive

end StructEndian
