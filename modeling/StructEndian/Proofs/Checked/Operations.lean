import Mathlib.Algebra.GroupWithZero.Nat
import StructEndian.Packing
import StructEndian.Proofs.Result

/-!
# Operations that may be out of range

The library counts bits in natural numbers and takes texts apart as lists of characters, so none of
its operations can be out of range. On a machine the counts are words, and the parts of a text are cut
out at byte offsets: a sum may not fit into a word, and an offset may stand inside a character or
behind the text's end. Here are these operations with their ranges checked. An operation that is out
of range stops the computation, so that a computation with a result has kept all of the ranges.

## Main definitions

* `Stop`: why a computation on a machine has no result.
* `Checked.word`, `Checked.add`, `Checked.sum`: words of 32 bits.
* `Checked.slice`: the part of a text between two byte offsets.

## Main results

* `Checked.sum_eq_ok_iff`: a sum is in range exactly if that of the numbers is a word.
* `Checked.slice_eq_ok_iff`: a slice is in range exactly if the offsets part the text in three.
-/

namespace StructEndian

/-- Why a computation on a machine **stops** without a result. -/
inductive Stop
  /-- A bit-field cannot be converted. -/
  | unsupported (e : UnsupportedBitField)
  /-- An operation is out of its range. -/
  | outOfRange
deriving DecidableEq, Repr

namespace Checked

/-! ### Words -/

/-- The **word** of 32 bits for a number. -/
def word (n : Nat) : Except Stop UInt32 :=
  if n < UInt32.size then .ok (.ofNat n) else .error .outOfRange

theorem word_eq_ok_iff {n : Nat} {w : UInt32} : word n = .ok w ↔ w.toNat = n := by
  rw [word]
  constructor
  · intro h
    split at h
    · next hlt =>
        rw [← Except.ok.inj h, UInt32.toNat_ofNat_of_lt' hlt]
    · cases h
  · rintro rfl
    rw [if_pos w.toNat_lt_size, UInt32.ofNat_toNat]

/-- Every number below the size of words has one. -/
theorem exists_word {n : Nat} (h : n < UInt32.size) : ∃ w, word n = .ok w ∧ w.toNat = n :=
  ⟨.ofNat n, if_pos h, UInt32.toNat_ofNat_of_lt' h⟩

/-- **Add** two words. -/
def add (a b : UInt32) : Except Stop UInt32 :=
  word (a.toNat + b.toNat)

theorem add_eq_ok_iff {a b c : UInt32} : add a b = .ok c ↔ c.toNat = a.toNat + b.toNat :=
  word_eq_ok_iff

/-- **Sum** numbers up from the left, each of them as a word. -/
def sum (ns : List Nat) : Except Stop UInt32 :=
  ns.foldlM (fun a n => word n >>= add a) 0

theorem foldlM_add_eq_ok_iff {a w : UInt32} {ns : List Nat} :
    ns.foldlM (fun a n => word n >>= add a) a = .ok w ↔ w.toNat = a.toNat + ns.sum := by
  induction ns generalizing a with
  | nil =>
      rw [List.foldlM_nil, List.sum_nil, Nat.add_zero, UInt32.toNat_inj]
      exact ⟨fun h => (Except.ok.inj h).symm, fun h => h ▸ rfl⟩
  | cons n ns ih =>
      rw [List.foldlM_cons, List.sum_cons, Except.bind_eq_ok_iff]
      constructor
      · rintro ⟨c, hc, h⟩
        obtain ⟨b, hword, hadd⟩ := Except.bind_eq_ok_iff.mp hc
        rw [ih.mp h, add_eq_ok_iff.mp hadd, word_eq_ok_iff.mp hword, Nat.add_assoc]
      · intro h
        -- the sum so far is not larger than the one in the end, which is a word
        have hlt := w.toNat_lt_size
        obtain ⟨b, hword, hb⟩ := exists_word (show n < UInt32.size by omega)
        obtain ⟨c, hadd, hc⟩ := exists_word (show a.toNat + b.toNat < UInt32.size by omega)
        exact ⟨c, Except.bind_eq_ok_iff.mpr ⟨b, hword, hadd⟩, ih.mpr (by omega)⟩

/-- **A sum** is in range exactly if the sum of the numbers is a word, and then it is that one. -/
theorem sum_eq_ok_iff {ns : List Nat} {w : UInt32} : sum ns = .ok w ↔ w.toNat = ns.sum := by
  rw [sum, foldlM_add_eq_ok_iff]
  simp

/-! ### Slices -/

/-- Cut a text in two behind its first `n` bytes. There is no such place if the text is shorter, and
none if the bytes end inside a character. -/
def cutAt : Nat → Text → Except Stop (Text × Text)
  | 0, s => .ok ([], s)
  | _ + 1, [] => .error .outOfRange
  | n + 1, c :: s =>
      if c.utf8Size ≤ n + 1 then (cutAt (n + 1 - c.utf8Size) s).map fun (t, rest) => (c :: t, rest)
      else .error .outOfRange

/-- The **slice** of a text from the byte offset `start` to the byte offset `stop`. -/
def slice (s : Text) (start stop : Nat) : Except Stop Text :=
  if start ≤ stop then do
    let (_, rest) ← cutAt start s
    let (t, _) ← cutAt (stop - start) rest
    return t
  else .error .outOfRange

/-- **A cut** is in range exactly if it is between two characters. -/
theorem cutAt_eq_ok_iff {n : Nat} {s t rest : Text} :
    cutAt n s = .ok (t, rest) ↔ s = t ++ rest ∧ t.utf8Width = n := by
  induction s generalizing n t with
  | nil =>
      cases n with
      | zero =>
          simp only [cutAt, Except.ok.injEq, Prod.mk.injEq, List.nil_eq, List.append_eq_nil_iff]
          constructor
          · rintro ⟨rfl, rfl⟩
            exact ⟨⟨rfl, rfl⟩, rfl⟩
          · rintro ⟨⟨rfl, rfl⟩, -⟩
            exact ⟨rfl, rfl⟩
      | succ n =>
          simp only [cutAt, reduceCtorEq, false_iff, not_and]
          intro hnil
          rw [(List.append_eq_nil_iff.mp hnil.symm).1, Text.utf8Width_nil]
          exact (Nat.succ_ne_zero n).symm
  | cons c s ih =>
      have hc := c.utf8Size_pos
      cases n with
      | zero =>
          simp only [cutAt, Except.ok.injEq, Prod.mk.injEq]
          constructor
          · rintro ⟨rfl, rfl⟩
            exact ⟨rfl, rfl⟩
          · rintro ⟨hs, ht⟩
            cases t with
            | nil => exact ⟨rfl, hs⟩
            | cons d t =>
                obtain ⟨rfl, -⟩ := List.cons.inj hs
                rw [Text.utf8Width_cons] at ht
                omega
      | succ n =>
          rw [cutAt]
          constructor
          · intro h
            split at h
            · next hle =>
                obtain ⟨⟨t', rest'⟩, hcut, heq⟩ := Except.map_eq_ok_iff.mp h
                obtain ⟨rfl, rfl⟩ := Prod.mk.inj heq
                obtain ⟨rfl, hwidth⟩ := ih.mp hcut
                rw [Text.utf8Width_cons, hwidth]
                exact ⟨rfl, by omega⟩
            · cases h
          · rintro ⟨hs, ht⟩
            cases t with
            | nil => exact absurd ht (Nat.succ_ne_zero n).symm
            | cons d t =>
                rw [List.cons_append] at hs
                obtain ⟨rfl, rfl⟩ := List.cons.inj hs
                rw [Text.utf8Width_cons] at ht
                have hcut : cutAt (n + 1 - c.utf8Size) (t ++ rest) = .ok (t, rest) :=
                  ih.mpr ⟨rfl, by omega⟩
                rw [if_pos (by omega), hcut, Except.ok_map]

/-- **A slice** is in range exactly if the two offsets part the text in three, and then it is the
part in the middle: the offsets are in order, inside the text and between characters. -/
theorem slice_eq_ok_iff {s t : Text} {start stop : Nat} :
    slice s start stop = .ok t ↔ ∃ before after, s = before ++ t ++ after ∧
      before.utf8Width = start ∧ (before ++ t).utf8Width = stop := by
  rw [slice]
  constructor
  · intro h
    split at h
    · next hle =>
        obtain ⟨⟨before, rest⟩, hbefore, h⟩ := Except.bind_eq_ok_iff.mp h
        obtain ⟨⟨t', after⟩, ht, heq⟩ := Except.bind_eq_ok_iff.mp h
        obtain rfl := Except.ok.inj heq
        obtain ⟨rfl, hstart⟩ := cutAt_eq_ok_iff.mp hbefore
        obtain ⟨rfl, hstop⟩ := cutAt_eq_ok_iff.mp ht
        refine ⟨before, after, (List.append_assoc _ _ _).symm, hstart, ?_⟩
        rw [Text.utf8Width_append]
        omega
    · cases h
  · rintro ⟨before, after, rfl, rfl, rfl⟩
    rw [Text.utf8Width_append, if_pos (Nat.le_add_right _ _), Nat.add_sub_cancel_left,
      List.append_assoc]
    have hbefore : cutAt before.utf8Width (before ++ (t ++ after)) = .ok (before, t ++ after) :=
      cutAt_eq_ok_iff.mpr ⟨rfl, rfl⟩
    have ht : cutAt t.utf8Width (t ++ after) = .ok (t, after) := cutAt_eq_ok_iff.mpr ⟨rfl, rfl⟩
    rw [hbefore, Except.ok_bind]
    exact Except.bind_eq_ok_iff.mpr ⟨_, ht, rfl⟩

/-- The part in the middle of three is a slice. -/
theorem slice_of_eq_append {s before t : Text} (after : Text) (h : s = before ++ t ++ after) :
    slice s before.utf8Width (before ++ t).utf8Width = .ok t :=
  slice_eq_ok_iff.mpr ⟨before, after, h, rfl, rfl⟩

end Checked

end StructEndian
