import Mathlib.Algebra.Ring.Parity
import StructEndian.Proofs.Checked.Operations
import StructEndian.Proofs.Memory.Span

/-!
# Reversing the byte order

A primitive goes through a number: it reads the front of a buffer in one byte order and writes the
number back in the other. Here it is described by the bytes. The front of a buffer that is long
enough is reversed and all behind it stays, so both directions do the same, a second application
undoes the first, and of many applications only their parity counts. A buffer that is too short is
left alone by all of them.

The number that is read in between is a natural number. On a machine it is a word of 64 bits, which is
written only if it fits into the bytes that are there. No primitive is wider than a word, so nothing
is cut off on the way and the word always fits.

## Main definitions

* `Bytes.reverseFront`: a buffer with its front reversed.
* `Primitive.applyAll`: a primitive applied again and again.
* `Primitive.Reverses`: what an application has to do with a buffer.
* `Checked.convert`, `Checked.apply`: a primitive with words of 64 bits.

## Main results

* `Primitive.involutive_swap`: a second application undoes the first.
* `Checked.apply_eq`: the word is always in range.
* `Primitive.apply_reverses`: an application reverses the front of a buffer, and many of them reverse
  it or restore it.
-/

namespace StructEndian

namespace Bytes

variable {n : Nat} {bs : Bytes}

/-! ### The front of a buffer -/

/-- A buffer with its first `n` bytes **reversed**. -/
def reverseFront (n : Nat) (bs : Bytes) : Bytes :=
  (bs.take n).reverse ++ bs.drop n

theorem length_reverseFront (n : Nat) (bs : Bytes) : (reverseFront n bs).length = bs.length := by
  rw [reverseFront, List.length_append, List.length_reverse, ← List.length_append,
    List.take_append_drop]

/-- The front is as long as before. -/
theorem length_reverse_take (h : n ≤ bs.length) : (bs.take n).reverse.length = n := by
  rw [List.length_reverse, List.length_take_of_le h]

theorem take_reverseFront (h : n ≤ bs.length) : (reverseFront n bs).take n = (bs.take n).reverse :=
  List.take_left' (length_reverse_take h)

theorem drop_reverseFront (h : n ≤ bs.length) : (reverseFront n bs).drop n = bs.drop n :=
  List.drop_left' (length_reverse_take h)

/-- **Reversing the front twice** restores the buffer. -/
theorem reverseFront_reverseFront (h : n ≤ bs.length) : reverseFront n (reverseFront n bs) = bs := by
  rw [reverseFront, take_reverseFront h, drop_reverseFront h, List.reverse_reverse,
    List.take_append_drop]

/-! ### Values -/

/-- The number that a buffer holds is small enough for its bytes. -/
theorem littleValue_lt (bs : Bytes) : littleValue bs < 256 ^ bs.length := by
  induction bs with
  | nil => exact Nat.one_pos
  | cons b bs ih =>
      have hb : b.toNat < 256 := b.toNat_lt
      rw [littleValue, List.length_cons, Nat.pow_succ]
      omega

theorem bigValue_lt (bs : Bytes) : bigValue bs < 256 ^ bs.length := by
  rw [← littleValue_reverse, ← List.length_reverse]
  exact littleValue_lt bs.reverse

end Bytes

/-! ### One number after the other -/

namespace Primitive

open Bytes

/-- A buffer behind one application of a primitive, in either direction. -/
def swap (q : Primitive) (buffer : Bytes) : Bytes :=
  if q.width ≤ buffer.length then buffer.reverseFront q.width else buffer

/-- An application **swaps** the bytes, if there are enough of them, and says so. -/
theorem apply_eq (q : Primitive) (d : Direction) (buffer : Bytes) :
    q.apply d buffer = (decide (q.width ≤ buffer.length), q.swap buffer) := by
  rw [apply, swap, convert_eq_reverse]
  split
  · next h => rw [decide_eq_true h, reverseFront]
  · next h => rw [decide_eq_false h]

/-- **A second application** undoes the first. -/
theorem involutive_swap (q : Primitive) : Function.Involutive q.swap := by
  intro buffer
  by_cases h : q.width ≤ buffer.length
  · have hlength : q.width ≤ (buffer.reverseFront q.width).length := by
      rwa [length_reverseFront]
    rw [swap, swap, if_pos h, if_pos hlength, reverseFront_reverseFront h]
  · rw [swap, swap, if_neg h, if_neg h]

/-- **Apply** a primitive again and again to the same buffer, in the given directions. -/
def applyAll (q : Primitive) (ds : List Direction) (buffer : Bytes) : Bytes :=
  ds.foldl (fun bs d => (q.apply d bs).2) buffer

/-- Of many applications only their number counts. -/
theorem applyAll_eq_iterate (q : Primitive) (ds : List Direction) (buffer : Bytes) :
    q.applyAll ds buffer = q.swap^[ds.length] buffer := by
  simp only [applyAll, apply_eq, List.foldl_const]

/-- **Many applications** restore the buffer if their number is even, and are like one of them if it
is odd. -/
theorem applyAll_eq (q : Primitive) (ds : List Direction) (buffer : Bytes) :
    q.applyAll ds buffer = if Even ds.length then buffer else q.swap buffer := by
  rw [applyAll_eq_iterate]
  split
  · next heven => rw [q.involutive_swap.iterate_even heven, id_eq]
  · next hodd => rw [q.involutive_swap.iterate_odd (Nat.not_even_iff_odd.mp hodd)]

/-- The value that a direction reads off the bytes of a number: the host's for a conversion to network
order, and the other way round. -/
def valueBefore : Direction → Bytes → Nat
  | .toBig => littleValue
  | .toLittle => bigValue

/-- The value that the converted bytes hold in the order that the direction leads to. -/
def valueAfter : Direction → Bytes → Nat
  | .toBig => bigValue
  | .toLittle => littleValue

/-- Reversed bytes hold the same number in the other order. -/
theorem valueAfter_reverse (d : Direction) (bs : Bytes) :
    valueAfter d bs.reverse = valueBefore d bs := by
  cases d with
  | toBig => rw [valueAfter, valueBefore, ← littleValue_reverse, List.reverse_reverse]
  | toLittle => exact littleValue_reverse bs

/-- A buffer **reverses** another one for a primitive: of the same length, with the bytes of the first
number reversed and all others in their places. So the number is the same in the other order. -/
structure Reverses (q : Primitive) (d : Direction) (buffer after : Bytes) : Prop where
  /-- No byte is added or lost. -/
  length : after.length = buffer.length
  /-- The bytes of the number are reversed. -/
  front : after.take q.width = (buffer.take q.width).reverse
  /-- The bytes behind it stay. -/
  behind : after.drop q.width = buffer.drop q.width
  /-- The number is the same. -/
  value : valueAfter d (after.take q.width) = valueBefore d (buffer.take q.width)

/-- A buffer that is long enough is reversed. -/
theorem reverses_swap {q : Primitive} {buffer : Bytes} (h : q.width ≤ buffer.length) (d : Direction) :
    q.Reverses d buffer (q.swap buffer) := by
  rw [swap, if_pos h]
  constructor
  case length => exact length_reverseFront _ _
  case front => exact take_reverseFront h
  case behind => exact drop_reverseFront h
  case value => rw [take_reverseFront h, valueAfter_reverse]

end Primitive

/-! ### Words of 64 bits -/

namespace Checked

/-- The largest number of bytes in a word of 64 bits. -/
def wordBytes : Nat := 8

/-- **Read** a word off some bytes, in the order in which `value` reads them. There has to be a byte,
and no more of them than a word has. -/
def readWord (value : Bytes → Nat) (bs : Bytes) : Except Stop UInt64 :=
  if 0 < bs.length ∧ bs.length ≤ wordBytes then .ok (.ofNat (value bs)) else .error .outOfRange

/-- **Write** a word into `width` bytes, in the order in which `encode` writes them. It has to fit. -/
def writeWord (encode : Nat → Nat → Bytes) (width : Nat) (w : UInt64) : Except Stop Bytes :=
  if width ≤ wordBytes ∧ w.toNat < 256 ^ width then .ok (encode width w.toNat)
  else .error .outOfRange

/-- What converting does to the bytes of one number, by a **word** that is read and written. -/
def convert (d : Direction) (bs : Bytes) : Except Stop Bytes :=
  match d with
  | .toBig => readWord Bytes.littleValue bs >>= writeWord Bytes.ofBig bs.length
  | .toLittle => readWord Bytes.bigValue bs >>= writeWord Bytes.ofLittle bs.length

/-- **Apply** a primitive to the front of a buffer by a word. -/
def apply (q : Primitive) (d : Direction) (buffer : Bytes) : Except Stop (Bool × Bytes) :=
  if q.width ≤ buffer.length then do
    let bs ← convert d (buffer.take q.width)
    return (true, bs ++ buffer.drop q.width)
  else .ok (false, buffer)

/-- **A word that has been read is in range** and fits into the bytes that it was read off. -/
theorem readWord_bind_writeWord {value : Bytes → Nat} {bs : Bytes} (hpos : 0 < bs.length)
    (hle : bs.length ≤ wordBytes) (hvalue : value bs < 256 ^ bs.length)
    (encode : Nat → Nat → Bytes) :
    (readWord value bs >>= writeWord encode bs.length) = .ok (encode bs.length (value bs)) := by
  have hsize : 256 ^ bs.length ≤ UInt64.size := Nat.pow_le_pow_right (by decide) hle
  have hword : (UInt64.ofNat (value bs)).toNat = value bs :=
    UInt64.toNat_ofNat_of_lt' (Nat.lt_of_lt_of_le hvalue hsize)
  rw [readWord, if_pos ⟨hpos, hle⟩, Except.ok_bind, writeWord, hword, if_pos ⟨hle, hvalue⟩]

/-- Converting by a word is converting by a number. -/
theorem convert_eq {bs : Bytes} (hpos : 0 < bs.length) (hle : bs.length ≤ wordBytes)
    (d : Direction) : convert d bs = .ok (Primitive.convert d bs) := by
  cases d with
  | toBig => exact readWord_bind_writeWord hpos hle bs.littleValue_lt Bytes.ofBig
  | toLittle => exact readWord_bind_writeWord hpos hle bs.bigValue_lt Bytes.ofLittle

/-- No primitive is wider than a word. -/
theorem width_le_wordBytes (q : Primitive) : q.width ≤ wordBytes := by
  cases q <;> decide

/-- **The word is always in range**: a primitive with a word does what it does with a number. -/
theorem apply_eq (q : Primitive) (d : Direction) (buffer : Bytes) :
    apply q d buffer = .ok (q.apply d buffer) := by
  rw [apply, Primitive.apply]
  split
  · next h =>
      have hlength : (buffer.take q.width).length = q.width := List.length_take_of_le h
      have hconvert := convert_eq (hlength.symm ▸ q.width_pos)
        (hlength.symm ▸ width_le_wordBytes q) d
      rw [hconvert, Except.ok_bind]
      rfl
  · rfl

end Checked

namespace Primitive

/-- **An application reverses** the front of a buffer that is long enough, and says so; a shorter one
is left alone. Two applications restore the buffer whatever their directions are, and of many of them
every second one does. With a word of 64 bits it is the same, and the word is always in range. -/
theorem apply_reverses (q : Primitive) (d : Direction) (buffer : Bytes) :
    (buffer.length < q.width → q.apply d buffer = (false, buffer)) ∧
    (q.width ≤ buffer.length →
      ∃ after, q.apply d buffer = (true, after) ∧ q.Reverses d buffer after) ∧
    (∀ d', (q.apply d' (q.apply d buffer).2).2 = buffer) ∧
    (∀ ds, q.applyAll ds buffer = if Even ds.length then buffer else (q.apply d buffer).2) ∧
    Checked.apply q d buffer = .ok (q.apply d buffer) := by
  refine ⟨fun hshort => ?_, fun hlong => ?_, fun d' => ?_, fun ds => ?_, Checked.apply_eq q d buffer⟩
  · have hnot : ¬ q.width ≤ buffer.length := Nat.not_le_of_lt hshort
    rw [apply_eq, swap, if_neg hnot, decide_eq_false hnot]
  · refine ⟨q.swap buffer, ?_, reverses_swap hlong d⟩
    rw [apply_eq, decide_eq_true hlong]
  · rw [apply_eq, apply_eq, q.involutive_swap]
  · rw [apply_eq, applyAll_eq]

/-- A word of two bytes in front of others, and a single byte. -/
theorem apply_reverses_shortWord :
    (∃ after, short.apply .toBig [0x34, 0x12, 0xff] = (true, after) ∧
      short.Reverses .toBig [0x34, 0x12, 0xff] after) ∧
    short.apply .toLittle [0x34] = (false, [0x34]) ∧
    short.applyAll [.toBig, .toBig, .toLittle] [0x34, 0x12, 0xff] = [0x12, 0x34, 0xff] := by
  obtain ⟨-, hlong, -, hall, -⟩ := apply_reverses short .toBig [0x34, 0x12, 0xff]
  refine ⟨hlong (by decide), (apply_reverses short .toLittle [0x34]).1 (by decide), ?_⟩
  rw [hall]
  decide

end Primitive

end StructEndian
