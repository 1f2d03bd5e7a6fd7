/-!
# Bytes and positional values

A buffer of bytes holds a natural number in base 256 in two ways: with the least
significant byte first (**little-endian**) or last (**big-endian**). This module reads and
writes both.

## Main definitions

* `Bytes`: a buffer.
* `Bytes.littleValue`, `Bytes.bigValue`: the number that a buffer holds.
* `Bytes.ofLittle`, `Bytes.ofBig`: the buffer of a given length that holds a number.

## Main results

* `Bytes.littleValue_reverse`, `Bytes.reverse_ofLittle`: the two orders are each other's
  reverse.
* `Bytes.ofLittle_littleValue`: a buffer is determined by its length and its value.
-/

namespace StructEndian

/-- A **buffer** of bytes. -/
abbrev Bytes := List UInt8

namespace Bytes

/-- The number that a buffer holds with its least significant byte first. -/
def littleValue : Bytes → Nat
  | [] => 0
  | b :: bs => b.toNat + 256 * littleValue bs

/-- The number that a buffer holds with its most significant byte first. -/
def bigValue (bs : Bytes) : Nat :=
  bs.foldl (fun n b => 256 * n + b.toNat) 0

/-- The `width` bytes that hold `n`, least significant byte first. What does not fit is
dropped. -/
def ofLittle : Nat → Nat → Bytes
  | 0, _ => []
  | width + 1, n => UInt8.ofNat (n % 256) :: ofLittle width (n / 256)

/-- The `width` bytes that hold `n`, most significant byte first. What does not fit is
dropped. -/
def ofBig (width n : Nat) : Bytes :=
  go width n []
where
  /-- Put the bytes of `n` in front of those that are already written. -/
  go : Nat → Nat → Bytes → Bytes
    | 0, _, written => written
    | width + 1, n, written => go width (n / 256) (UInt8.ofNat (n % 256) :: written)

/-! ### The two orders -/

@[simp] theorem length_ofLittle (width n : Nat) : (ofLittle width n).length = width := by
  induction width generalizing n with
  | zero => rfl
  | succ width ih => simp [ofLittle, ih]

theorem ofBig_go (width n : Nat) (written : Bytes) :
    ofBig.go width n written = (ofLittle width n).reverse ++ written := by
  induction width generalizing n written with
  | zero => rfl
  | succ width ih => simp [ofBig.go, ofLittle, ih]

/-- Writing with the most significant byte first is writing with the least significant byte
first, reversed. -/
theorem reverse_ofLittle (width n : Nat) : (ofLittle width n).reverse = ofBig width n := by
  simp [ofBig, ofBig_go]

@[simp] theorem length_ofBig (width n : Nat) : (ofBig width n).length = width := by
  rw [← reverse_ofLittle, List.length_reverse, length_ofLittle]

/-- Reading with the least significant byte first is reading the reversed buffer with the
most significant byte first. -/
theorem littleValue_reverse (bs : Bytes) : littleValue bs.reverse = bigValue bs := by
  rw [bigValue, ← List.foldr_reverse]
  induction bs.reverse with
  | nil => rfl
  | cons b bs ih => simp only [littleValue, List.foldr_cons, ih]; omega

/-- A buffer is determined by its length and the number that it holds. -/
theorem ofLittle_littleValue (bs : Bytes) : ofLittle bs.length (littleValue bs) = bs := by
  induction bs with
  | nil => rfl
  | cons b bs ih =>
      have hb : b.toNat < 256 := b.toNat_lt
      have hdiv : (b.toNat + 256 * littleValue bs) / 256 = littleValue bs := by omega
      have hmod : (b.toNat + 256 * littleValue bs) % 256 = b.toNat := by omega
      simp only [List.length_cons, littleValue, ofLittle, hdiv, hmod, ih]
      simp

end Bytes

end StructEndian
