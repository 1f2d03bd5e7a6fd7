import StructEndian.Bytes
import StructEndian.Text.Basic

/-!
# Conversion primitives

A conversion primitive is one of the functions `hton*` and `ntoh*` that move a number of a
fixed width between the order of the host and that of the network. The host is
little-endian, the network big-endian.

## Main definitions

* `Direction`: towards the host's order or the network's.
* `Primitive`: the five pairs of functions, with their widths and names.
* `Primitive.convert`: what a primitive does to the bytes of a number.
* `Primitive.apply`: the same on the front of a buffer, if that is long enough.

## Main results

* `Primitive.convert_eq_reverse`: in both directions the bytes are reversed.
-/

namespace StructEndian

/-- The **direction** of a conversion: from network to host order, which leaves a
little-endian number, or from host to network order, which leaves a big-endian one. -/
inductive Direction
  | toLittle
  | toBig
deriving DecidableEq, Repr

namespace Direction

/-- Both directions, in the order in which their functions are written. -/
def all : List Direction :=
  [toLittle, toBig]

/-- The byte order that a direction leads to, as it stands in a function's name. -/
def suffix : Direction → Text
  | toLittle => "Little"
  | toBig => "Big"

end Direction

/-- A **primitive**: a pair of functions that convert a number of one width to network order
and back. -/
inductive Primitive
  | short
  | long
  | longLong
  | float
  | double
deriving DecidableEq, Repr

namespace Primitive

/-- The letters that end the names of a primitive's two functions. -/
def letters : Primitive → Text
  | short => "s"
  | long => "l"
  | longLong => "ll"
  | float => "f"
  | double => "d"

/-- The name of the function that converts in the given direction. -/
def name (q : Primitive) : Direction → Text
  | .toLittle => "ntoh" ++ q.letters
  | .toBig => "hton" ++ q.letters

/-- The width in bytes of the numbers that a primitive converts. -/
def width : Primitive → Nat
  | short => 2
  | long | float => 4
  | longLong | double => 8

/-- What converting does to the **bytes of one number**. Towards network order the number is
read as the host holds it and written with its most significant byte first; towards host
order the other way round. -/
def convert : Direction → Bytes → Bytes
  | .toBig, bs => Bytes.ofBig bs.length (Bytes.littleValue bs)
  | .toLittle, bs => Bytes.ofLittle bs.length (Bytes.bigValue bs)

/-- **Apply** a primitive to the front of a buffer. The flag says whether the buffer was long
enough; one that is too short is left alone. -/
def apply (q : Primitive) (d : Direction) (buffer : Bytes) : Bool × Bytes :=
  if q.width ≤ buffer.length then
    (true, convert d (buffer.take q.width) ++ buffer.drop q.width)
  else (false, buffer)

/-- In both directions a conversion **reverses** the bytes. -/
theorem convert_eq_reverse (d : Direction) (bs : Bytes) : convert d bs = bs.reverse := by
  cases d with
  | toBig => rw [convert, ← Bytes.reverse_ofLittle, Bytes.ofLittle_littleValue]
  | toLittle =>
      rw [convert, ← Bytes.littleValue_reverse, ← List.length_reverse,
        Bytes.ofLittle_littleValue]

end Primitive

end StructEndian
