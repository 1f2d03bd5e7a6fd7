import StructEndian.BaseType
import StructEndian.Primitive
import StructEndian.Text.Blank

/-!
# Data models

How wide the integer types are depends on the platform. A data model fixes the one width
that is left open, that of `long`, and tells for every base type how many bytes it takes,
whether bit-fields of it can share storage, and which primitive converts it.

## Main definitions

* `LongWidth`: four or eight bytes for `long`.
* `LongWidth.parse`: the width that a text asks for.
* `DataModel`: the tables of widths and primitives.

## Main results

* `DataModel.width_primitive_of_bitStorage`: storage that bit-fields share is converted by
  a primitive of exactly its width.
-/

namespace StructEndian

/-- The **width of `long`**: four bytes unless eight are asked for. -/
inductive LongWidth
  | four
  | eight
deriving DecidableEq, Repr

namespace LongWidth

/-- A width in bytes. -/
def bytes : LongWidth → Nat
  | four => 4
  | eight => 8

/-- A text that names no width of `long`. It is kept without the blanks around it. -/
structure Malformed where
  /-- The text that was given. -/
  text : Text
deriving DecidableEq, Repr

/-- What is said about a malformed width. -/
def Malformed.message (e : Malformed) : Text :=
  "`long` width must be 4 or 8 bytes, got `" ++ e.text ++ "`"

/-- The width that a text asks for, blanks around it aside. -/
def parse (text : Text) : Except Malformed LongWidth :=
  let t := text.trim
  if t = ['4'] then .ok four
  else if t = ['8'] then .ok eight
  else .error ⟨t⟩

end LongWidth

/-- A **data model**: the platform's answer to how wide `long` is. -/
structure DataModel where
  /-- The width of `long`. -/
  long : LongWidth := .four
deriving DecidableEq, Repr

namespace DataModel

/-- The width in bytes of an **integer type**; other types have none. -/
def byteWidth (m : DataModel) : BaseType → Option Nat
  | .char => some 1
  | .short => some 2
  | .int => some 4
  | .long => some m.long.bytes
  | .longLong => some 8
  | _ => none

/-- The bytes of the **storage** that bit-fields of a type share. The type has to be an
integer of several bytes: in a single byte there is no order to reverse. -/
def bitStorage (m : DataModel) (t : BaseType) : Option Nat :=
  (m.byteWidth t).filter fun w => 1 < w

/-- The primitive that converts a type, or none if values of it are left as they are. -/
def primitive (m : DataModel) : BaseType → Option Primitive
  | .short => some .short
  | .int => some .long
  | .long =>
      match m.long with
      | .four => some .long
      | .eight => some .longLong
  | .longLong => some .longLong
  | .float => some .float
  | .double => some .double
  | .char | .longDouble | .bool | .other _ => none

/-- Storage that bit-fields share is converted by a primitive of exactly its width. -/
theorem width_primitive_of_bitStorage {m : DataModel} {t : BaseType} {w : Nat}
    (h : m.bitStorage t = some w) : (m.primitive t).map Primitive.width = some w := by
  obtain ⟨l⟩ := m
  cases l <;> cases t <;> revert h <;>
    simp [bitStorage, byteWidth, primitive, LongWidth.bytes, Primitive.width] <;> omega

end DataModel

end StructEndian
