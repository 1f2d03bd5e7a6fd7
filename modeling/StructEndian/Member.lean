import StructEndian.BaseType

/-!
# Members

A member is one declaration of a structure. A member with a bit width of at least one is a
bit-field, every other member is ordinary. Neighbouring bit-fields may share storage, so
members carry the number of the group in which they are converted; members that have just
been read are in group `0`, which stands for no group.

## Main definitions

* `Member`: a declared member.
* `Member.isBitField`: whether it shares storage with others.
* `Member.storageType`: its type as it is written in a cast.
-/

namespace StructEndian

/-- A **member** of a structure. -/
structure Member where
  /-- The sign of its type. -/
  sign : Sign := .default
  /-- Its name. -/
  name : Text
  /-- Its base type, the element type for an array. -/
  base : BaseType
  /-- The number of its conversion group, `0` before there are groups. -/
  group : Nat := 0
  /-- Its declared bit width, `0` if it has none. -/
  bits : Nat := 0
  /-- Whether it is an array, of any number of dimensions. -/
  isArray : Bool := false
  /-- The text that it was declared by. -/
  source : Text := []
deriving DecidableEq, Repr

namespace Member

/-- A member with a bit width is a **bit-field**. A declared width of zero does not make
one. -/
def isBitField (m : Member) : Bool :=
  0 < m.bits

/-- The **storage type** of a member: its sign keyword, if there is one, and its base
type. -/
def storageType (m : Member) : Text :=
  match m.sign with
  | .default => m.base.name
  | sign => sign.keyword ++ " " ++ m.base.name

/-- The same member in another group. -/
def inGroup (m : Member) (group : Nat) : Member :=
  { m with group }

@[simp] theorem name_inGroup (m : Member) (k : Nat) : (m.inGroup k).name = m.name := rfl

@[simp] theorem base_inGroup (m : Member) (k : Nat) : (m.inGroup k).base = m.base := rfl

@[simp] theorem group_inGroup (m : Member) (k : Nat) : (m.inGroup k).group = k := rfl

@[simp] theorem isArray_inGroup (m : Member) (k : Nat) :
    (m.inGroup k).isArray = m.isArray := rfl

@[simp] theorem isBitField_inGroup (m : Member) (k : Nat) :
    (m.inGroup k).isBitField = m.isBitField := rfl

end Member

end StructEndian
