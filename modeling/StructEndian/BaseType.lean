import StructEndian.Text.Basic

/-!
# Signs and base types

The type of a member is a sign and a base type. Nine base types have a name of their own in
the language; every other name is kept as it is written.

## Main definitions

* `Sign`: the sign keyword in front of a base type.
* `BaseType`: a named base type, or another name.

## Main results

* `BaseType.ofName_name_of_named`, `BaseType.name_ofName`: reading and writing a type name
  are inverse to each other, except for a named type's name kept as another name.
-/

namespace StructEndian

/-! ### Signs -/

/-- The **sign** that is written in front of a base type, if any. -/
inductive Sign
  | default
  | signed
  | unsigned
deriving DecidableEq, Repr

namespace Sign

/-- The sign that a keyword stands for: `unsigned` is unsigned, any other keyword is signed,
and no keyword, or an empty one, is the default. -/
def ofKeyword : Option Text → Sign
  | none | some [] => default
  | some keyword => if keyword = ("unsigned" : Text) then unsigned else signed

/-- The keyword of a sign, empty for the default. -/
def keyword : Sign → Text
  | default => ""
  | signed => "signed"
  | unsigned => "unsigned"

/-- A sign is read back from its keyword. -/
@[simp] theorem ofKeyword_keyword (s : Sign) : ofKeyword (some s.keyword) = s := by
  cases s <;> rfl

end Sign

/-! ### Base types -/

/-- A **base type**: one of the nine that the language names, or another name, such as that
of a type definition. -/
inductive BaseType
  | char
  | short
  | int
  | long
  | longLong
  | float
  | double
  | longDouble
  | bool
  | other (name : Text)
deriving DecidableEq, Repr

namespace BaseType

/-- The base types that have a **name** of their own. -/
def named : List BaseType :=
  [char, short, int, long, longLong, float, double, longDouble, bool]

/-- The name of a base type. -/
def name : BaseType → Text
  | char => "char"
  | short => "short"
  | int => "int"
  | long => "long"
  | longLong => "long long"
  | float => "float"
  | double => "double"
  | longDouble => "long double"
  | bool => "bool"
  | other name => name

/-- The base type of a name: a named one if the name is one of the nine. -/
def ofName (name : Text) : BaseType :=
  (named.find? fun t => t.name = name).getD (other name)

/-- Each of the nine named base types is read back from its name. -/
theorem ofName_name_of_named {t : BaseType} (h : t ∈ named) : ofName t.name = t := by
  revert t
  decide

/-- Reading a name keeps its text. -/
@[simp] theorem name_ofName (n : Text) : (ofName n).name = n := by
  unfold ofName
  cases h : named.find? fun t => t.name = n with
  | none => rfl
  | some t => simpa using List.find?_some h

end BaseType

end StructEndian
