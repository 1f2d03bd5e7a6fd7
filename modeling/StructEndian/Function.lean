import StructEndian.Statement

/-!
# Conversion functions

For every structure two functions are written, one for each direction. They take a pointer
to the structure and consist of the same statements in the same order.

## Main definitions

* `Conversion`: what the two functions of a structure have in common.
* `Conversion.functionName`, `Conversion.function`: the name and the lines of one of them.
* `Conversion.functions`: the lines of both, with an empty line in between.
-/

namespace StructEndian

/-- The **conversion** of a structure: its tag, whether the functions are marked as not
throwing, and the statements that both consist of. -/
structure Conversion where
  /-- The name of the structure. -/
  tag : Text
  /-- Whether the functions are marked `noexcept`. -/
  noThrow : Bool := false
  /-- The statements in order. -/
  body : List Statement
deriving DecidableEq, Repr

namespace Conversion

/-- The conversion of a structure with the given regions. -/
def ofRegions (model : DataModel) (tag : Text) (noThrow : Bool) (rs : List Region) :
    Conversion :=
  { tag, noThrow, body := rs.filterMap (Region.statement? model) }

/-- The name of the function for one direction. -/
def functionName (c : Conversion) (d : Direction) : Text :=
  "Reverse" ++ c.tag ++ "To" ++ d.suffix ++ "Endian"

/-- The signature of the function for one direction. -/
def signature (c : Conversion) (d : Direction) : Text :=
  "void " ++ c.functionName d ++ "(" ++ c.tag ++ "* " ++ parameter ++ ")" ++
    (if c.noThrow then (" noexcept" : Text) else [])

/-- The lines between the braces of the function for one direction. -/
def bodyLines (c : Conversion) (d : Direction) : List Text :=
  (c.body.flatMap (Statement.lines d)).map (indentation ++ ·)

/-- The **function** for one direction. -/
def function (c : Conversion) (d : Direction) : List Text :=
  c.signature d :: ['\x7b'] :: (c.bodyLines d ++ [['\x7d']])

/-- Both **functions**, towards the host's order first, with an empty line in between. -/
def functions (c : Conversion) : List Text :=
  c.function .toLittle ++ [] :: c.function .toBig

end Conversion

end StructEndian
