import StructEndian.Region

/-!
# Conversion statements

A region whose type has a primitive is converted by one statement: an assignment to the
member, a loop over the elements of the array, or an assignment through a pointer to unnamed
storage. A region without a primitive needs no statement and keeps its bytes.

## Main definitions

* `Statement`: how one region is converted, apart from the direction.
* `Statement.lines`: its text in one direction.
* `Region.statement?`: the statement of a region, if it has one.
-/

namespace StructEndian

/-- One step of indentation. -/
def indentation : Text := "    "

/-- A **statement** converts one region with a primitive. The direction, which decides
between the two names of the primitive, is left open. -/
inductive Statement
  /-- Convert the member of the given name. -/
  | scalar (name : Text) (primitive : Primitive)
  /-- Convert every element of the array of the given name. -/
  | array (name : Text) (primitive : Primitive)
  /-- Convert the number of the given type at an address. -/
  | storage (type : Text) (address : Address) (primitive : Primitive)
deriving DecidableEq, Repr

/-- An assignment that replaces what stands at a place by its conversion. -/
def assignment (place : Text) (q : Primitive) (d : Direction) : Text :=
  place ++ " = " ++ q.name d ++ "(" ++ place ++ ");"

/-- The expression for the current element of an array in a loop. -/
def elementText (name : Text) : Text :=
  memberText name ++ "[n]"

/-- The head of a loop over the elements of an array. -/
def loopHeader (name : Text) : Text :=
  "for (size_t n = 0; n < sizeof(" ++ memberText name ++ ") / sizeof(" ++
    memberText name ++ "[0]); ++n)"

/-- The expression for the number of a type at an address. -/
def storageText (type : Text) (address : Address) : Text :=
  "*(" ++ type ++ "*)(" ++ address.text ++ ")"

namespace Statement

/-- The primitive that a statement applies. -/
def primitive : Statement → Primitive
  | scalar _ q | array _ q | storage _ _ q => q

/-- The expression that a statement assigns to. -/
def place : Statement → Text
  | scalar name _ => memberText name
  | array name _ => elementText name
  | storage type address _ => storageText type address

/-- The **lines** of a statement in one direction. -/
def lines (d : Direction) : Statement → List Text
  | s@(array name q) => [loopHeader name, indentation ++ assignment s.place q d]
  | s => [assignment s.place s.primitive d]

end Statement

/-- The statement that converts a region, or none if its bytes are kept as they are. -/
def Region.statement? (model : DataModel) (r : Region) : Option Statement :=
  (model.primitive r.lead.base).map fun q =>
    match r with
    | scalar m => .scalar m.name q
    | array m => .array m.name q
    | bits first _ _ address => .storage first.storageType address q

end StructEndian
