import StructEndian.Declaration.Reading
import StructEndian.Function
import StructEndian.Listing

/-!
# Generating conversion functions

The whole way from the lines of a structure to the lines of its two functions: read the
members, pack them into groups, cut them into regions, and write the functions, with the
listing in front if it is asked for.

## Main definitions

* `Options`: what can be asked for.
* `declaredMembers`: the members that a list of lines declares.
* `Plan`: what is known of a structure before anything is written.
* `plan`: the plan of a list of lines, unless they declare no members.
* `generate`, `generateText`: the lines that are written for a structure.

## Main results

* `generate_eq_nil_of_declaredMembers`: without members nothing is written.
-/

namespace StructEndian

/-! ### Options -/

/-- The **options** of a generation. -/
structure Options where
  /-- Mark the functions as not throwing. -/
  noThrow : Bool := false
  /-- The width of `long`. -/
  long : LongWidth := .four
  /-- The name to use for the structure instead of its tag. -/
  name : Option Text := none
  /-- Write the group listing in front of the functions. -/
  layout : Bool := false
deriving DecidableEq, Repr

namespace Options

/-- The data model that the options ask for. -/
def model (o : Options) : DataModel :=
  { long := o.long }

/-- The name that the options ask for, trimmed, unless nothing is left of it. -/
def givenName (o : Options) : Option Text :=
  (o.name.map Text.trim).filter (· ≠ [])

/-- The name of a structure that is given none and has no tag. -/
def placeholderName : Text := "Struct"

/-- The name for a structure: the given one, or else its tag, or else the placeholder. -/
def nameFor (o : Options) (tag : Text) : Text :=
  o.givenName.getD (if tag = [] then placeholderName else tag)

/-- Whether a structure with the given tag has to be named by the placeholder. -/
def needsPlaceholder (o : Options) (tag : Text) : Bool :=
  o.givenName.isNone && tag = []

end Options

/-! ### The pipeline -/

/-- The **members** that a list of lines declares, in order. Comments are stripped from every
line first. -/
def declaredMembers (lines : List Text) : List Member :=
  lines.flatMap fun line => membersOf line.stripComment

/-- The **plan** for a structure: what is known of it before anything is written. -/
structure Plan where
  /-- The name of the structure. -/
  name : Text
  /-- The number of its members. -/
  memberCount : Nat
  /-- The number of their groups. -/
  groupCount : Nat
  /-- The regions that are converted. -/
  regions : List Region
deriving DecidableEq, Repr

namespace Plan

/-- The conversion that is planned. -/
def conversion (o : Options) (p : Plan) : Conversion :=
  .ofRegions o.model p.name o.noThrow p.regions

/-- The lines of a plan that is carried out. -/
def lines (o : Options) (p : Plan) : List Text :=
  (if o.layout then listing o.model p.name p.regions else []) ++ (p.conversion o).functions

end Plan

/-- Plan the conversion of the members `ms` of a structure with the given tag. -/
def planMembers (o : Options) (tag : Text) (ms : List Member) :
    Except UnsupportedBitField Plan := do
  let (grouped, groupCount) ← pack o.model ms
  let rs ← regions o.model grouped
  return { name := o.nameFor tag, memberCount := ms.length, groupCount, regions := rs }

/-- The **plan** of a list of lines. There is none if they declare no members. -/
def plan (o : Options) (lines : List Text) : Except UnsupportedBitField (Option Plan) :=
  match declaredMembers lines with
  | [] => .ok none
  | ms => (planMembers o (structTag lines) ms).map some

/-- **Generate** the functions for the structure that a list of lines declares. Nothing is
written if they declare no members. -/
def generate (o : Options) (lines : List Text) : Except UnsupportedBitField (List Text) :=
  (plan o lines).map fun p => (p.map (Plan.lines o)).getD []

/-- Generate the functions for the structure that a text declares. -/
def generateText (o : Options) (text : Text) : Except UnsupportedBitField (List Text) :=
  generate o text.lines

/-- Without members nothing is written. -/
theorem generate_eq_nil_of_declaredMembers {o : Options} {lines : List Text}
    (h : declaredMembers lines = []) : generate o lines = .ok [] := by
  simp [generate, plan, h, Except.map]

end StructEndian
