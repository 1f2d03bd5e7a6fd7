import StructEndian.Declaration.Declarator
import StructEndian.Declaration.Slots
import StructEndian.Member
import StructEndian.Text.Line
import StructEndian.Token.Lexer

/-!
# Reading declarations

A line holds declarations that end in semicolons. What stands in front of a brace belongs to
the structure around them and is left out; what stands behind the last semicolon is not a
declaration. Each of them is read on its own, and one that is not understood is skipped.

## Main definitions

* `pieces`: the texts of the declarations in a line.
* `Reading`: what comes of one declaration.
* `readPiece`, `readings`: what comes of one declaration, and of those in a line.
* `membersOf`: the members that a line declares.

## Main results

* `membersOf_nil`: an empty line declares nothing.
-/

namespace StructEndian

/-- Whether a character is a brace. -/
def isBrace (c : Char) : Bool :=
  c = '\x7b' || c = '\x7d'

/-- What stands behind the last brace of a text. -/
def afterBrace (s : Text) : Text :=
  (s.reverse.takeWhile fun c => !isBrace c).reverse

/-- The **pieces** of a line: in front of every semicolon what stands behind the last brace,
trimmed. Empty ones are left out. -/
def pieces (line : Text) : List Text :=
  ((Text.split (· = ';') line).dropLast.map fun s => Text.trim (afterBrace s)).filter (· ≠ [])

/-- What comes of **reading** one declaration. -/
inductive Reading
  /-- A member. -/
  | member (m : Member)
  /-- The declaration is skipped. -/
  | skipped (piece : Text) (why : Skip)
  /-- Its tokens do not end in a declarator. -/
  | nothing
deriving DecidableEq, Repr

/-- The member in a reading. -/
def Reading.member? : Reading → Option Member
  | member m => some m
  | _ => none

/-- The member that slots and a declarator make. -/
def Slots.toMember (s : Slots) (d : Declarator) (source : Text) : Member :=
  { sign := .ofKeyword s.sign
    name := s.name
    base := .ofName s.typeText
    bits := d.width.getD 0
    isArray := 0 < d.dimensions
    source }

/-- Read a declarator that has been taken from a piece. -/
def readDeclarator (piece : Text) (d : Declarator) : Reading :=
  match (Slots.assign d.words).map Slots.settleInt with
  | none => .nothing
  | some s =>
      if s.typeText = [] ∨ s.name = [] then .skipped piece .noType
      else .member (s.toMember d piece)

/-- **Read** one declaration. -/
def readPiece (piece : Text) : Reading :=
  match Token.lex piece with
  | none => .skipped piece .noTokens
  | some ts =>
      match Declarator.read ts with
      | .error why => .skipped piece why
      | .ok d => readDeclarator piece d

/-- What comes of the declarations in a line, in order. -/
def readings (line : Text) : List Reading :=
  (pieces line).map readPiece

/-- The **members** that a line declares, in order. -/
def membersOf (line : Text) : List Member :=
  (readings line).filterMap Reading.member?

/-- An empty line declares nothing. -/
theorem membersOf_nil : membersOf [] = [] := by
  rfl

end StructEndian
