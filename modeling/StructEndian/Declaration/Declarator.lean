import StructEndian.Token.Basic

/-!
# Declarators

A declaration is read off the end of its tokens: what counts is the last run of words, with
its array dimensions or its bit width behind it. The reader goes over the tokens from left
to right and starts over at every token that cannot continue what it has.

## Main definitions

* `Declarator`: the words, dimensions and width of a declaration.
* `Skip`: why a declaration is skipped.
* `Declarator.read`: the declarator of a list of tokens.

## Main results

* `Declarator.read_words`: a list of words is its own declarator.
-/

namespace StructEndian

/-- A **declarator**: what has been read of a declaration. -/
structure Declarator where
  /-- The words in order. The last one is the declared name. -/
  words : List Text := []
  /-- The number of array dimensions behind the words. -/
  dimensions : Nat := 0
  /-- The bit width behind the words. -/
  width : Option Nat := none
deriving DecidableEq, Repr

/-- Why a declaration is **skipped**. -/
inductive Skip
  /-- The text has no tokens. -/
  | noTokens
  /-- The bit width is too large. -/
  | widthTooLarge
  /-- The bit width is negative. -/
  | widthNegative
  /-- There is a name but no type. -/
  | noType
deriving DecidableEq, Repr

/-- What is said about a skipped declaration. -/
def Skip.message : Skip → Text
  | noTokens => "cannot parse string into token stream"
  | widthTooLarge => "number too large to fit in target type"
  | widthNegative => "invalid digit found in string"
  | noType => "no type"

/-- The largest bit width that can be declared. -/
def maxWidth : Nat := UInt32.size - 1

namespace Declarator

/-- Whether dimensions or a width stand behind the words. -/
def hasSuffix (d : Declarator) : Bool :=
  0 < d.dimensions || d.width.isSome

/-- Whether a width may follow: there are words and nothing behind them. -/
def takesWidth (d : Declarator) : Bool :=
  d.words ≠ [] && !d.hasSuffix

/-- Whether a dimension may follow: there are words and no width behind them. -/
def takesDimension (d : Declarator) : Bool :=
  d.words ≠ [] && d.width.isNone

/-- The declarator with one more word. A word behind a suffix starts a new declarator. -/
def push (d : Declarator) (w : Text) : Declarator :=
  if d.hasSuffix then { words := [w] } else { d with words := d.words ++ [w] }

/-- Go on reading tokens behind the declarator `d`. A colon with a number behind it is the
width if one may follow, and then the number has to be in range. What cannot continue a
declarator ends it, and reading starts over behind it. -/
def readFrom : Declarator → List Token → Except Skip Declarator
  | d, [] => .ok d
  | d, .word w :: ts => readFrom (d.push w) ts
  | d, .group .bracket :: ts =>
      if d.takesDimension then readFrom { d with dimensions := d.dimensions + 1 } ts
      else readFrom {} ts
  | d, .mark ':' :: .integer n :: ts =>
      if d.takesWidth then
        if n ≤ maxWidth then readFrom { d with width := some n } ts else .error .widthTooLarge
      else readFrom {} ts
  | d, .mark ':' :: .mark '-' :: .integer _ :: ts =>
      if d.takesWidth then .error .widthNegative else readFrom {} ts
  | _, _ :: ts => readFrom {} ts

/-- The **declarator** of a list of tokens. It has no words if the tokens do not end in
one. -/
def read (ts : List Token) : Except Skip Declarator :=
  readFrom {} ts

/-! ### Words -/

theorem readFrom_words (d : Declarator) (hd : d.hasSuffix = false) (ws : List Text) :
    readFrom d (ws.map .word) = .ok { d with words := d.words ++ ws } := by
  induction ws generalizing d with
  | nil => simp [readFrom]
  | cons w ws ih =>
      have hp : d.push w = { d with words := d.words ++ [w] } := by simp [push, hd]
      rw [List.map_cons, readFrom, hp, ih _ (by simpa [hasSuffix] using hd)]
      simp

/-- A list of words is its own declarator. -/
theorem read_words (ws : List Text) : read (ws.map .word) = .ok { words := ws } := by
  simpa [read] using readFrom_words {} rfl ws

end Declarator

end StructEndian
