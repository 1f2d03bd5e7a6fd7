import StructEndian.Text.Basic

/-!
# Tokens

The text of a declaration is read in two steps. First it is cut into lexemes, among them the
opening and closing delimiters. Then every delimited group is folded into a single token,
because a declaration is recognised by what stands outside all groups.

## Main definitions

* `Delimiter`, `Token`, `Lexeme`: what a declaration is made of.
* `Token.ofLexemes?`: the tokens of a list of lexemes whose delimiters match.

## Main results

* `Token.ofLexemes?_map_leaf`: lexemes without delimiters are the tokens.
-/

namespace StructEndian

/-- The two kinds of **delimiters**. -/
inductive Delimiter
  | parenthesis
  | bracket
deriving DecidableEq, Repr

/-- A **token** of a declaration. -/
inductive Token
  /-- An identifier. Keywords are identifiers like any other. -/
  | word (text : Text)
  /-- A numeral that counts as an integer. -/
  | integer (value : Nat)
  /-- Any other literal. -/
  | literal
  /-- A punctuation mark. -/
  | mark (character : Char)
  /-- A delimited group, whatever is in it. -/
  | group (delimiter : Delimiter)
deriving DecidableEq, Repr

/-- A **lexeme**: a token that is no group, or one end of a group. -/
inductive Lexeme
  /-- A token on its own. -/
  | leaf (token : Token)
  /-- The start of a group. -/
  | opening (delimiter : Delimiter)
  /-- The end of a group. -/
  | closing (delimiter : Delimiter)
deriving DecidableEq, Repr

namespace Token

/-- Fold the groups of a list of lexemes, where `stack` are the delimiters of the groups that
are open, the innermost one first. There are no tokens if a delimiter does not match or if a
group is left open. -/
def fold : List Delimiter → List Lexeme → Option (List Token)
  | [], [] => some []
  | _ :: _, [] => none
  | [], .leaf t :: ls => (fold [] ls).map (t :: ·)
  | d :: stack, .leaf _ :: ls => fold (d :: stack) ls
  | stack, .opening d :: ls => fold (d :: stack) ls
  | [], .closing _ :: _ => none
  | d :: stack, .closing d' :: ls =>
      if d' = d then
        if stack = [] then (fold [] ls).map (.group d :: ·) else fold stack ls
      else none

/-- The **tokens** of a list of lexemes. -/
def ofLexemes? (ls : List Lexeme) : Option (List Token) :=
  fold [] ls

/-- Lexemes without delimiters are the tokens. -/
theorem ofLexemes?_map_leaf (ts : List Token) : ofLexemes? (ts.map .leaf) = some ts := by
  induction ts with
  | nil => rfl
  | cons t ts ih =>
      rw [ofLexemes?] at ih
      simp [ofLexemes?, fold, ih]

end Token

end StructEndian
