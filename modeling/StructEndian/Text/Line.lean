import StructEndian.Text.Blank
import StructEndian.Text.Identifier

/-!
# Lines, comments and structure tags

What is read off a line before its declarations are: where the line ends, which part of it
is a comment, and whether it names a structure.

## Main definitions

* `Text.lines`: the lines of a text.
* `Text.stripComment`: a line without its comment and without blanks at its ends.
* `Text.words`: the maximal runs of word characters of a line, each with the gap in front
  of it.
* `structTag`: the word behind the first keyword `struct`.
-/

namespace StructEndian

namespace Text

/-- The **lines** of a text. A line feed ends a line, and a carriage return directly in
front of it belongs to the line's end. The text behind the last line feed is a line if it
is not empty; a carriage return at its end stays. -/
def lines : Text → List Text
  | [] => []
  | '\n' :: s => [] :: lines s
  | '\r' :: '\n' :: s => [] :: lines s
  | c :: s =>
      match lines s with
      | [] => [[c]]
      | line :: rest => (c :: line) :: rest

/-- What stands in front of the first two neighbouring slashes. -/
def beforeComment : Text → Text
  | [] => []
  | '/' :: '/' :: _ => []
  | c :: s => c :: beforeComment s

/-- A line **without its comment**: what stands in front of the first `//`, trimmed. -/
def stripComment (line : Text) : Text :=
  trim (beforeComment line)

/-- The **words** of a line: its maximal runs of word characters, each behind the gap of
other characters in front of it. -/
def words (s : Text) : List (Text × Text) :=
  match _h : s.dropWhile fun c => !isWordChar c with
  | [] => []
  | c :: r =>
      (s.takeWhile fun c => !isWordChar c, c :: r.takeWhile isWordChar) ::
        words (r.dropWhile isWordChar)
termination_by s.length
decreasing_by
  have hs := (List.dropWhile_sublist (l := s) fun c => !isWordChar c).length_le
  have hr := (List.dropWhile_sublist (l := r) isWordChar).length_le
  rw [_h, List.length_cons] at hs
  omega

end Text

/-! ### Structure tags -/

/-- The keyword in front of a structure tag. -/
def structKeyword : Text := "struct"

/-- The first word that stands behind the keyword with nothing but blanks between. -/
def taggedWord : List (Text × Text) → Option Text
  | (_, first) :: (gap, second) :: rest =>
      if first = structKeyword ∧ gap ≠ [] ∧ gap.all isBlank then some second
      else taggedWord ((gap, second) :: rest)
  | _ => none

/-- The **structure tag** of a list of lines: the first word behind a keyword `struct` in
the first line that has one, and nothing if no line has. Comments are stripped first, so a
`struct` in a comment does not count. -/
def structTag (lines : List Text) : Text :=
  (lines.findSome? fun line => taggedWord line.stripComment.words).getD []

end StructEndian
