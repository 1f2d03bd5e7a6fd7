import StructEndian.Text.Basic

/-!
# Blanks

The blank characters are those with the Unicode property White_Space. Trimming removes
them from both ends of a text.

## Main definitions

* `isBlank`: the characters with the property White_Space.
* `Text.trim`: a text without the blanks at its two ends.

## Main results

* `isBlank_of_isWhitespace`: the ASCII whitespace of the core library is blank.
* `Text.trim_of_all_isBlank`: a blank text trims to nothing.
-/

namespace StructEndian

/-- A **blank** is a character with the Unicode property White_Space. The information
separators, the zero-width spaces and the byte order mark are not blank. -/
def isBlank (c : Char) : Bool :=
  let n := c.toNat
  (0x9 ≤ n && n ≤ 0xD) || n == 0x20 || n == 0x85 || n == 0xA0 || n == 0x1680 ||
    (0x2000 ≤ n && n ≤ 0x200A) || n == 0x2028 || n == 0x2029 || n == 0x202F ||
    n == 0x205F || n == 0x3000

/-- The core library's whitespace is blank. -/
theorem isBlank_of_isWhitespace {c : Char} (h : c.isWhitespace = true) :
    isBlank c = true := by
  simp only [Char.isWhitespace, Bool.or_eq_true, decide_eq_true_eq] at h
  rcases h with ((h | h) | h) | h <;> subst h <;> decide

namespace Text

/-- A text without the blanks at its end. -/
def trimEnd (s : Text) : Text :=
  (s.reverse.dropWhile isBlank).reverse

/-- A text without the blanks at its two ends: it is **trimmed**. -/
def trim (s : Text) : Text :=
  trimEnd (s.dropWhile isBlank)

/-- A text of blanks only trims to the empty text. -/
theorem trim_of_all_isBlank {s : Text} (h : ∀ c ∈ s, isBlank c = true) : trim s = [] := by
  have hs : s.dropWhile isBlank = [] := by
    induction s with
    | nil => rfl
    | cons c s ih =>
        rw [List.dropWhile_cons, if_pos (h c (by simp))]
        exact ih fun d hd => h d (by simp [hd])
  simp [trim, trimEnd, hs]

end Text

end StructEndian
