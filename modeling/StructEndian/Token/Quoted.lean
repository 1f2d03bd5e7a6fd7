import StructEndian.Text.Identifier

/-!
# Quoted literals

A quoted literal holds characters, bytes, or the characters of a string that ends at the
first zero. What may stand in it, and which escapes it knows, depends on which of the three
it is. A text literal may also be raw: then it knows no escapes and ends at a quote that is
followed by as many hashes as the literal has in front of its opening quote.

The readers here start behind the opening mark and answer what follows the closing quote.
A declaration holds no braces, so the escapes that need them are not known.

## Main definitions

* `Quoted`: the three kinds of content.
* `Quoted.closeText`: the rest behind a text with escapes.
* `Quoted.raw`: the rest behind a raw text.
* `Quoted.closeSingle`: the rest behind a single character.
* `dropSuffix`: the rest behind the identifier that may follow a literal directly.

## Main results

* `Quoted.closeText_suffix`, `Quoted.raw_suffix`, `Quoted.closeSingle_suffix`,
  `dropSuffix_suffix`: each reader leaves a tail of the text.
-/

namespace StructEndian

/-- What a **quoted** literal holds. -/
inductive Quoted
  /-- Any characters. -/
  | characters
  /-- Bytes, written as ASCII characters. -/
  | bytes
  /-- Characters other than the zero that ends a string. -/
  | terminated
deriving DecidableEq, Repr

/-- The value of a hexadecimal digit. -/
def hexValue (c : Char) : Option Nat :=
  if c.isDigit then some (c.toNat - 48)
  else if 'a' ≤ c ∧ c ≤ 'f' then some (c.toNat - 87)
  else if 'A' ≤ c ∧ c ≤ 'F' then some (c.toNat - 55)
  else none

namespace Quoted

/-! ### What the kinds admit -/

/-- Whether a character stands for itself, with or without escapes around it. -/
def holds : Quoted → Char → Bool
  | characters, _ => true
  | bytes, c => c.toNat < 128
  | terminated, c => c.toNat ≠ 0

/-- Whether two characters are an admissible code behind `\x`. Characters have codes below
`80`, bytes any code, and a terminated string any code but zero. -/
def admitsCode (k : Quoted) (a b : Char) : Bool :=
  match hexValue a, hexValue b with
  | some x, some y =>
      match k with
      | characters => x < 8
      | bytes => true
      | terminated => 0 < 16 * x + y
  | _, _ => false

/-- Whether a backslash and the given character are an escape for one character. The escape
for a zero is not known where a zero ends the string. -/
def escapes (k : Quoted) (c : Char) : Bool :=
  c = 'n' || c = 'r' || c = 't' || c = '\\' || c = '\'' || c = '"' ||
    (c = '0' && k ≠ terminated)

/-! ### Reading -/

/-- The rest behind the closing quote of a text with escapes. A backslash may also stand in
front of the end of a line, which is a line feed or a carriage return and a line feed; a
carriage return elsewhere has to be followed by a line feed as well. -/
def closeText (k : Quoted) : Text → Option Text
  | [] => none
  | '"' :: s => some s
  | '\\' :: 'x' :: a :: b :: s => if k.admitsCode a b then closeText k s else none
  | '\\' :: '\n' :: s => closeText k s
  | '\\' :: '\r' :: '\n' :: s => closeText k s
  | '\\' :: c :: s => if k.escapes c then closeText k s else none
  | '\r' :: '\n' :: s => closeText k s
  | c :: s => if c ≠ '\\' ∧ c ≠ '\r' ∧ k.holds c then closeText k s else none

/-- The rest behind the end of a raw text: a quote and the given number of hashes. -/
def closeRaw (k : Quoted) (hashes : Nat) : Text → Option Text
  | [] => none
  | '\r' :: '\n' :: s => closeRaw k hashes s
  | c :: s =>
      if c = '"' ∧ s.take hashes = List.replicate hashes '#' then some (s.drop hashes)
      else if c ≠ '\r' ∧ k.holds c then closeRaw k hashes s
      else none

/-- The largest number of hashes in front of a raw text. -/
def maxHashes : Nat := 255

/-- The rest behind a **raw** text that starts with its hashes and its opening quote. -/
def raw (k : Quoted) (s : Text) : Option Text :=
  match s.dropWhile (· = '#') with
  | '"' :: body =>
      if (s.takeWhile (· = '#')).length ≤ maxHashes then
        closeRaw k (s.takeWhile (· = '#')).length body
      else none
  | _ => none

/-- The rest behind a single character, or an escape for one, and its closing quote. -/
def closeSingle (k : Quoted) : Text → Option Text
  | '\\' :: 'x' :: a :: b :: '\'' :: s => if k.admitsCode a b then some s else none
  | '\\' :: c :: '\'' :: s => if k.escapes c then some s else none
  | c :: '\'' :: s => if c ≠ '\\' ∧ k.holds c then some s else none
  | _ => none

end Quoted

/-- The rest behind the identifier that may stand directly behind a literal. -/
def dropSuffix : Text → Text
  | [] => []
  | c :: s => if isIdentifierStart c then s.dropWhile isIdentifierPart else c :: s

/-! ### What is left -/

namespace Quoted

theorem closeText_suffix {k : Quoted} {s rest : Text} (h : closeText k s = some rest) :
    rest <:+ s := by
  fun_induction closeText k s with
  | case1 => simp at h
  | case2 s =>
      obtain rfl : s = rest := by simpa using h
      exact List.suffix_cons _ _
  | case3 a b s _ ih =>
      exact (ih h).trans (List.suffix_append ['\\', 'x', a, b] s)
  | case4 => simp at h
  | case5 s ih => exact (ih h).trans (List.suffix_append ['\\', '\n'] s)
  | case6 s ih => exact (ih h).trans (List.suffix_append ['\\', '\r', '\n'] s)
  | case7 c s _ _ _ _ ih => exact (ih h).trans (List.suffix_append ['\\', c] s)
  | case8 => simp at h
  | case9 s ih => exact (ih h).trans (List.suffix_append ['\r', '\n'] s)
  | case10 c s _ _ _ _ _ _ _ ih => exact (ih h).trans (List.suffix_cons _ _)
  | case11 => simp at h

theorem closeRaw_suffix {k : Quoted} {hashes : Nat} {s rest : Text}
    (h : closeRaw k hashes s = some rest) : rest <:+ s := by
  fun_induction closeRaw k hashes s with
  | case1 => simp at h
  | case2 s ih => exact (ih h).trans (List.suffix_append ['\r', '\n'] s)
  | case3 c s _ _ =>
      obtain rfl : s.drop hashes = rest := by simpa using h
      exact (List.drop_suffix _ _).trans (List.suffix_cons _ _)
  | case4 c s _ _ _ ih => exact (ih h).trans (List.suffix_cons _ _)
  | case5 => simp at h

theorem raw_suffix {k : Quoted} {s rest : Text} (h : raw k s = some rest) : rest <:+ s := by
  unfold raw at h
  split at h
  · next body hb =>
      split at h
      · exact (closeRaw_suffix h).trans
          ((List.suffix_cons _ _).trans (hb ▸ List.dropWhile_suffix _))
      · simp at h
  · simp at h

theorem closeSingle_suffix {k : Quoted} {s rest : Text} (h : closeSingle k s = some rest) :
    rest <:+ s := by
  unfold closeSingle at h
  split at h
  · next a b s =>
      split at h
      · obtain rfl : s = rest := by simpa using h
        exact List.suffix_append ['\\', 'x', a, b, '\''] s
      · simp at h
  · next c s _ =>
      split at h
      · obtain rfl : s = rest := by simpa using h
        exact List.suffix_append ['\\', c, '\''] s
      · simp at h
  · next c s _ =>
      split at h
      · obtain rfl : s = rest := by simpa using h
        exact List.suffix_append [c, '\''] s
      · simp at h
  · simp at h

end Quoted

theorem dropSuffix_suffix (s : Text) : dropSuffix s <:+ s := by
  unfold dropSuffix
  split
  · exact List.suffix_rfl
  · split
    · exact (List.dropWhile_suffix _).trans (List.suffix_cons _ _)
    · exact List.suffix_rfl

end StructEndian
