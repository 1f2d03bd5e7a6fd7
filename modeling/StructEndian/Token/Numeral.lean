import StructEndian.Token.Quoted

/-!
# Numerals

A numeral starts with a digit and is a floating-point or an integer numeral, with an
identifier directly behind it as its suffix. Where it ends is one question; which numerals
count as integers, and with what value, is asked of the finished numeral and has an answer
of its own: an exponent makes a numeral no integer, but an `e` that no digit follows is a
suffix.

## Main definitions

* `Numeral.floatingDigits`, `Numeral.integerDigits`: the rest behind the digits of a numeral
  of either form.
* `Numeral.read`: the rest behind a numeral.
* `Numeral.value?`: the value of a numeral that counts as an integer.

## Main results

* `Numeral.read_suffix`: reading a numeral that starts with a digit leaves a tail of what
  follows the digit.
-/

namespace StructEndian

namespace Numeral

/-- A decimal digit or the underscore that may stand between digits. -/
def isDigitOrGap (c : Char) : Bool :=
  c.isDigit || c = '_'

/-- Whether a character introduces an exponent. -/
def isExponentMark (c : Char) : Bool :=
  c = 'e' || c = 'E'

/-! ### Where a numeral ends -/

/-- Take the suffix off the end of a numeral. What follows must not go on like an
identifier. -/
def finish (s : Text) : Option Text :=
  match dropSuffix s with
  | [] => some []
  | c :: rest => if isIdentifierPart c then none else some (c :: rest)

/-- The rest behind the digits of an exponent, given whether a sign and whether a digit has
been read. One sign may stand in front of the first digit; underscores may stand
anywhere. Without a digit, or with a second sign in front of it, it is no exponent. -/
def exponent : Bool → Bool → Text → Option Text
  | _, hasDigit, [] => if hasDigit then some [] else none
  | signed, hasDigit, c :: s =>
      if c.isDigit then exponent signed true s
      else if c = '_' then exponent signed hasDigit s
      else if (c = '+' || c = '-') && !hasDigit then
        if signed then none else exponent true hasDigit s
      else if hasDigit then some (c :: s) else none

/-- The rest behind the digits of a **floating-point** numeral. It needs a point or an
exponent. Behind the point there is no second point and no identifier, and an exponent
behind the point that turns out not to be one is left to the suffix. -/
def floatingDigits (s : Text) : Option Text :=
  match s.dropWhile isDigitOrGap with
  | '.' :: fraction =>
      match fraction with
      | [] => some []
      | c :: _ =>
          if c = '.' || isIdentifierStart c then none
          else
            match fraction.dropWhile isDigitOrGap with
            | [] => some []
            | e :: s =>
                if isExponentMark e then some ((exponent false false s).getD (e :: s))
                else some (e :: s)
  | e :: s => if isExponentMark e then exponent false false s else none
  | [] => none

/-- The rest behind the digits of an **integer** numeral in the given base, given whether a
digit has been read. A decimal digit that the base does not have makes the numeral invalid,
a letter that the base does not have ends it. -/
def digits (base : Nat) : Bool → Text → Option Text
  | hasDigit, [] => if hasDigit then some [] else none
  | hasDigit, c :: s =>
      if c = '_' then
        if !hasDigit && base = 10 then none else digits base hasDigit s
      else
        match hexValue c with
        | some d =>
            if d < base then digits base true s
            else if c.isDigit then none
            else if hasDigit then some (c :: s) else none
        | none => if hasDigit then some (c :: s) else none

/-- The base that a numeral's first characters announce, and what follows them. -/
def announcedBase : Text → Nat × Text
  | '0' :: 'x' :: s => (16, s)
  | '0' :: 'o' :: s => (8, s)
  | '0' :: 'b' :: s => (2, s)
  | s => (10, s)

/-- The rest behind the digits of an integer numeral, its base announced or not. -/
def integerDigits (s : Text) : Option Text :=
  digits (announcedBase s).1 false (announcedBase s).2

/-- **Read** a numeral that starts with a digit: a floating-point one if that is possible,
an integer one otherwise. -/
def read (s : Text) : Option Text :=
  ((floatingDigits s).bind finish).or ((integerDigits s).bind finish)

/-! ### Which numerals are integers -/

/-- Whether the text behind an `e` makes it an exponent, given whether a digit has been
read. A sign does, and so do digits up to the end, or up to a suffix. -/
def isExponent : Bool → Text → Bool
  | hasDigit, [] => hasDigit
  | hasDigit, c :: s =>
      if c = '_' then isExponent hasDigit s
      else if c = '+' || c = '-' then true
      else if c.isDigit then isExponent true s
      else hasDigit && Text.isIdentifier (c :: s)

/-- The value of the digits of an integer in the given base, where `value?` is the value of
the digits so far, if there are any. Behind the digits there may be a suffix. -/
def valueFrom (base : Nat) : Option Nat → Text → Option Nat
  | value?, [] => value?
  | value?, c :: s =>
      if c = '_' then valueFrom base value? s
      else
        match hexValue c with
        | some d =>
            if c.isDigit then
              if d < base then valueFrom base (some (base * value?.getD 0 + d)) s else none
            else if 10 < base then valueFrom base (some (base * value?.getD 0 + d)) s
            else if base = 10 && isExponentMark c && isExponent false s then none
            else if Text.isIdentifier (c :: s) then value? else none
        | none =>
            if Text.isIdentifier (c :: s) then value? else none

/-- The **value** of a numeral that counts as an integer. -/
def value? (numeral : Text) : Option Nat :=
  match numeral with
  | c :: _ =>
      if c.isDigit then valueFrom (announcedBase numeral).1 none (announcedBase numeral).2
      else none
  | [] => none

/-! ### What is left -/

theorem finish_suffix {s rest : Text} (h : finish s = some rest) : rest <:+ s := by
  unfold finish at h
  have hs := dropSuffix_suffix s
  split at h
  · next hd =>
      obtain rfl : [] = rest := by simpa using h
      exact List.nil_suffix
  · next c t hd =>
      split at h
      · simp at h
      · obtain rfl : c :: t = rest := by simpa using h
        exact hd ▸ hs

theorem exponent_suffix {signed hasDigit : Bool} {s rest : Text}
    (h : exponent signed hasDigit s = some rest) : rest <:+ s := by
  fun_induction exponent signed hasDigit s with
  | case1 => simp_all
  | case2 => simp at h
  | case3 _ _ c s _ ih => exact (ih h).trans (List.suffix_cons _ _)
  | case4 _ _ s _ ih => exact (ih h).trans (List.suffix_cons _ _)
  | case5 => simp at h
  | case6 _ _ c s _ _ _ _ ih => exact (ih h).trans (List.suffix_cons _ _)
  | case7 => simp_all
  | case8 => simp at h

theorem floatingDigits_suffix {c : Char} {s rest : Text} (hc : c.isDigit = true)
    (h : floatingDigits (c :: s) = some rest) : rest <:+ s := by
  have hd : isDigitOrGap c = true := by simp [isDigitOrGap, hc]
  have hs := List.dropWhile_suffix (l := s) isDigitOrGap
  unfold floatingDigits at h
  rw [List.dropWhile_cons, if_pos hd] at h
  split at h
  · next fraction hf =>
      rw [hf] at hs
      have hfrac := (List.suffix_cons '.' fraction).trans hs
      split at h
      · obtain rfl : [] = rest := by simpa using h
        exact List.nil_suffix
      · next c' t =>
          split at h
          · simp at h
          · split at h
            · obtain rfl : [] = rest := by simpa using h
              exact List.nil_suffix
            · next e u he =>
                have heu := (he ▸ List.dropWhile_suffix _ : e :: u <:+ c' :: t).trans hfrac
                split at h
                · obtain rfl : (exponent false false u).getD (e :: u) = rest := by
                    simpa using h
                  cases hx : exponent false false u with
                  | none => exact heu
                  | some r =>
                      exact (exponent_suffix hx).trans ((List.suffix_cons _ _).trans heu)
                · obtain rfl : e :: u = rest := by simpa using h
                  exact heu
  · next e u _ he =>
      rw [he] at hs
      split at h
      · exact (exponent_suffix h).trans ((List.suffix_cons _ _).trans hs)
      · simp at h
  · simp at h

theorem digits_suffix {base : Nat} {hasDigit : Bool} {s rest : Text}
    (h : digits base hasDigit s = some rest) : rest <:+ s := by
  fun_induction digits base hasDigit s with
  | case1 => simp_all
  | case2 => simp at h
  | case3 => simp at h
  | case4 _ s _ ih => exact (ih h).trans (List.suffix_cons _ _)
  | case5 _ c s _ d _ _ ih => exact (ih h).trans (List.suffix_cons _ _)
  | case6 => simp at h
  | case7 => simp_all
  | case8 => simp at h
  | case9 => simp_all
  | case10 => simp at h

theorem integerDigits_suffix {c : Char} {s rest : Text} (hc : c.isDigit = true)
    (h : integerDigits (c :: s) = some rest) : rest <:+ s := by
  unfold integerDigits announcedBase at h
  split at h
  · next t ht =>
      obtain ⟨_, rfl⟩ : c = '0' ∧ s = 'x' :: t := by simpa using ht
      exact (digits_suffix h).trans (List.suffix_cons _ _)
  · next t ht =>
      obtain ⟨_, rfl⟩ : c = '0' ∧ s = 'o' :: t := by simpa using ht
      exact (digits_suffix h).trans (List.suffix_cons _ _)
  · next t ht =>
      obtain ⟨_, rfl⟩ : c = '0' ∧ s = 'b' :: t := by simpa using ht
      exact (digits_suffix h).trans (List.suffix_cons _ _)
  · simp only [digits] at h
    have hne : c ≠ '_' := by rintro rfl; simp [Char.isDigit] at hc
    split at h
    · next hu => exact absurd hu hne
    · split at h
      · split at h
        · exact digits_suffix h
        · simp at h
      · simp at h

/-- Reading a numeral that starts with a digit leaves a tail of what follows the digit. -/
theorem read_suffix {c : Char} {s rest : Text} (hc : c.isDigit = true)
    (h : read (c :: s) = some rest) : rest <:+ s := by
  unfold read at h
  rcases Option.or_eq_some_iff.1 h with h | ⟨_, h⟩
  · obtain ⟨r, hr, hf⟩ := Option.bind_eq_some_iff.1 h
    exact (finish_suffix hf).trans (floatingDigits_suffix hc hr)
  · obtain ⟨r, hr, hf⟩ := Option.bind_eq_some_iff.1 h
    exact (finish_suffix hf).trans (integerDigits_suffix hc hr)

end Numeral

end StructEndian
