/-!
# Texts

A text is a list of characters. Declarations are taken apart and functions are put
together as lists, so that a statement about a text is a statement about a list; the
packed strings of the outside world are converted at the edge of the library.

## Main definitions

* `Text`: a list of characters, with a coercion from string literals.
* `Text.split`: the parts of a text between separators.
* `Text.join`: the parts put together again, with a separator between them.
* `Text.upTo`: what stands in a text in front of one of its tails.
* `Text.decimal`: a natural number in decimal digits.
* `Text.utf8Width`: how many bytes a text takes in UTF-8.
-/

namespace StructEndian

/-- A **text** is a list of characters. -/
abbrev Text := List Char

/-- A string literal stands for the text of its characters. -/
instance : Coe String Text := ⟨String.toList⟩

namespace Text

/-- **Split** a text at every separator. The separators are dropped and every part is
kept, also an empty one, so there is one part more than there are separators. -/
def split (isSeparator : Char → Bool) : Text → List Text
  | [] => [[]]
  | c :: s =>
      if isSeparator c then [] :: split isSeparator s
      else
        match split isSeparator s with
        | [] => [[c]]
        | part :: parts => (c :: part) :: parts

/-- **Join** texts, with a separator between neighbours. -/
def join (separator : Text) : List Text → Text
  | [] => []
  | [t] => t
  | t :: ts => t ++ separator ++ join separator ts

/-- What stands in `s` **up to** its tail `rest`. -/
def upTo (s rest : Text) : Text :=
  s.take (s.length - rest.length)

/-- A natural number in **decimal** digits, without leading zeros. -/
def decimal (n : Nat) : Text :=
  Nat.toDigits 10 n

/-- How many bytes a text takes when it is encoded in UTF-8. -/
def utf8Width (s : Text) : Nat :=
  (s.map Char.utf8Size).foldr (· + ·) 0

/-! ### Small facts -/

/-- Characters are different if a class of characters holds one of them only. -/
theorem ne_of_class {p : Char → Bool} {c d : Char} (h : p c = true)
    (hd : p d = false) : c ≠ d := by
  rintro rfl
  exact absurd (h.symm.trans hd) (by decide)

@[simp] theorem utf8Width_nil : utf8Width [] = 0 := rfl

@[simp] theorem utf8Width_cons (c : Char) (s : Text) :
    utf8Width (c :: s) = c.utf8Size + utf8Width s := rfl

theorem utf8Width_append (s t : Text) : utf8Width (s ++ t) = utf8Width s + utf8Width t := by
  induction s with
  | nil => rw [List.nil_append, utf8Width_nil, Nat.zero_add]
  | cons c s ih => rw [List.cons_append, utf8Width_cons, utf8Width_cons, ih, Nat.add_assoc]

/-- There are at least as many bytes as characters. -/
theorem length_le_utf8Width (s : Text) : s.length ≤ utf8Width s := by
  induction s with
  | nil => exact Nat.le_refl 0
  | cons c s ih =>
      have hc := Char.utf8Size_pos c
      rw [utf8Width_cons, List.length_cons]
      omega

@[simp] theorem upTo_append (s rest : Text) : upTo (s ++ rest) rest = s := by
  simp [upTo]

/-- A text is split into at least one part. -/
theorem split_ne_nil (isSeparator : Char → Bool) (s : Text) : split isSeparator s ≠ [] := by
  induction s with
  | nil => simp [split]
  | cons c s ih =>
      unfold split
      split
      · simp
      · split <;> simp

/-- The parts without their separators hold as many characters as the text without its
separators: splitting drops nothing else. -/
theorem flatten_split (isSeparator : Char → Bool) (s : Text) :
    (split isSeparator s).flatten = s.filter fun c => !isSeparator c := by
  induction s with
  | nil => rfl
  | cons c s ih =>
      unfold split
      split
      · next h => simp [h, ih]
      · next h =>
          split
          · next hs => exact absurd hs (split_ne_nil _ _)
          · next part parts hs =>
              rw [hs] at ih
              simp only [List.flatten_cons, List.cons_append] at ih ⊢
              simp [h, ih]

end Text

end StructEndian
