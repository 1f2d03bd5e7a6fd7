import Mathlib.Data.List.Basic
import StructEndian.Proofs.Declaration.Pieces
import StructEndian.Proofs.Declaration.Scanning

/-!
# Finding the tag

A structure starts with the keyword, a blank, its tag, and an opening brace behind another
blank. The line with the brace holds all of it, however the rest of the text is broken into
lines, and the first two words of this line are the keyword and the tag.

## Main definitions

* `headText`: what stands in front of the opening brace.

## Main results

* `Text.lines_append`: what stands in front of the first line end is in the first line.
* `Text.words_append`: the words of a line are taken off its front.
* `structTag_lines`: the tag of a structure is found.
-/

namespace StructEndian

/-- What stands in front of the opening brace of a structure: its **head**. -/
def headText (tag : Text) : Text :=
  structKeyword ++ ' ' :: (tag ++ [' '])

namespace Text

/-- **The first line** starts with what stands in front of the first line end. -/
theorem lines_append {a : Text} (hne : a ≠ []) (ha : ∀ c ∈ a, c ≠ '\n' ∧ c ≠ '\r') (t : Text) :
    lines (a ++ t) = prependLine a (lines t) := by
  induction a with
  | nil => exact absurd rfl hne
  | cons c a ih =>
      obtain ⟨hnewline, hreturn⟩ := ha c (by simp)
      have hcons : lines (c :: (a ++ t)) = prependLine [c] (lines (a ++ t)) := by
        rw [lines]
        · cases lines (a ++ t) <;> rfl
        · exact hnewline
        · exact fun s hc _ => hreturn hc
      rw [List.cons_append, hcons]
      cases a with
      | nil => rfl
      | cons d a =>
          rw [ih (by simp) fun e he => ha e (by simp [he])]
          cases lines t <;> rfl

/-- What is taken of a class ends in front of what is not of it. -/
theorem takeWhile_append_break {p : Char → Bool} {s t : Text} (hs : ∀ c ∈ s, p c = true)
    (ht : ∀ c ∈ t.head?, p c = false) : (s ++ t).takeWhile p = s := by
  rw [List.takeWhile_append_of_pos hs]
  cases t with
  | nil => exact List.append_nil s
  | cons c t => rw [List.takeWhile_cons_of_neg (by simp [ht c rfl]), List.append_nil]

/-- And so does what is dropped of it. -/
theorem dropWhile_append_break {p : Char → Bool} {s t : Text} (hs : ∀ c ∈ s, p c = true)
    (ht : ∀ c ∈ t.head?, p c = false) : (s ++ t).dropWhile p = t := by
  rw [List.dropWhile_append_of_pos hs]
  cases t with
  | nil => rfl
  | cons c t => rw [List.dropWhile_cons_of_neg (by simp [ht c rfl])]

/-- **The first word** of a line, and the gap in front of it. -/
theorem words_append {g w r : Text} (hg : ∀ c ∈ g, isWordChar c = false) (hne : w ≠ [])
    (hw : ∀ c ∈ w, isWordChar c = true) (hr : ∀ c ∈ r.head?, isWordChar c = false) :
    words (g ++ (w ++ r)) = (g, w) :: words r := by
  obtain ⟨c, v, rfl⟩ := List.exists_cons_of_ne_nil hne
  have hgap : ∀ d ∈ g, (!isWordChar d) = true := fun d hd => by rw [hg d hd]; rfl
  have hbreak : ∀ d ∈ (c :: v ++ r).head?, (!isWordChar d) = false := by
    intro d hd
    obtain rfl : c = d := Option.some.inj hd
    simp [hw c List.mem_cons_self]
  have hv : ∀ d ∈ v, isWordChar d = true := fun d hd => hw d (List.mem_cons_of_mem c hd)
  rw [words.eq_def]
  split
  · next hnil =>
      rw [dropWhile_append_break hgap hbreak] at hnil
      cases hnil
  · next c' r' hcons =>
      rw [dropWhile_append_break hgap hbreak, List.cons_append] at hcons
      obtain ⟨rfl, rfl⟩ := List.cons.inj hcons
      rw [takeWhile_append_break hgap hbreak, takeWhile_append_break hv hr,
        dropWhile_append_break hv hr]

end Text

/-- The head of a structure, with its brace and something behind it, starts with the keyword
and the tag. -/
theorem taggedWord_words_headText {tag : Text} (htag : tag.isWord = true) (t : Text) :
    taggedWord (headText tag ++ '\x7b' :: t).words = some tag := by
  have hkeyword : ∀ c ∈ structKeyword, isWordChar c = true := Text.isWordChar_of_mem (by decide)
  have hword : (headText tag ++ '\x7b' :: t).words =
      ([], structKeyword) :: ([' '], tag) :: Text.words (' ' :: '\x7b' :: t) := by
    have hhead : headText tag ++ '\x7b' :: t =
        [] ++ (structKeyword ++ ([' '] ++ (tag ++ ' ' :: '\x7b' :: t))) := by
      simp [headText]
    rw [hhead, Text.words_append (by simp) (by decide) hkeyword (by simp; decide),
      Text.words_append (by simp; decide) (Text.ne_nil_of_isWord htag) (Text.isWordChar_of_mem htag)
        (by simp; decide)]
  rw [hword, taggedWord, if_pos ⟨rfl, by simp, by decide⟩]

/-- The head holds word characters and blanks only. -/
theorem isWordChar_of_mem_headText {tag : Text} (htag : tag.isWord = true) {c : Char}
    (hc : c ∈ headText tag) : isWordChar c = true ∨ c = ' ' := by
  have hkeyword : ∀ c ∈ structKeyword, isWordChar c = true := Text.isWordChar_of_mem (by decide)
  rw [headText, List.mem_append, List.mem_cons, List.mem_append, List.mem_singleton] at hc
  rcases hc with hc | hc | hc | hc
  · exact Or.inl (hkeyword c hc)
  · exact Or.inr hc
  · exact Or.inl (Text.isWordChar_of_mem htag c hc)
  · exact Or.inr hc

/-- Other characters are not in the head. -/
theorem notMem_headText {tag : Text} (htag : tag.isWord = true) {c : Char}
    (hword : isWordChar c = false) (hne : c ≠ ' ') : c ∉ headText tag := by
  intro hc
  rcases isWordChar_of_mem_headText htag hc with h | h
  · exact absurd (h.symm.trans hword) (by decide)
  · exact hne h

/-- The first line of a structure holds the head and the brace. -/
theorem exists_lines_headText {tag : Text} (htag : tag.isWord = true) (t : Text) :
    ∃ line rest, (headText tag ++ '\x7b' :: t).lines =
      (headText tag ++ '\x7b' :: line) :: rest := by
  have hend : ∀ c ∈ headText tag ++ ['\x7b'], c ≠ '\n' ∧ c ≠ '\r' := by
    intro c hc
    rcases List.mem_append.1 hc with hc | hc
    · constructor
      · rintro rfl
        exact notMem_headText htag (by decide) (by decide) hc
      · rintro rfl
        exact notMem_headText htag (by decide) (by decide) hc
    · obtain rfl := List.mem_singleton.1 hc
      decide
  rw [List.append_cons, Text.lines_append (by simp) hend]
  cases t.lines with
  | nil => exact ⟨[], [], rfl⟩
  | cons line rest => exact ⟨line, rest, by simp [prependLine]⟩

/-- **The tag** of a structure is found if there is no comment. -/
theorem structTag_lines {tag t : Text} (htag : tag.isWord = true) (ht : '/' ∉ t) :
    structTag (headText tag ++ '\x7b' :: t).lines = tag := by
  obtain ⟨line, rest, hfirst⟩ := exists_lines_headText htag t
  have hslash : '/' ∉ headText tag ++ '\x7b' :: line := by
    intro hmem
    have hall := mem_of_mem_lines (hfirst ▸ List.mem_cons_self) hmem
    rw [List.mem_append, List.mem_cons] at hall
    rcases hall with hall | hall | hall
    · exact notMem_headText htag (by decide) (by decide) hall
    · exact absurd hall (by decide)
    · exact ht hall
  have hstrip : Text.stripComment (headText tag ++ '\x7b' :: line) =
      headText tag ++ '\x7b' :: Text.trimEnd line := by
    rw [stripComment_of_notMem hslash, ← Text.trimEnd_append_cons (by decide)]
    rfl
  rw [structTag, hfirst, List.findSome?_cons, hstrip, taggedWord_words_headText htag]
  rfl

end StructEndian
