import Mathlib.Order.WellFounded
import StructEndian.Proofs.Checked.Tag

/-!
# Where a tag stands

The tag of a structure is found by taking lines apart: a line is cut into its words, and every word
is compared with the keyword and the gap behind it looked at. Here the tag is described by the place
where it stands, without the words of the line. A tag **occurs** where the keyword starts, where no
word goes on into the keyword, and where one or more blanks and then a word stand behind it. The tag
that is found is that of the leftmost occurrence in the first line that has one.

An occurrence in a line that starts with a gap and a word is either at this word, which is the
keyword then, or in what stands behind the word (`TagOccurrence.at_or_behind`). So the search over
neighbouring words misses no occurrence, and the first one that it meets is the leftmost.

## Main definitions

* `TagOccurrence`: a place in a line where a tag occurs.
* `TagOccurrence.IsLeftmost`: no tag occurs further to the left.
* `IsFirstTag`: the tag of the leftmost occurrence in the first line with one.

## Main results

* `TagOccurrence.at_or_behind`: an occurrence is at the first word or behind it.
* `TagOccurrence.taggedWord_eq_some_iff`, `TagOccurrence.exists_isLeftmost_behind_iff`: what is
  leftmost in the two cases.
* `taggedWord_words_eq_some_iff`: the search over the words of a line finds the leftmost occurrence.
* `structTag_leftmost`: the tag of many lines is their first tag.
-/

namespace StructEndian

open Text

/-- An **occurrence** of a tag in a line: the keyword with blanks and a word behind it. The word is
the tag, from the blanks to where it ends. -/
structure TagOccurrence (line : Text) where
  /-- What stands in front of the keyword. -/
  front : Text
  /-- The blanks behind the keyword. -/
  gap : Text
  /-- The tag. -/
  tag : Text
  /-- What stands behind the tag. -/
  rest : Text
  /-- All of it is the line. -/
  line_eq : line = front ++ (structKeyword ++ (gap ++ (tag ++ rest)))
  /-- No word goes on into the keyword. -/
  front_break : ∀ c ∈ front.getLast?, isWordChar c = false
  /-- There is a gap. -/
  gap_ne_nil : gap ≠ []
  /-- The gap is blank. -/
  gap_blank : ∀ c ∈ gap, isBlank c = true
  /-- There is a tag. -/
  tag_ne_nil : tag ≠ []
  /-- The tag is a word. -/
  tag_word : ∀ c ∈ tag, isWordChar c = true
  /-- The word ends with the tag. -/
  rest_break : ∀ c ∈ rest.head?, isWordChar c = false

/-! ### Words at the front of a line -/

/-- **A word and what stands behind it** are determined by the text that they make. -/
theorem Text.word_append_inj {v w r s : Text} (hv : ∀ c ∈ v, isWordChar c = true)
    (hw : ∀ c ∈ w, isWordChar c = true) (hr : ∀ c ∈ r.head?, isWordChar c = false)
    (hs : ∀ c ∈ s.head?, isWordChar c = false) (h : v ++ r = w ++ s) : v = w ∧ r = s := by
  have hvw : v = w := by rw [← takeWhile_append_break hv hr, h, takeWhile_append_break hw hs]
  have hrs : r = s := by rw [← dropWhile_append_break hv hr, h, dropWhile_append_break hw hs]
  exact ⟨hvw, hrs⟩

/-- The first word of a line, the gap in front of it and what stands behind it are the line. -/
theorem Text.exists_eq_of_words_eq_cons {s gap w : Text} {ws : List (Text × Text)}
    (h : words s = (gap, w) :: ws) :
    ∃ rest, s = gap ++ (w ++ rest) ∧ w ≠ [] ∧ (∀ c ∈ w, isWordChar c = true) ∧
      ∀ c ∈ rest.head?, isWordChar c = false := by
  induction s using words_induction with
  | gap g hg =>
      rw [words_of_gap hg] at h
      cases h
  | word g v r hg hne hv hr _ =>
      rw [words_append hg hne hv hr] at h
      obtain ⟨hfirst, -⟩ := List.cons.inj h
      obtain ⟨rfl, rfl⟩ := Prod.mk.inj hfirst
      exact ⟨r, rfl, hne, hv, hr⟩

/-! ### Occurrences -/

namespace TagOccurrence

variable {s g w r : Text}

/-- The **position** of an occurrence is that of its keyword. -/
def position (o : TagOccurrence s) : Nat :=
  o.front.length

/-- An occurrence is **leftmost** if no tag occurs further to the left. -/
def IsLeftmost (o : TagOccurrence s) : Prop :=
  ∀ o' : TagOccurrence s, o.position ≤ o'.position

/-- If a tag occurs, there is a leftmost occurrence. -/
theorem exists_isLeftmost (o : TagOccurrence s) : ∃ o' : TagOccurrence s, o'.IsLeftmost := by
  have hne : Nonempty (TagOccurrence s) := ⟨o⟩
  exact ⟨Function.argmin position, fun o' => Function.argmin_le position o'⟩

/-- What stands behind the keyword of an occurrence starts with a blank. -/
theorem gap_break (o : TagOccurrence s) :
    ∀ c ∈ (o.gap ++ (o.tag ++ o.rest)).head?, isWordChar c = false := by
  obtain ⟨c, gap, hgap⟩ := List.exists_cons_of_ne_nil o.gap_ne_nil
  have hc : isBlank c = true := o.gap_blank c (by simp [hgap])
  intro d hd
  rw [hgap] at hd
  obtain rfl : c = d := Option.some.inj hd
  exact isWordChar_of_isBlank hc

/-- In a gap no tag occurs. -/
theorem isEmpty_of_gap (hg : ∀ c ∈ g, isWordChar c = false) : IsEmpty (TagOccurrence g) := by
  refine ⟨fun o => ?_⟩
  have hmem : 's' ∈ g := by
    rw [o.line_eq]
    exact List.mem_append_right _ (List.mem_append_left _ (by decide))
  exact absurd (hg 's' hmem) (by decide)

/-- **An occurrence in a line that starts with a gap and a word** is at this word, or it is an
occurrence in what stands behind. -/
theorem at_or_behind (hg : ∀ c ∈ g, isWordChar c = false) (hw : ∀ c ∈ w, isWordChar c = true)
    (hr : ∀ c ∈ r.head?, isWordChar c = false) (o : TagOccurrence (g ++ (w ++ r))) :
    (o.front = g ∧ w = structKeyword ∧ r = o.gap ++ (o.tag ++ o.rest)) ∨
      ∃ o' : TagOccurrence r, o'.tag = o.tag ∧ o.position = (g ++ w).length + o'.position := by
  have hgap : ∃ a, o.front = g ++ a ∧
      w ++ r = a ++ (structKeyword ++ (o.gap ++ (o.tag ++ o.rest))) := by
    rcases List.append_eq_append_iff.mp o.line_eq with hfront | ⟨a, hg', hkeyword⟩
    · exact hfront
    · -- the keyword does not start inside of the gap
      cases a with
      | nil =>
          rw [List.append_nil] at hg'
          exact ⟨[], hg'.symm.trans (List.append_nil g).symm, hkeyword.symm⟩
      | cons c a =>
          obtain ⟨hc, -⟩ := List.cons.inj hkeyword
          have hmem : c ∈ g := by simp [hg']
          rw [← hc] at hmem
          exact absurd (hg _ hmem) (by decide)
  obtain ⟨a, hfront, hline⟩ := hgap
  rcases List.append_eq_append_iff.mp hline with ⟨b, rfl, hr'⟩ | ⟨b, hw', hkeyword⟩
  · refine Or.inr ⟨⟨b, o.gap, o.tag, o.rest, hr', fun c hc => ?_, o.gap_ne_nil, o.gap_blank,
      o.tag_ne_nil, o.tag_word, o.rest_break⟩, rfl, ?_⟩
    · refine o.front_break c ?_
      rw [hfront, ← List.append_assoc, List.getLast?_append, Option.mem_def.mp hc, Option.some_or]
      rfl
    · have hlength := congrArg List.length hfront
      rwa [← List.append_assoc g w b, List.length_append] at hlength
  · -- nor does it start inside of the word
    have ha : a = [] := by
      rcases List.eq_nil_or_concat a with ha | ⟨front, c, ha⟩
      · exact ha
      · rw [List.concat_eq_append] at ha
        have hword : isWordChar c = true := hw c (by simp [hw', ha])
        have hbreak := o.front_break c (by rw [hfront, ha, ← List.append_assoc]; simp)
        exact absurd (hword.symm.trans hbreak) (by decide)
    subst ha
    rw [List.nil_append] at hw'
    obtain ⟨hkeyword, hbehind⟩ := word_append_inj (isWordChar_of_mem (by decide))
      (hw' ▸ hw) o.gap_break hr hkeyword
    exact Or.inl ⟨by rw [hfront, List.append_nil], hw'.trans hkeyword.symm, hbehind.symm⟩

/-- An occurrence in what stands behind a word is one in the whole line. -/
theorem exists_behind (hr : ∀ c ∈ r.head?, isWordChar c = false) (o : TagOccurrence r) :
    ∃ o' : TagOccurrence (g ++ (w ++ r)),
      o'.tag = o.tag ∧ o'.position = (g ++ w).length + o.position := by
  have hfront : o.front ≠ [] := by
    intro hnil
    have hhead : 's' ∈ r.head? := by
      rw [o.line_eq, hnil]
      rfl
    exact absurd (hr 's' hhead) (by decide)
  refine ⟨⟨g ++ (w ++ o.front), o.gap, o.tag, o.rest, ?_, ?_, o.gap_ne_nil, o.gap_blank,
    o.tag_ne_nil, o.tag_word, o.rest_break⟩, rfl, ?_⟩
  · conv_lhs => rw [o.line_eq]
    simp only [List.append_assoc]
  · rw [← List.append_assoc, List.getLast?_append_of_ne_nil _ hfront]
    exact o.front_break
  · have hlength : (g ++ w ++ o.front).length = (g ++ w).length + o.front.length :=
      List.length_append
    rwa [List.append_assoc] at hlength

end TagOccurrence

/-! ### The search over words -/

variable {s g w r tag : Text}

/-- **At an occurrence** the search finds the tag. -/
theorem TagOccurrence.taggedWord_cons (o : TagOccurrence s)
    (hr : r = o.gap ++ (o.tag ++ o.rest)) (g : Text) :
    taggedWord ((g, structKeyword) :: words r) = some o.tag := by
  have hgap : ∀ c ∈ o.gap, isWordChar c = false := fun c hc =>
    isWordChar_of_isBlank (o.gap_blank c hc)
  have hcond : structKeyword = structKeyword ∧ o.gap ≠ [] ∧ o.gap.all isBlank = true :=
    ⟨rfl, o.gap_ne_nil, List.all_eq_true.mpr o.gap_blank⟩
  rw [hr, words_append hgap o.tag_ne_nil o.tag_word o.rest_break, taggedWord, if_pos hcond]

/-- **Where no tag occurs** at the first word, the search goes on behind it. -/
theorem taggedWord_cons_of_forall_front_ne (hg : ∀ c ∈ g, isWordChar c = false)
    (h : ∀ o : TagOccurrence (g ++ (w ++ r)), o.front ≠ g) :
    taggedWord ((g, w) :: words r) = taggedWord (words r) := by
  cases hwords : words r with
  | nil => rfl
  | cons next ws =>
      obtain ⟨gap, tag⟩ := next
      rw [taggedWord, if_neg]
      rintro ⟨rfl, hne, hblank⟩
      obtain ⟨rest, rfl, htag, hword, hrest⟩ := exists_eq_of_words_eq_cons hwords
      refine h ⟨g, gap, tag, rest, rfl, fun c hc => hg c (List.mem_of_mem_getLast? hc), hne,
        List.all_eq_true.mp hblank, htag, hword, hrest⟩ rfl

/-- **At the first word** there is one tag only, and it is that of the leftmost occurrence. -/
theorem TagOccurrence.taggedWord_eq_some_iff (hg : ∀ c ∈ g, isWordChar c = false)
    (hne : w ≠ []) (hw : ∀ c ∈ w, isWordChar c = true) (hr : ∀ c ∈ r.head?, isWordChar c = false)
    (o : TagOccurrence (g ++ (w ++ r))) (ho : o.front = g) :
    taggedWord ((g, w) :: words r) = some tag ↔
      ∃ o' : TagOccurrence (g ++ (w ++ r)), o'.IsLeftmost ∧ o'.tag = tag := by
  have hpos : g.length < (g ++ w).length := by
    rw [List.length_append]
    exact Nat.lt_add_of_pos_right (List.length_pos_of_ne_nil hne)
  have hfirst : ∀ o : TagOccurrence (g ++ (w ++ r)), o.position ≤ g.length →
      taggedWord ((g, w) :: words r) = some o.tag ∧ o.position = g.length := by
    intro o ho
    rcases o.at_or_behind hg hw hr with ⟨hfront, rfl, hbehind⟩ | ⟨o', -, hposition⟩
    · exact ⟨o.taggedWord_cons hbehind g, by rw [position, hfront]⟩
    · omega
  have hle : o.position ≤ g.length := by rw [position, ho]
  obtain ⟨htagged, hposition⟩ := hfirst o hle
  constructor
  · intro h
    refine ⟨o, fun o' => ?_, Option.some.inj (htagged.symm.trans h)⟩
    by_contra hlt
    have := (hfirst o' (by omega)).2
    omega
  · rintro ⟨o', hleftmost, rfl⟩
    exact (hfirst o' ((hleftmost o).trans hle)).1

/-- **If no tag occurs at the first word**, the leftmost occurrence is the one behind it. -/
theorem TagOccurrence.exists_isLeftmost_behind_iff (hg : ∀ c ∈ g, isWordChar c = false)
    (hw : ∀ c ∈ w, isWordChar c = true) (hr : ∀ c ∈ r.head?, isWordChar c = false)
    (hnone : ∀ o : TagOccurrence (g ++ (w ++ r)), o.front ≠ g) :
    (∃ o : TagOccurrence r, o.IsLeftmost ∧ o.tag = tag) ↔
      ∃ o : TagOccurrence (g ++ (w ++ r)), o.IsLeftmost ∧ o.tag = tag := by
  have hbehind : ∀ o : TagOccurrence (g ++ (w ++ r)), ∃ o' : TagOccurrence r,
      o'.tag = o.tag ∧ o.position = (g ++ w).length + o'.position := fun o =>
    (o.at_or_behind hg hw hr).resolve_left fun h => hnone o h.1
  constructor
  · rintro ⟨o, hleftmost, rfl⟩
    obtain ⟨o₁, htag, hposition⟩ := o.exists_behind (g := g) (w := w) hr
    refine ⟨o₁, fun o₂ => ?_, htag⟩
    obtain ⟨o', -, hposition'⟩ := hbehind o₂
    have := hleftmost o'
    omega
  · rintro ⟨o, hleftmost, rfl⟩
    obtain ⟨o₁, htag, hposition⟩ := hbehind o
    refine ⟨o₁, fun o₂ => ?_, htag⟩
    obtain ⟨o', -, hposition'⟩ := o₂.exists_behind (g := g) (w := w) hr
    have := hleftmost o'
    omega

/-- **The search over the words of a line** finds the tag of the leftmost occurrence. -/
theorem taggedWord_words_eq_some_iff :
    taggedWord (words s) = some tag ↔ ∃ o : TagOccurrence s, o.IsLeftmost ∧ o.tag = tag := by
  induction s using words_induction with
  | gap g hg =>
      have hempty := TagOccurrence.isEmpty_of_gap hg
      rw [words_of_gap hg]
      constructor
      · intro h
        cases h
      · rintro ⟨o, -⟩
        exact hempty.elim o
  | word g w r hg hne hw hr ih =>
      rw [words_append hg hne hw hr]
      by_cases hhead : ∃ o : TagOccurrence (g ++ (w ++ r)), o.front = g
      · obtain ⟨o, ho⟩ := hhead
        exact o.taggedWord_eq_some_iff hg hne hw hr ho
      · have hnone : ∀ o : TagOccurrence (g ++ (w ++ r)), o.front ≠ g := fun o ho => hhead ⟨o, ho⟩
        rw [taggedWord_cons_of_forall_front_ne hg hnone, ih]
        exact TagOccurrence.exists_isLeftmost_behind_iff hg hw hr hnone

/-- It finds nothing exactly if no tag occurs. -/
theorem taggedWord_words_eq_none_iff :
    taggedWord (words s) = none ↔ IsEmpty (TagOccurrence s) := by
  rw [Option.eq_none_iff_forall_ne_some]
  constructor
  · intro h
    refine ⟨fun o => ?_⟩
    obtain ⟨o', hleftmost⟩ := o.exists_isLeftmost
    exact h o'.tag (taggedWord_words_eq_some_iff.mpr ⟨o', hleftmost, rfl⟩)
  · intro hempty tag h
    obtain ⟨o, -⟩ := taggedWord_words_eq_some_iff.mp h
    exact hempty.elim o

/-! ### Many lines -/

/-- A text is the **first tag** of a list of lines if it is the tag of the leftmost occurrence in the
first line that has one, comments aside. -/
def IsFirstTag (lines : List Text) (tag : Text) : Prop :=
  ∃ before line after, lines = before ++ line :: after ∧
    (∀ l ∈ before, IsEmpty (TagOccurrence l.stripComment)) ∧
    ∃ o : TagOccurrence line.stripComment, o.IsLeftmost ∧ o.tag = tag

/-- The first line with a tagged word is the first one in which a tag occurs. -/
theorem findSome?_taggedWord_eq_some_iff {lines : List Text} :
    (lines.findSome? fun line => taggedWord line.stripComment.words) = some tag ↔
      IsFirstTag lines tag := by
  simp only [List.findSome?_eq_some_iff, taggedWord_words_eq_some_iff, taggedWord_words_eq_none_iff,
    IsFirstTag]
  constructor
  · rintro ⟨before, line, after, hlines, ho, hbefore⟩
    exact ⟨before, line, after, hlines, hbefore, ho⟩
  · rintro ⟨before, line, after, hlines, hbefore, ho⟩
    exact ⟨before, line, after, hlines, ho, hbefore⟩

/-- **The tag of a list of lines** is that of the leftmost occurrence in the first line that has one,
and it is empty exactly if no tag occurs. Found by byte offsets it is the same. -/
theorem structTag_leftmost (lines : List Text) :
    (structTag lines = [] ↔ ∀ line ∈ lines, IsEmpty (TagOccurrence line.stripComment)) ∧
    (∀ tag, IsFirstTag lines tag ↔ tag ≠ [] ∧ structTag lines = tag) ∧
    Checked.structTag lines = .ok (structTag lines) := by
  have hne : ∀ {tag}, IsFirstTag lines tag → tag ≠ [] := by
    rintro tag ⟨-, -, -, -, -, o, -, rfl⟩
    exact o.tag_ne_nil
  refine ⟨?_, fun tag => ?_, Checked.structTag_eq lines⟩
  · rw [structTag]
    cases hfound : lines.findSome? fun line => taggedWord line.stripComment.words with
    | none =>
        have hnone := List.findSome?_eq_none_iff.mp hfound
        exact ⟨fun _ line hline => taggedWord_words_eq_none_iff.mp (hnone line hline), fun _ => rfl⟩
    | some tag =>
        obtain ⟨line, hline, htag⟩ := List.exists_of_findSome?_eq_some hfound
        obtain ⟨o, -⟩ := taggedWord_words_eq_some_iff.mp htag
        refine ⟨fun hnil => absurd hnil (hne (findSome?_taggedWord_eq_some_iff.mp hfound)),
          fun h => (h line hline).elim o⟩
  · rw [structTag]
    constructor
    · intro h
      refine ⟨hne h, ?_⟩
      rw [findSome?_taggedWord_eq_some_iff.mpr h, Option.getD_some]
    · rintro ⟨htag, h⟩
      cases hfound : lines.findSome? fun line => taggedWord line.stripComment.words with
      | none =>
          rw [hfound] at h
          exact absurd h.symm htag
      | some found =>
          rw [hfound] at h
          exact h ▸ findSome?_taggedWord_eq_some_iff.mp hfound

/-- A word is the tag even if it is the keyword, and a word that ends in the keyword has none. -/
example : structTag ["mystruct A;", "x struct\u00a0 struct B", "struct C"] = structKeyword := by
  decide +kernel

end StructEndian
