import StructEndian.Proofs.Declaration.Tag

/-!
# Words and the gaps between them

A tag is looked for among the words of a line, and what matters of the gap between two words is
whether it is blank. So blanks at the two ends of a line do not matter, and neither does what
stands in front of a character that is in no word and is no blank: no tag stands behind a keyword
across such a character.

## Main definitions

* `Text.prependGap`: the words of a line with more in front of the first of them.

## Main results

* `Text.words_append_gap`: what is in no word makes the first gap longer.
* `Text.words_induction`: a line is taken apart word by word.
* `Text.exists_words_append_cons`: the words of a line in two parts.
* `taggedWord_words_trim`: trimming a line does not change its tag.
* `taggedWord_words_append_cons`: the tag of a line in two parts.
-/

namespace StructEndian

/-- A blank is in no word. -/
theorem isWordChar_of_isBlank {c : Char} (hc : isBlank c = true) : isWordChar c = false := by
  cases hword : isWordChar c with
  | false => rfl
  | true => exact absurd (hc.symm.trans (isBlank_of_isWordChar hword)) (by simp)

namespace Text

/-! ### Gaps -/

/-- The words of a line with more in front of the first gap. -/
def prependGap (g : Text) : List (Text × Text) → List (Text × Text)
  | [] => []
  | (gap, w) :: ws => (g ++ gap, w) :: ws

/-- **What is in no word** makes the first gap longer. -/
theorem words_append_gap {g : Text} (hg : ∀ c ∈ g, isWordChar c = false) (s : Text) :
    words (g ++ s) = prependGap g (words s) := by
  have hgap : ∀ c ∈ g, (!isWordChar c) = true := fun c hc => by rw [hg c hc]; rfl
  rw [words.eq_def, words.eq_def s]
  split
  · next hnil =>
      rw [List.dropWhile_append_of_pos hgap] at hnil
      split
      · rfl
      · next hcons =>
          rw [hnil] at hcons
          cases hcons
  · next c r hcons =>
      rw [List.dropWhile_append_of_pos hgap] at hcons
      split
      · next hnil =>
          rw [hnil] at hcons
          cases hcons
      · next c' r' hcons' =>
          obtain ⟨rfl, rfl⟩ := List.cons.inj (hcons.symm.trans hcons')
          rw [prependGap, List.takeWhile_append_of_pos hgap]

/-- What is in no word has no words. -/
theorem words_of_gap {g : Text} (hg : ∀ c ∈ g, isWordChar c = false) : words g = [] := by
  have hnil : words [] = [] := by rw [words]; rfl
  rw [← List.append_nil g, words_append_gap hg, hnil, prependGap]

/-- **Induction over the words** of a line: it has none, or it is a gap, a word and what stands
behind the word. -/
@[elab_as_elim]
theorem words_induction {motive : Text → Prop}
    (gap : ∀ g : Text, (∀ c ∈ g, isWordChar c = false) → motive g)
    (word : ∀ g w r : Text, (∀ c ∈ g, isWordChar c = false) → w ≠ [] →
      (∀ c ∈ w, isWordChar c = true) → (∀ c ∈ r.head?, isWordChar c = false) → motive r →
      motive (g ++ (w ++ r)))
    (s : Text) : motive s := by
  fun_induction words s with
  | case1 s hnil => exact gap s fun c hc => by simpa using List.dropWhile_eq_nil_iff.1 hnil c hc
  | case2 s c r hcons ih =>
      have hsplit : s = s.takeWhile (fun c => !isWordChar c) ++
          ((c :: r.takeWhile isWordChar) ++ r.dropWhile isWordChar) := by
        rw [List.cons_append, List.takeWhile_append_dropWhile, ← hcons,
          List.takeWhile_append_dropWhile]
      rw [hsplit]
      refine word _ _ _ ?_ (List.cons_ne_nil _ _) ?_ ?_ ih
      · intro d hd
        simpa using List.mem_takeWhile_imp hd
      · intro d hd
        rcases List.mem_cons.1 hd with rfl | hd
        · have hhead := List.head?_dropWhile_not (fun c => !isWordChar c) s
          rw [hcons] at hhead
          simpa using hhead
        · exact List.mem_takeWhile_imp hd
      · intro d hd
        have hhead := List.head?_dropWhile_not isWordChar r
        rwa [hd] at hhead

/-- **The words of a line in two parts** around a character that is in no word: those of the one
part and those of the other, with a longer gap between. -/
theorem exists_words_append_cons {c : Char} (hc : isWordChar c = false) (s t : Text) :
    ∃ g, words (s ++ c :: t) = words s ++ prependGap (g ++ [c]) (words t) := by
  induction s using words_induction with
  | gap g hg =>
      have hgc : ∀ d ∈ g ++ [c], isWordChar d = false := by
        intro d hd
        rcases List.mem_append.1 hd with hd | hd
        · exact hg d hd
        · rwa [List.mem_singleton.1 hd]
      refine ⟨g, ?_⟩
      rw [List.append_cons, words_append_gap hgc, words_of_gap hg, List.nil_append]
  | word g w r hg hne hw hr ih =>
      obtain ⟨gap, hgap⟩ := ih
      -- the last word of the one part ends in front of the character at the latest
      have hrest : ∀ d ∈ (r ++ c :: t).head?, isWordChar d = false := by
        cases r with
        | nil => simpa using hc
        | cons d r => exact hr
      refine ⟨gap, ?_⟩
      rw [List.append_assoc, List.append_assoc, words_append hg hne hw hrest, hgap,
        words_append hg hne hw hr, List.cons_append]

/-- Blanks at the end are in no word. -/
theorem words_trimEnd (s : Text) : words (trimEnd s) = words s := by
  induction s using List.reverseRecOn with
  | nil => rfl
  | append_singleton s c ih =>
      cases hc : isBlank c with
      | false =>
          rw [trimEnd_append_cons hc]
          rfl
      | true =>
          obtain ⟨g, hg⟩ := exists_words_append_cons (isWordChar_of_isBlank hc) s []
          rw [trimEnd_concat hc, ih, hg, words_of_gap (List.forall_mem_nil _), prependGap,
            List.append_nil]

end Text

/-! ### Tags -/

open Text

/-- What stands in front of the first word does not matter for the tag. -/
theorem taggedWord_prependGap (g : Text) (ws : List (Text × Text)) :
    taggedWord (prependGap g ws) = taggedWord ws := by
  rcases ws with _ | ⟨⟨gap, w⟩, _ | ⟨⟨gap', w'⟩, ws⟩⟩
  · rfl
  · rfl
  · rw [prependGap, taggedWord, taggedWord]

/-- **Across a gap that is not blank** there is no tag. -/
theorem taggedWord_append_prependGap {g : Text} (hg : g.all isBlank = false)
    (vs ws : List (Text × Text)) :
    taggedWord (vs ++ prependGap g ws) = (taggedWord vs).or (taggedWord ws) := by
  fun_induction taggedWord vs with
  | case1 gap first gap' second rest htag =>
      rw [List.cons_append, List.cons_append, taggedWord, if_pos htag, Option.some_or]
  | case2 gap first gap' second rest htag ih =>
      rw [List.cons_append, List.cons_append, taggedWord, if_neg htag, ← List.cons_append, ih]
  | case3 vs hvs =>
      rw [Option.none_or]
      rcases vs with _ | ⟨⟨gap, first⟩, _ | ⟨⟨gap', second⟩, vs⟩⟩
      · exact taggedWord_prependGap g ws
      · rcases ws with _ | ⟨⟨gap', second⟩, ws⟩
        · rfl
        · have hcons := taggedWord_prependGap g ((gap', second) :: ws)
          rw [prependGap] at hcons ⊢
          rw [List.singleton_append, taggedWord, if_neg (by simp [hg]), hcons]
      · exact absurd rfl (hvs _ _ _ _ _)

/-- **Trimming a line** does not change its tag. -/
theorem taggedWord_words_trim (s : Text) :
    taggedWord (words (trim s)) = taggedWord (words s) := by
  have hgap : ∀ c ∈ s.takeWhile isBlank, isWordChar c = false := fun c hc =>
    isWordChar_of_isBlank (List.mem_takeWhile_imp hc)
  have hsplit := words_append_gap hgap (s.dropWhile isBlank)
  rw [List.takeWhile_append_dropWhile] at hsplit
  rw [trim, words_trimEnd, hsplit, taggedWord_prependGap]

/-- **The tag of a line in two parts** around a character that is in no word and is no blank: that
of the one part, or else that of the other. -/
theorem taggedWord_words_append_cons {c : Char} (hword : isWordChar c = false)
    (hblank : isBlank c = false) (s t : Text) :
    taggedWord (words (s ++ c :: t)) = (taggedWord (words s)).or (taggedWord (words t)) := by
  obtain ⟨g, hg⟩ := exists_words_append_cons hword s t
  rw [hg, taggedWord_append_prependGap (by simp [hblank])]

end StructEndian
