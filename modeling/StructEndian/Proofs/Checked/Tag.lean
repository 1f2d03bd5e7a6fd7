import StructEndian.Proofs.Checked.Operations
import StructEndian.Proofs.Declaration.Words

/-!
# Finding the tag by byte offsets

The words of a line are found with the gaps between them. On a machine they are found as ranges of
bytes: a scanner goes over the characters with their offsets, and where a word is compared with the
keyword, or a gap is looked at, it is sliced out of the line. A slice stops the computation if its
offsets are out of order, out of the line or inside a character, and a line may hold any characters.

The ranges are those at which the words stand behind each other, gaps included. So every slice that is
taken parts the line at the end of a gap or a word, and the scanner finds the same tag.

## Main definitions

* `Text.wordRanges`: the ranges of bytes that the words of a line are in.
* `Checked.taggedSlice`, `Checked.structTag`: the tag, by slices of lines.

## Main results

* `Text.wordRanges_eq`: the ranges are those of the words behind each other.
* `Checked.taggedSlice_eq`: every slice of a line is in range, and the answer is the tagged word.
* `Checked.structTag_eq`: so is every slice of many lines.
-/

namespace StructEndian

namespace Text

/-! ### Ranges of words -/

/-- The characters of a text with their byte offsets, where the first is at `n`. -/
def indexed (n : Nat) : Text → List (Nat × Char)
  | [] => []
  | c :: s => (n, c) :: indexed (n + c.utf8Size) s

/-- The ranges of the words among characters with their offsets. A word that nothing stands behind
ends at the offset `width`. -/
def scanRanges (width : Nat) (cs : List (Nat × Char)) : List (Nat × Nat) :=
  match _h : cs.dropWhile fun x => !isWordChar x.2 with
  | [] => []
  | (start, _) :: rest =>
      let behind := rest.dropWhile fun x => isWordChar x.2
      (start, (behind.head?.map Prod.fst).getD width) :: scanRanges width behind
termination_by cs.length
decreasing_by
  have hcs := (List.dropWhile_sublist (l := cs) fun x => !isWordChar x.2).length_le
  have hrest := (List.dropWhile_sublist (l := rest) fun x => isWordChar x.2).length_le
  rw [_h, List.length_cons] at hcs
  omega

/-- The **ranges of the words** of a line: the byte offsets at which they start and end. -/
def wordRanges (s : Text) : List (Nat × Nat) :=
  scanRanges s.utf8Width (indexed 0 s)

/-- The ranges of words behind each other, where the first gap starts at `n`. -/
def rangesFrom (n : Nat) : List (Text × Text) → List (Nat × Nat)
  | [] => []
  | (gap, w) :: ws =>
      let start := n + gap.utf8Width
      (start, start + w.utf8Width) :: rangesFrom (start + w.utf8Width) ws

theorem scanRanges_eq_nil {width : Nat} {cs : List (Nat × Char)}
    (h : cs.dropWhile (fun x => !isWordChar x.2) = []) : scanRanges width cs = [] := by
  rw [scanRanges]
  split
  · rfl
  · next hcons =>
      rw [h] at hcons
      cases hcons

theorem scanRanges_eq_cons {width start : Nat} {c : Char} {cs rest : List (Nat × Char)}
    (h : cs.dropWhile (fun x => !isWordChar x.2) = (start, c) :: rest) :
    scanRanges width cs =
      (start, ((rest.dropWhile fun x => isWordChar x.2).head?.map Prod.fst).getD width) ::
        scanRanges width (rest.dropWhile fun x => isWordChar x.2) := by
  rw [scanRanges]
  split
  · next hnil =>
      rw [h] at hnil
      cases hnil
  · next hcons =>
      rw [h] at hcons
      cases hcons
      rfl

theorem indexed_append (n : Nat) (s t : Text) :
    indexed n (s ++ t) = indexed n s ++ indexed (n + s.utf8Width) t := by
  induction s generalizing n with
  | nil => rfl
  | cons c s ih =>
      rw [List.cons_append, indexed, indexed, ih, utf8Width_cons, Nat.add_assoc, List.cons_append]

/-- Characters of a class stay in it with their offsets. -/
theorem forall_mem_indexed {p : Char → Bool} {s : Text} (h : ∀ c ∈ s, p c = true) (n : Nat) :
    ∀ x ∈ indexed n s, p x.2 = true := by
  induction s generalizing n with
  | nil => exact List.forall_mem_nil _
  | cons c s ih =>
      obtain ⟨hc, hs⟩ := List.forall_mem_cons.mp h
      exact List.forall_mem_cons.mpr ⟨hc, ih hs _⟩

/-- What is dropped of a class ends in front of what is not of it. -/
theorem dropWhile_indexed_append {p : Char → Bool} {s t : Text} (hs : ∀ c ∈ s, p c = true)
    (ht : ∀ c ∈ t.head?, p c = false) (n : Nat) :
    (indexed n (s ++ t)).dropWhile (fun x => p x.2) = indexed (n + s.utf8Width) t := by
  rw [indexed_append, List.dropWhile_append_of_pos (forall_mem_indexed hs n)]
  cases t with
  | nil => rfl
  | cons c t =>
      rw [indexed, List.dropWhile_cons_of_neg]
      simp [ht c rfl]

/-- **The scanner finds the words**, wherever a line starts. -/
theorem scanRanges_indexed (n : Nat) (s : Text) :
    scanRanges (n + s.utf8Width) (indexed n s) = rangesFrom n (words s) := by
  induction s using words_induction generalizing n with
  | gap g hg =>
      have hgap : ∀ c ∈ g, (!isWordChar c) = true := fun c hc => by rw [hg c hc]; rfl
      rw [words_of_gap hg, rangesFrom]
      exact scanRanges_eq_nil (List.dropWhile_eq_nil_iff.mpr (forall_mem_indexed hgap n))
  | word g w r hg hne hw hr ih =>
      -- the scanner takes the first character of the word by itself, to know where it starts
      obtain ⟨c, w, rfl⟩ := List.exists_cons_of_ne_nil hne
      have hgap : ∀ d ∈ g, (!isWordChar d) = true := fun d hd => by rw [hg d hd]; rfl
      obtain ⟨hc, hrest⟩ := List.forall_mem_cons.mp hw
      have hword : (indexed n (g ++ (c :: w ++ r))).dropWhile (fun x => !isWordChar x.2) =
          (n + utf8Width g, c) :: indexed (n + utf8Width g + c.utf8Size) (w ++ r) :=
        dropWhile_indexed_append hgap (by simp [hc]) n
      have hbehind : (indexed (n + utf8Width g + c.utf8Size) (w ++ r)).dropWhile
          (fun x => isWordChar x.2) = indexed (n + utf8Width g + c.utf8Size + utf8Width w) r :=
        dropWhile_indexed_append hrest hr _
      have hwidth : n + (g ++ (c :: w ++ r)).utf8Width =
          n + utf8Width g + c.utf8Size + utf8Width w + utf8Width r := by
        rw [utf8Width_append, utf8Width_append, utf8Width_cons]
        omega
      have hstop : ((indexed (n + utf8Width g + c.utf8Size + utf8Width w) r).head?.map
          Prod.fst).getD (n + utf8Width g + c.utf8Size + utf8Width w + utf8Width r) =
          n + utf8Width g + c.utf8Size + utf8Width w := by
        cases r <;> rfl
      rw [scanRanges_eq_cons hword, hbehind, hwidth, hstop, ih, words_append hg hne hw hr, rangesFrom,
        utf8Width_cons, ← Nat.add_assoc]

/-- **The ranges of the words** are those of the words behind each other, gaps included. -/
theorem wordRanges_eq (s : Text) : wordRanges s = rangesFrom 0 (words s) := by
  have hscan := scanRanges_indexed 0 s
  rwa [Nat.zero_add] at hscan

/-- The words of a line, each behind its gap, are the front of the line. -/
theorem exists_eq_words_append (s : Text) :
    ∃ tail, s = (words s).flatMap (fun x => x.1 ++ x.2) ++ tail := by
  induction s using words_induction with
  | gap g hg => exact ⟨g, by rw [words_of_gap hg]; rfl⟩
  | word g w r hg hne hw hr ih =>
      obtain ⟨tail, htail⟩ := ih
      refine ⟨tail, ?_⟩
      conv_lhs => rw [htail]
      rw [words_append hg hne hw hr, List.flatMap_cons]
      simp

end Text

namespace Checked

/-! ### The tag by slices -/

/-- The **tagged word** of a line by the ranges of its words, behind the range of the word in front of
them if there is one. -/
def taggedSlice (line : Text) : Option (Nat × Nat) → List (Nat × Nat) → Except Stop (Option Text)
  | _, [] => .ok none
  | none, range :: ranges => taggedSlice line (some range) ranges
  | some (start, stop), (start', stop') :: ranges => do
      let gap ← slice line stop start'
      let first ← slice line start stop
      if first = structKeyword ∧ gap ≠ [] ∧ gap.all isBlank then do
        let second ← slice line start' stop'
        return some second
      else taggedSlice line (some (start', stop')) ranges

/-- The **structure tag** of a list of lines by slices of the lines. -/
def structTag : List Text → Except Stop Text
  | [] => .ok []
  | line :: lines => do
      let tag ← taggedSlice line.stripComment none line.stripComment.wordRanges
      match tag with
      | some tag => return tag
      | none => structTag lines

/-- **Behind a word that has been found** every slice is in range: each of them starts and ends where a
gap or a word does. -/
theorem taggedSlice_rangesFrom {line front first tail : Text} {ws : List (Text × Text)}
    (h : line = front ++ first ++ ws.flatMap (fun x => x.1 ++ x.2) ++ tail) (gap : Text) :
    taggedSlice line (some (front.utf8Width, (front ++ first).utf8Width))
        (Text.rangesFrom (front ++ first).utf8Width ws) =
      .ok (taggedWord ((gap, first) :: ws)) := by
  induction ws generalizing front first gap with
  | nil => rfl
  | cons next ws ih =>
      obtain ⟨gap', second⟩ := next
      have hsplit : line =
          front ++ first ++ gap' ++ second ++ ws.flatMap (fun x => x.1 ++ x.2) ++ tail := by
        simpa using h
      have hgap : slice line (front ++ first).utf8Width (front ++ first ++ gap').utf8Width = .ok gap' :=
        slice_of_eq_append (second ++ ws.flatMap (fun x => x.1 ++ x.2) ++ tail)
          (by simpa using hsplit)
      have hfirst : slice line front.utf8Width (front ++ first).utf8Width = .ok first :=
        slice_of_eq_append (gap' ++ second ++ ws.flatMap (fun x => x.1 ++ x.2) ++ tail)
          (by simpa using hsplit)
      have hsecond : slice line (front ++ first ++ gap').utf8Width
          (front ++ first ++ gap' ++ second).utf8Width = .ok second :=
        slice_of_eq_append (ws.flatMap (fun x => x.1 ++ x.2) ++ tail)
          (by simpa using hsplit)
      rw [Text.rangesFrom, ← Text.utf8Width_append, ← Text.utf8Width_append, taggedSlice, hgap,
        Except.ok_bind, hfirst, Except.ok_bind, taggedWord]
      split
      · rw [hsecond]
        rfl
      · exact ih hsplit gap'

/-- **Every slice of a line is in range**, and the answer is the tagged word. -/
theorem taggedSlice_eq (line : Text) :
    taggedSlice line none line.wordRanges = .ok (taggedWord line.words) := by
  obtain ⟨tail, htail⟩ := line.exists_eq_words_append
  rw [Text.wordRanges_eq]
  cases hwords : line.words with
  | nil => rfl
  | cons first ws =>
      obtain ⟨gap, first⟩ := first
      rw [hwords, List.flatMap_cons] at htail
      rw [Text.rangesFrom, taggedSlice, Nat.zero_add, ← Text.utf8Width_append]
      exact taggedSlice_rangesFrom htail gap

/-- **Every slice of many lines is in range**, and the answer is their structure tag. -/
theorem structTag_eq (lines : List Text) : structTag lines = .ok (StructEndian.structTag lines) := by
  induction lines with
  | nil => rfl
  | cons line lines ih =>
      rw [structTag, taggedSlice_eq, Except.ok_bind, StructEndian.structTag, List.findSome?_cons]
      cases taggedWord line.stripComment.words with
      | none => exact ih
      | some tag => rfl

end Checked

end StructEndian
