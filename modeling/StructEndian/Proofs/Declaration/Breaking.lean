import StructEndian.Proofs.Declaration.Words

/-!
# Breaking lines at semicolons

A semicolon ends a declaration, and nothing that is read off a line reaches across it: the text
behind it is split into pieces of its own, a comment in it starts in it, and no tag stands behind
a keyword on the other side. So a line can be broken behind a semicolon that is not in a comment.

## Main results

* `membersOf_append_cons`: the members of a line in two parts.
* `Text.beforeComment_append_cons`: a comment does not start in front of a semicolon if there are
  no two slashes there.
* `declaredMembers_break`, `structTag_break`: broken lines declare the same members and have the
  same tag.
* `generate_break`: what is written for them is the same.
-/

namespace StructEndian

open Text

/-! ### Members -/

/-- **The pieces of a line in two parts** around a semicolon. -/
theorem pieces_append_cons (x y : Text) :
    pieces (x ++ ';' :: y) = pieces (x ++ [';']) ++ pieces y := by
  have hsplit : ∀ z : Text, (Text.split (· = ';') (x ++ ';' :: z)).dropLast =
      Text.split (· = ';') x ++ (Text.split (· = ';') z).dropLast := fun z => by
    rw [split_append_cons (by decide), List.dropLast_append_of_ne_nil (split_ne_nil _ _)]
  rw [pieces_eq, pieces_eq, pieces_eq, hsplit, hsplit, ← List.flatMap_append]
  simp [Text.split]

/-- **The members of a line in two parts** around a semicolon: those of the one part and those of
the other. -/
theorem membersOf_append_cons (x y : Text) :
    membersOf (x ++ ';' :: y) = membersOf (x ++ [';']) ++ membersOf y := by
  rw [membersOf, readings, pieces_append_cons, List.map_append, List.filterMap_append]
  rfl

/-- Trimming a line does not change its members. -/
theorem membersOf_trim (line : Text) : membersOf (trim line) = membersOf line := by
  rw [membersOf, readings, pieces_trim]
  rfl

/-! ### Comments -/

/-- **A comment does not start** in front of a character other than a slash if there are no two
slashes there. -/
theorem Text.beforeComment_append_cons {a : Text} (ha : ¬ ['/', '/'] <:+: a) {c : Char}
    (hc : c ≠ '/') (b : Text) : beforeComment (a ++ c :: b) = a ++ c :: beforeComment b := by
  induction a with
  | nil =>
      rw [List.nil_append, List.nil_append, beforeComment]
      intro s hs _
      exact hc hs
  | cons d a ih =>
      rw [List.cons_append, beforeComment, ih fun h => ha (List.infix_cons h), List.cons_append]
      -- two slashes would both be in `d :: a`, or the second would be `c`
      rintro s rfl hs
      cases a with
      | nil => exact hc (List.cons.inj hs).1
      | cons e a =>
          obtain rfl : e = '/' := (List.cons.inj hs).1
          exact ha ⟨[], a, rfl⟩

/-! ### Broken lines -/

variable {a : Text} (ha : ¬ ['/', '/'] <:+: a) (b : Text)

include ha

/-- The two lines that a line is broken into declare its members. -/
theorem membersOf_stripComment_break :
    membersOf (a ++ ';' :: b).stripComment =
      membersOf (a ++ [';']).stripComment ++ membersOf b.stripComment := by
  rw [stripComment, stripComment, stripComment, membersOf_trim, membersOf_trim, membersOf_trim,
    beforeComment_append_cons ha (by decide), beforeComment_append_cons ha (by decide),
    membersOf_append_cons]
  rfl

/-- The tag of a line is that of the first of the two lines that it is broken into, or else that
of the second. -/
theorem taggedWord_stripComment_break :
    taggedWord (a ++ ';' :: b).stripComment.words =
      (taggedWord (a ++ [';']).stripComment.words).or (taggedWord b.stripComment.words) := by
  have hsemicolon : ∀ t : Text, taggedWord (a ++ ';' :: t).stripComment.words =
      (taggedWord a.words).or (taggedWord t.stripComment.words) := fun t => by
    rw [stripComment, stripComment, taggedWord_words_trim, taggedWord_words_trim,
      beforeComment_append_cons ha (by decide),
      taggedWord_words_append_cons (by decide) (by decide)]
  have hnil : taggedWord (stripComment []).words = none := by decide +kernel
  rw [hsemicolon b, hsemicolon [], hnil, Option.or_none]

/-- **Broken lines declare the same members.** -/
theorem declaredMembers_break (pre post : List Text) :
    declaredMembers (pre ++ [a ++ ';' :: b] ++ post) =
      declaredMembers (pre ++ [a ++ [';'], b] ++ post) := by
  rw [declaredMembers, declaredMembers, List.flatMap_append, List.flatMap_append,
    List.flatMap_append, List.flatMap_append, List.flatMap_singleton, List.flatMap_cons,
    List.flatMap_singleton, membersOf_stripComment_break ha]

/-- **Broken lines have the same tag.** -/
theorem structTag_break (pre post : List Text) :
    structTag (pre ++ [a ++ ';' :: b] ++ post) = structTag (pre ++ [a ++ [';'], b] ++ post) := by
  have hline : [a ++ ';' :: b].findSome? (fun line => taggedWord line.stripComment.words) =
      [a ++ [';'], b].findSome? fun line => taggedWord line.stripComment.words := by
    rw [List.findSome?_singleton, List.findSome?_cons, List.findSome?_singleton,
      taggedWord_stripComment_break ha]
    cases taggedWord (a ++ [';']).stripComment.words <;> rfl
  rw [structTag, structTag, List.findSome?_append, List.findSome?_append, hline,
    List.findSome?_append, List.findSome?_append]

omit ha

/-- What is written depends on the members and the tag alone. -/
theorem generate_congr {o : Options} {lines lines' : List Text}
    (hmembers : declaredMembers lines = declaredMembers lines')
    (htag : structTag lines = structTag lines') : generate o lines = generate o lines' := by
  rw [generate, generate, plan, plan, hmembers, htag]

/-- **Breaking a line behind a semicolon changes nothing** that is written, whatever the options
are, if the semicolon is not in a comment: the lines are the same, or the failure is. And it is so
since the members of a line in two parts are those of the one and those of the other. -/
theorem generate_break (o : Options) (pre post : List Text) (a b : Text)
    (ha : ¬ ['/', '/'] <:+: a) :
    generate o (pre ++ [a ++ ';' :: b] ++ post) = generate o (pre ++ [a ++ [';'], b] ++ post) ∧
    ∀ x y : Text, membersOf (x ++ ';' :: y) = membersOf (x ++ [';']) ++ membersOf y :=
  ⟨generate_congr (declaredMembers_break ha b pre post) (structTag_break ha b pre post),
    membersOf_append_cons⟩

/-- What stands in front of a break: a single slash, and the keyword at the end. -/
def keywordFront : Text := "int a / b : 3; struct"

/-- What stands behind a break: a word that is no tag, a brace, and a semicolon in a comment. -/
def wordBehind : Text := " S \x7b char c : 2; // ;"

/-- A line is broken between the keyword and a word that is no tag. -/
theorem generate_break_keyword :
    ¬ ['/', '/'] <:+: keywordFront ∧
    generate {} ([] ++ [keywordFront ++ ';' :: wordBehind] ++ ["struct T \x7b".toList]) =
      generate {} ([] ++ [keywordFront ++ [';'], wordBehind] ++ ["struct T \x7b".toList]) := by
  have ha : ¬ ['/', '/'] <:+: keywordFront := by decide +kernel
  exact ⟨ha, (generate_break {} [] _ _ _ ha).1⟩

end StructEndian
