import StructEndian.Text.Basic

/-!
# Comments inside a declaration

A line comment goes to the end of its line, a block comment to the closing mark that matches
its opening one; block comments nest. A comment that documents something has a mark of its
own behind the opening one and is not passed over: it stands for an attribute, and so it
must not hold a carriage return without a line feed.

## Main definitions

* `Comment`: a comment that is passed over or one that documents.
* `Comment.read`: the comment behind a slash, and what follows it.

## Main results

* `Comment.read_suffix`: reading a comment leaves a tail of the text.
-/

namespace StructEndian

/-- A **comment**. -/
inductive Comment
  /-- A comment that is passed over. -/
  | plain
  /-- A comment that documents what follows, or, if it is `inner`, what surrounds it. -/
  | documentation (inner : Bool)
deriving DecidableEq, Repr

namespace Comment

/-- The text of a **line comment** and what follows it. The comment ends in front of a line
feed, and a carriage return directly in front of that is not part of its text. -/
def lineBody : Text → Text × Text
  | [] => ([], [])
  | '\n' :: s => ([], '\n' :: s)
  | '\r' :: '\n' :: s => ([], '\n' :: s)
  | c :: s => (c :: (lineBody s).1, (lineBody s).2)

/-- The text of a **block comment** and what follows it, where `depth` more comments are
open around the innermost one. There is none if a comment is not closed. -/
def blockBody : Nat → Text → Option (Text × Text)
  | depth, '/' :: '*' :: s =>
      (blockBody (depth + 1) s).map fun (body, rest) => ('/' :: '*' :: body, rest)
  | 0, '*' :: '/' :: s => some ([], s)
  | depth + 1, '*' :: '/' :: s =>
      (blockBody depth s).map fun (body, rest) => ('*' :: '/' :: body, rest)
  | depth, c :: s => (blockBody depth s).map fun (body, rest) => (c :: body, rest)
  | _, [] => none

/-- Whether every carriage return is followed by a line feed. -/
def hasNoBareReturn : Text → Bool
  | [] => true
  | '\r' :: '\n' :: s => hasNoBareReturn s
  | '\r' :: _ => false
  | _ :: s => hasNoBareReturn s

/-- What kind of comment the text behind the opening mark `//` or `/*` makes it, where
`mark` is the last character of the opening mark. Documentation repeats the mark once, or
has an exclamation mark; two more of the mark, or the closing mark, make a plain one. -/
def kind (mark : Char) : Text → Comment
  | '!' :: _ => documentation true
  | c :: d :: _ =>
      if c = mark ∧ d ≠ mark ∧ ¬ (mark = '*' ∧ d = '/') then documentation false else plain
  | [c] => if c = mark then documentation false else plain
  | [] => plain

/-- Check the text of a comment and hand over what follows it. -/
def accept (kind : Comment) : Text × Text → Option (Comment × Text)
  | (body, rest) =>
      match kind with
      | plain => some (plain, rest)
      | documentation inner =>
          if hasNoBareReturn (body.drop 1) then some (documentation inner, rest) else none

/-- **Read** the comment that a slash and the given text make. -/
def read : Text → Option (Comment × Text)
  | '/' :: s => accept (kind '/' s) (lineBody s)
  | '*' :: s => (blockBody 0 s).bind (accept (kind '*' s))
  | _ => none

/-! ### What is left -/

theorem lineBody_suffix (s : Text) : (lineBody s).2 <:+ s := by
  fun_induction lineBody s with
  | case1 => exact List.suffix_rfl
  | case2 s => exact List.suffix_rfl
  | case3 s => exact List.suffix_cons _ _
  | case4 c s _ _ ih => exact ih.trans (List.suffix_cons _ _)

theorem blockBody_suffix {depth : Nat} {s body rest : Text}
    (h : blockBody depth s = some (body, rest)) : rest <:+ s := by
  fun_induction blockBody depth s generalizing body rest with
  | case1 depth s ih =>
      simp only [Option.map_eq_some_iff, Prod.exists, Prod.mk.injEq] at h
      obtain ⟨b, r, hb, _, rfl⟩ := h
      exact (ih hb).trans ((List.suffix_cons _ _).trans (List.suffix_cons _ _))
  | case2 s =>
      simp only [Option.some.injEq, Prod.mk.injEq] at h
      obtain ⟨_, rfl⟩ := h
      exact (List.suffix_cons _ _).trans (List.suffix_cons _ _)
  | case3 depth s ih =>
      simp only [Option.map_eq_some_iff, Prod.exists, Prod.mk.injEq] at h
      obtain ⟨b, r, hb, _, rfl⟩ := h
      exact (ih hb).trans ((List.suffix_cons _ _).trans (List.suffix_cons _ _))
  | case4 depth c s _ _ _ ih =>
      simp only [Option.map_eq_some_iff, Prod.exists, Prod.mk.injEq] at h
      obtain ⟨b, r, hb, _, rfl⟩ := h
      exact (ih hb).trans (List.suffix_cons _ _)
  | case5 => simp at h

theorem accept_eq_some {kind k : Comment} {body rest rest' : Text}
    (h : accept kind (body, rest) = some (k, rest')) : rest' = rest := by
  cases kind with
  | plain =>
      simp only [accept, Option.some.injEq, Prod.mk.injEq] at h
      exact h.2.symm
  | documentation inner =>
      simp only [accept] at h
      split at h
      · simp only [Option.some.injEq, Prod.mk.injEq] at h
        exact h.2.symm
      · simp at h

/-- Reading a comment leaves a tail of the text. -/
theorem read_suffix {s rest : Text} {k : Comment} (h : read s = some (k, rest)) :
    rest <:+ s := by
  unfold read at h
  split at h
  · next s =>
      have hr : rest = (lineBody s).2 := accept_eq_some h
      exact hr ▸ (lineBody_suffix s).trans (List.suffix_cons _ _)
  · next s =>
      simp only [Option.bind_eq_some_iff, Prod.exists] at h
      obtain ⟨body, r, hb, ha⟩ := h
      rw [accept_eq_some ha]
      exact (blockBody_suffix hb).trans (List.suffix_cons _ _)
  · simp at h

end Comment

end StructEndian
