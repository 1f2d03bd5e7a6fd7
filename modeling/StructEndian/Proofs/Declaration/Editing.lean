import Mathlib.Data.List.Forall2
import Mathlib.Logic.Relation
import StructEndian.Proofs.Declaration.Breaking

/-!
# Edits that do not matter

What counts of a line is its code: what stands in front of a comment, without the blanks at its two
ends. Of a text it is the code of its lines, and lines that have none do not count. So it does not
matter how the lines of a text end, which comments stand behind them, and whether there are lines
in between that are blank or hold nothing but a comment.

## Main definitions

* `Text.code`: the code of a list of lines.
* `Text.IsIdle`: a line that is blank or a comment.
* `Text.Edit`: an edit of a text that does not matter.

## Main results

* `generate_congr_code`: what is written depends on the code alone.
* `Text.stripComment_append_cons`: a comment behind a blank is stripped, whether or not there is
  another comment in front of it.
* `Text.Edit.code_lines`: an edit keeps the code of a text.
* `generateText_edits`: what is written for a text is the same after any number of edits.
-/

namespace StructEndian

namespace Text

/-! ### Code -/

/-- The code of one line, unless it is empty. -/
def codeOf (line : Text) : List Text :=
  [line.stripComment].filter (· ≠ [])

/-- The **code** of a list of lines: each without its comment and without blanks at its ends, where
lines of which nothing is left are left out. -/
def code (lines : List Text) : List Text :=
  lines.flatMap codeOf

theorem codeOf_eq_nil {line : Text} (h : line.stripComment = []) : codeOf line = [] := by
  rw [codeOf, h]
  rfl

theorem codeOf_of_ne_nil {line : Text} (h : line.stripComment ≠ []) :
    codeOf line = [line.stripComment] := by
  rw [codeOf, List.filter_cons_of_pos (by simpa using h), List.filter_nil]

theorem codeOf_congr {line line' : Text} (h : line.stripComment = line'.stripComment) :
    codeOf line = codeOf line' := by
  rw [codeOf, codeOf, h]

theorem code_append (lines lines' : List Text) : code (lines ++ lines') = code lines ++ code lines' :=
  List.flatMap_append

theorem code_cons (line : Text) (lines : List Text) :
    code (line :: lines) = codeOf line ++ code lines :=
  List.flatMap_cons

end Text

open Text

/-- The members of some lines are those of their code. -/
theorem declaredMembers_eq_code (lines : List Text) :
    declaredMembers lines = (code lines).flatMap membersOf := by
  induction lines with
  | nil => rfl
  | cons line lines ih =>
      rw [declaredMembers] at ih
      rw [declaredMembers, List.flatMap_cons, ih, code_cons, List.flatMap_append]
      by_cases h : line.stripComment = []
      · rw [codeOf_eq_nil h, h, membersOf_nil, List.flatMap_nil]
      · rw [codeOf_of_ne_nil h, List.flatMap_singleton]

/-- The tag of some lines is that of their code. -/
theorem structTag_eq_code (lines : List Text) :
    structTag lines = ((code lines).findSome? fun line => taggedWord line.words).getD [] := by
  have hnil : taggedWord (words []) = none := by
    rw [words_of_gap (by simp)]
    rfl
  rw [structTag]
  congr 1
  induction lines with
  | nil => rfl
  | cons line lines ih =>
      rw [List.findSome?_cons, ih, code_cons, List.findSome?_append]
      by_cases h : line.stripComment = []
      · rw [codeOf_eq_nil h, h, hnil, List.findSome?_nil, Option.none_or]
      · rw [codeOf_of_ne_nil h, List.findSome?_singleton]
        cases taggedWord line.stripComment.words <;> rfl

/-- **What is written depends on the code alone.** -/
theorem generate_congr_code {o : Options} {lines lines' : List Text}
    (h : code lines = code lines') : generate o lines = generate o lines' := by
  refine generate_congr ?_ ?_
  · rw [declaredMembers_eq_code, declaredMembers_eq_code, h]
  · rw [structTag_eq_code, structTag_eq_code, h]

namespace Text

/-! ### Comments -/

/-- Behind two slashes there may be anything. -/
theorem beforeComment_append {a : Text} (ha : ['/', '/'] <:+: a) (b : Text) :
    beforeComment (a ++ b) = beforeComment a := by
  fun_induction beforeComment a with
  | case1 => simp at ha
  | case2 s => rw [List.cons_append, List.cons_append, beforeComment]
  | case3 c s hs ih =>
      rcases List.infix_cons_iff.1 ha with ⟨t, ht⟩ | hlater
      · obtain ⟨rfl, rfl⟩ := List.cons.inj ht
        exact absurd rfl (hs t rfl)
      · rw [List.cons_append, beforeComment, ih hlater]
        rintro t rfl ht
        obtain ⟨d, s', rfl⟩ := List.exists_cons_of_ne_nil (hlater.ne_nil (by simp))
        exact hs s' rfl (by rw [(List.cons.inj ht).1])

/-- Without two slashes there is no comment. -/
theorem beforeComment_eq_self {a : Text} (ha : ¬ ['/', '/'] <:+: a) : beforeComment a = a := by
  fun_induction beforeComment a with
  | case1 => rfl
  | case2 s => exact absurd ⟨[], s, rfl⟩ ha
  | case3 c s hs ih => rw [ih fun h => ha (List.infix_cons h)]

/-- **What stands behind a blank is stripped** if nothing is in front of its comment, whether or
not there is another comment in front of the blank. -/
theorem stripComment_append_cons {blank : Char} (hblank : isBlank blank = true) {t : Text}
    (ht : beforeComment t = []) (s : Text) : stripComment (s ++ blank :: t) = stripComment s := by
  by_cases hs : ['/', '/'] <:+: s
  · rw [stripComment, stripComment, beforeComment_append hs]
  · rw [stripComment, stripComment,
      beforeComment_append_cons hs (ne_of_class hblank (by decide)), ht, trim_concat hblank,
      beforeComment_eq_self hs]

/-- A carriage return at the end of a line is stripped. -/
theorem stripComment_append_return (s : Text) : stripComment (s ++ ['\r']) = stripComment s :=
  stripComment_append_cons (by decide) rfl s

/-- A line is **idle** if it is blank or if the first of its characters that are no blanks are two
slashes. -/
def IsIdle (line : Text) : Prop :=
  ∃ gap rest, line = gap ++ rest ∧ (∀ c ∈ gap, isBlank c = true) ∧
    (rest = [] ∨ ∃ words, rest = '/' :: '/' :: words)

/-- **An idle line has no code.** -/
theorem IsIdle.stripComment_eq_nil {line : Text} (h : line.IsIdle) : stripComment line = [] := by
  obtain ⟨gap, rest, rfl, hgap, hrest⟩ := h
  have hcomment : beforeComment rest = [] := by
    rcases hrest with rfl | ⟨words, rfl⟩ <;> rfl
  induction gap using List.reverseRecOn generalizing rest with
  | nil =>
      rw [List.nil_append, stripComment, hcomment]
      rfl
  | append_singleton gap c ih =>
      rw [← List.append_cons, stripComment_append_cons (hgap c (by simp)) hcomment]
      have hnil := ih [] (fun d hd => hgap d (by simp [hd])) (Or.inl rfl) rfl
      rwa [List.append_nil] at hnil

/-! ### Edits -/

/-- A text with a carriage return in front of every line feed. -/
def withReturns : Text → Text
  | [] => []
  | c :: s => if c = '\n' then '\r' :: '\n' :: withReturns s else c :: withReturns s

/-- Whether a text may stand behind a line: a line end, or nothing, is at its front. -/
def IsAtLineEnd (s : Text) : Prop :=
  s = [] ∨ (∃ rest, s = '\n' :: rest) ∨ ∃ rest, s = '\r' :: '\n' :: rest

/-- Whether a line may start behind a text: nothing is there, or a line feed is at its end. -/
def IsAtLineStart (s : Text) : Prop :=
  s = [] ∨ ∃ front, s = front ++ ['\n']

/-- An **edit** of a text that does not matter. -/
inductive Edit : Text → Text → Prop
  /-- Every line feed gets a carriage return in front of it. -/
  | returns (t : Text) : Edit t t.withReturns
  /-- A blank, two slashes and any words are put behind a line. -/
  | comment {front back words : Text} {blank : Char} (hback : back.IsAtLineEnd)
      (hblank : isBlank blank = true) (hblankLine : blank ≠ '\n') (hwords : '\n' ∉ words) :
      Edit (front ++ back) (front ++ blank :: '/' :: '/' :: (words ++ back))
  /-- An idle line is put in front of a line, or behind a line feed at the end. -/
  | line {front back line : Text} (hfront : front.IsAtLineStart) (hidle : line.IsIdle)
      (hline : '\n' ∉ line) : Edit (front ++ back) (front ++ (line ++ '\n' :: back))
  /-- A line feed is put behind the text, and possibly an idle line behind that. -/
  | ending {t line : Text} (hidle : line.IsIdle) (hline : '\n' ∉ line) :
      Edit t (t ++ '\n' :: line)

/-- **The code of a text** is that of the parts between its line feeds. -/
theorem code_lines (t : Text) : code t.lines = code (split (· = '\n') t) :=
  flatMap_lines (f := codeOf) rfl (fun line => codeOf_congr (stripComment_append_return line)) t

/-- A part in a text with carriage returns is the part in the text, with or without one. -/
theorem forall₂_split_withReturns (t : Text) :
    List.Forall₂ (fun part part' => part' = part ∨ part' = part ++ ['\r'])
      (split (· = '\n') t) (split (· = '\n') t.withReturns) := by
  induction t with
  | nil => exact List.Forall₂.cons (Or.inl rfl) List.Forall₂.nil
  | cons c t ih =>
      by_cases hc : c = '\n'
      · subst hc
        exact List.Forall₂.cons (Or.inr rfl) ih
      · obtain ⟨part, parts, hpart⟩ := List.exists_cons_of_ne_nil (split_ne_nil (· = '\n') t)
        rw [hpart] at ih
        obtain ⟨part', parts', hhead, htail, hpart'⟩ := List.forall₂_cons_left_iff.1 ih
        rw [withReturns, if_neg hc, split, split, if_neg (by simpa using hc),
          if_neg (by simpa using hc), hpart, hpart']
        refine List.Forall₂.cons ?_ htail
        rcases hhead with rfl | rfl
        · exact Or.inl rfl
        · exact Or.inr rfl

/-- Carriage returns at the ends of lines are not in the code. -/
theorem code_congr {lines lines' : List Text}
    (h : List.Forall₂ (fun line line' => line' = line ∨ line' = line ++ ['\r']) lines lines') :
    code lines' = code lines := by
  induction h with
  | nil => rfl
  | cons hline _ ih =>
      rw [code_cons, code_cons, ih]
      rcases hline with rfl | rfl
      · rfl
      · rw [codeOf_congr (stripComment_append_return _)]

/-- The last part of a text goes on with what is put behind the text. -/
theorem exists_last_part (p : Char → Bool) (a : Text) :
    ∃ front last, ∀ {b part parts}, split p b = part :: parts →
      split p (a ++ b) = front ++ (last ++ part) :: parts := by
  obtain ⟨front, last, -, -, ha, -, -⟩ := exists_split_append p a []
  refine ⟨front, last, fun {b part parts} hb => ?_⟩
  obtain ⟨front', last', part', parts', ha', hb', hab⟩ := exists_split_append p a b
  obtain ⟨rfl, hlast⟩ := List.append_inj' (ha.symm.trans ha') rfl
  obtain ⟨rfl, rfl⟩ := List.cons.inj (hb.symm.trans hb')
  rw [hab, (List.cons.inj hlast).1]

/-- In front of a line end a part goes on with a carriage return at most. -/
theorem IsAtLineEnd.exists_split {s : Text} (h : s.IsAtLineEnd) :
    ∃ part parts, split (· = '\n') s = part :: parts ∧ (part = [] ∨ part = ['\r']) := by
  rcases h with rfl | ⟨rest, rfl⟩ | ⟨rest, rfl⟩
  · exact ⟨[], [], rfl, Or.inl rfl⟩
  · exact ⟨[], _, rfl, Or.inl rfl⟩
  · exact ⟨['\r'], _, rfl, Or.inr rfl⟩

/-- Where a line may start a new part starts. -/
theorem IsAtLineStart.exists_split_append {s : Text} (h : s.IsAtLineStart) :
    ∃ parts, ∀ t, split (· = '\n') (s ++ t) = parts ++ split (· = '\n') t := by
  rcases h with rfl | ⟨front, rfl⟩
  · exact ⟨[], fun t => rfl⟩
  · exact ⟨split (· = '\n') front, fun t => by
      rw [List.append_assoc, List.singleton_append, split_append_cons (by decide)]⟩

/-- **An edit keeps the code** of a text. -/
theorem Edit.code_lines {t t' : Text} (h : Edit t t') : code t'.lines = code t.lines := by
  rw [Text.code_lines, Text.code_lines]
  cases h with
  | returns => exact code_congr (forall₂_split_withReturns t)
  | @comment front back words blank hback hblank hblankLine hwords =>
      obtain ⟨part, parts, hparts, hpart⟩ := hback.exists_split
      obtain ⟨before, last, hlast⟩ := exists_last_part (· = '\n') front
      have hwhole : '\n' ∉ blank :: '/' :: '/' :: words := by
        simpa [hwords] using hblankLine.symm
      obtain ⟨part', parts', hparts', hcomment⟩ :=
        exists_split_prefix (decide_eq_of_notMem hwhole) back
      obtain ⟨rfl, rfl⟩ := List.cons.inj (hparts.symm.trans hparts')
      have hstrip : stripComment (last ++ part) = stripComment last := by
        rcases hpart with rfl | rfl
        · rw [List.append_nil]
        · exact stripComment_append_return last
      have hcommented : stripComment (last ++ (blank :: '/' :: '/' :: words ++ part)) =
          stripComment last := stripComment_append_cons hblank rfl last
      rw [hlast hparts, ← List.cons_append, ← List.cons_append, ← List.cons_append,
        hlast hcomment, code_append, code_append, code_cons, code_cons,
        codeOf_congr (hcommented.trans hstrip.symm)]
  | @line front back line hfront hidle hline =>
      obtain ⟨parts, hparts⟩ := hfront.exists_split_append
      rw [hparts, hparts, split_append_separator (decide_eq_of_notMem hline) (by decide),
        code_append, code_append, code_cons, codeOf_eq_nil hidle.stripComment_eq_nil,
        List.nil_append]
  | @ending _ line hidle hline =>
      rw [split_append_cons (by decide), split_eq_singleton (decide_eq_of_notMem hline),
        code_append, code_cons, codeOf_eq_nil hidle.stripComment_eq_nil, List.nil_append]
      exact List.append_nil _

/-- Any number of edits keep the code of a text. -/
theorem code_lines_of_edits {t t' : Text} (h : Relation.ReflTransGen Edit t t') :
    code t'.lines = code t.lines := by
  induction h with
  | refl => rfl
  | tail _ hedit ih => rw [hedit.code_lines, ih]

end Text

/-- **Line ends, blank lines and comments do not matter.** After any number of edits of a text, each
of them with carriage returns, a comment, an idle line or a line feed at the end, what is written
for it is the same, whatever the options are: the same lines, or the same failure. -/
theorem generateText_edits (o : Options) {t t' : Text} (h : Relation.ReflTransGen Text.Edit t t') :
    generateText o t' = generateText o t := by
  rw [generateText, generateText, generate_congr_code (code_lines_of_edits h)]

/-- A text with a comment in its first line and a carriage return at the end of its last one, which
is no line end. -/
def uneditedText : Text := "struct S \x7b // a;\n int a;\r"

/-- The same text with carriage returns, with a line in between that holds a comment, with a comment
behind the last line, and with a line feed at the end. -/
def editedText : Text := "struct S \x7b // a;\r\n\t// c;\r\n int a;\r // d\n"

/-- The four kinds of edits in a row. -/
theorem generateText_edits_editedText :
    Relation.ReflTransGen Text.Edit uneditedText editedText ∧
      generateText {} editedText = generateText {} uneditedText := by
  let opened : Text := "struct S \x7b // a;\n"
  let member : Text := " int a;\r"
  let commented : Text := member ++ " // d".toList
  have hcomment : Text.Edit (opened ++ member ++ []) (opened ++ member ++ " // d".toList) :=
    @Text.Edit.comment _ [] " d".toList ' ' (Or.inl rfl) (by decide) (by decide) (by decide)
  have hline : Text.Edit (opened ++ commented)
      (opened ++ ("\t// c;".toList ++ '\n' :: commented)) :=
    .line (Or.inr ⟨"struct S \x7b // a;".toList, rfl⟩)
      ⟨['\t'], "// c;".toList, rfl, List.forall_mem_singleton.mpr rfl, Or.inr ⟨" c;".toList, rfl⟩⟩
      (by decide)
  have hreturns := Text.Edit.returns (opened ++ ("\t// c;".toList ++ '\n' :: commented))
  have hending : Text.Edit "struct S \x7b // a;\r\n\t// c;\r\n int a;\r // d".toList editedText :=
    .ending ⟨[], [], rfl, List.forall_mem_nil _, Or.inl rfl⟩ (by decide)
  have hedits : Relation.ReflTransGen Text.Edit uneditedText editedText :=
    (((Relation.ReflTransGen.single hcomment).tail hline).tail hreturns).tail hending
  exact ⟨hedits, generateText_edits {} hedits⟩

end StructEndian
