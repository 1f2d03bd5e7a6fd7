import Mathlib.Data.List.Basic
import Mathlib.Data.List.Induction
import Mathlib.Data.List.TakeWhile
import StructEndian.Generate

/-!
# The pieces of a whole text

Declarations are looked for line by line, between semicolons and behind braces. Where the
lines end is of little weight: blanks at the two ends of a line, carriage returns and line
feeds among them, are in no piece. So the pieces of a text can be taken off its front, one
semicolon after the other.

## Main definitions

* `allPieces`: the pieces of all the lines of a text.

## Main results

* `Text.split_append_cons`: a separator ends a part.
* `flatMap_lines`: what is read off the lines of a text is read off the parts between its line
  feeds.
* `declaredMembers_lines`: the members of a text without comments are those of its pieces.
* `allPieces_blanks`, `allPieces_append_brace`, `allPieces_append_semicolon`: how the pieces
  are taken off the front of a text.
-/

namespace StructEndian

namespace Text

/-! ### Splitting -/

variable {p : Char → Bool}

/-- **Splitting a concatenation**: the last part of the one text and the first part of the
other become one part. -/
theorem exists_split_append (p : Char → Bool) (a b : Text) :
    ∃ front last part parts, split p a = front ++ [last] ∧ split p b = part :: parts ∧
      split p (a ++ b) = front ++ (last ++ part) :: parts := by
  obtain ⟨part, parts, hb⟩ := List.exists_cons_of_ne_nil (split_ne_nil p b)
  induction a with
  | nil => exact ⟨[], [], part, parts, rfl, hb, hb⟩
  | cons c a ih =>
      obtain ⟨front, last, part', parts', ha, hb', hab⟩ := ih
      obtain ⟨rfl, rfl⟩ := List.cons.inj (hb.symm.trans hb')
      by_cases hc : p c = true
      · refine ⟨[] :: front, last, part, parts, ?_, hb, ?_⟩
        · rw [split, if_pos hc, ha, List.cons_append]
        · rw [List.cons_append, split, if_pos hc, hab, List.cons_append]
      · rw [List.cons_append, split, split, if_neg hc, if_neg hc, ha, hab]
        cases front with
        | nil => exact ⟨[], c :: last, part, parts, rfl, hb, rfl⟩
        | cons f front => exact ⟨(c :: f) :: front, last, part, parts, rfl, hb, rfl⟩

/-- A text without separators is one part. -/
theorem split_eq_singleton {a : Text} (ha : ∀ c ∈ a, p c = false) : split p a = [a] := by
  induction a with
  | nil => rfl
  | cons c a ih => rw [split, ha c (by simp), ih fun d hd => ha d (by simp [hd])]; rfl

/-- Characters that are no separators go to the first part. -/
theorem exists_split_prefix {a : Text} (ha : ∀ c ∈ a, p c = false) (b : Text) :
    ∃ part parts, split p b = part :: parts ∧ split p (a ++ b) = (a ++ part) :: parts := by
  obtain ⟨front, last, part, parts, hsplit, hb, hab⟩ := exists_split_append p a b
  rw [split_eq_singleton ha] at hsplit
  obtain ⟨rfl, rfl⟩ : front = [] ∧ last = a := by
    cases front with
    | nil => exact ⟨rfl, (List.cons.inj hsplit).1.symm⟩
    | cons f front => simp at hsplit
  exact ⟨part, parts, hb, hab⟩

/-- A character that does not occur separates nothing. -/
theorem decide_eq_of_notMem {x : Char} {a : Text} (ha : x ∉ a) :
    ∀ c ∈ a, decide (c = x) = false := by
  intro c hc
  rw [decide_eq_false_iff_not]
  rintro rfl
  exact ha hc

/-- **A separator ends a part**, whatever stands in front of it. -/
theorem split_append_cons {x : Char} (hx : p x = true) (a b : Text) :
    split p (a ++ x :: b) = split p a ++ split p b := by
  obtain ⟨front, last, part, parts, ha, hb, hab⟩ := exists_split_append p a (x :: b)
  rw [split, if_pos hx] at hb
  obtain ⟨rfl, rfl⟩ := List.cons.inj hb
  rw [hab, ha, List.append_nil, List.append_assoc, List.singleton_append]

/-- What stands in front of the first separator is the first part. -/
theorem split_append_separator {a : Text} (ha : ∀ c ∈ a, p c = false) {x : Char}
    (hx : p x = true) (b : Text) : split p (a ++ x :: b) = a :: split p b := by
  rw [split_append_cons hx, split_eq_singleton ha, List.singleton_append]

/-! ### Trimming -/

theorem trim_cons {c : Char} (hc : isBlank c = true) (s : Text) : trim (c :: s) = trim s := by
  rw [trim, List.dropWhile_cons, if_pos hc, trim]

theorem trimEnd_concat {c : Char} (hc : isBlank c = true) (s : Text) :
    trimEnd (s ++ [c]) = trimEnd s := by
  rw [trimEnd, List.reverse_append, List.reverse_singleton, List.singleton_append,
    List.dropWhile_cons, if_pos hc, trimEnd]

theorem trim_concat {c : Char} (hc : isBlank c = true) (s : Text) :
    trim (s ++ [c]) = trim s := by
  rw [trim, trim, List.dropWhile_append]
  split
  · next hempty =>
      rw [List.isEmpty_iff.1 hempty, List.dropWhile_cons, if_pos hc, List.dropWhile_nil]
  · exact trimEnd_concat hc _

/-- What stands up to a character that is no blank is not trimmed off the end. -/
theorem trimEnd_append_cons {c : Char} (hc : isBlank c = false) (s t : Text) :
    trimEnd (s ++ c :: t) = s ++ c :: trimEnd t := by
  rw [trimEnd, trimEnd, List.reverse_append, List.reverse_cons, List.append_assoc,
    List.singleton_append, List.dropWhile_append]
  split
  · next hempty =>
      rw [List.isEmpty_iff.1 hempty, List.dropWhile_cons, if_neg (by simp [hc])]
      simp
  · simp

/-- A text without blanks at its two ends is trimmed. -/
theorem trim_eq_self {s : Text} (hhead : ∀ c ∈ s.head?, isBlank c = false)
    (hlast : ∀ c ∈ s.getLast?, isBlank c = false) : trim s = s := by
  have hdrop : s.dropWhile isBlank = s := by
    cases s with
    | nil => rfl
    | cons c s => rw [List.dropWhile_cons, if_neg (by simp [hhead c rfl])]
  rw [trim, hdrop]
  induction s using List.reverseRecOn with
  | nil => rfl
  | append_singleton s c ih => exact trimEnd_append_cons (hlast c (by simp)) s []

end Text

/-! ### The pieces of one line -/

open Text

/-- A brace is no blank, and a blank no brace. -/
theorem isBrace_of_isBlank {c : Char} (hc : isBlank c = true) : isBrace c = false := by
  cases h : isBrace c with
  | false => rfl
  | true =>
      rw [isBrace, Bool.or_eq_true, decide_eq_true_eq, decide_eq_true_eq] at h
      rcases h with rfl | rfl <;> exact absurd hc (by decide)

/-- What stands in front of a brace is cut off. -/
theorem afterBrace_append_brace {c : Char} (hc : isBrace c = true) (a s : Text) :
    afterBrace (a ++ c :: s) = afterBrace s := by
  rw [afterBrace, List.reverse_append, List.reverse_cons, List.append_assoc,
    List.singleton_append, List.takeWhile_append]
  split
  · next hall =>
      rw [List.takeWhile_cons, if_neg (by simp [hc]), List.append_nil, afterBrace,
        (List.takeWhile_prefix _).eq_of_length hall]
  · rfl

/-- Without a brace nothing is cut off. -/
theorem afterBrace_eq_self {s : Text} (hs : ∀ c ∈ s, isBrace c = false) : afterBrace s = s := by
  have hall : s.reverse.takeWhile (fun c => !isBrace c) = s.reverse :=
    List.takeWhile_eq_self_iff.2 fun c hc => by simp [hs c (List.mem_reverse.1 hc)]
  rw [afterBrace, hall, List.reverse_reverse]

/-- A blank at the front does not change what is trimmed. -/
theorem trim_afterBrace_cons {c : Char} (hc : isBlank c = true) (s : Text) :
    trim (afterBrace (c :: s)) = trim (afterBrace s) := by
  rw [afterBrace, List.reverse_cons, List.takeWhile_append]
  split
  · next hall =>
      rw [List.takeWhile_cons, if_pos (by simp [isBrace_of_isBlank hc]), List.takeWhile_nil,
        List.reverse_append, List.reverse_singleton, List.singleton_append, trim_cons hc,
        afterBrace, (List.takeWhile_prefix _).eq_of_length hall]
  · rfl

/-- The piece of a text that stands between two semicolons, if it is not empty. -/
def piecesBetween (s : Text) : List Text :=
  [trim (afterBrace s)].filter (· ≠ [])

/-- A trimmed text without braces is its own piece. -/
theorem piecesBetween_eq_singleton {s : Text} (hne : s ≠ [])
    (hhead : ∀ c ∈ s.head?, isBlank c = false) (hlast : ∀ c ∈ s.getLast?, isBlank c = false)
    (hopen : '\x7b' ∉ s) (hclose : '\x7d' ∉ s) : piecesBetween s = [s] := by
  have hbrace : ∀ c ∈ s, isBrace c = false := by
    intro c hc
    have hopen' : c ≠ '\x7b' := fun heq => hopen (heq ▸ hc)
    have hclose' : c ≠ '\x7d' := fun heq => hclose (heq ▸ hc)
    simp [isBrace, hopen', hclose']
  rw [piecesBetween, afterBrace_eq_self hbrace, trim_eq_self hhead hlast,
    List.filter_cons_of_pos (by simp [hne]), List.filter_nil]

/-- The pieces of a line by its parts. -/
theorem pieces_eq (line : Text) :
    pieces line = (Text.split (· = ';') line).dropLast.flatMap piecesBetween := by
  rw [pieces]
  induction (Text.split (· = ';') line).dropLast with
  | nil => rfl
  | cons s ss ih =>
      rw [List.map_cons, List.flatMap_cons, ← ih, piecesBetween, ← List.filter_append,
        List.singleton_append]

/-- **A semicolon ends a piece.** -/
theorem pieces_append_semicolon {a : Text} (ha : ';' ∉ a) (line : Text) :
    pieces (a ++ ';' :: line) = piecesBetween a ++ pieces line := by
  rw [pieces_eq, pieces_eq, split_append_separator (decide_eq_of_notMem ha) (by decide),
    List.dropLast_cons_of_ne_nil (split_ne_nil _ _), List.flatMap_cons]

/-- What is in front of the first semicolon matters for its piece only. -/
theorem pieces_append_congr {a b : Text} (ha : ';' ∉ a) (hb : ';' ∉ b)
    (h : ∀ s, piecesBetween (a ++ s) = piecesBetween (b ++ s)) (line : Text) :
    pieces (a ++ line) = pieces (b ++ line) := by
  obtain ⟨part, parts, hline, hal⟩ := exists_split_prefix (decide_eq_of_notMem ha) line
  obtain ⟨part', parts', hline', hbl⟩ := exists_split_prefix (decide_eq_of_notMem hb) line
  obtain ⟨rfl, rfl⟩ := List.cons.inj (hline.symm.trans hline')
  rw [pieces_eq, pieces_eq, hal, hbl]
  cases parts with
  | nil => rfl
  | cons q parts =>
      rw [List.dropLast_cons_cons, List.dropLast_cons_cons, List.flatMap_cons, List.flatMap_cons, h]

/-- A blank at the front of a line is in no piece. -/
theorem pieces_cons {c : Char} (hc : isBlank c = true) (line : Text) :
    pieces (c :: line) = pieces line := by
  refine pieces_append_congr (a := [c]) (b := []) ?_ (by simp) (fun s => ?_) line
  · simpa using (Text.ne_of_class hc (by decide) : c ≠ ';').symm
  · rw [List.singleton_append, List.nil_append, piecesBetween, trim_afterBrace_cons hc,
      piecesBetween]

/-- What stands in front of a brace is in no piece, unless a semicolon stands between. -/
theorem pieces_append_brace {a : Text} (ha : ';' ∉ a) {c : Char} (hc : isBrace c = true)
    (line : Text) : pieces (a ++ c :: line) = pieces line := by
  have hne : c ≠ ';' := by
    rintro rfl
    exact absurd hc (by decide)
  rw [List.append_cons]
  refine pieces_append_congr (b := []) (by simp [ha, hne.symm]) (by simp) (fun s => ?_) line
  rw [List.append_assoc, List.singleton_append, piecesBetween, afterBrace_append_brace hc,
    piecesBetween, List.nil_append]

/-- A blank at the end of a line is in no piece. -/
theorem pieces_concat {c : Char} (hc : isBlank c = true) (line : Text) :
    pieces (line ++ [c]) = pieces line := by
  obtain ⟨front, last, part, parts, hline, hpart, hconcat⟩ :=
    exists_split_append (· = ';') line [c]
  have hc' : Text.split (· = ';') [c] = [[c]] :=
    split_eq_singleton fun d hd => by
      obtain rfl : d = c := by simpa using hd
      simpa using (Text.ne_of_class hc (by decide) : d ≠ ';')
  obtain ⟨rfl, rfl⟩ := List.cons.inj (hc'.symm.trans hpart)
  rw [pieces_eq, pieces_eq, hline, hconcat, List.dropLast_concat, List.dropLast_concat]

/-- **Trimming a line** leaves its pieces as they are. -/
theorem pieces_trim (line : Text) : pieces (trim line) = pieces line := by
  have hfront : ∀ s : Text, pieces (s.dropWhile isBlank) = pieces s := by
    intro s
    induction s with
    | nil => rfl
    | cons c s ih =>
        rw [List.dropWhile_cons]
        split
        · next hc => rw [ih, pieces_cons hc]
        · rfl
  have hend : ∀ s : Text, pieces (trimEnd s) = pieces s := by
    intro s
    induction s using List.reverseRecOn with
    | nil => rfl
    | append_singleton s c ih =>
        cases hc : isBlank c with
        | true => rw [trimEnd_concat hc, ih, pieces_concat hc]
        | false =>
            rw [trimEnd_append_cons hc]
            rfl
  rw [trim, hend, hfront]

/-! ### The pieces of all lines -/

/-- **All pieces** of a text: those of its lines, where a line is whatever stands between two
line feeds. -/
def allPieces (t : Text) : List Text :=
  (Text.split (· = '\n') t).flatMap pieces

/-- A line feed ends a line. -/
theorem allPieces_append_newline {a : Text} (ha : '\n' ∉ a) (t : Text) :
    allPieces (a ++ '\n' :: t) = pieces a ++ allPieces t := by
  rw [allPieces, split_append_separator (decide_eq_of_notMem ha) (by decide), List.flatMap_cons,
    allPieces]

/-- What stands in front of the first line feed belongs to the first line. -/
theorem exists_allPieces {a : Text} (ha : '\n' ∉ a) (t : Text) :
    ∃ line rest, allPieces t = pieces line ++ rest ∧
      allPieces (a ++ t) = pieces (a ++ line) ++ rest := by
  obtain ⟨part, parts, ht, hat⟩ := exists_split_prefix (decide_eq_of_notMem ha) t
  refine ⟨part, parts.flatMap pieces, ?_, ?_⟩
  · rw [allPieces, ht, List.flatMap_cons]
  · rw [allPieces, hat, List.flatMap_cons]

/-- A text without line feeds has the pieces of its only line. -/
theorem allPieces_of_notMem {a : Text} (ha : '\n' ∉ a) : allPieces a = pieces a := by
  rw [allPieces, split_eq_singleton (decide_eq_of_notMem ha), List.flatMap_singleton]

/-- **A semicolon ends a piece.** -/
theorem allPieces_append_semicolon {a : Text} (ha : '\n' ∉ a) (ha' : ';' ∉ a) (t : Text) :
    allPieces (a ++ ';' :: t) = piecesBetween a ++ allPieces t := by
  obtain ⟨line, rest, ht, hat⟩ := exists_allPieces (a := a ++ [';']) (by simp [ha]) t
  rw [List.append_cons, hat, ht, ← List.append_cons, pieces_append_semicolon ha',
    List.append_assoc]

/-- What stands in front of a brace is in no piece. -/
theorem allPieces_append_brace {a : Text} (ha : '\n' ∉ a) (ha' : ';' ∉ a) {c : Char}
    (hc : isBrace c = true) (t : Text) : allPieces (a ++ c :: t) = allPieces t := by
  have hne : c ≠ '\n' := by
    rintro rfl
    exact absurd hc (by decide)
  obtain ⟨line, rest, ht, hat⟩ := exists_allPieces (a := a ++ [c]) (by simp [ha, hne.symm]) t
  rw [List.append_cons, hat, ht, ← List.append_cons, pieces_append_brace ha' hc]

/-- Blanks at the front are in no piece. -/
theorem allPieces_blanks {g : Text} (hg : ∀ c ∈ g, isBlank c = true) (t : Text) :
    allPieces (g ++ t) = allPieces t := by
  induction g with
  | nil => rfl
  | cons c g ih =>
      rw [← ih fun d hd => hg d (by simp [hd]), List.cons_append]
      by_cases hc : c = '\n'
      · subst hc
        exact allPieces_append_newline (a := []) (by simp) (g ++ t)
      · obtain ⟨line, rest, ht, hat⟩ :=
          exists_allPieces (a := [c]) (by simpa using Ne.symm hc) (g ++ t)
        rw [← List.singleton_append, hat, ht, List.singleton_append,
          pieces_cons (hg c (by simp))]

/-! ### Lines -/

/-- The lines of a text with something in front of the first of them. -/
def prependLine (a : Text) : List Text → List Text
  | [] => [a]
  | line :: lines => (a ++ line) :: lines

section

variable {α : Type} {f : Text → List α} (hnil : f [] = [])
  (hreturn : ∀ line : Text, f (line ++ ['\r']) = f line)

include hnil

/-- Nothing in front of a line changes what is read off it. -/
theorem flatMap_prependLine_nil (lines : List Text) :
    (prependLine [] lines).flatMap f = lines.flatMap f := by
  cases lines with
  | nil => rw [prependLine, List.flatMap_singleton, hnil, List.flatMap_nil]
  | cons line lines => rfl

include hreturn

/-- Whatever stands in front of a text, what is read off its lines is what is read off the parts
between its line feeds, if a carriage return at the end of a line does not count. -/
theorem flatMap_prependLine {a : Text} (ha : '\n' ∉ a) (t : Text) :
    (prependLine a t.lines).flatMap f = (Text.split (· = '\n') (a ++ t)).flatMap f := by
  fun_induction Text.lines t generalizing a with
  | case1 =>
      rw [List.append_nil, split_eq_singleton (decide_eq_of_notMem ha), prependLine]
  | case2 s ih =>
      have hs := ih (a := []) (by simp)
      rw [flatMap_prependLine_nil hnil, List.nil_append] at hs
      rw [prependLine, List.append_nil, List.flatMap_cons, hs,
        split_append_separator (decide_eq_of_notMem ha) (by decide), List.flatMap_cons]
  | case3 s ih =>
      have hs := ih (a := []) (by simp)
      rw [flatMap_prependLine_nil hnil, List.nil_append] at hs
      rw [prependLine, List.append_nil, List.flatMap_cons, hs, List.append_cons,
        split_append_separator (decide_eq_of_notMem (by simp [ha])) (by decide),
        List.flatMap_cons, hreturn]
  | case4 c s hn hr hs ih =>
      have hall := ih (a := a ++ [c]) (by simpa [ha] using Ne.symm hn)
      rw [hs] at hall
      rw [List.append_cons, ← hall]
      rfl
  | case5 c s hn hr line rest hs ih =>
      have hall := ih (a := a ++ [c]) (by simpa [ha] using Ne.symm hn)
      rw [hs] at hall
      rw [List.append_cons, ← hall, prependLine, prependLine, List.append_cons]

/-- **What is read off the lines of a text** is what is read off the parts between its line
feeds, if a carriage return at the end of a line does not count. -/
theorem flatMap_lines (t : Text) : t.lines.flatMap f = (Text.split (· = '\n') t).flatMap f := by
  rw [← flatMap_prependLine_nil hnil, flatMap_prependLine hnil hreturn (by simp),
    List.nil_append]

end

/-- **The lines of a text** have all of its pieces: a carriage return is a blank at the end of
its line. -/
theorem flatMap_pieces_lines (t : Text) : t.lines.flatMap pieces = allPieces t :=
  flatMap_lines rfl (pieces_concat (by decide)) t

/-- A line holds characters of the text only. -/
theorem mem_of_mem_lines {t line : Text} {c : Char} (hline : line ∈ t.lines) (hc : c ∈ line) :
    c ∈ t := by
  fun_induction Text.lines t generalizing line with
  | case1 => simp at hline
  | case2 s ih =>
      rcases List.mem_cons.1 hline with rfl | hline
      · simp at hc
      · exact List.mem_cons_of_mem _ (ih hline hc)
  | case3 s ih =>
      rcases List.mem_cons.1 hline with rfl | hline
      · simp at hc
      · exact List.mem_cons_of_mem _ (List.mem_cons_of_mem _ (ih hline hc))
  | case4 d s hn hr hs ih =>
      obtain rfl := List.mem_singleton.1 hline
      obtain rfl := List.mem_singleton.1 hc
      exact List.mem_cons_self
  | case5 d s hn hr first rest hs ih =>
      rw [hs] at ih
      rcases List.mem_cons.1 hline with rfl | hline
      · rcases List.mem_cons.1 hc with rfl | hc
        · exact List.mem_cons_self
        · exact List.mem_cons_of_mem _ (ih List.mem_cons_self hc)
      · exact List.mem_cons_of_mem _ (ih (List.mem_cons_of_mem _ hline) hc)

/-- Without slashes there is no comment. -/
theorem stripComment_of_notMem {line : Text} (h : '/' ∉ line) :
    stripComment line = trim line := by
  have hself : beforeComment line = line := by
    fun_induction beforeComment line with
    | case1 => rfl
    | case2 s => exact absurd List.mem_cons_self h
    | case3 c s hs ih => rw [ih fun hmem => h (List.mem_cons_of_mem _ hmem)]
  rw [stripComment, hself]

/-- **The members of a text** without slashes are those of all its pieces. -/
theorem declaredMembers_lines {t : Text} (h : '/' ∉ t) :
    declaredMembers t.lines = ((allPieces t).map readPiece).filterMap Reading.member? := by
  have hline : ∀ line ∈ t.lines, membersOf line.stripComment =
      ((pieces line).map readPiece).filterMap Reading.member? := by
    intro line hmem
    rw [stripComment_of_notMem fun hslash => h (mem_of_mem_lines hmem hslash), membersOf, readings,
      pieces_trim]
  rw [declaredMembers, List.flatMap_congr hline, ← flatMap_pieces_lines, List.map_flatMap,
    List.filterMap_flatMap]

end StructEndian
