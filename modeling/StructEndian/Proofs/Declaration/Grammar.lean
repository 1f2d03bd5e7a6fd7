import Mathlib.Data.List.Basic
import StructEndian.Declaration.Reading

/-!
# The grammar of declarators

The reader of declarators goes over the tokens once and starts over again and again. What it
answers in the end depends on the end of the tokens only: a run of words that nothing but
words would make longer, with nothing behind it, or dimensions, or a width. Here the two
descriptions are shown to be one.

That an answer has the right form is an invariant of the reader (`Declarator.Describes`): what
it holds describes the tokens that it has seen. That no such suffix is missed is seen by
running the reader over one.

## Main definitions

* `Suffix`: what may stand behind the words.
* `Split`: tokens cut into what is ignored, words, and a suffix.
* `HasFault`: a width behind a word that is negative or too large.

## Main results

* `Declarator.readFrom_eq_error_iff`: reading fails exactly at a fault.
* `Declarator.Describes.readFrom`: an answer describes all tokens.
* `Declarator.eq_of_fits`: a list of tokens that can be split is read by its split.
* `Declarator.read_grammar`: all of it about the reader.
* `exists_of_readPiece`: what a member was read from.
-/

namespace StructEndian

/-- What may stand behind the words of a declarator: its **suffix**. -/
inductive Suffix
  /-- Nothing. -/
  | nothing
  /-- One bracket group and some more. -/
  | brackets (more : Nat)
  /-- A colon and a number. -/
  | colon (value : Nat)
deriving DecidableEq, Repr

namespace Suffix

/-- The tokens of a suffix. -/
def tokens : Suffix → List Token
  | nothing => []
  | brackets more => List.replicate (more + 1) (.group .bracket)
  | colon value => [.mark ':', .integer value]

/-- The number of dimensions that a suffix declares. -/
def dimensions : Suffix → Nat
  | brackets more => more + 1
  | _ => 0

/-- The bit width that a suffix declares. -/
def width : Suffix → Option Nat
  | colon value => some value
  | _ => none

end Suffix

/-- A **split** of a list of tokens: what is ignored, the words, and the suffix. -/
structure Split where
  /-- The tokens in front of the words. -/
  ignored : List Token
  /-- The words. -/
  words : List Text
  /-- What stands behind them. -/
  suffix : Suffix
deriving DecidableEq, Repr

namespace Split

/-- A split **fits** a list of tokens if it is cut from it, there are words, and no word stands
directly in front of them. -/
structure Fits (s : Split) (ts : List Token) : Prop where
  /-- The parts make up the tokens. -/
  eq : ts = s.ignored ++ s.words.map .word ++ s.suffix.tokens
  /-- There are words. -/
  words_ne_nil : s.words ≠ []
  /-- What is ignored does not end in a word. -/
  maximal : ∀ w, s.ignored.getLast? ≠ some (.word w)

/-- Tokens whose split has a suffix do not end in a word. -/
theorem Fits.getLast?_ne {s : Split} {ts : List Token} (hs : s.Fits ts)
    (he : s.suffix ≠ .nothing) : ∀ w, ts.getLast? ≠ some (.word w) := by
  intro w hw
  rw [hs.eq] at hw
  cases h : s.suffix with
  | nothing => exact he h
  | brackets more =>
      rw [h, Suffix.tokens, List.replicate_succ', ← List.append_assoc, List.getLast?_concat] at hw
      simp at hw
  | colon value =>
      rw [h, Suffix.tokens, List.append_cons, List.getLast?_concat] at hw
      simp at hw

/-- The declarator that a split spells. -/
def declarator (s : Split) : Declarator :=
  { words := s.words, dimensions := s.suffix.dimensions, width := s.suffix.width }

end Split

/-- The tokens behind a colon are a **bad width**: a number that is too large, or a negative
one. -/
def BadWidth (ts : List Token) : Prop :=
  (∃ n rest, ts = .integer n :: rest ∧ maxWidth < n) ∨
    ∃ n rest, ts = .mark '-' :: .integer n :: rest

/-- A list of tokens has a **fault** if a colon with a bad width stands directly behind a
word. -/
def HasFault (ts : List Token) : Prop :=
  ∃ before w after, ts = before ++ .word w :: .mark ':' :: after ∧ BadWidth after

/-- A fault is at the first word or behind it. -/
theorem hasFault_cons {t : Token} {ts : List Token} :
    HasFault (t :: ts) ↔
      (∃ w after, t = .word w ∧ ts = .mark ':' :: after ∧ BadWidth after) ∨ HasFault ts := by
  constructor
  · rintro ⟨before, w, after, heq, hbad⟩
    cases before with
    | nil =>
        obtain ⟨rfl, rfl⟩ := List.cons.inj heq
        exact Or.inl ⟨w, after, rfl, rfl, hbad⟩
    | cons u before =>
        obtain ⟨rfl, rfl⟩ := List.cons.inj heq
        exact Or.inr ⟨before, w, after, rfl, hbad⟩
  · rintro (⟨w, after, rfl, rfl, hbad⟩ | ⟨before, w, after, rfl, hbad⟩)
    · exact ⟨[], w, after, rfl, hbad⟩
    · exact ⟨t :: before, w, after, rfl, hbad⟩

/-- A fault does not start at a token that is no word. -/
theorem hasFault_cons_of_ne {t : Token} {ts : List Token} (h : ∀ w, t ≠ .word w) :
    HasFault (t :: ts) ↔ HasFault ts := by
  rw [hasFault_cons]
  constructor
  · rintro (⟨w, -, heq, -⟩ | hts)
    · exact absurd heq (h w)
    · exact hts
  · exact Or.inr

namespace Declarator

/-! ### When reading fails -/

/-- At the start no width may follow. -/
theorem takesWidth_empty : takesWidth {} = false := rfl

/-- Behind a word a width may follow. -/
theorem takesWidth_push (d : Declarator) (w : Text) : (d.push w).takesWidth = true := by
  rw [push]
  cases h : d.hasSuffix with
  | true => simp [takesWidth, hasSuffix]
  | false => simpa [takesWidth, hasSuffix] using h

/-- **Reading fails** exactly at a bad width behind a word, which may be the last word read
so far. -/
theorem readFrom_eq_error_iff {d : Declarator} {ts : List Token} :
    (∃ why, readFrom d ts = .error why) ↔
      (d.takesWidth = true ∧ ∃ after, ts = .mark ':' :: after ∧ BadWidth after) ∨
        HasFault ts := by
  fun_induction readFrom d ts with
  | case1 d => simp [HasFault]
  | case2 d w ts ih =>
      rw [ih, hasFault_cons, takesWidth_push]
      simp
  | case3 d ts h ih =>
      rw [ih, hasFault_cons_of_ne (by simp)]
      simp [takesWidth, hasSuffix]
  | case4 d ts h ih =>
      rw [ih, hasFault_cons_of_ne (by simp)]
      simp [takesWidth]
  | case5 d n ts hw hn ih =>
      rw [ih, hasFault_cons_of_ne (by simp), hasFault_cons_of_ne (by simp)]
      have hbad : ¬ BadWidth (.integer n :: ts) := by
        rintro (⟨n', rest, heq, hlt⟩ | ⟨n', rest, heq⟩)
        · obtain rfl := Token.integer.inj (List.cons.inj heq).1
          omega
        · simp at heq
      simp [takesWidth, hasSuffix, hbad]
  | case6 d n ts hw hn =>
      refine ⟨fun _ => Or.inl ⟨hw, _, rfl, Or.inl ⟨n, ts, rfl, ?_⟩⟩, fun _ => ⟨_, rfl⟩⟩
      omega
  | case7 d n ts hw ih =>
      rw [ih, hasFault_cons_of_ne (by simp), hasFault_cons_of_ne (by simp)]
      simp only [hw, takesWidth_empty, Bool.false_eq_true, false_and, false_or]
  | case8 d n ts hw =>
      exact ⟨fun _ => Or.inl ⟨hw, _, rfl, Or.inr ⟨n, ts, rfl⟩⟩, fun _ => ⟨_, rfl⟩⟩
  | case9 d n ts hw ih =>
      rw [ih, hasFault_cons_of_ne (by simp), hasFault_cons_of_ne (by simp),
        hasFault_cons_of_ne (by simp)]
      simp only [hw, takesWidth_empty, Bool.false_eq_true, false_and, false_or]
  | case10 d t ts hword hbracket hinteger hminus ih =>
      have hbad : ∀ after, t :: ts = .mark ':' :: after → ¬ BadWidth after := by
        rintro after heq (⟨n, rest, rfl, -⟩ | ⟨n, rest, rfl⟩)
        · obtain ⟨ht, hts⟩ := List.cons.inj heq
          exact hinteger n rest ht hts
        · obtain ⟨ht, hts⟩ := List.cons.inj heq
          exact hminus n rest ht hts
      rw [ih, hasFault_cons_of_ne hword]
      constructor
      · rintro (⟨h, -⟩ | h)
        · exact absurd h (by decide)
        · exact Or.inr h
      · rintro (⟨-, after, heq, h⟩ | h)
        · exact absurd h (hbad after heq)
        · exact Or.inr h

/-! ### What an answer describes -/

/-- A declarator **describes** the tokens that have been seen: it is the one of a split that
fits them, or it is empty and they do not end in a word. -/
def Describes (seen : List Token) (d : Declarator) : Prop :=
  (d = {} ∧ ∀ w, seen.getLast? ≠ some (.word w)) ∨
    ∃ s : Split, s.Fits seen ∧ d = s.declarator

/-- Behind a token that is no word the empty declarator describes what has been seen. -/
theorem describes_empty (seen : List Token) {t : Token} (h : ∀ w, t ≠ .word w) :
    Describes (seen ++ [t]) {} := by
  refine Or.inl ⟨rfl, fun w hw => h w ?_⟩
  simpa using hw

/-- A word goes on with a run of words, or starts a new one. -/
theorem Describes.push {seen : List Token} {d : Declarator} (h : Describes seen d) (w : Text) :
    Describes (seen ++ [.word w]) (d.push w) := by
  have hnew : (∀ v, seen.getLast? ≠ some (.word v)) →
      (⟨seen, [w], .nothing⟩ : Split).Fits (seen ++ [.word w]) := fun hseen =>
    ⟨by simp [Suffix.tokens], by simp, hseen⟩
  rcases h with ⟨rfl, hlast⟩ | ⟨s, hs, rfl⟩
  · exact Or.inr ⟨⟨seen, [w], .nothing⟩, hnew hlast, rfl⟩
  · cases he : s.suffix with
    | nothing =>
        refine Or.inr ⟨⟨s.ignored, s.words ++ [w], .nothing⟩, ⟨?_, by simp, hs.maximal⟩, ?_⟩
        · rw [hs.eq, he]
          simp [Suffix.tokens]
        · simp [Split.declarator, he, Declarator.push, hasSuffix, Suffix.dimensions, Suffix.width]
    | brackets more =>
        refine Or.inr ⟨⟨seen, [w], .nothing⟩, hnew (hs.getLast?_ne (by simp [he])), ?_⟩
        simp [Split.declarator, he, Declarator.push, hasSuffix, Suffix.dimensions, Suffix.width]
    | colon value =>
        refine Or.inr ⟨⟨seen, [w], .nothing⟩, hnew (hs.getLast?_ne (by simp [he])), ?_⟩
        simp [Split.declarator, he, Declarator.push, hasSuffix, Suffix.dimensions, Suffix.width]

/-- A bracket group behind words, or behind bracket groups behind them, is one dimension
more. -/
theorem Describes.bracket {seen : List Token} {d : Declarator} (h : Describes seen d)
    (hd : d.takesDimension = true) :
    Describes (seen ++ [.group .bracket]) { d with dimensions := d.dimensions + 1 } := by
  rcases h with ⟨rfl, -⟩ | ⟨s, hs, rfl⟩
  · exact absurd hd (by decide)
  · cases he : s.suffix with
    | nothing =>
        refine Or.inr ⟨⟨s.ignored, s.words, .brackets 0⟩, ⟨?_, hs.words_ne_nil, hs.maximal⟩, ?_⟩
        · rw [hs.eq, he]
          simp [Suffix.tokens]
        · simp [Split.declarator, he, Suffix.dimensions, Suffix.width]
    | brackets more =>
        refine Or.inr ⟨⟨s.ignored, s.words, .brackets (more + 1)⟩,
          ⟨?_, hs.words_ne_nil, hs.maximal⟩, ?_⟩
        · rw [hs.eq, he, List.append_assoc]
          simp only [Suffix.tokens, List.replicate_succ', List.append_assoc]
        · simp [Split.declarator, he, Suffix.dimensions, Suffix.width]
    | colon value => simp [takesDimension, Split.declarator, he, Suffix.width] at hd

/-- A colon and a number directly behind words are their width. -/
theorem Describes.colon {seen : List Token} {d : Declarator} (h : Describes seen d)
    (hd : d.takesWidth = true) (n : Nat) :
    Describes (seen ++ [.mark ':', .integer n]) { d with width := some n } := by
  rcases h with ⟨rfl, -⟩ | ⟨s, hs, rfl⟩
  · exact absurd hd (by decide)
  · cases he : s.suffix with
    | nothing =>
        refine Or.inr ⟨⟨s.ignored, s.words, .colon n⟩, ⟨?_, hs.words_ne_nil, hs.maximal⟩, ?_⟩
        · rw [hs.eq, he]
          simp [Suffix.tokens]
        · simp [Split.declarator, he, Suffix.dimensions, Suffix.width]
    | brackets more =>
        simp [takesWidth, hasSuffix, Split.declarator, he, Suffix.dimensions] at hd
    | colon value => simp [takesWidth, hasSuffix, Split.declarator, he, Suffix.width] at hd

/-- **An answer describes all tokens**, those seen before and those read since. -/
theorem Describes.readFrom {seen ts : List Token} {d d' : Declarator} (h : Describes seen d)
    (hread : readFrom d ts = .ok d') : Describes (seen ++ ts) d' := by
  fun_induction Declarator.readFrom d ts generalizing seen with
  | case1 d =>
      obtain rfl := Except.ok.inj hread
      rwa [List.append_nil]
  | case2 d w ts ih =>
      rw [List.append_cons]
      exact ih (h.push w) hread
  | case3 d ts hd ih =>
      rw [List.append_cons]
      exact ih (h.bracket hd) hread
  | case4 d ts hd ih =>
      rw [List.append_cons]
      exact ih (describes_empty seen (by simp)) hread
  | case5 d n ts hw hn ih =>
      have hall := ih (h.colon hw n) hread
      rwa [List.append_assoc] at hall
  | case6 d n ts hw hn => simp at hread
  | case7 d n ts hw ih =>
      rw [List.append_cons, List.append_cons]
      exact ih (describes_empty _ (by simp)) hread
  | case8 d n ts hw => simp at hread
  | case9 d n ts hw ih =>
      rw [List.append_cons, List.append_cons, List.append_cons]
      exact ih (describes_empty _ (by simp)) hread
  | case10 d t ts hword hbracket hinteger hminus ih =>
      rw [List.append_cons]
      exact ih (describes_empty seen hword) hread

/-! ### Reading a split -/

/-- Whatever has been read when a word comes is all that counts for the rest. -/
theorem exists_readFrom_of_append {d d' : Declarator} {xs ys : List Token} {w : Text}
    (h : readFrom d (xs ++ .word w :: ys) = .ok d') :
    ∃ d₁, readFrom d xs = .ok d₁ ∧ readFrom (d₁.push w) ys = .ok d' := by
  fun_induction readFrom d xs with
  | case1 d =>
      rw [List.nil_append, readFrom] at h
      exact ⟨d, rfl, h⟩
  | case2 d v ts ih =>
      rw [List.cons_append, readFrom] at h
      exact ih h
  | case3 d ts hd ih =>
      rw [List.cons_append, readFrom, if_pos hd] at h
      exact ih h
  | case4 d ts hd ih =>
      rw [List.cons_append, readFrom, if_neg hd] at h
      exact ih h
  | case5 d n ts hw hn ih =>
      rw [List.cons_append, List.cons_append, readFrom, if_pos hw, if_pos hn] at h
      exact ih h
  | case6 d n ts hw hn =>
      rw [List.cons_append, List.cons_append, readFrom, if_pos hw, if_neg hn] at h
      simp at h
  | case7 d n ts hw ih =>
      rw [List.cons_append, List.cons_append, readFrom, if_neg hw] at h
      exact ih h
  | case8 d n ts hw =>
      rw [List.cons_append, List.cons_append, List.cons_append, readFrom, if_pos hw] at h
      simp at h
  | case9 d n ts hw ih =>
      rw [List.cons_append, List.cons_append, List.cons_append, readFrom, if_neg hw] at h
      exact ih h
  | case10 d t ts hword hbracket hinteger hminus ih =>
      -- The word behind `ts` does not make a width out of what is in front of it.
      rw [List.cons_append, readFrom] at h
      · exact ih h
      · exact hword
      · exact hbracket
      · intro n rest ht heq
        cases ts with
        | nil => simp at heq
        | cons u us => exact hinteger n us ht (by simp_all)
      · intro n rest ht heq
        cases ts with
        | nil => simp at heq
        | cons u us =>
            cases us with
            | nil => simp at heq
            | cons v vs => exact hminus n vs ht (by simp_all)

/-- Behind tokens that do not end in a word, a word starts a new declarator. -/
theorem push_of_describes {seen : List Token} {d : Declarator} (h : Describes seen d)
    (hseen : ∀ w, seen.getLast? ≠ some (.word w)) (w : Text) : d.push w = { words := [w] } := by
  rcases h with ⟨rfl, -⟩ | ⟨s, hs, rfl⟩
  · rfl
  · cases he : s.suffix with
    | nothing =>
        obtain ⟨w', hw'⟩ := Option.ne_none_iff_exists'.1
          (mt List.getLast?_eq_none_iff.1 hs.words_ne_nil)
        refine absurd ?_ (hseen w')
        rw [hs.eq, he, Suffix.tokens, List.append_nil, List.getLast?_append, List.getLast?_map, hw']
        rfl
    | brackets more => simp [Split.declarator, he, push, hasSuffix, Suffix.dimensions]
    | colon value => simp [Split.declarator, he, push, hasSuffix, Suffix.width]

/-- Words behind a declarator without suffix are added to it. -/
theorem readFrom_words_append {d : Declarator} (hd : d.hasSuffix = false) (ws : List Text)
    (ts : List Token) :
    readFrom d (ws.map .word ++ ts) = readFrom { d with words := d.words ++ ws } ts := by
  induction ws generalizing d with
  | nil => rw [List.map_nil, List.nil_append, List.append_nil]
  | cons w ws ih =>
      have hp : d.push w = { d with words := d.words ++ [w] } := by simp [push, hd]
      rw [List.map_cons, List.cons_append, readFrom, hp, ih (by simpa [hasSuffix] using hd)]
      simp

/-- Bracket groups behind words are dimensions. -/
theorem readFrom_brackets {d : Declarator} (hd : d.takesDimension = true) (n : Nat) :
    readFrom d (List.replicate n (.group .bracket)) =
      .ok { d with dimensions := d.dimensions + n } := by
  induction n generalizing d with
  | zero => rw [List.replicate_zero, readFrom, Nat.add_zero]
  | succ n ih =>
      rw [List.replicate_succ, readFrom, if_pos hd, ih (by simpa [takesDimension] using hd)]
      simp only [Nat.add_assoc, Nat.add_comm 1]

/-- A suffix behind words is read if its width is not too large. -/
theorem readFrom_suffix {ws : List Text} (hws : ws ≠ []) {e : Suffix}
    (he : ∀ n ∈ e.width, n ≤ maxWidth) :
    readFrom { words := ws } e.tokens =
      .ok { words := ws, dimensions := e.dimensions, width := e.width } := by
  cases e with
  | nothing =>
      rw [Suffix.tokens, readFrom]
      rfl
  | brackets more =>
      rw [Suffix.tokens, readFrom_brackets (by simpa [takesDimension] using hws)]
      simp only [Suffix.dimensions, Suffix.width, Nat.zero_add]
  | colon value =>
      have hw : takesWidth { words := ws } = true := by simpa [takesWidth, hasSuffix] using hws
      rw [Suffix.tokens, readFrom, if_pos hw, if_pos (he value rfl), readFrom]
      rfl

/-- A width that has been read is not too large. -/
theorem width_le_of_readFrom {ws : List Text} (hws : ws ≠ []) {e : Suffix} {d : Declarator}
    (h : readFrom { words := ws } e.tokens = .ok d) : ∀ n ∈ e.width, n ≤ maxWidth := by
  intro n hn
  cases e with
  | colon value =>
      obtain rfl := Option.some.inj hn
      have hw : takesWidth { words := ws } = true := by simpa [takesWidth, hasSuffix] using hws
      rw [Suffix.tokens, readFrom, if_pos hw] at h
      by_contra hlt
      rw [if_neg hlt] at h
      simp at h
  | nothing => simp [Suffix.width] at hn
  | brackets more => simp [Suffix.width] at hn

/-- The width that has been read is not too large, at whatever token the reader is. -/
theorem width_le_of_read {d d' : Declarator} {ts : List Token} (h : readFrom d ts = .ok d')
    (hd : ∀ n ∈ d.width, n ≤ maxWidth) : ∀ n ∈ d'.width, n ≤ maxWidth := by
  have hempty : ∀ n ∈ ({} : Declarator).width, n ≤ maxWidth := by simp
  fun_induction readFrom d ts with
  | case1 d =>
      obtain rfl := Except.ok.inj h
      exact hd
  | case2 d w ts ih =>
      refine ih h fun n hn => ?_
      rw [push] at hn
      split at hn
      · exact hempty n hn
      · exact hd n hn
  | case3 d ts _ ih => exact ih h hd
  | case4 d ts _ ih => exact ih h hempty
  | case5 d n ts _ hle ih =>
      refine ih h fun n' hn => ?_
      obtain rfl := Option.some.inj hn
      exact hle
  | case6 => cases h
  | case7 d n ts _ ih => exact ih h hempty
  | case8 => cases h
  | case9 d n ts _ ih => exact ih h hempty
  | case10 d t ts _ _ _ _ ih => exact ih h hempty

/-- **Reading finds the split**: if tokens that have a split are read, its declarator is the
answer. -/
theorem eq_of_fits {s : Split} {ts : List Token} {d : Declarator} (hs : s.Fits ts)
    (h : read ts = .ok d) : d = s.declarator := by
  obtain ⟨w, ws, hws⟩ := List.exists_cons_of_ne_nil hs.words_ne_nil
  rw [read, hs.eq, hws, List.map_cons, List.append_assoc, List.cons_append] at h
  obtain ⟨d₁, hd₁, hrest⟩ := exists_readFrom_of_append h
  have hseen : Describes s.ignored d₁ := by
    have hall := Describes.readFrom (Or.inl ⟨rfl, by simp⟩ : Describes [] {}) hd₁
    rwa [List.nil_append] at hall
  rw [push_of_describes hseen hs.maximal, readFrom_words_append rfl, List.singleton_append,
    ← hws] at hrest
  rw [readFrom_suffix hs.words_ne_nil (width_le_of_readFrom hs.words_ne_nil hrest)] at hrest
  exact (Except.ok.inj hrest).symm

/-- Two splits that fit the same tokens are one if they spell the same declarator. -/
theorem fits_unique {s s' : Split} {ts : List Token} (hs : s.Fits ts) (hs' : s'.Fits ts)
    (h : s.declarator = s'.declarator) : s = s' := by
  obtain ⟨ignored, words, suffix⟩ := s
  obtain ⟨ignored', words', suffix'⟩ := s'
  obtain ⟨rfl, hdim, hwidth⟩ := Declarator.mk.inj h
  have hsuffix : suffix = suffix' := by
    cases suffix <;> cases suffix' <;> simp_all [Suffix.dimensions, Suffix.width]
  subst hsuffix
  have heq := hs.eq.symm.trans hs'.eq
  rw [List.append_assoc, List.append_assoc] at heq
  obtain rfl : ignored = ignored' := List.append_cancel_right heq
  rfl

/-! ### The grammar -/

/-- **The reader accepts exactly its grammar.** It fails if a bad width stands behind a word.
Otherwise its answer has words exactly if the tokens can be split; the split is unique and the
answer is what it spells. If they cannot be split the answer is empty, and a piece with these
tokens declares nothing. -/
theorem read_grammar (ts : List Token) :
    ((∃ why, read ts = .error why) ↔ HasFault ts) ∧
      (¬ HasFault ts → ∃ d, read ts = .ok d ∧
        (d.words ≠ [] ↔ ∃ s : Split, s.Fits ts) ∧
        (∀ s : Split, s.Fits ts → d = s.declarator ∧ ∀ s' : Split, s'.Fits ts → s' = s) ∧
        ((¬ ∃ s : Split, s.Fits ts) →
          d = {} ∧ ∀ piece, Token.lex piece = some ts → readPiece piece = .nothing)) := by
  have hfault : (∃ why, read ts = .error why) ↔ HasFault ts := by
    rw [read, readFrom_eq_error_iff, takesWidth_empty]
    simp
  refine ⟨hfault, fun hnot => ?_⟩
  obtain ⟨d, hd⟩ : ∃ d, read ts = .ok d := by
    cases h : read ts with
    | error why => exact absurd (hfault.1 ⟨why, h⟩) hnot
    | ok d => exact ⟨d, rfl⟩
  have hdescribes : Describes ts d :=
    Describes.readFrom (Or.inl ⟨rfl, by simp⟩ : Describes [] {}) hd
  refine ⟨d, hd, ⟨fun hwords => ?_, ?_⟩, fun s hs => ⟨eq_of_fits hs hd, fun s' hs' => ?_⟩,
    fun hnone => ?_⟩
  · rcases hdescribes with ⟨rfl, -⟩ | ⟨s, hs, -⟩
    · exact absurd rfl hwords
    · exact ⟨s, hs⟩
  · rintro ⟨s, hs⟩
    rw [eq_of_fits hs hd]
    exact hs.words_ne_nil
  · exact fits_unique hs' hs ((eq_of_fits hs' hd).symm.trans (eq_of_fits hs hd))
  · obtain rfl : d = {} := by
      rcases hdescribes with ⟨rfl, -⟩ | ⟨s, hs, -⟩
      · rfl
      · exact absurd ⟨s, hs⟩ hnone
    refine ⟨rfl, fun piece hpiece => ?_⟩
    rw [readPiece, hpiece]
    dsimp only
    rw [hd]
    rfl

/-- The grammar at work on `* int a : 3`. -/
theorem read_grammar_starred :
    ¬ HasFault [.mark '*', .word "int", .word "a", .mark ':', .integer 3] ∧
      ∃ d, read [.mark '*', .word "int", .word "a", .mark ':', .integer 3] = .ok d ∧
        d = (⟨[.mark '*'], ["int", "a"], .colon 3⟩ : Split).declarator := by
  have hall := read_grammar [.mark '*', .word "int", .word "a", .mark ':', .integer 3]
  have hnot : ¬ HasFault [.mark '*', .word "int", .word "a", .mark ':', .integer 3] := by
    have hok : read [.mark '*', .word "int", .word "a", .mark ':', .integer 3] =
        .ok { words := ["int", "a"], width := some 3 } := by rfl
    rw [← hall.1, hok]
    simp
  obtain ⟨d, hd, -, hsplit, -⟩ := hall.2 hnot
  exact ⟨hnot, d, hd, (hsplit _ ⟨rfl, by simp, by simp⟩).1⟩

end Declarator

/-! ### Members that are read -/

/-- **A member that is read** is made from slots that the words of the declarator are assigned to. -/
theorem exists_of_readPiece {piece : Text} {m : Member} (h : readPiece piece = .member m) :
    ∃ ts d s, Token.lex piece = some ts ∧ Declarator.read ts = .ok d ∧
      Slots.assign d.words = some s ∧ m = s.settleInt.toMember d piece := by
  rw [readPiece] at h
  cases hlex : Token.lex piece with
  | none => simp [hlex] at h
  | some ts =>
      rw [hlex] at h
      cases hread : Declarator.read ts with
      | error why => simp [hread] at h
      | ok d =>
          simp only [hread, readDeclarator] at h
          cases hassign : Slots.assign d.words with
          | none => simp [hassign] at h
          | some s =>
              simp only [hassign, Option.map_some] at h
              split at h
              · cases h
              · exact ⟨ts, d, s, rfl, hread, hassign, (Reading.member.inj h).symm⟩

/-- The width of a member that is read is not too large. -/
theorem bits_le_of_readPiece {piece : Text} {m : Member} (h : readPiece piece = .member m) :
    m.bits ≤ maxWidth := by
  obtain ⟨ts, d, s, -, hread, -, rfl⟩ := exists_of_readPiece h
  have hwidth := Declarator.width_le_of_read hread (by simp)
  rw [Slots.toMember]
  cases hd : d.width with
  | none => exact Nat.zero_le _
  | some n => exact hwidth n hd

end StructEndian
