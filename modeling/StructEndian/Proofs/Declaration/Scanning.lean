import Mathlib.Data.List.Basic
import Mathlib.Data.List.TakeWhile
import StructEndian.Token.Lexer

/-!
# Scanning words, numerals and groups

What the lexer makes of a text that is put together from names, decimal numerals, blanks, colons
and brackets. Each part of it is read to its end and no further, whatever follows, as long as
what follows breaks the part off. So the lexemes of the whole are those of its parts, one behind
the other.

## Main definitions

* `Text.IsName`: the texts that are read as one identifier, raw or not.
* `Text.isWord`: the ASCII identifiers.
* `Text.Breaks`: what may follow a name or a numeral without becoming a part of it.

## Main results

* `isIdentifierPart_of_isGap`: what may stand between tokens stands in no identifier.
* `Lexeme.isName_of_word`: what is read as an identifier is a name.
* `Lexeme.scan_blanks`, `Lexeme.scan_name`, `Lexeme.scan_decimal`, `Lexeme.scan_colon`,
  `Lexeme.scan_brackets`: the lexemes of one part in front of others.
-/

namespace StructEndian

/-! ### Classes of characters -/

/-- The codes of the letters. -/
theorem isAlpha_iff {c : Char} :
    c.isAlpha = true ↔ (65 ≤ c.toNat ∧ c.toNat ≤ 90) ∨ (97 ≤ c.toNat ∧ c.toNat ≤ 122) := by
  have hupper : c.isUpper = true ↔ 65 ≤ c.toNat ∧ c.toNat ≤ 90 := decide_eq_true_iff
  have hlower : c.isLower = true ↔ 97 ≤ c.toNat ∧ c.toNat ≤ 122 :=
    (Bool.and_eq_true _ _).to_iff.trans (and_congr decide_eq_true_iff decide_eq_true_iff)
  rw [← hupper, ← hlower]
  exact (Bool.or_eq_true _ _).to_iff

/-- The codes of the digits. -/
theorem isDigit_iff {c : Char} : c.isDigit = true ↔ 48 ≤ c.toNat ∧ c.toNat ≤ 57 :=
  Char.isDigit_iff_toNat

/-- Ranges of codes that hold **no gap**, those with the most identifier characters first. -/
def gaplessRanges : List (Nat × Nat) :=
  [(0x3001, 0x10FFFF), (0xA1, 0x167F), (0x1681, 0x1FFF), (0x2060, 0x2FFF), (0x200B, 0x200D),
   (0x2030, 0x205E), (0x21, 0x84)]

/-- Whether each of the ranges lies **within** one of the bounds. -/
def rangesWithin (ranges bounds : List (Nat × Nat)) : Bool :=
  ranges.all fun r => bounds.any fun b => b.1 ≤ r.1 && r.2 ≤ b.2

theorem inRanges_of_rangesWithin {ranges bounds : List (Nat × Nat)}
    (hwithin : rangesWithin ranges bounds = true) {n : Nat} (h : inRanges ranges n = true) :
    inRanges bounds n = true := by
  rw [inRanges, List.any_eq_true] at h ⊢
  obtain ⟨r, hr, hn⟩ := h
  obtain ⟨b, hb, hrb⟩ := List.any_eq_true.1 (List.all_eq_true.1 hwithin r hr)
  simp only [Bool.and_eq_true, decide_eq_true_eq] at hn hrb ⊢
  exact ⟨b, hb, Nat.le_trans hrb.1 hn.1, Nat.le_trans hn.2 hrb.2⟩

/-- The tables of identifier characters lie within them. Only the ends of the ranges are compared,
no code is looked up. -/
theorem rangesWithin_gaplessRanges : ∀ ranges ∈
    [identifierStartRanges, laterStartRanges, identifierPartRanges, laterPartRanges],
      rangesWithin ranges gaplessRanges = true := by
  decide +kernel

/-- The code of what may stand in an identifier is in one of them. -/
theorem inRanges_of_isIdentifierPart {c : Char} (h : isIdentifierPart c = true) :
    inRanges gaplessRanges c.toNat = true := by
  have hascii : 0x21 ≤ c.toNat ∧ c.toNat ≤ 0x84 → inRanges gaplessRanges c.toNat = true := by
    intro hn
    exact List.any_eq_true.2 ⟨(0x21, 0x84), by simp [gaplessRanges], by simpa using hn⟩
  have htable : ∀ ranges ∈
      [identifierStartRanges, laterStartRanges, identifierPartRanges, laterPartRanges],
        inRanges ranges c.toNat = true → inRanges gaplessRanges c.toNat = true :=
    fun ranges hmem => inRanges_of_rangesWithin (rangesWithin_gaplessRanges ranges hmem)
  simp only [isIdentifierPart, isIdentifierStart, Bool.or_eq_true, Bool.and_eq_true] at h
  rcases h with (((h | h) | ⟨-, h | h⟩) | h) | ⟨-, h | h⟩
  · rw [beq_iff_eq.1 h]
    decide
  · have hcode := isAlpha_iff.1 h
    exact hascii (by omega)
  · exact htable _ (by simp) h
  · exact htable _ (by simp) h
  · have hcode := isDigit_iff.1 h
    exact hascii (by omega)
  · exact htable _ (by simp) h
  · exact htable _ (by simp) h

/-- The code of a gap is in none of them. -/
theorem inRanges_of_isGap {c : Char} (h : Lexeme.isGap c = true) :
    inRanges gaplessRanges c.toNat = false := by
  simp only [Lexeme.isGap, isBlank, Bool.or_eq_true, Bool.and_eq_true, decide_eq_true_eq,
    beq_iff_eq] at h
  rw [inRanges, List.any_eq_false]
  intro r hr
  rw [Bool.and_eq_true, decide_eq_true_eq, decide_eq_true_eq]
  rintro ⟨hlow, hhigh⟩
  simp only [gaplessRanges, List.mem_cons, List.not_mem_nil, or_false] at hr
  rcases hr with rfl | rfl | rfl | rfl | rfl | rfl | rfl <;> simp only at hlow hhigh <;> omega

/-- A gap is no part of an identifier. -/
theorem isIdentifierPart_of_isGap {c : Char} (h : Lexeme.isGap c = true) :
    isIdentifierPart c = false := by
  cases hpart : isIdentifierPart c with
  | false => rfl
  | true => exact (inRanges_of_isIdentifierPart hpart).symm.trans (inRanges_of_isGap h)

/-- A blank is no part of an identifier. -/
theorem isIdentifierPart_of_isBlank {c : Char} (h : isBlank c = true) :
    isIdentifierPart c = false :=
  isIdentifierPart_of_isGap (by simp [Lexeme.isGap, h])

/-- A word character is no blank. -/
theorem isBlank_of_isWordChar {c : Char} (h : isWordChar c = true) : isBlank c = false := by
  cases hb : isBlank c with
  | false => rfl
  | true =>
      rw [← isIdentifierPart_of_isBlank hb]
      exact (isIdentifierPart_of_isWordChar h).symm

/-- A digit is a word character. -/
theorem isWordChar_of_isDigit {c : Char} (h : c.isDigit = true) : isWordChar c = true := by
  simp [isWordChar, Char.isAlphanum, h]

namespace Text

/-- A **word** is an ASCII identifier: a letter or an underscore, and word characters behind
it. -/
def isWord : Text → Bool
  | [] => false
  | c :: s => (c.isAlpha || c == '_') && s.all isWordChar

/-- A word starts with a word character that starts identifiers, and goes on with word characters. -/
theorem exists_cons_of_isWord {w : Text} (h : w.isWord = true) :
    ∃ c s, w = c :: s ∧ isWordChar c = true ∧ isIdentifierStart c = true ∧
      ∀ d ∈ s, isWordChar d = true := by
  cases w with
  | nil => exact absurd h (by decide)
  | cons c s =>
      rw [isWord, Bool.and_eq_true, List.all_eq_true] at h
      obtain ⟨hc, hs⟩ := h
      refine ⟨c, s, rfl, ?_, ?_, hs⟩
      · simp only [isWordChar, Char.isAlphanum, Bool.or_eq_true] at hc ⊢
        tauto
      · simp only [isIdentifierStart, Bool.or_eq_true] at hc ⊢
        tauto

/-- A word has word characters only. -/
theorem isWordChar_of_mem {w : Text} (h : w.isWord = true) : ∀ c ∈ w, isWordChar c = true := by
  obtain ⟨c, s, rfl, hc, -, hs⟩ := exists_cons_of_isWord h
  intro d hd
  rcases List.mem_cons.1 hd with rfl | hd
  · exact hc
  · exact hs d hd

/-- A word is not empty. -/
theorem ne_nil_of_isWord {w : Text} (h : w.isWord = true) : w ≠ [] := by
  rintro rfl
  exact absurd h (by decide)

/-- A **name** is one identifier, raw or not. -/
def IsName (w : Text) : Prop :=
  w.isIdentifier = true ∨
    ∃ v : Text, v.isIdentifier = true ∧ v ∉ Lexeme.neverRaw ∧ w = 'r' :: '#' :: v

/-- An identifier starts like one and goes on like one. -/
theorem exists_cons_of_isIdentifier {w : Text} (h : w.isIdentifier = true) :
    ∃ c s, w = c :: s ∧ isIdentifierStart c = true ∧ ∀ d ∈ s, isIdentifierPart d = true := by
  cases w with
  | nil => exact absurd h (by decide)
  | cons c s =>
      rw [isIdentifier, Bool.and_eq_true, List.all_eq_true] at h
      exact ⟨c, s, rfl, h⟩

/-- All of it may stand in an identifier. -/
theorem isIdentifierPart_of_mem {w : Text} (h : w.isIdentifier = true) :
    ∀ c ∈ w, isIdentifierPart c = true := by
  obtain ⟨c, s, rfl, hstart, hs⟩ := exists_cons_of_isIdentifier h
  exact List.forall_mem_cons.mpr ⟨isIdentifierPart_of_start hstart, hs⟩

/-- A word is an identifier. -/
theorem isIdentifier_of_isWord {w : Text} (h : w.isWord = true) : w.isIdentifier = true := by
  obtain ⟨c, s, rfl, -, hstart, hs⟩ := exists_cons_of_isWord h
  rw [isIdentifier, hstart, Bool.true_and, List.all_eq_true]
  exact fun d hd => isIdentifierPart_of_isWordChar (hs d hd)

theorem isName_of_isWord {w : Text} (h : w.isWord = true) : w.IsName :=
  Or.inl (isIdentifier_of_isWord h)

/-- A text **breaks** what stands in front of it off: it does not go on like an identifier, a
numeral or a literal. -/
def Breaks (s : Text) : Prop :=
  ∀ c ∈ s.head?, isIdentifierPart c = false ∧ c ∉ ['#', '"', '\'', '.']

theorem breaks_nil : Breaks [] := by
  intro c hc
  simp at hc

/-- Whether a text breaks off depends on its first character. -/
theorem breaks_cons {c : Char} (h : isIdentifierPart c = false ∧ c ∉ ['#', '"', '\'', '.'])
    (s : Text) : Breaks (c :: s) := by
  intro d hd
  obtain rfl : c = d := by simpa using hd
  exact h

/-- A blank breaks off. -/
theorem breaks_of_isBlank {c : Char} (h : isBlank c = true) (s : Text) : Breaks (c :: s) := by
  refine breaks_cons ⟨isIdentifierPart_of_isBlank h, fun hmem => ?_⟩ s
  simp only [List.mem_cons, List.not_mem_nil, or_false] at hmem
  rcases hmem with rfl | rfl | rfl | rfl <;> exact absurd h (by decide)

/-- So do blanks in front of something that breaks off. -/
theorem breaks_append {g s : Text} (hg : ∀ c ∈ g, isBlank c = true) (h : g = [] → s.Breaks) :
    Breaks (g ++ s) := by
  cases g with
  | nil => exact h rfl
  | cons c g => exact breaks_of_isBlank (hg c (by simp)) (g ++ s)

/-- No part of an identifier can be taken off a text that breaks off. -/
theorem Breaks.dropWhile {s : Text} (hs : s.Breaks) {p : Char → Bool}
    (hp : ∀ c, p c = true → isIdentifierPart c = true) : s.dropWhile p = s := by
  cases s with
  | nil => rfl
  | cons c s =>
      have hc : p c ≠ true := by
        intro h
        have hpart := hp c h
        rw [(hs c rfl).1] at hpart
        exact absurd hpart (by decide)
      rw [List.dropWhile_cons, if_neg hc]

theorem Breaks.takeWhile {s : Text} (hs : s.Breaks) {p : Char → Bool}
    (hp : ∀ c, p c = true → isIdentifierPart c = true) : s.takeWhile p = [] := by
  have h := List.takeWhile_append_dropWhile (p := p) (l := s)
  rw [hs.dropWhile hp] at h
  exact List.append_left_eq_self.1 h

end Text

namespace Lexeme

/-! ### One lexeme after the other -/

theorem scan_nil : scan [] = some [] := by
  rw [scan.eq_def]

/-- The lexemes of a text are those at its first place and those of the rest. -/
theorem scan_cons {c : Char} {s rest : Text} {ls : List Lexeme}
    (h : read c s = some (ls, rest)) : scan (c :: s) = (scan rest).map (ls ++ ·) := by
  rw [scan.eq_def]
  dsimp only
  split
  · next hnone =>
      rw [h] at hnone
      exact absurd hnone (by simp)
  · next ls' rest' hsome =>
      rw [h] at hsome
      obtain ⟨rfl, rfl⟩ := Prod.mk.inj (Option.some.inj hsome)
      rfl

/-- Blanks have no lexemes. -/
theorem scan_blanks {g : Text} (hg : ∀ c ∈ g, isBlank c = true) (s : Text) :
    scan (g ++ s) = scan s := by
  induction g with
  | nil => rfl
  | cons c g ih =>
      have hread : read c (g ++ s) = some ([], g ++ s) := by
        rw [read, if_pos (by simp [isGap, hg c (by simp)])]
      rw [List.cons_append, scan_cons hread, ih fun d hd => hg d (by simp [hd])]
      simp

/-! ### Words -/

/-- A text is **quiet** if it does not start like the inside of a literal. -/
def Quiet (s : Text) : Prop :=
  ∀ c ∈ s.head?, c ≠ '#' ∧ c ≠ '"' ∧ c ≠ '\''

/-- What breaks off is quiet. -/
theorem quiet_of_breaks {s : Text} (hs : s.Breaks) : Quiet s := by
  intro c hc
  have hmem := (hs c hc).2
  simp only [List.mem_cons, List.not_mem_nil, or_false, not_or] at hmem
  exact ⟨hmem.1, hmem.2.1, hmem.2.2.1⟩

/-- A part of an identifier in front of a quiet text is quiet. -/
theorem quiet_append {w s : Text} (hw : ∀ c ∈ w, isIdentifierPart c = true) (hs : Quiet s) :
    Quiet (w ++ s) := by
  cases w with
  | nil => exact hs
  | cons c w =>
      intro d hd
      obtain rfl : c = d := by simpa using hd
      have hc := hw c (by simp)
      have hne : ∀ e, isIdentifierPart e = false → c ≠ e := fun e he => Text.ne_of_class hc he
      exact ⟨hne _ (by decide), hne _ (by decide), hne _ (by decide)⟩

/-- A quiet text is not the rest of a raw literal. -/
theorem raw_of_quiet {s : Text} (hs : Quiet s) (k : Quoted) : k.raw s = none := by
  cases s with
  | nil => rfl
  | cons c s =>
      obtain ⟨hhash, hquote, -⟩ := hs c rfl
      rw [Quoted.raw, List.dropWhile_cons, if_neg (by simpa using hhash)]
      split
      · next heq => exact absurd (List.cons.inj heq).1 hquote
      · rfl

/-- There is no literal at an identifier if what follows its first character is quiet, also behind
an `r`. -/
theorem literal_of_quiet {c : Char} {s : Text} (hc : isIdentifierPart c = true) (hs : Quiet s)
    (hr : ∀ t, s = 'r' :: t → Quiet t) : literal (c :: s) = none := by
  have hhead : ∀ d t, s = d :: t → d ≠ '#' ∧ d ≠ '"' ∧ d ≠ '\'' := by
    rintro d t rfl
    exact hs d rfl
  rw [literal.eq_def, Option.map_eq_none_iff]
  split
  · next heq => exact absurd (List.cons.inj heq).1 (Text.ne_of_class hc (by decide))
  · next heq =>
      obtain ⟨-, rfl⟩ := List.cons.inj heq
      exact raw_of_quiet hs _
  · next heq => exact absurd rfl (hhead _ _ (List.cons.inj heq).2).2.1
  · next heq => exact raw_of_quiet (hr _ (List.cons.inj heq).2) _
  · next heq => exact absurd rfl (hhead _ _ (List.cons.inj heq).2).2.2
  · next heq => exact absurd rfl (hhead _ _ (List.cons.inj heq).2).2.1
  · next heq => exact raw_of_quiet (hr _ (List.cons.inj heq).2) _
  · next heq => exact absurd (List.cons.inj heq).1 (Text.ne_of_class hc (by decide))
  · rfl

/-- Nor does it look as if there were one. -/
theorem startsLiteral_of_quiet {c : Char} {s : Text} (hs : Quiet s)
    (hr : ∀ t, s = 'r' :: t → Quiet t) : startsLiteral (c :: s) = false := by
  cases s with
  | nil => simp [startsLiteral, literalStarts, List.isPrefixOf]
  | cons d s =>
      obtain ⟨hhash, hquote, htick⟩ := hs d rfl
      cases s with
      | nil =>
          simp [startsLiteral, literalStarts, List.isPrefixOf, hquote.symm, htick.symm]
      | cons e s =>
          have he : 'r' = d → '#' ≠ e ∧ '"' ≠ e := by
            rintro rfl
            exact ⟨(hr _ rfl e rfl).1.symm, (hr _ rfl e rfl).2.1.symm⟩
          simp [startsLiteral, literalStarts, List.isPrefixOf, hhash.symm, hquote.symm, htick.symm]
          tauto

/-- What may stand in an identifier is no gap. -/
theorem isGap_of_isIdentifierPart {c : Char} (hc : isIdentifierPart c = true) : isGap c = false := by
  cases hgap : isGap c with
  | false => rfl
  | true => exact hc.symm.trans (isIdentifierPart_of_isGap hgap)

/-- Where an identifier may go on there is no gap, no slash and no delimiter. -/
theorem read_of_isIdentifierPart {c : Char} {s : Text} (hc : isIdentifierPart c = true) :
    read c s = if c.isDigit then
      (Numeral.read (c :: s)).map fun rest =>
        ([.leaf (ofNumeral (Text.upTo (c :: s) rest))], rest)
    else readOther c s := by
  have hne : ∀ d, isIdentifierPart d = false → c ≠ d := fun d hd => Text.ne_of_class hc hd
  rw [read, isGap_of_isIdentifierPart hc, if_neg (by decide), if_neg (hne _ (by decide)),
    if_neg (hne _ (by decide)), if_neg (hne _ (by decide)), if_neg (hne _ (by decide)),
    if_neg (hne _ (by decide))]

/-- What may stand in an identifier is no mark. -/
theorem isMark_of_isIdentifierPart {c : Char} (hc : isIdentifierPart c = true) :
    isMark c = false := by
  have hall : ("~!@#$%^&*-=+|:,<.>?" : Text).all (fun d => !isIdentifierPart d) = true := by decide
  cases hmark : isMark c with
  | false => rfl
  | true =>
      rw [isMark, decide_eq_true_eq] at hmark
      have hnot := List.all_eq_true.1 hall c hmark
      rw [hc] at hnot
      exact absurd hnot (by decide)

/-- An identifier does not start with a digit. -/
theorem isDigit_of_isIdentifierStart {c : Char} (hc : isIdentifierStart c = true) :
    c.isDigit = false := by
  cases hdigit : c.isDigit with
  | false => rfl
  | true =>
      rw [isDigit_iff] at hdigit
      simp only [isIdentifierStart, Bool.or_eq_true, Bool.and_eq_true, beq_iff_eq,
        decide_eq_true_eq, isAlpha_iff] at hc
      rcases hc with (rfl | hc) | ⟨hc, -⟩
      · exact absurd hdigit (by decide)
      · omega
      · omega

/-! ### Identifiers -/

/-- **An identifier** is read to its end. -/
theorem plainWord_append {w s : Text} (hw : w.isIdentifier = true) (hs : s.Breaks) :
    plainWord (w ++ s) = some (w, s) := by
  obtain ⟨c, t, rfl, hstart, ht⟩ := Text.exists_cons_of_isIdentifier hw
  rw [List.cons_append, plainWord, if_pos hstart, List.takeWhile_append_of_pos ht,
    List.dropWhile_append_of_pos ht, hs.takeWhile fun _ h => h, hs.dropWhile fun _ h => h,
    List.append_nil]

/-- What is read as an identifier is one. -/
theorem isIdentifier_of_plainWord {s w rest : Text} (h : plainWord s = some (w, rest)) :
    w.isIdentifier = true := by
  cases s with
  | nil => simp [plainWord] at h
  | cons c s =>
      simp only [plainWord, Option.ite_none_right_eq_some, Option.some.injEq, Prod.mk.injEq] at h
      obtain ⟨hstart, rfl, -⟩ := h
      rw [Text.isIdentifier, hstart, Bool.true_and, List.all_eq_true]
      exact fun d hd => List.mem_takeWhile_imp hd

/-- **What is read as an identifier**, raw or not, is a name. -/
theorem isName_of_word {s w rest : Text} (h : word s = some (w, rest)) : w.IsName := by
  unfold word at h
  split at h
  · split at h
    · next v rest' hplain =>
        simp only [Option.ite_none_left_eq_some, Option.some.injEq, Prod.mk.injEq] at h
        obtain ⟨hraw, rfl, -⟩ := h
        exact Or.inr ⟨v, isIdentifier_of_plainWord hplain, hraw, rfl⟩
    · simp at h
  · exact Or.inl (isIdentifier_of_plainWord h)

/-- Where an identifier starts that is no literal and does not look like one, it is read. -/
theorem scan_of_word {c : Char} {s w rest : Text} (hc : isIdentifierStart c = true)
    (hliteral : literal (c :: s) = none) (hstarts : startsLiteral (c :: s) = false)
    (hword : word (c :: s) = some (w, rest)) :
    scan (c :: s) = (scan rest).map (.leaf (.word w) :: ·) := by
  have hpart := isIdentifierPart_of_start hc
  have hread : read c s = some ([.leaf (.word w)], rest) := by
    rw [read_of_isIdentifierPart hpart, isDigit_of_isIdentifierStart hc, if_neg (by decide),
      readOther, hliteral]
    dsimp only
    rw [if_neg (Text.ne_of_class hpart (by decide)), isMark_of_isIdentifierPart hpart, hstarts,
      hword]
    rfl
  rw [scan_cons hread]
  rfl

/-- An identifier in front of a text that breaks it off is one lexeme. -/
theorem scan_identifier {w s : Text} (hw : w.isIdentifier = true) (hs : s.Breaks) :
    scan (w ++ s) = (scan s).map (.leaf (.word w) :: ·) := by
  have hplain := plainWord_append hw hs
  obtain ⟨c, t, rfl, hstart, ht⟩ := Text.exists_cons_of_isIdentifier hw
  have hquiet : Quiet (t ++ s) := quiet_append ht (quiet_of_breaks hs)
  have hraw : ∀ u, t ++ s = 'r' :: u → Quiet u := by
    intro u hu
    cases t with
    | nil =>
        rw [List.nil_append] at hu
        subst hu
        exact absurd (hs 'r' rfl).1 (by decide)
    | cons d t =>
        obtain ⟨-, rfl⟩ := List.cons.inj hu
        exact quiet_append (fun e he => ht e (by simp [he])) (quiet_of_breaks hs)
  have hword : word (c :: (t ++ s)) = some (c :: t, s) := by
    rw [word]
    · exact hplain
    · intro u heq
      exact (hquiet '#' (by rw [(List.cons.inj heq).2]; rfl)).1 rfl
  exact scan_of_word hstart (literal_of_quiet (isIdentifierPart_of_start hstart) hquiet hraw)
    (startsLiteral_of_quiet hquiet hraw) hword

/-- So is a raw one: behind its hash there is no quote, so that it is no raw literal. -/
theorem scan_rawIdentifier {v s : Text} (hv : v.isIdentifier = true) (hraw : v ∉ neverRaw)
    (hs : s.Breaks) :
    scan ('r' :: '#' :: (v ++ s)) = (scan s).map (.leaf (.word ('r' :: '#' :: v)) :: ·) := by
  have hplain := plainWord_append hv hs
  obtain ⟨c, t, rfl, hstart, -⟩ := Text.exists_cons_of_isIdentifier hv
  have hpart := isIdentifierPart_of_start hstart
  have hhash : c ≠ '#' := Text.ne_of_class hpart (by decide)
  have hquote : c ≠ '"' := Text.ne_of_class hpart (by decide)
  have hliteral : literal ('r' :: '#' :: (c :: t ++ s)) = none := by
    rw [literal, Option.map_eq_none_iff, Quoted.raw]
    simp [hhash, hquote]
  have hstarts : startsLiteral ('r' :: '#' :: (c :: t ++ s)) = false := by
    simp [startsLiteral, literalStarts, List.isPrefixOf, hhash.symm, hquote.symm]
  refine scan_of_word (by decide) hliteral hstarts ?_
  rw [word, hplain]
  dsimp only
  rw [if_neg hraw]

/-- **A name** in front of a text that breaks it off is one lexeme. -/
theorem scan_name {w s : Text} (hw : w.IsName) (hs : s.Breaks) :
    scan (w ++ s) = (scan s).map (.leaf (.word w) :: ·) := by
  rcases hw with hw | ⟨v, hv, hraw, rfl⟩
  · exact scan_identifier hw hs
  · exact scan_rawIdentifier hv hraw hs

end Lexeme

/-! ### Numerals -/

/-- The value of a decimal digit. -/
theorem hexValue_of_isDigit {c : Char} (h : c.isDigit = true) :
    hexValue c = some (c.toNat - 48) ∧ c.toNat - 48 < 10 := by
  refine ⟨by rw [hexValue, if_pos h], ?_⟩
  rw [isDigit_iff] at h
  omega

/-- What is no part of an identifier is no digit in any base. -/
theorem hexValue_of_not_isIdentifierPart {c : Char} (h : isIdentifierPart c = false) :
    hexValue c = none := by
  simp only [isIdentifierPart, isIdentifierStart, Bool.or_eq_false_iff] at h
  obtain ⟨⟨⟨⟨-, halpha⟩, -⟩, hdigit⟩, -⟩ := h
  have hletter := mt isAlpha_iff.2 (Bool.not_eq_true _ ▸ halpha)
  rw [hexValue, hdigit, if_neg (by decide), if_neg, if_neg]
  · rintro ⟨hle, hge⟩
    exact hletter (Or.inl ⟨hle, Nat.le_trans hge (by decide)⟩)
  · rintro ⟨hle, hge⟩
    exact hletter (Or.inr ⟨hle, Nat.le_trans hge (by decide)⟩)

namespace Numeral

variable {ds s : Text}

/-- Digits announce no base. -/
theorem announcedBase_digits (hds : ∀ c ∈ ds, c.isDigit = true) (hs : s.Breaks) :
    announcedBase (ds ++ s) = (10, ds ++ s) := by
  have hnot : ∀ b t, isIdentifierPart b = true → b.isDigit = false → ds ++ s ≠ '0' :: b :: t := by
    intro b t hpart hdigit heq
    match ds with
    | [] =>
        subst heq
        exact absurd (hs '0' rfl).1 (by decide)
    | [c] =>
        obtain rfl := (List.cons.inj heq).2
        rw [(hs b rfl).1] at hpart
        exact absurd hpart (by decide)
    | c :: d :: ds =>
        obtain rfl := (List.cons.inj (List.cons.inj heq).2).1
        rw [hds d (by simp)] at hdigit
        exact absurd hdigit (by decide)
  rw [announcedBase.eq_def]
  split
  · next heq => exact absurd heq (hnot _ _ (by decide) (by decide))
  · next heq => exact absurd heq (hnot _ _ (by decide) (by decide))
  · next heq => exact absurd heq (hnot _ _ (by decide) (by decide))
  · rfl

/-- Digits are read up to what breaks them off. -/
theorem digits_append (hds : ∀ c ∈ ds, c.isDigit = true) (hs : s.Breaks) {hasDigit : Bool}
    (h : hasDigit = true ∨ ds ≠ []) : digits 10 hasDigit (ds ++ s) = some s := by
  induction ds generalizing hasDigit with
  | nil =>
      obtain rfl : hasDigit = true := by simpa using h
      cases s with
      | nil => rfl
      | cons c s =>
          have hc := (hs c rfl).1
          have hne : c ≠ '_' := by
            rintro rfl
            exact absurd hc (by decide)
          rw [List.nil_append, digits, if_neg hne, hexValue_of_not_isIdentifierPart hc]
          rfl
  | cons c ds ih =>
      have hc := hds c (by simp)
      obtain ⟨hvalue, hlt⟩ := hexValue_of_isDigit hc
      rw [List.cons_append, digits, if_neg (Text.ne_of_class hc (by decide)), hvalue]
      dsimp only
      rw [if_pos hlt]
      exact ih (fun d hd => hds d (by simp [hd])) (Or.inl rfl)

/-- **Digits are a numeral**, and it ends where they are broken off. -/
theorem read_digits (hne : ds ≠ []) (hds : ∀ c ∈ ds, c.isDigit = true) (hs : s.Breaks) :
    read (ds ++ s) = some s := by
  have hgap : ∀ c, isDigitOrGap c = true → isIdentifierPart c = true := by
    intro c hc
    rw [isDigitOrGap, Bool.or_eq_true, decide_eq_true_eq] at hc
    rcases hc with hc | rfl
    · exact isIdentifierPart_of_isWordChar (isWordChar_of_isDigit hc)
    · decide
  have hfloat : floatingDigits (ds ++ s) = none := by
    have hdigits : ∀ c ∈ ds, isDigitOrGap c = true := fun c hc => by
      rw [isDigitOrGap, hds c hc, Bool.true_or]
    rw [floatingDigits.eq_def, List.dropWhile_append_of_pos hdigits, hs.dropWhile hgap]
    split
    · exact absurd (hs '.' rfl).2 (by decide)
    · next e t hpoint =>
        rw [if_neg]
        rw [isExponentMark, Bool.or_eq_true, decide_eq_true_eq, decide_eq_true_eq]
        rintro (rfl | rfl)
        · exact absurd (hs 'e' rfl).1 (by decide)
        · exact absurd (hs 'E' rfl).1 (by decide)
    · rfl
  have hfinish : finish s = some s := by
    cases s with
    | nil => rfl
    | cons c s =>
        have hpart := (hs c rfl).1
        have hstart : isIdentifierStart c ≠ true := fun h => by
          rw [isIdentifierPart_of_start h] at hpart
          exact absurd hpart (by decide)
        rw [finish, dropSuffix, if_neg hstart]
        dsimp only
        rw [hpart]
        rfl
  rw [read, hfloat, integerDigits, announcedBase_digits hds hs, digits_append hds hs (Or.inr hne),
    Option.bind_none, Option.none_or, Option.bind_some, hfinish]

/-- A digit behind other digits, if there are any, adds to their value. -/
theorem valueFrom_cons {c : Char} (hc : c.isDigit = true) (value? : Option Nat) :
    valueFrom 10 value? (c :: s) = valueFrom 10 (some (10 * value?.getD 0 + (c.toNat - 48))) s := by
  obtain ⟨hvalue, hlt⟩ := hexValue_of_isDigit hc
  rw [valueFrom, if_neg (Text.ne_of_class hc (by decide)), hvalue]
  dsimp only
  rw [if_pos hc, if_pos hlt]

/-- The value of digits behind other digits. -/
theorem valueFrom_digits (hds : ∀ c ∈ ds, c.isDigit = true) (n : Nat) :
    valueFrom 10 (some n) ds = some (Nat.ofDigitChars 10 ds n) := by
  induction ds generalizing n with
  | nil => rfl
  | cons c ds ih =>
      rw [valueFrom_cons (hds c (by simp)), ih fun d hd => hds d (by simp [hd]),
        Nat.ofDigitChars_cons]
      rfl

end Numeral

namespace Text

/-- A decimal number has digits. -/
theorem isDigit_of_mem_decimal {n : Nat} {c : Char} (h : c ∈ decimal n) : c.isDigit = true :=
  Nat.isDigit_of_mem_toDigits (by decide) (by decide) h

theorem decimal_ne_nil (n : Nat) : decimal n ≠ [] :=
  Nat.toDigits_ne_nil

end Text

/-- **A decimal number has its value.** -/
theorem Numeral.value?_decimal (n : Nat) : value? (Text.decimal n) = some n := by
  have hbase := announcedBase_digits (fun c => Text.isDigit_of_mem_decimal (n := n)) Text.breaks_nil
  rw [List.append_nil] at hbase
  obtain ⟨c, ds, hn⟩ := List.exists_cons_of_ne_nil (Text.decimal_ne_nil n)
  have hds : ∀ d ∈ c :: ds, d.isDigit = true := fun d hd => Text.isDigit_of_mem_decimal (hn ▸ hd)
  have hvalue : Nat.ofDigitChars 10 (c :: ds) 0 = n := by
    rw [← hn]
    exact Nat.ofDigitChars_ten_toDigits
  rw [value?.eq_def, hbase, hn]
  dsimp only
  rw [if_pos (hds c (by simp)), valueFrom_cons (hds c (by simp)),
    valueFrom_digits fun d hd => hds d (by simp [hd]), ← hvalue, Nat.ofDigitChars_cons]
  rfl

namespace Lexeme

/-! ### Numerals and marks -/

/-- **A numeral** of digits in front of a text that breaks it off is one lexeme. -/
theorem scan_digits {ds s : Text} (hne : ds ≠ []) (hds : ∀ c ∈ ds, c.isDigit = true)
    (hs : s.Breaks) : scan (ds ++ s) = (scan s).map (.leaf (ofNumeral ds) :: ·) := by
  obtain ⟨c, t, rfl⟩ := List.exists_cons_of_ne_nil hne
  have hdigit := hds c (by simp)
  have hread : read c (t ++ s) = some ([.leaf (ofNumeral (c :: t))], s) := by
    rw [read_of_isIdentifierPart (isIdentifierPart_of_isWordChar (isWordChar_of_isDigit hdigit)),
      if_pos hdigit, ← List.cons_append,
      Numeral.read_digits hne hds hs, Option.map_some, Text.upTo_append]
  rw [List.cons_append, scan_cons hread]
  rfl

/-- A decimal number is an integer. -/
theorem scan_decimal (n : Nat) {s : Text} (hs : s.Breaks) :
    scan (Text.decimal n ++ s) = (scan s).map (.leaf (.integer n) :: ·) := by
  rw [scan_digits (Text.decimal_ne_nil n) (fun c => Text.isDigit_of_mem_decimal) hs, ofNumeral,
    Numeral.value?_decimal]

/-- A colon is a mark. -/
theorem scan_colon (s : Text) : scan (':' :: s) = (scan s).map (.leaf (.mark ':') :: ·) := by
  have hread : read ':' s = some ([.leaf (.mark ':')], s) := by
    rfl
  rw [scan_cons hread]
  rfl

/-- Brackets around digits are the two ends of a group. -/
theorem scan_brackets {ds : Text} (hne : ds ≠ []) (hds : ∀ c ∈ ds, c.isDigit = true) :
    scan ('[' :: (ds ++ [']'])) =
      some [.opening .bracket, .leaf (ofNumeral ds), .closing .bracket] := by
  have hopen : ∀ t, read '[' t = some ([.opening .bracket], t) := fun t => by
    rfl
  have hclose : read ']' [] = some ([.closing .bracket], []) := by
    rfl
  have hbreaks : Text.Breaks [']'] := Text.breaks_cons (by decide) []
  rw [scan_cons (hopen _), scan_digits hne hds hbreaks, scan_cons hclose, scan_nil]
  rfl

end Lexeme

end StructEndian
