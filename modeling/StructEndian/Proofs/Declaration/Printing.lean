import Mathlib.Data.List.Basic
import Mathlib.Tactic.MkIffOfInductiveProp
import StructEndian.Proofs.Declaration.Grammar
import StructEndian.Proofs.Declaration.TypeWords

/-!
# Printed declarations

A member is printed as its storage type, its name, and behind that an element count in
brackets or a colon and a width. What the printing leaves open, blanks and the number of
elements, is a part of the declaration. Reading such a piece goes through the lexer, the
reader of declarators and the slots, and the member comes back unchanged.

## Main definitions

* `Declaration`: a member and how it is laid out.
* `Declaration.text`: the declaration as it is printed, without its semicolon.
* `Declaration.IsPrintable`: the members that can be printed, and their layouts.

## Main results

* `Declaration.lex_text`: the tokens of a printed declaration.
* `Declaration.readPiece_text`: a printed declaration is read back.
-/

namespace StructEndian

/-- Blanks that stay on one line are **inline**. -/
def Text.isInline (s : Text) : Bool :=
  s.all fun c => isBlank c && c ≠ '\n'

/-- Inline blanks are blanks, and none of them is a line feed. -/
theorem Text.isInline_iff {s : Text} :
    s.isInline = true ↔ ∀ c ∈ s, isBlank c = true ∧ c ≠ '\n' := by
  rw [isInline, List.all_eq_true]
  simp

theorem Text.isBlank_of_isInline {s : Text} (h : s.isInline = true) :
    ∀ c ∈ s, isBlank c = true := fun c hc => (isInline_iff.1 h c hc).1

/-- A **declaration**: a member, and what its printing leaves open. -/
structure Declaration where
  /-- The declared member. -/
  member : Member
  /-- The blanks between the type and the name. -/
  gap : Text
  /-- The number of elements in brackets, for an array. -/
  count : Text
  /-- The blanks in front of the colon, for a bit-field. -/
  before : Text
  /-- The blanks behind the colon, for a bit-field. -/
  after : Text
  /-- The blanks and line ends behind the semicolon. -/
  behind : Text
deriving DecidableEq, Repr

namespace Declaration

/-- What is printed behind the name. -/
def suffixText (d : Declaration) : Text :=
  if d.member.isArray then '[' :: (d.count ++ [']'])
  else if d.member.isBitField then d.before ++ ':' :: (d.after ++ Text.decimal d.member.bits)
  else []

/-- The **text** of a declaration, without its semicolon. -/
def text (d : Declaration) : Text :=
  d.member.storageType ++ (d.gap ++ (d.member.name ++ d.suffixText))

/-- A declaration is **printable** if its name is a word, its base type is readable, its width
is in range and not that of an array, and its layout has blanks and digits where they
belong. -/
@[mk_iff]
structure IsPrintable (d : Declaration) : Prop where
  /-- The name is a word. -/
  name : d.member.name.isWord = true
  /-- The base type is read back from its name. -/
  base : d.member.base.IsReadable
  /-- The width is in range. -/
  bits : d.member.bits ≤ maxWidth
  /-- An array is no bit-field. -/
  kind : d.member.isArray = true → d.member.isBitField = false
  /-- There is a gap between the type and the name. -/
  gap_ne_nil : d.gap ≠ []
  /-- The gap is inline. -/
  gap : d.gap.isInline = true
  /-- There is an element count. -/
  count_ne_nil : d.count ≠ []
  /-- The element count has digits only. -/
  count : d.count.all Char.isDigit = true
  /-- What is in front of the colon is inline. -/
  before : d.before.isInline = true
  /-- What is behind the colon is inline. -/
  after : d.after.isInline = true
  /-- What is behind the semicolon is blank. -/
  behind : d.behind.all isBlank = true

instance (d : Declaration) : Decidable d.IsPrintable :=
  decidable_of_iff' _ d.isPrintable_iff

/-- What is behind the name, as the reader of declarators sees it. -/
def suffix (d : Declaration) : Suffix :=
  if d.member.isArray then .brackets 0
  else if d.member.isBitField then .colon d.member.bits
  else .nothing

/-- The words of a declaration: those of its type, and its name. -/
def words (d : Declaration) : List Text :=
  d.member.typeWords ++ [d.member.name]

end Declaration

/-! ### Tokens -/

/-- Tokens that are no groups stay as they are. -/
theorem Token.fold_append_leaf (ts : List Token) (ls : List Lexeme) :
    fold [] (ts.map .leaf ++ ls) = (fold [] ls).map (ts ++ ·) := by
  induction ts with
  | nil => simp
  | cons t ts ih =>
      rw [List.map_cons, List.cons_append, fold, ih, Option.map_map]
      rfl

/-- Names with blanks between them are one lexeme each. -/
theorem Lexeme.scan_join {ws : List Text} (hne : ws ≠ []) (hws : ∀ w ∈ ws, w.IsName)
    {s : Text} (hs : s.Breaks) :
    scan (Text.join " " ws ++ s) = (scan s).map (ws.map (.leaf ∘ .word) ++ ·) := by
  fun_induction Text.join " " ws with
  | case1 => exact absurd rfl hne
  | case2 w =>
      rw [scan_name (hws w (by simp)) hs]
      rfl
  | case3 w ws hnil ih =>
      have hblanks : ∀ c ∈ (" " : Text), isBlank c = true := List.all_eq_true.1 (by decide)
      have hbreaks : Text.Breaks (" " ++ (Text.join " " ws ++ s)) :=
        Text.breaks_append hblanks fun hnil => absurd hnil (by decide)
      have hws' : ∀ v ∈ ws, v.IsName := fun v hv => hws v (List.mem_cons_of_mem _ hv)
      rw [List.append_assoc, List.append_assoc, scan_name (hws w (by simp)) hbreaks,
        scan_blanks hblanks, ih hnil hws', Option.map_map]
      rfl

namespace Declaration

variable {d : Declaration}

/-- What is behind the name breaks it off. -/
theorem breaks_suffixText (hd : d.IsPrintable) : d.suffixText.Breaks := by
  rw [suffixText]
  split
  · exact Text.breaks_cons (by decide) _
  · split
    · exact Text.breaks_append (Text.isBlank_of_isInline hd.before) fun _ =>
        Text.breaks_cons (by decide) _
    · exact Text.breaks_nil

/-- The lexemes of what is behind the name. -/
theorem scan_suffixText (hd : d.IsPrintable) :
    ∃ ls, Lexeme.scan d.suffixText = some ls ∧ Token.fold [] ls = some d.suffix.tokens := by
  rw [suffixText, suffix]
  split
  · exact ⟨_, Lexeme.scan_brackets hd.count_ne_nil (List.all_eq_true.1 hd.count), rfl⟩
  · split
    · have hwidth := Lexeme.scan_decimal d.member.bits Text.breaks_nil
      rw [List.append_nil] at hwidth
      refine ⟨[.leaf (.mark ':'), .leaf (.integer d.member.bits)], ?_, rfl⟩
      rw [Lexeme.scan_blanks (Text.isBlank_of_isInline hd.before), Lexeme.scan_colon,
        Lexeme.scan_blanks (Text.isBlank_of_isInline hd.after), hwidth, Lexeme.scan_nil]
      rfl
    · exact ⟨[], Lexeme.scan_nil, rfl⟩

/-- A declaration starts with a word character. -/
theorem exists_cons_text (hd : d.IsPrintable) :
    ∃ c s, d.text = c :: s ∧ isWordChar c = true := by
  obtain ⟨w, ws, hwords⟩ := List.exists_cons_of_ne_nil d.member.typeWords_ne_nil
  obtain ⟨c, t, rfl, hc, -⟩ := Text.exists_cons_of_isWord
    (Member.isWord_of_mem_typeWords hd.base w (by simp [hwords]))
  have hjoin : ∃ t', Text.join " " ((c :: t) :: ws) = c :: t' := by
    cases ws with
    | nil => exact ⟨t, rfl⟩
    | cons v vs => exact ⟨_, rfl⟩
  obtain ⟨t', ht'⟩ := hjoin
  rw [text, Member.storageType_eq_join, hwords, ht']
  exact ⟨c, _, rfl, hc⟩

/-- **The tokens of a printed declaration** are its words and its suffix. -/
theorem lex_text (hd : d.IsPrintable) :
    Token.lex d.text = some (d.words.map .word ++ d.suffix.tokens) := by
  obtain ⟨ls, hscan, hfold⟩ := scan_suffixText hd
  have hgap := Text.isBlank_of_isInline hd.gap
  have hbreaks : Text.Breaks (d.gap ++ (d.member.name ++ d.suffixText)) :=
    Text.breaks_append hgap fun hnil => absurd hnil hd.gap_ne_nil
  have htype : ∀ w ∈ d.member.typeWords, w.IsName := fun w hw =>
    Text.isName_of_isWord (Member.isWord_of_mem_typeWords hd.base w hw)
  have hlexemes : Lexeme.scan d.text = some ((d.words.map .word).map .leaf ++ ls) := by
    rw [text, Member.storageType_eq_join, Lexeme.scan_join d.member.typeWords_ne_nil htype hbreaks,
      Lexeme.scan_blanks hgap,
      Lexeme.scan_name (Text.isName_of_isWord hd.name) (breaks_suffixText hd), hscan]
    simp [words]
  have hmark : d.text.head? ≠ some '\uFEFF' := by
    obtain ⟨c, s, htext, hc⟩ := exists_cons_text hd
    have hne : c ≠ '\uFEFF' := Text.ne_of_class hc (by decide)
    rw [htext]
    exact fun h => hne (Option.some.inj h)
  rw [Token.lex, if_neg hmark, hlexemes, Option.bind_some, Token.ofLexemes?,
    Token.fold_append_leaf, hfold]
  rfl

/-! ### Declarators and slots -/

/-- The declarator of a printed declaration. -/
def declarator (d : Declaration) : Declarator :=
  { words := d.words, dimensions := d.suffix.dimensions, width := d.suffix.width }

/-- Its words and its suffix are read as they are. -/
theorem read_tokens (hd : d.IsPrintable) :
    Declarator.read (d.words.map .word ++ d.suffix.tokens) = .ok d.declarator := by
  have hwidth : ∀ n ∈ d.suffix.width, n ≤ maxWidth := by
    intro n hn
    rw [suffix] at hn
    split at hn
    · simp [Suffix.width] at hn
    · split at hn
      · obtain rfl := Option.some.inj hn
        exact hd.bits
      · simp [Suffix.width] at hn
  rw [Declarator.read, Declarator.readFrom_words_append rfl]
  exact Declarator.readFrom_suffix (by simp [words]) hwidth

/-- The width that is printed is the member's. -/
theorem getD_width_suffix (hd : d.IsPrintable) : d.suffix.width.getD 0 = d.member.bits := by
  have hzero : d.member.isBitField = false → d.member.bits = 0 := by
    intro h
    rw [Member.isBitField, decide_eq_false_iff_not] at h
    omega
  rw [suffix]
  split
  · next harray => exact (hzero (hd.kind harray)).symm
  · split
    · rfl
    · next hbit => exact (hzero (by simpa using hbit)).symm

/-- Dimensions are printed for an array. -/
theorem dimensions_suffix (d : Declaration) :
    decide (0 < d.suffix.dimensions) = d.member.isArray := by
  rw [suffix]
  split
  · next harray => exact harray.symm
  · next harray =>
      rw [Bool.not_eq_true] at harray
      split
      · exact harray.symm
      · exact harray.symm

/-- The member of a declaration as it is read: it is in no group, and comes from the text of
the declaration. -/
def declared (d : Declaration) : Member :=
  { d.member with group := 0, source := d.text }

/-- **A printed declaration is read back.** -/
theorem readPiece_text (hd : d.IsPrintable) : readPiece d.text = .member d.declared := by
  obtain ⟨s, hassign, hsign, hname, htype⟩ := Member.assign_typeWords hd.base
  rw [readPiece, lex_text hd]
  dsimp only
  rw [read_tokens hd]
  dsimp only
  rw [readDeclarator, declarator, words, hassign, Option.map_some]
  dsimp only
  rw [if_neg (by simp [htype, hname, hd.base.name_ne_nil,
      Text.ne_nil_of_isWord hd.name]), Slots.toMember, hsign, hname, htype,
    hd.base.ofName_name, getD_width_suffix hd, dimensions_suffix]
  rfl

end Declaration

end StructEndian
