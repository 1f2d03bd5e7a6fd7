import StructEndian.Text.Blank
import StructEndian.Token.Basic
import StructEndian.Token.Comment
import StructEndian.Token.Numeral

/-!
# Reading tokens

At every place of a declaration the first character decides what is read there: a gap, a
comment, a delimiter, a literal, an identifier or a punctuation mark. Where nothing can be
read the whole declaration has no tokens.

## Main definitions

* `Lexeme.plainWord`, `Lexeme.word`: identifiers, the latter also raw ones.
* `Lexeme.literal`: the literals that start with a letter or a quote.
* `Lexeme.read`: what is read at one place.
* `Lexeme.scan`: the lexemes of a text.
* `Token.lex`: the tokens of a text.

## Main results

* `Lexeme.read_suffix`: what is read at one place leaves a tail of the text behind its first
  character, so that scanning comes to an end.
-/

namespace StructEndian

namespace Lexeme

/-- A character that may stand **between tokens**: a blank or a mark of text direction. -/
def isGap (c : Char) : Bool :=
  isBlank c || c.toNat = 0x200E || c.toNat = 0x200F

/-! ### Identifiers -/

/-- An identifier at the front of a text, and what follows it. -/
def plainWord : Text → Option (Text × Text)
  | [] => none
  | c :: s =>
      if isIdentifierStart c then
        some (c :: s.takeWhile isIdentifierPart, s.dropWhile isIdentifierPart)
      else none

/-- The identifiers that have no raw form. -/
def neverRaw : List Text :=
  ["_", "self", "Self", "super", "crate"]

/-- An **identifier**, raw or not, at the front of a text. A raw identifier has `r#` in front
of it, which is part of the word. -/
def word : Text → Option (Text × Text)
  | 'r' :: '#' :: s =>
      match plainWord s with
      | some (w, rest) => if w ∈ neverRaw then none else some ('r' :: '#' :: w, rest)
      | none => none
  | s => plainWord s

/-- The starts of a text that announce a literal. Where one of them stands and there is no
literal, there is no identifier either. -/
def literalStarts : List Text :=
  ["r\"", "r#\"", "r##", "b\"", "b'", "br\"", "br#", "c\"", "cr\"", "cr#"]

/-- Whether a text starts like a literal. -/
def startsLiteral (s : Text) : Bool :=
  literalStarts.any fun t => t.isPrefixOf s

/-! ### Literals and marks -/

/-- The rest behind a quoted **literal** at the front of a text, its suffix included. -/
def literal (s : Text) : Option Text :=
  (match s with
    | '"' :: t => Quoted.characters.closeText t
    | 'r' :: t => Quoted.characters.raw t
    | 'b' :: '"' :: t => Quoted.bytes.closeText t
    | 'b' :: 'r' :: t => Quoted.bytes.raw t
    | 'b' :: '\'' :: t => Quoted.bytes.closeSingle t
    | 'c' :: '"' :: t => Quoted.terminated.closeText t
    | 'c' :: 'r' :: t => Quoted.terminated.raw t
    | '\'' :: t => Quoted.characters.closeSingle t
    | _ => none).map dropSuffix

/-- The **punctuation marks**, the quote and the slash aside. -/
def isMark (c : Char) : Bool :=
  c ∈ ("~!@#$%^&*-=+|:,<.>?" : Text)

/-- Whether a quote in front of the given text is a mark of its own: an identifier follows
which is not followed by another quote, nor, unless it is raw, by a hash. -/
def isLoneQuote (s : Text) : Bool :=
  match word s with
  | none => false
  | some (_, rest) =>
      match rest with
      | '\'' :: _ => false
      | '#' :: _ => ("r#" : Text).isPrefixOf s
      | _ => true

/-- The rest of the text that stands for a token which could not be read, behind its opening
parenthesis. It counts as a literal. -/
def unreadable : Text := "/*ERROR*/)"

/-! ### One place -/

/-- The lexemes that a comment stands for. Documentation is an attribute: a hash, for the
inner form an exclamation mark, and a group in brackets. -/
def ofComment : Comment → List Lexeme
  | .plain => []
  | .documentation false => [.leaf (.mark '#'), .opening .bracket, .closing .bracket]
  | .documentation true =>
      [.leaf (.mark '#'), .leaf (.mark '!'), .opening .bracket, .closing .bracket]

/-- What stands at a slash with the given text behind it: a comment, or the mark. -/
def readSlash (s : Text) : Option (List Lexeme × Text) :=
  match s with
  | '/' :: _ | '*' :: _ => (Comment.read s).map fun (k, rest) => (ofComment k, rest)
  | _ => some ([.leaf (.mark '/')], s)

/-- The token of a finished numeral. -/
def ofNumeral (numeral : Text) : Token :=
  match Numeral.value? numeral with
  | some n => .integer n
  | none => .literal

/-- What stands at a letter, a quote or a mark: a quoted literal, or else a quote or a mark
of its own, or else an identifier. -/
def readOther (c : Char) (s : Text) : Option (List Lexeme × Text) :=
  match literal (c :: s) with
  | some rest => some ([.leaf .literal], rest)
  | none =>
      if c = '\'' then if isLoneQuote s then some ([.leaf (.mark c)], s) else none
      else if isMark c then some ([.leaf (.mark c)], s)
      else if startsLiteral (c :: s) then none
      else (word (c :: s)).map fun (w, rest) => ([.leaf (.word w)], rest)

/-- **Read** what stands at a character with the given text behind it: the lexemes, of which
a gap has none, and the rest. -/
def read (c : Char) (s : Text) : Option (List Lexeme × Text) :=
  if isGap c then some ([], s)
  else if c = '/' then readSlash s
  else if c = '(' then
    if unreadable.isPrefixOf s then some ([.leaf .literal], s.drop unreadable.length)
    else some ([.opening .parenthesis], s)
  else if c = '[' then some ([.opening .bracket], s)
  else if c = ')' then some ([.closing .parenthesis], s)
  else if c = ']' then some ([.closing .bracket], s)
  else if c.isDigit then
    (Numeral.read (c :: s)).map fun rest =>
      ([.leaf (ofNumeral (Text.upTo (c :: s) rest))], rest)
  else readOther c s

/-! ### What is left -/

theorem word_suffix {c : Char} {s w rest : Text} (h : word (c :: s) = some (w, rest)) :
    rest <:+ s := by
  unfold word at h
  split at h
  · next t ht =>
      obtain ⟨_, rfl⟩ : c = 'r' ∧ s = '#' :: t := by simpa using ht
      split at h
      · next w' rest' hp =>
          split at h
          · simp at h
          · obtain ⟨_, rfl⟩ : 'r' :: '#' :: w' = w ∧ rest' = rest := by simpa using h
            cases t with
            | nil => simp [plainWord] at hp
            | cons d t =>
                simp only [plainWord] at hp
                split at hp
                · simp only [Option.some.injEq, Prod.mk.injEq] at hp
                  obtain ⟨_, rfl⟩ := hp
                  exact (List.dropWhile_suffix _).trans (List.suffix_append ['#', d] t)
                · simp at hp
      · simp at h
  · simp only [plainWord] at h
    split at h
    · simp only [Option.some.injEq, Prod.mk.injEq] at h
      obtain ⟨_, rfl⟩ := h
      exact List.dropWhile_suffix _
    · simp at h

theorem literal_suffix {c : Char} {s rest : Text} (h : literal (c :: s) = some rest) :
    rest <:+ s := by
  unfold literal at h
  obtain ⟨r, hr, rfl⟩ := Option.map_eq_some_iff.1 h
  refine (dropSuffix_suffix r).trans ?_
  split at hr
  · next t ht =>
      obtain ⟨-, rfl⟩ := List.cons.inj ht
      exact Quoted.closeText_suffix hr
  · next t ht =>
      obtain ⟨-, rfl⟩ := List.cons.inj ht
      exact Quoted.raw_suffix hr
  · next t ht =>
      obtain ⟨-, rfl⟩ := List.cons.inj ht
      exact (Quoted.closeText_suffix hr).trans (List.suffix_cons _ _)
  · next t ht =>
      obtain ⟨-, rfl⟩ := List.cons.inj ht
      exact (Quoted.raw_suffix hr).trans (List.suffix_cons _ _)
  · next t ht =>
      obtain ⟨-, rfl⟩ := List.cons.inj ht
      exact (Quoted.closeSingle_suffix hr).trans (List.suffix_cons _ _)
  · next t ht =>
      obtain ⟨-, rfl⟩ := List.cons.inj ht
      exact (Quoted.closeText_suffix hr).trans (List.suffix_cons _ _)
  · next t ht =>
      obtain ⟨-, rfl⟩ := List.cons.inj ht
      exact (Quoted.raw_suffix hr).trans (List.suffix_cons _ _)
  · next t ht =>
      obtain ⟨-, rfl⟩ := List.cons.inj ht
      exact Quoted.closeSingle_suffix hr
  · simp at hr

theorem readSlash_suffix {s rest : Text} {ls : List Lexeme}
    (h : readSlash s = some (ls, rest)) : rest <:+ s := by
  have hc : ∀ {t : Text}, (Comment.read t).map (fun (k, rest) => (ofComment k, rest)) =
      some (ls, rest) → rest <:+ t := by
    intro t ht
    simp only [Option.map_eq_some_iff, Prod.exists, Prod.mk.injEq] at ht
    obtain ⟨k, r, hr, _, rfl⟩ := ht
    exact Comment.read_suffix hr
  unfold readSlash at h
  split at h
  · exact hc h
  · exact hc h
  · simp only [Option.some.injEq, Prod.mk.injEq] at h
    exact h.2 ▸ List.suffix_rfl

theorem readOther_suffix {c : Char} {s rest : Text} {ls : List Lexeme}
    (h : readOther c s = some (ls, rest)) : rest <:+ s := by
  unfold readOther at h
  split at h
  · next r hr =>
      simp only [Option.some.injEq, Prod.mk.injEq] at h
      exact h.2 ▸ literal_suffix hr
  split at h
  · split at h
    · simp only [Option.some.injEq, Prod.mk.injEq] at h
      exact h.2 ▸ List.suffix_rfl
    · simp at h
  split at h
  · simp only [Option.some.injEq, Prod.mk.injEq] at h
    exact h.2 ▸ List.suffix_rfl
  split at h
  · simp at h
  · simp only [Option.map_eq_some_iff, Prod.exists, Prod.mk.injEq] at h
    obtain ⟨w, r, hw, _, rfl⟩ := h
    exact word_suffix hw

/-- What is read at one place leaves a tail of the text behind its first character. -/
theorem read_suffix {c : Char} {s rest : Text} {ls : List Lexeme}
    (h : read c s = some (ls, rest)) : rest <:+ s := by
  unfold read at h
  split at h
  · simp only [Option.some.injEq, Prod.mk.injEq] at h
    exact h.2 ▸ List.suffix_rfl
  split at h
  · exact readSlash_suffix h
  split at h
  · split at h <;> simp only [Option.some.injEq, Prod.mk.injEq] at h
    · exact h.2 ▸ List.drop_suffix _ _
    · exact h.2 ▸ List.suffix_rfl
  iterate 3
    split at h
    · simp only [Option.some.injEq, Prod.mk.injEq] at h
      exact h.2 ▸ List.suffix_rfl
  split at h
  · next hd =>
      obtain ⟨r, hr, heq⟩ := Option.map_eq_some_iff.1 h
      simp only [Prod.mk.injEq] at heq
      exact heq.2 ▸ Numeral.read_suffix hd hr
  · exact readOther_suffix h

/-! ### The whole text -/

/-- The **lexemes** of a text, if there is something to read at every place. -/
def scan : Text → Option (List Lexeme)
  | [] => some []
  | c :: s =>
      match _h : read c s with
      | none => none
      | some (ls, rest) => (scan rest).map (ls ++ ·)
termination_by s => s.length
decreasing_by
  have := (read_suffix _h).length_le
  simp only [List.length_cons]
  omega

end Lexeme

/-- The **tokens** of a declaration. A byte order mark at its very start is passed over. -/
def Token.lex (s : Text) : Option (List Token) :=
  (Lexeme.scan (if s.head? = some '\uFEFF' then s.tail else s)).bind Token.ofLexemes?

end StructEndian
