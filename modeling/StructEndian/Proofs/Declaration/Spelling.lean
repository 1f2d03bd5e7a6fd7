import Mathlib.Data.List.Basic
import Mathlib.Data.List.TakeWhile
import StructEndian.Proofs.Declaration.Assignment
import StructEndian.Proofs.Declaration.Grammar
import StructEndian.Proofs.Declaration.Words

/-!
# How names and types are spelled

The words of a declaration are identifiers, a raw one with a hash in it. Here this is followed
from the characters of a line to the members that it declares: through the lexemes, the folded
tokens, the words of the declarator and their slots. So the name of a member and the name of its
type hold no other characters, up to the blank between two words of a type, and in particular no
line ends, whatever the lines are that they are read from.

## Main definitions

* `Text.IsSpelled`: a text that consists of identifiers and hashes.

## Main results

* `Token.isName_of_mem_lex`: the words among the tokens of a text are names.
* `Declarator.mem_of_mem_words`: the words of a declarator are words among its tokens.
* `isSpelled_of_mem_declaredMembers`: names and types of declared members are spelled.
* `isWordChar_of_mem_structTag`: tags hold word characters only.
-/

namespace StructEndian

/-! ### Lexemes -/

/-- A text is **spelled** if it consists of characters that identifiers go on with and hashes. -/
def Text.IsSpelled (w : Text) : Prop :=
  ∀ c ∈ w, isIdentifierPart c = true ∨ c = '#'

/-- There is no blank in a spelled text. -/
theorem Text.IsSpelled.isBlank_of_mem {w : Text} (hw : w.IsSpelled) :
    ∀ c ∈ w, isBlank c = false := by
  intro c hc
  cases hblank : isBlank c with
  | false => rfl
  | true =>
      rcases hw c hc with hpart | rfl
      · rw [isIdentifierPart_of_isBlank hblank] at hpart
        cases hpart
      · cases hblank

/-- Names are spelled, a raw one with its hash. -/
theorem Text.IsName.isSpelled {w : Text} (h : w.IsName) : w.IsSpelled := by
  rcases h with h | ⟨v, hv, -, rfl⟩
  · exact fun c hc => Or.inl (isIdentifierPart_of_mem h c hc)
  · refine List.forall_mem_cons.mpr ⟨Or.inl (by decide), List.forall_mem_cons.mpr ⟨Or.inr rfl, ?_⟩⟩
    exact fun c hc => Or.inl (isIdentifierPart_of_mem hv c hc)

namespace Lexeme

variable {c : Char} {s rest w : Text} {ls : List Lexeme}

/-- A numeral is no word. -/
theorem ofNumeral_ne_word (numeral w : Text) : ofNumeral numeral ≠ .word w := by
  rw [ofNumeral]
  split <;> simp

/-- No comment has words. -/
theorem word_notMem_ofComment (k : Comment) (w : Text) : .leaf (.word w) ∉ ofComment k := by
  rcases k with _ | (_ | _) <;> simp [ofComment]

/-- What has been read holds a name if the answer does. -/
theorem isName_of_some_eq {ls' : List Lexeme} {rest' : Text}
    (h : some (ls', rest') = some (ls, rest)) (hw : .leaf (.word w) ∈ ls)
    (hname : .leaf (.word w) ∈ ls' → w.IsName) : w.IsName :=
  hname ((Prod.mk.inj (Option.some.inj h)).1 ▸ hw)

theorem isName_of_mem_readSlash (h : readSlash s = some (ls, rest))
    (hw : .leaf (.word w) ∈ ls) : w.IsName := by
  unfold readSlash at h
  split at h
  · obtain ⟨⟨k, rest'⟩, -, hk⟩ := Option.map_eq_some_iff.mp h
    exact isName_of_some_eq (congrArg some hk) hw fun hmem => absurd hmem (word_notMem_ofComment k w)
  · obtain ⟨⟨k, rest'⟩, -, hk⟩ := Option.map_eq_some_iff.mp h
    exact isName_of_some_eq (congrArg some hk) hw fun hmem => absurd hmem (word_notMem_ofComment k w)
  · exact isName_of_some_eq h hw (by simp)

theorem isName_of_mem_readOther (h : readOther c s = some (ls, rest))
    (hw : .leaf (.word w) ∈ ls) : w.IsName := by
  unfold readOther at h
  split at h
  · exact isName_of_some_eq h hw (by simp)
  split at h
  · split at h
    · exact isName_of_some_eq h hw (by simp)
    · cases h
  split at h
  · exact isName_of_some_eq h hw (by simp)
  split at h
  · cases h
  · obtain ⟨⟨v, rest'⟩, hword, hls⟩ := Option.map_eq_some_iff.mp h
    refine isName_of_some_eq (congrArg some hls) hw fun hmem => ?_
    obtain rfl : w = v := by simpa using hmem
    exact isName_of_word hword

/-- **The only words** that are read at one place are names. -/
theorem isName_of_mem_read (h : read c s = some (ls, rest)) (hw : .leaf (.word w) ∈ ls) :
    w.IsName := by
  unfold read at h
  split at h
  · exact isName_of_some_eq h hw (by simp)
  split at h
  · exact isName_of_mem_readSlash h hw
  split at h
  · split at h
    · exact isName_of_some_eq h hw (by simp)
    · exact isName_of_some_eq h hw (by simp)
  iterate 3
    split at h
    · exact isName_of_some_eq h hw (by simp)
  split at h
  · obtain ⟨rest', -, hls⟩ := Option.map_eq_some_iff.mp h
    exact isName_of_some_eq (congrArg some hls) hw (by simp [(ofNumeral_ne_word _ w).symm])
  · exact isName_of_mem_readOther h hw

/-- **The words of a text** are names. -/
theorem isName_of_mem_scan (h : scan s = some ls) (hw : .leaf (.word w) ∈ ls) : w.IsName := by
  fun_induction scan s generalizing ls with
  | case1 =>
      obtain rfl := Option.some.inj h
      exact absurd hw List.not_mem_nil
  | case2 c s hread => simp at h
  | case3 c s front rest hread ih =>
      obtain ⟨later, hlater, rfl⟩ := Option.map_eq_some_iff.mp h
      rcases List.mem_append.mp hw with hw | hw
      · exact isName_of_mem_read hread hw
      · exact ih hlater hw

end Lexeme

/-! ### Tokens -/

namespace Token

/-- Folding groups adds no words. -/
theorem leaf_mem_of_mem_fold {stack : List Delimiter} {ls : List Lexeme} {ts : List Token} {w : Text}
    (h : fold stack ls = some ts) (hw : .word w ∈ ts) : .leaf (.word w) ∈ ls := by
  fun_induction fold stack ls generalizing ts with
  | case1 =>
      obtain rfl := Option.some.inj h
      exact absurd hw List.not_mem_nil
  | case2 | case6 | case9 => simp at h
  | case3 t ls ih =>
      obtain ⟨later, hlater, rfl⟩ := Option.map_eq_some_iff.mp h
      rcases List.mem_cons.mp hw with rfl | hw
      · exact List.mem_cons_self
      · exact List.mem_cons_of_mem _ (ih hlater hw)
  | case4 d stack t ls ih => exact List.mem_cons_of_mem _ (ih h hw)
  | case5 stack d ls ih => exact List.mem_cons_of_mem _ (ih h hw)
  | case7 d ls ih =>
      obtain ⟨later, hlater, rfl⟩ := Option.map_eq_some_iff.mp h
      rcases List.mem_cons.mp hw with hw | hw
      · cases hw
      · exact List.mem_cons_of_mem _ (ih hlater hw)
  | case8 d stack ls hne ih => exact List.mem_cons_of_mem _ (ih h hw)

/-- **The words among the tokens of a text** are names. -/
theorem isName_of_mem_lex {s : Text} {ts : List Token} {w : Text} (h : lex s = some ts)
    (hw : .word w ∈ ts) : w.IsName := by
  obtain ⟨ls, hscan, hfold⟩ := Option.bind_eq_some_iff.mp h
  exact Lexeme.isName_of_mem_scan hscan (leaf_mem_of_mem_fold hfold hw)

end Token

/-! ### Words of a declarator -/

namespace Declarator

/-- **The words of a declarator** are words among its tokens. -/
theorem mem_of_mem_words {d : Declarator} {ts : List Token} {w : Text} (h : read ts = .ok d)
    (hw : w ∈ d.words) : .word w ∈ ts := by
  have hstart : Describes [] {} := Or.inl ⟨rfl, by simp⟩
  rcases hstart.readFrom h with ⟨rfl, -⟩ | ⟨s, hs, rfl⟩
  · exact absurd hw List.not_mem_nil
  · rw [List.nil_append] at hs
    rw [hs.eq]
    exact List.mem_append_left _ (List.mem_append_right _ (List.mem_map_of_mem hw))

end Declarator

/-! ### Slots -/

namespace Text

/-- Trimming adds nothing. -/
theorem mem_of_mem_trimEnd {s : Text} {c : Char} (h : c ∈ trimEnd s) : c ∈ s := by
  rw [trimEnd, List.mem_reverse] at h
  exact List.mem_reverse.mp ((List.dropWhile_suffix _).subset h)

theorem mem_of_mem_trim {s : Text} {c : Char} (h : c ∈ trim s) : c ∈ s :=
  (List.dropWhile_suffix _).subset (mem_of_mem_trimEnd h)

end Text

namespace Slots

/-- The type that slots spell holds characters of their words and blanks between them. -/
theorem exists_of_mem_typeText {s : Slots} {c : Char} (h : c ∈ s.typeText) :
    c = ' ' ∨ ∃ w ∈ s.words, c ∈ w := by
  have hgetD : ∀ {slot : Option Text}, c ∈ slot.getD [] → (∀ w ∈ slot.toList, w ∈ s.words) →
      ∃ w ∈ s.words, c ∈ w := by
    rintro (_ | w) hc hslot
    · exact absurd hc List.not_mem_nil
    · exact ⟨w, hslot w (by simp), hc⟩
  unfold typeText at h
  split at h
  · exact Or.inr (hgetD h fun w hw => by simp [words, hw])
  · have htrim := Text.mem_of_mem_trim h
    rcases List.mem_append.mp htrim with hlong | hlength
    · exact Or.inr (hgetD hlong fun w hw => by simp [words, hw])
    · rcases List.mem_cons.mp hlength with rfl | hlength
      · exact Or.inl rfl
      · exact Or.inr (hgetD hlength fun w hw => by simp [words, hw])

end Slots

/-! ### Members -/

/-- A member is **spelled** if its name is and if the name of its type is, blanks aside. -/
structure Member.IsSpelled (m : Member) : Prop where
  /-- The name is spelled. -/
  name : m.name.IsSpelled
  /-- The name of the base type is spelled, with blanks between its words. -/
  base : ∀ c ∈ m.base.name, c = ' ' ∨ isIdentifierPart c = true ∨ c = '#'

/-- A character that is neither of an identifier nor a hash is in no spelled name. -/
theorem Text.IsSpelled.notMem {w : Text} (hw : w.IsSpelled) {c : Char}
    (hc : isIdentifierPart c = false) (hhash : c ≠ '#') : c ∉ w := by
  intro hmem
  rcases hw c hmem with hpart | rfl
  · exact absurd (hpart.symm.trans hc) (by decide)
  · exact hhash rfl

/-- Nor is it in the name of a spelled member's type, unless it is a blank. -/
theorem Member.IsSpelled.notMem_typeName {m : Member} (hm : m.IsSpelled) {c : Char}
    (hc : isIdentifierPart c = false) (hhash : c ≠ '#') (hblank : c ≠ ' ') : c ∉ m.base.name := by
  intro hmem
  rcases hm.base c hmem with rfl | hpart | rfl
  · exact hblank rfl
  · exact absurd (hpart.symm.trans hc) (by decide)
  · exact hhash rfl

/-- **The words in the slots** of a member that is read are names. -/
theorem isName_of_mem_words {piece w : Text} {ts : List Token} {d : Declarator} {s : Slots}
    (hlex : Token.lex piece = some ts) (hread : Declarator.read ts = .ok d)
    (hassign : Slots.assign d.words = some s) (hw : w ∈ s.settleInt.words) : w.IsName := by
  rw [Slots.words_settleInt] at hw
  have hw := (Slots.words_suffix_of_assign hassign).subset hw
  exact Token.isName_of_mem_lex hlex (Declarator.mem_of_mem_words hread hw)

/-- **A member that has been read** takes its name and its type from spelled words. -/
theorem exists_slots_of_readPiece {piece : Text} {m : Member} (h : readPiece piece = .member m) :
    ∃ s : Slots, (∀ w ∈ s.words, w.IsSpelled) ∧ m.name = s.name ∧ m.base.name = s.typeText := by
  obtain ⟨ts, d, t, hlex, hread, hassign, rfl⟩ := exists_of_readPiece h
  exact ⟨t.settleInt, fun w hw => (isName_of_mem_words hlex hread hassign hw).isSpelled, rfl,
    BaseType.name_ofName _⟩

/-- A member that has been read is spelled. -/
theorem isSpelled_of_readPiece {piece : Text} {m : Member} (h : readPiece piece = .member m) :
    m.IsSpelled := by
  obtain ⟨s, hwords, hname, htype⟩ := exists_slots_of_readPiece h
  constructor
  case name =>
    rw [hname]
    exact hwords _ (by simp [Slots.words])
  case base =>
    intro c hc
    rw [htype] at hc
    rcases Slots.exists_of_mem_typeText hc with hc | ⟨w, hw, hc⟩
    · exact Or.inl hc
    · exact Or.inr (hwords w hw c hc)

/-- The members of a line have been read from its pieces. -/
theorem mem_membersOf_iff {line : Text} {m : Member} :
    m ∈ membersOf line ↔ ∃ piece ∈ pieces line, readPiece piece = .member m := by
  have hmember : ∀ reading : Reading, reading.member? = some m ↔ reading = .member m := by
    intro reading
    cases reading <;> simp [Reading.member?]
  simp [membersOf, readings, hmember]

/-- A declared member is read from some piece. -/
theorem exists_of_mem_declaredMembers {lines : List Text} {m : Member}
    (h : m ∈ declaredMembers lines) : ∃ piece, readPiece piece = .member m := by
  obtain ⟨line, -, hline⟩ := List.mem_flatMap.mp h
  obtain ⟨piece, -, hpiece⟩ := mem_membersOf_iff.mp hline
  exact ⟨piece, hpiece⟩

/-- **Declared members** are spelled, whatever the lines are. -/
theorem isSpelled_of_mem_declaredMembers {lines : List Text} {m : Member}
    (h : m ∈ declaredMembers lines) : m.IsSpelled := by
  obtain ⟨piece, hpiece⟩ := exists_of_mem_declaredMembers h
  exact isSpelled_of_readPiece hpiece

/-! ### Tags -/

/-- The words of a text hold word characters only. -/
theorem Text.isWordChar_of_mem_words {s gap w : Text} (h : (gap, w) ∈ words s) :
    ∀ c ∈ w, isWordChar c = true := by
  induction s using words_induction with
  | gap g hg =>
      rw [words_of_gap hg] at h
      exact absurd h List.not_mem_nil
  | word g v r hg hne hv hr ih =>
      rw [words_append hg hne hv hr] at h
      rcases List.mem_cons.mp h with hfirst | hlater
      · obtain ⟨-, rfl⟩ := Prod.mk.inj hfirst
        exact hv
      · exact ih hlater

/-- A tag is one of the words that it is looked for in. -/
theorem exists_mem_of_taggedWord {ws : List (Text × Text)} {tag : Text}
    (h : taggedWord ws = some tag) : ∃ gap, (gap, tag) ∈ ws := by
  fun_induction taggedWord ws with
  | case1 _ first gap second rest hkeyword =>
      obtain rfl := Option.some.inj h
      exact ⟨gap, by simp⟩
  | case2 _ first gap second rest _ ih =>
      obtain ⟨gap', hmem⟩ := ih h
      exact ⟨gap', List.mem_cons_of_mem _ hmem⟩
  | case3 => simp at h

/-- **The tag** holds word characters only. -/
theorem isWordChar_of_mem_structTag {lines : List Text} {c : Char} (h : c ∈ structTag lines) :
    isWordChar c = true := by
  rw [structTag] at h
  cases htag : lines.findSome? fun line => taggedWord line.stripComment.words with
  | none => simp [htag] at h
  | some tag =>
      rw [htag] at h
      obtain ⟨line, -, hline⟩ := List.exists_of_findSome?_eq_some htag
      obtain ⟨gap, hmem⟩ := exists_mem_of_taggedWord hline
      exact Text.isWordChar_of_mem_words hmem c h

end StructEndian
