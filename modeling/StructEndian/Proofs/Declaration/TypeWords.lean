import Mathlib.Data.List.Basic
import StructEndian.Proofs.Declaration.Assignment
import StructEndian.Proofs.Declaration.Pieces
import StructEndian.Proofs.Declaration.Scanning

/-!
# The words of a type

A member's type is written with up to three words: a sign, and a base type of one or two
words. Put in front of a name they go back into the slots that they came from, whatever the
name is. The slots are filled greedily, and it is here that the greed does no harm: the words
in front of the name use every slot that they could use.

## Main definitions

* `Member.typeWords`: the words of a member's type.
* `BaseType.IsReadable`: the base types whose name is read back.

## Main results

* `Member.storageType_eq_join`: the storage type is written with these words.
* `Member.assign_typeWords`: they go into slots that spell the type.
-/

namespace StructEndian

/-! ### Words -/

/-- The **words** of a sign. -/
def Sign.words : Sign → List Text
  | default => []
  | s => [s.keyword]

/-- The **words** of a base type. -/
def BaseType.words : BaseType → List Text
  | longLong => ["long", "long"]
  | longDouble => ["long", "double"]
  | t => [t.name]

/-- The **words** of a member's type. -/
def Member.typeWords (m : Member) : List Text :=
  m.sign.words ++ m.base.words

/-- The storage type of a member is the words of its type, with blanks between. -/
theorem Member.storageType_eq_join (m : Member) : m.storageType = Text.join " " m.typeWords := by
  rw [storageType, typeWords]
  cases m.sign <;> cases m.base <;> rfl

/-- A base type is **readable** if it is named, or its name is a word that is no type name
and no sign. -/
def BaseType.IsReadable : BaseType → Prop
  | other w => w.isWord = true ∧ (∀ t ∈ named, t.name ≠ w) ∧ w ≠ signedWord ∧ w ≠ unsignedWord
  | _ => True

instance : (t : BaseType) → Decidable t.IsReadable
  | .other w => inferInstanceAs (Decidable (w.isWord = true ∧ (∀ t ∈ BaseType.named, t.name ≠ w) ∧
      w ≠ signedWord ∧ w ≠ unsignedWord))
  | .char | .short | .int | .long | .longLong | .float | .double | .longDouble | .bool =>
      inferInstanceAs (Decidable True)

/-- A readable base type is read back from its name. -/
theorem BaseType.IsReadable.ofName_name {t : BaseType} (h : t.IsReadable) :
    ofName t.name = t := by
  cases t with
  | other w =>
      have hnone : (named.find? fun t => t.name = w) = none :=
        List.find?_eq_none.2 fun t ht => by simpa using h.2.1 t ht
      show (named.find? fun t => t.name = w).getD (other w) = other w
      rw [hnone, Option.getD_none]
  | _ => exact ofName_name_of_named (by decide)

/-- A readable base type has a name. -/
theorem BaseType.IsReadable.name_ne_nil {t : BaseType} (h : t.IsReadable) : t.name ≠ [] := by
  cases t with
  | other w => exact Text.ne_nil_of_isWord h.1
  | _ => decide

/-- The words of a readable type are words. -/
theorem Member.isWord_of_mem_typeWords {m : Member} (h : m.base.IsReadable) :
    ∀ w ∈ m.typeWords, w.isWord = true := by
  intro w hw
  rw [typeWords, List.mem_append] at hw
  rcases hw with hw | hw
  · cases hs : m.sign <;> rw [hs] at hw <;> revert w <;> decide
  · cases hb : m.base with
    | other v =>
        rw [hb] at hw h
        obtain rfl := List.mem_singleton.1 hw
        exact h.1
    | _ =>
        rw [hb] at hw
        revert w
        decide

theorem Member.typeWords_ne_nil (m : Member) : m.typeWords ≠ [] := by
  rw [typeWords]
  cases m.base <;> simp [BaseType.words]

/-! ### Slots -/

namespace Slots

/-- A word that is no keyword fills the slot for the length. -/
theorem fit_plain {w : Text} (hsigned : w ≠ signedWord) (hunsigned : w ≠ unsignedWord)
    (hlong : w ≠ longWord) (name : Text) :
    fit ([w] ++ [name]) = some { length := some w, name } := by
  rw [fit_concat]
  simp [Presence.all, fill, takeWord, List.findSome?, Option.filter, wellSpelled, hsigned,
    hunsigned, hlong]

/-- So it does behind a sign. -/
theorem fit_sign_plain {keyword w : Text}
    (hkeyword : keyword = signedWord ∨ keyword = unsignedWord) (hlong : w ≠ longWord)
    (name : Text) :
    fit ([keyword, w] ++ [name]) = some { sign := some keyword, length := some w, name } := by
  rw [fit_concat]
  simp [Presence.all, fill, takeWord, List.findSome?, Option.filter, wellSpelled, hkeyword, hlong]

/-- The slot for the sign is filled with the sign's keyword, if it has one. -/
theorem exists_fit_plain {w : Text} (hsigned : w ≠ signedWord) (hunsigned : w ≠ unsignedWord)
    (hlong : w ≠ longWord) (sign : Sign) (name : Text) :
    ∃ keyword, Sign.ofKeyword keyword = sign ∧
      fit (sign.words ++ [w] ++ [name]) = some { sign := keyword, length := some w, name } := by
  cases sign with
  | default => exact ⟨none, rfl, fit_plain hsigned hunsigned hlong name⟩
  | signed => exact ⟨some signedWord, rfl, fit_sign_plain (Or.inl rfl) hlong name⟩
  | unsigned => exact ⟨some unsignedWord, rfl, fit_sign_plain (Or.inr rfl) hlong name⟩

/-- A word that is not `int` stays in the slot for the length. -/
theorem settleInt_plain {w : Text} (hint : w ≠ intWord) (keyword : Option Text) (name : Text) :
    settleInt { sign := keyword, length := some w, name } =
      { sign := keyword, length := some w, name } := by
  rw [settleInt, if_neg (by simp [hint])]

end Slots

/-- A word has no blanks at its ends. -/
theorem Text.trim_of_isWord {w : Text} (h : w.isWord = true) : trim w = w := by
  have hall : ∀ c ∈ w, isBlank c = false := fun c hc =>
    isBlank_of_isWordChar (isWordChar_of_mem h c hc)
  exact trim_eq_self (fun c hc => hall c (List.mem_of_mem_head? hc))
    fun c hc => hall c (List.mem_of_mem_getLast? hc)

/-- A word in the slot for the length is the type, if no `long` stands in front of it. -/
theorem Slots.typeText_of_length {s : Slots} {w : Text} (hw : w.isWord = true)
    (hlong : s.long = none) (hlength : s.length = some w) : s.typeText = w := by
  have htrim : Text.trim (s.long.getD [] ++ ' ' :: s.length.getD []) = w := by
    rw [hlong, hlength]
    exact (Text.trim_cons (by decide) w).trans (Text.trim_of_isWord hw)
  obtain ⟨c, t, rfl, -⟩ := Text.exists_cons_of_isWord hw
  rw [typeText, htrim]

/-- **The words of a type and a name** go into slots that spell the type. -/
theorem Member.assign_typeWords {m : Member} (h : m.base.IsReadable) :
    ∃ s, Slots.assign (m.typeWords ++ [m.name]) = some s ∧
      Sign.ofKeyword s.settleInt.sign = m.sign ∧ s.settleInt.name = m.name ∧
      s.settleInt.typeText = m.base.name := by
  obtain ⟨sign, name, base, group, bits, isArray, source⟩ := m
  cases base with
  | other w =>
      obtain ⟨hw, hnamed, hsigned, hunsigned⟩ := h
      have hlong : w ≠ longWord := (hnamed .long (by decide)).symm
      have hint : w ≠ intWord := (hnamed .int (by decide)).symm
      obtain ⟨keyword, hsign, hfit⟩ := Slots.exists_fit_plain hsigned hunsigned hlong sign name
      refine ⟨_, Slots.assign_of_fit hfit, ?_⟩
      rw [Slots.settleInt_plain hint]
      exact ⟨hsign, rfl, Slots.typeText_of_length hw rfl rfl⟩
  | _ =>
      -- The words are keywords, so the slots are filled by evaluation.
      cases sign <;>
        exact ⟨_, Slots.assign_of_fit (by rw [typeWords, Slots.fit_concat]; rfl), rfl, rfl, rfl⟩

end StructEndian
