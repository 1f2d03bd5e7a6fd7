import Mathlib.Data.List.Basic
import StructEndian.Declaration.Reading
import StructEndian.Proofs.Declaration.TypeWords

/-!
# Words in front of a declaration

A declaration may start with words that say nothing about its type, such as `static` and `const`.
No slot is for them, and they are left out because the words behind them fill the slots: what fits
behind them does not fit any more with another word in front. The word in front finds a slot in two
cases only. Behind it is nothing but a name, so that it is the type itself; or behind it are `int`
and a name, and then it is a type word like the `short` of `short int`, and the `int` is the one
that may follow a type word.

## Main results

* `Slots.exists_eq_of_fit_cons`: the cases in which a word in front finds a slot.
* `Slots.assign_cons_of_fit_eq_none`: in all other cases the word is left out.
* `readDeclarator_congr`: what a declaration declares depends on its sign, type and name.
* `Slots.assign_cons`: a word in front of a declaration does not change what is declared, unless it
  takes the place of `int`.
-/

namespace StructEndian

namespace Slots

variable {q : Text} {ws : List Text} {s t : Slots}

/-! ### Where a word in front finds a slot -/

/-- A valid assignment has its first word in the slot for the length or in the slot for `int`, if
that word is no keyword of the slots in front of them. -/
theorem IsValid.eq_none_of_cons (h : t.IsValid (q :: ws)) (hsigned : q ≠ signedWord)
    (hunsigned : q ≠ unsignedWord) (hlong : q ≠ longWord) : t.sign = none ∧ t.long = none := by
  have hwords := h.words
  obtain ⟨sign, long, length, int, name⟩ := t
  cases sign with
  | some w =>
      obtain rfl : w = q := (List.cons.inj hwords).1
      exact absurd (h.sign w rfl) (not_or.mpr ⟨hsigned, hunsigned⟩)
  | none =>
      cases long with
      | some w =>
          obtain rfl : w = q := (List.cons.inj hwords).1
          exact absurd (h.long w rfl) hlong
      | none => exact ⟨rfl, rfl⟩

/-- **A word in front finds a slot** if it is the name, if it is the type of a name, or if it is a
type word with `int` and a name behind it. -/
theorem exists_eq_of_fit_cons (h : fit (q :: ws) = some t) (hsigned : q ≠ signedWord)
    (hunsigned : q ≠ unsignedWord) (hlong : q ≠ longWord) :
    ws = [] ∨ (∃ name, ws = [name]) ∨
      ∃ name, ws = [intWord, name] ∧ t = { length := some q, int := some intWord, name } := by
  have hvalid := (isValid_of_fit h).1
  obtain ⟨hsign, hlong⟩ := hvalid.eq_none_of_cons hsigned hunsigned hlong
  obtain ⟨sign, long, length, int, name⟩ := t
  obtain rfl : sign = none := hsign
  obtain rfl : long = none := hlong
  have hwords := hvalid.words
  cases length with
  | none =>
      cases int with
      | none => exact Or.inl (List.cons.inj hwords).2.symm
      | some v => exact Or.inr (Or.inl ⟨name, (List.cons.inj hwords).2.symm⟩)
  | some w =>
      obtain ⟨rfl, rfl⟩ := List.cons.inj hwords
      cases int with
      | none => exact Or.inr (Or.inl ⟨name, rfl⟩)
      | some v =>
          obtain rfl := hvalid.int v rfl
          exact Or.inr (Or.inr ⟨name, rfl, rfl⟩)

/-- If not all of the words fit, the first one is left out. -/
theorem assign_cons_of_fit_eq_none (h : fit (q :: ws) = none) : assign (q :: ws) = assign ws := by
  rw [assign_eq_longestFit, assign_eq_longestFit, longestFit, h, Option.none_or]

/-- **A word in front** is left out, unless there are `int` and a name behind it. For this the words
behind it have to spell a type: a name alone would take the word as its type. -/
theorem assign_cons_cases (hassign : assign ws = some s) (htype : s.settleInt.typeText ≠ [])
    (hsigned : q ≠ signedWord) (hunsigned : q ≠ unsignedWord) (hlong : q ≠ longWord) :
    assign (q :: ws) = some s ∨
      ∃ name, ws = [intWord, name] ∧ s = { length := some intWord, name } ∧
        assign (q :: ws) = some { length := some q, int := some intWord, name } := by
  cases hfit : fit (q :: ws) with
  | none => exact Or.inl ((assign_cons_of_fit_eq_none hfit).trans hassign)
  | some t =>
      rcases exists_eq_of_fit_cons hfit hsigned hunsigned hlong with
        rfl | ⟨name, rfl⟩ | ⟨name, rfl, rfl⟩
      · cases hassign
      · obtain rfl := Option.some.inj ((assign_singleton name).symm.trans hassign)
        exact absurd rfl htype
      · have hint : assign [intWord, name] = some { length := some intWord, name } :=
          assign_of_fit (fit_plain (by decide) (by decide) (by decide) name)
        exact Or.inr ⟨name, rfl, Option.some.inj (hassign.symm.trans hint), assign_of_fit hfit⟩

end Slots

/-! ### What is declared -/

/-- **What a declaration declares** depends on its words by the sign, the type and the name that they
spell. -/
theorem readDeclarator_congr {ws vs : List Text} {s t : Slots} (hs : Slots.assign ws = some s)
    (ht : Slots.assign vs = some t) (hsign : t.settleInt.sign = s.settleInt.sign)
    (htype : t.settleInt.typeText = s.settleInt.typeText)
    (hname : t.settleInt.name = s.settleInt.name) (d : Declarator) (piece : Text) :
    readDeclarator piece { d with words := vs } = readDeclarator piece { d with words := ws } := by
  simp only [readDeclarator, hs, ht, Option.map_some, Slots.toMember, hsign, htype, hname]

namespace Slots

/-- **A word in front** of a declaration does not change what is declared. The sign and the name are
the same with it and without it, and so is the type, if it is not a word in front of `int` and a name
alone. Then the same member is read from both, whatever stands behind the name. -/
theorem assign_cons {q : Text} {ws : List Text} {s : Slots} (hassign : assign ws = some s)
    (htype : s.settleInt.typeText ≠ []) (hsigned : q ≠ signedWord) (hunsigned : q ≠ unsignedWord)
    (hlong : q ≠ longWord) :
    ∃ t, assign (q :: ws) = some t ∧ t.settleInt.sign = s.settleInt.sign ∧
      t.settleInt.name = s.settleInt.name ∧
      ((∀ name, ws ≠ [intWord, name]) ∨ q = intWord →
        t.settleInt.typeText = s.settleInt.typeText ∧
        ∀ (d : Declarator) (piece : Text), readDeclarator piece { d with words := q :: ws } =
          readDeclarator piece { d with words := ws }) := by
  rcases assign_cons_cases hassign htype hsigned hunsigned hlong with
    hsame | ⟨name, rfl, rfl, hother⟩
  · exact ⟨s, hsame, rfl, rfl, fun _ => ⟨rfl, readDeclarator_congr hassign hsame rfl rfl rfl⟩⟩
  · refine ⟨_, hother, by rw [settleInt_of_int rfl, sign_settleInt],
      by rw [settleInt_of_int rfl, name_settleInt], ?_⟩
    rintro (hne | rfl)
    · exact absurd rfl (hne name)
    · -- of the two words `int` the first one is the type, as a single one is
      exact ⟨rfl, readDeclarator_congr hassign hother rfl rfl rfl⟩

/-- A constant array of an unsigned type is read like one that is not constant. -/
theorem assign_cons_const :
    ∃ t, assign ["const", "unsigned", "int", "x"] = some t ∧
      t.settleInt.sign = some unsignedWord ∧ t.settleInt.name = "x" ∧
      t.settleInt.typeText = intWord ∧
      readDeclarator "x" { words := ["const", "unsigned", "int", "x"], dimensions := 2 } =
        readDeclarator "x" { words := ["unsigned", "int", "x"], dimensions := 2 } := by
  have hassign : assign ["unsigned", "int", "x"] =
      some { sign := unsignedWord, length := intWord, name := "x" } := by decide
  obtain ⟨t, ht, hsign, hname, hsame⟩ :=
    assign_cons (q := "const") hassign (by decide) (by decide) (by decide) (by decide)
  obtain ⟨htype, hread⟩ := hsame (Or.inl fun name => by simp)
  exact ⟨t, ht, hsign, hname, htype, hread { dimensions := 2 } "x"⟩

/-- In front of `int` and a name alone a word does change the type: `short int` is not `int`. -/
theorem not_forall_typeText_cons :
    ¬ ∀ (ws : List Text) (s : Slots), assign ws = some s → s.settleInt.typeText ≠ [] →
      ∀ q : Text, q ≠ signedWord → q ≠ unsignedWord → q ≠ longWord →
        ∃ t, assign (q :: ws) = some t ∧ t.settleInt.sign = s.settleInt.sign ∧
          t.settleInt.typeText = s.settleInt.typeText ∧ t.settleInt.name = s.settleInt.name := by
  intro h
  obtain ⟨t, ht, -, htype, -⟩ := h ["int", "s"] { length := intWord, name := "s" } (by decide)
    (by decide) "short" (by decide) (by decide) (by decide)
  have hshort : assign ["short", "int", "s"] =
      some { length := some "short", int := intWord, name := "s" } := by decide
  obtain rfl := Option.some.inj (hshort.symm.trans ht)
  exact absurd htype (by decide)

end Slots

end StructEndian
