import StructEndian.Text.Blank
import StructEndian.BaseType

/-!
# Slots of a declaration

The words of a declaration go into slots: an optional sign, an optional `long`, an optional
length or type name, an optional `int`, and the name. The words in front of the longest end
that fits are ignored, and of the ways in which that end fits the greediest is taken.

## Main definitions

* `Slots`: the words of a declaration in their slots.
* `Presence`: which of the optional slots are filled.
* `Slots.fit`: the greediest way to fill the slots with all the given words.
* `Slots.longestFit`: the same for the longest end of the words that fits.
* `Slots.assign`: the same again, without trying ends that are too long to fit.
* `Slots.settleInt`: a lone `int` moved to the slot of its own.
* `Slots.typeText`: the type that the slots spell.

## Main results

* `Slots.assign_eq_longestFit`: the ends that are not tried do not fit.
* `Slots.assign_singleton`: a single word is a name.
-/

namespace StructEndian

/-- The word `signed`. -/
def signedWord : Text := "signed"

/-- The word `unsigned`. -/
def unsignedWord : Text := "unsigned"

/-- The word `long`. -/
def longWord : Text := "long"

/-- The word `int`. -/
def intWord : Text := "int"

/-- The **slots** of a declaration, in the order of its words. -/
structure Slots where
  /-- The word `signed` or `unsigned`. -/
  sign : Option Text := none
  /-- The word `long`. -/
  long : Option Text := none
  /-- A second `long`, another type word or the name of a type. -/
  length : Option Text := none
  /-- The word `int`. -/
  int : Option Text := none
  /-- The declared name. -/
  name : Text
deriving DecidableEq, Repr

/-- The **presence** of the optional slots: which of them are filled. -/
structure Presence where
  /-- Whether the sign is present. -/
  sign : Bool
  /-- Whether `long` is present. -/
  long : Bool
  /-- Whether the length is present. -/
  length : Bool
  /-- Whether `int` is present. -/
  int : Bool
deriving DecidableEq, Repr

/-- All presences, from the one with every slot filled to the one with none: where two differ
in a slot for the first time, the one that has it filled comes first. -/
def Presence.all : List Presence :=
  [true, false].flatMap fun sign =>
    [true, false].flatMap fun long =>
      [true, false].flatMap fun length =>
        [true, false].map fun int => { sign, long, length, int }

namespace Slots

/-- Take the word of one slot off the front of a list, if the slot is present. -/
def takeWord : Bool → List Text → Option (Option Text × List Text)
  | false, ws => some (none, ws)
  | true, w :: ws => some (some w, ws)
  | true, [] => none

/-- Fill the present slots with the words in order. All words have to be used. -/
def fill (p : Presence) (ws : List Text) (name : Text) : Option Slots := do
  let (sign, ws) ← takeWord p.sign ws
  let (long, ws) ← takeWord p.long ws
  let (length, ws) ← takeWord p.length ws
  let (int, ws) ← takeWord p.int ws
  if ws = [] then some { sign, long, length, int, name } else none

/-- Whether the words in the slots for keywords are the right ones. -/
def wellSpelled (s : Slots) : Bool :=
  s.sign.all (fun w => w = signedWord || w = unsignedWord) && s.long.all (· = longWord) &&
    s.int.all (· = intWord)

/-- The greediest way to **fit** all of the given words into slots, the last one being the
name. -/
def fit (ws : List Text) : Option Slots :=
  match ws.getLast? with
  | none => none
  | some name =>
      let front := ws.dropLast
      Presence.all.findSome? fun p => (fill p front name).filter wellSpelled

/-- The longest end of a list that **fits**, in the greediest way. -/
def longestFit : List Text → Option Slots
  | [] => none
  | w :: ws => (fit (w :: ws)).or (longestFit ws)

/-- The most words that fit: one for every slot. -/
def maxWords : Nat := 5

/-- **Assign** words to slots: the longest end of the list that fits, in the greediest way.
No more words fit than there are slots, so ends with more words are not tried. -/
def assign (ws : List Text) : Option Slots :=
  longestFit (ws.drop (ws.length - maxWords))

/-- A lone `int` lands in the slot for the length. **Settle** it in the slot of its own, so
that `long int` spells the type `long`. -/
def settleInt (s : Slots) : Slots :=
  if s.length = some intWord ∧ s.int = none then { s with length := none, int := some intWord }
  else s

/-- The **type** that the slots spell: `long` and the length with a blank between, or `int`
if that comes to nothing. -/
def typeText (s : Slots) : Text :=
  match Text.trim (s.long.getD [] ++ ' ' :: s.length.getD []) with
  | [] => s.int.getD []
  | t => t

/-! ### No more words than slots -/

theorem length_le_of_takeWord {present : Bool} {ws rest : List Text} {w : Option Text}
    (h : takeWord present ws = some (w, rest)) : ws.length ≤ rest.length + 1 := by
  unfold takeWord at h
  split at h
  · simp only [Option.some.injEq, Prod.mk.injEq] at h
    obtain ⟨_, rfl⟩ := h
    exact Nat.le_succ _
  · simp only [Option.some.injEq, Prod.mk.injEq] at h
    obtain ⟨_, rfl⟩ := h
    exact Nat.le_refl _
  · simp at h

/-- Four slots besides the name take at most four words. -/
theorem length_le_of_fill {p : Presence} {ws : List Text} {name : Text} {s : Slots}
    (h : fill p ws name = some s) : ws.length ≤ 4 := by
  simp only [fill, Option.bind_eq_bind, Option.bind_eq_some_iff, Prod.exists] at h
  obtain ⟨_, ws₁, h₁, _, ws₂, h₂, _, ws₃, h₃, _, ws₄, h₄, h⟩ := h
  have h₁ := length_le_of_takeWord h₁
  have h₂ := length_le_of_takeWord h₂
  have h₃ := length_le_of_takeWord h₃
  have h₄ := length_le_of_takeWord h₄
  split at h
  · next hnil =>
      rw [hnil, List.length_nil] at h₄
      omega
  · simp at h

/-- A list with more words than slots does not fit. -/
theorem fit_eq_none_of_maxWords_lt {ws : List Text} (h : maxWords < ws.length) :
    fit ws = none := by
  unfold fit
  split
  · rfl
  · refine List.findSome?_eq_none_iff.2 fun p _ => ?_
    cases hf : fill p ws.dropLast _ with
    | none => rfl
    | some s =>
        have := length_le_of_fill hf
        rw [List.length_dropLast] at this
        simp only [maxWords] at h
        omega

/-- Words in front of as many words as there are slots do not matter. -/
theorem longestFit_append (us : List Text) {ws : List Text} (h : maxWords ≤ ws.length) :
    longestFit (us ++ ws) = longestFit ws := by
  induction us with
  | nil => rfl
  | cons u us ih =>
      have hf : fit (u :: (us ++ ws)) = none := by
        refine fit_eq_none_of_maxWords_lt ?_
        rw [List.length_cons, List.length_append]
        omega
      rw [List.cons_append, longestFit, hf, ih, Option.none_or]

/-- Assigning finds the longest end of the whole list that fits. -/
theorem assign_eq_longestFit (ws : List Text) : assign ws = longestFit ws := by
  by_cases h : ws.length ≤ maxWords
  · rw [assign, Nat.sub_eq_zero_of_le h, List.drop_zero]
  · have hlen : maxWords ≤ (ws.drop (ws.length - maxWords)).length := by
      rw [List.length_drop]
      omega
    have happ := longestFit_append (ws.take (ws.length - maxWords)) hlen
    rw [List.take_append_drop] at happ
    rw [assign, happ]

/-- A single word is a name. -/
theorem assign_singleton (w : Text) : assign [w] = some { name := w } := by
  rfl

end Slots

end StructEndian
