import Mathlib.Data.List.Lex
import StructEndian.Declaration.Slots

/-!
# Assigning words to slots

The slots are filled by a search: over the ends of a list of words, and for every end over the
presences. Here the answer is described without the search. An assignment is **valid** for some
words if it holds exactly these words in the order of its slots, with the right keywords in the
slots for keywords. Many lists have several valid assignments, since the slot for the length takes
any word. The one that is answered is for the longest end of the list that has any, and of those
for this end it is the one whose presence comes first.

Filling slots is inverse to reading off their words and their presence (`fill_eq_some_iff`). What
is left are two facts about the order of the search: the presences are tried from the
lexicographically greatest on, and the ends from the longest on.

## Main definitions

* `Slots.words`, `Slots.presence`: the words in the slots, and which slots have one.
* `Slots.IsValid`: the slots are a valid assignment of some words.
* `Presence.Below`: the lexicographic order, absent below present.
* `Slots.IsGreediest`: what the assignment of a list of words has to be.

## Main results

* `Slots.fill_eq_some_iff`: filling slots and reading off their words are inverse.
* `Slots.fit_eq_some_iff`: all words are fitted in the valid way with the greatest presence.
* `Slots.longestFit_eq_some_iff`: the longest end that fits is found.
* `Slots.assign_greedy`: the assignment of a list of words is the greediest one.
-/

namespace StructEndian

/-! ### Presences in their order -/

namespace Presence

/-- The slots of a presence in order, from the sign on. -/
def toList (p : Presence) : List Bool :=
  [p.sign, p.long, p.length, p.int]

/-- A presence is **below** another one in the lexicographic order: in the first slot where they
differ, the other one has a word. -/
def Below (p q : Presence) : Prop :=
  List.Lex (fun a b => a = false ∧ b = true) p.toList q.toList

instance (p q : Presence) : Decidable (p.Below q) :=
  inferInstanceAs (Decidable (List.Lex _ p.toList q.toList))

/-- Of two presences at most one is below the other. -/
theorem Below.asymm {p q : Presence} (h : p.Below q) : ¬ q.Below p := by
  have hslot : Std.Asymm fun a b : Bool => a = false ∧ b = true :=
    ⟨fun a b hab hba => absurd (hab.1.symm.trans hba.2) (by decide)⟩
  exact (List.Lex.asymm _).asymm _ _ h

/-- A sign makes a presence greater, whatever the other slots are. -/
theorem below_of_sign {p q : Presence} (hp : p.sign = false) (hq : q.sign = true) : p.Below q :=
  List.Lex.rel ⟨hp, hq⟩

/-- If the signs do not differ, `long` does. -/
theorem below_of_long {p q : Presence} (hsign : p.sign = q.sign) (hp : p.long = false)
    (hq : q.long = true) : p.Below q := by
  rw [Below, toList, toList, hsign]
  exact List.Lex.cons (List.Lex.rel ⟨hp, hq⟩)

theorem mem_all (p : Presence) : p ∈ all := by
  obtain ⟨_ | _, _ | _, _ | _, _ | _⟩ := p <;> decide

/-- **The search goes down**: every presence is tried after those that it is below of. -/
theorem pairwise_all : all.Pairwise fun p q => q.Below p := by
  decide

end Presence

namespace Slots

/-! ### Valid assignments -/

/-- The **words** in the slots, in order. -/
def words (s : Slots) : List Text :=
  s.sign.toList ++ s.long.toList ++ s.length.toList ++ s.int.toList ++ [s.name]

/-- The **presence** of slots: which of them have a word. -/
def presence (s : Slots) : Presence :=
  { sign := s.sign.isSome, long := s.long.isSome, length := s.length.isSome, int := s.int.isSome }

/-- Slots are a **valid** assignment of some words if they hold exactly these words, in order, and
in the slots for keywords the right ones. -/
structure IsValid (s : Slots) (ws : List Text) : Prop where
  /-- The words in the slots are the given ones. -/
  words : s.words = ws
  /-- A sign is one of the two keywords for signs. -/
  sign : ∀ w ∈ s.sign, w = signedWord ∨ w = unsignedWord
  /-- In the slot for it there is the word `long`. -/
  long : ∀ w ∈ s.long, w = longWord
  /-- In the slot for it there is the word `int`. -/
  int : ∀ w ∈ s.int, w = intWord

variable {ws : List Text} {s : Slots}

theorem words_ne_nil (s : Slots) : s.words ≠ [] := by
  simp [words]

/-- Slots with the right keywords are valid for their words. -/
theorem isValid_iff : s.IsValid ws ↔ s.words = ws ∧ s.wellSpelled = true := by
  have hspelled : s.wellSpelled = true ↔
      ((∀ w ∈ s.sign, w = signedWord ∨ w = unsignedWord) ∧ ∀ w ∈ s.long, w = longWord) ∧
        ∀ w ∈ s.int, w = intWord := by
    simp [wellSpelled, Option.all_eq_true]
  rw [hspelled]
  constructor
  · intro h
    exact ⟨h.words, ⟨h.sign, h.long⟩, h.int⟩
  · rintro ⟨hwords, ⟨hsign, hlong⟩, hint⟩
    exact ⟨hwords, hsign, hlong, hint⟩

/-! ### Filling slots -/

theorem takeWord_eq_some_iff {present : Bool} {rest : List Text} {w : Option Text} :
    takeWord present ws = some (w, rest) ↔ w.isSome = present ∧ w.toList ++ rest = ws := by
  cases present <;> cases ws <;> cases w <;> simp [takeWord, eq_comm]

/-- **Filling slots** and reading off their words and their presence are inverse. -/
theorem fill_eq_some_iff {p : Presence} {front : List Text} {name : Text} :
    fill p front name = some s ↔ s.presence = p ∧ s.words = front ++ [name] := by
  simp only [fill, Option.bind_eq_bind, Option.bind_eq_some_iff, Prod.exists, takeWord_eq_some_iff,
    Option.ite_none_right_eq_some, Option.some.injEq]
  constructor
  · rintro ⟨sign, ws₁, ⟨hsign, rfl⟩, long, ws₂, ⟨hlong, rfl⟩, length, ws₃, ⟨hlength, rfl⟩, int, ws₄,
      ⟨hint, rfl⟩, rfl, rfl⟩
    refine ⟨?_, by simp [words]⟩
    rw [presence, hsign, hlong, hlength, hint]
  · rintro ⟨rfl, hwords⟩
    obtain ⟨rfl, hname⟩ := List.append_inj' hwords rfl
    obtain rfl := List.singleton_inj.mp hname
    refine ⟨s.sign, _, ⟨rfl, ?_⟩, s.long, _, ⟨rfl, rfl⟩, s.length, _, ⟨rfl, rfl⟩, s.int, [],
      ⟨rfl, rfl⟩, rfl, rfl⟩
    simp

/-! ### Fitting all words -/

/-- Words in front of a name fit if they fill some slots, and the first presence with which
they do decides. -/
theorem fit_concat (front : List Text) (name : Text) :
    fit (front ++ [name]) =
      Presence.all.findSome? fun p => (fill p front name).filter wellSpelled := by
  rw [fit.eq_def, List.getLast?_concat, List.dropLast_concat]

/-- What one presence contributes to the search: the valid assignment with this presence. -/
theorem filter_fill_eq_some_iff {p : Presence} {front : List Text} {name : Text} :
    (fill p front name).filter wellSpelled = some s ↔
      s.presence = p ∧ s.IsValid (front ++ [name]) := by
  rw [Option.filter_eq_some_iff, fill_eq_some_iff, isValid_iff, and_assoc]

/-- **The answer of a fit** is valid, and no valid assignment has a greater presence. -/
theorem isValid_of_fit (h : fit ws = some s) :
    s.IsValid ws ∧ ∀ t, t.IsValid ws → t = s ∨ t.presence.Below s.presence := by
  rcases List.eq_nil_or_concat ws with rfl | ⟨front, name, rfl⟩
  · simp [fit] at h
  · rw [List.concat_eq_append, fit_concat, List.findSome?_eq_some_iff] at h
    obtain ⟨earlier, p, later, hall, hp, hnone⟩ := h
    obtain ⟨rfl, hs⟩ := filter_fill_eq_some_iff.mp hp
    rw [List.concat_eq_append]
    refine ⟨hs, fun t ht => ?_⟩
    have hfound := filter_fill_eq_some_iff.mpr ⟨rfl, ht⟩
    have hpairs := Presence.pairwise_all
    have hmem := Presence.mem_all t.presence
    rw [hall] at hpairs hmem
    rcases List.mem_append.mp hmem with hearlier | hlater
    · rw [hnone _ hearlier] at hfound
      cases hfound
    rcases List.mem_cons.mp hlater with heq | hlater
    · rw [heq, hp] at hfound
      exact Or.inl (Option.some.inj hfound).symm
    · exact Or.inr ((List.pairwise_cons.mp (List.pairwise_append.mp hpairs).2.1).1 _ hlater)

/-- No valid assignment is missed: words with one fit. -/
theorem IsValid.exists_fit (h : s.IsValid ws) : ∃ t, fit ws = some t := by
  rcases List.eq_nil_or_concat ws with rfl | ⟨front, name, rfl⟩
  · exact absurd h.words s.words_ne_nil
  · rw [List.concat_eq_append] at h ⊢
    rw [fit_concat, ← Option.isSome_iff_exists, List.findSome?_isSome_iff]
    exact ⟨s.presence, s.presence.mem_all,
      Option.isSome_iff_exists.mpr ⟨s, filter_fill_eq_some_iff.mpr ⟨rfl, h⟩⟩⟩

/-- **All words are fitted** in the valid way with the greatest presence. -/
theorem fit_eq_some_iff :
    fit ws = some s ↔ s.IsValid ws ∧ ∀ t, t.IsValid ws → t = s ∨ t.presence.Below s.presence := by
  refine ⟨isValid_of_fit, fun ⟨hs, hgreatest⟩ => ?_⟩
  obtain ⟨t, ht⟩ := hs.exists_fit
  obtain ⟨hvalid, hgreatest'⟩ := isValid_of_fit ht
  rcases hgreatest t hvalid with rfl | hbelow
  · exact ht
  rcases hgreatest' s hs with rfl | hbelow'
  · exact ht
  · exact absurd hbelow' hbelow.asymm

/-- All words fit into the slots. -/
theorem words_of_fit (h : fit ws = some s) : s.words = ws :=
  (isValid_of_fit h).1.words

/-- Nothing fits exactly if nothing is valid. -/
theorem fit_eq_none_iff : fit ws = none ↔ ∀ t : Slots, ¬ t.IsValid ws := by
  constructor
  · intro h t ht
    obtain ⟨u, hu⟩ := ht.exists_fit
    rw [h] at hu
    cases hu
  · intro h
    exact Option.eq_none_iff_forall_ne_some.mpr fun t ht => h t (isValid_of_fit ht).1

/-! ### The longest end -/

/-- **The longest end that fits** is found: its words are an end of the list, and no longer end
fits. -/
theorem longestFit_eq_some_iff :
    longestFit ws = some s ↔ s.words <:+ ws ∧ fit s.words = some s ∧
      ∀ ws', ws' <:+ ws → s.words.length < ws'.length → fit ws' = none := by
  induction ws with
  | nil => simp [longestFit, words_ne_nil]
  | cons w ws ih =>
      rw [longestFit, Option.or_eq_some_iff, ih]
      constructor
      · rintro (hfit | ⟨hnone, hsuffix, hfit, hlonger⟩)
        · rw [words_of_fit hfit]
          refine ⟨List.suffix_rfl, hfit, fun ws' hws' hlength => ?_⟩
          exact absurd hws'.length_le (Nat.not_le_of_lt hlength)
        · refine ⟨hsuffix.trans (List.suffix_cons w ws), hfit, fun ws' hws' hlength => ?_⟩
          rcases List.suffix_cons_iff.mp hws' with rfl | hws'
          · exact hnone
          · exact hlonger ws' hws' hlength
      · rintro ⟨hsuffix, hfit, hlonger⟩
        rcases List.suffix_cons_iff.mp hsuffix with hall | hsuffix
        · exact Or.inl (hall ▸ hfit)
        · refine Or.inr ⟨hlonger _ List.suffix_rfl (Nat.lt_succ_of_le hsuffix.length_le), hsuffix,
            hfit, fun ws' hws' => hlonger ws' (hws'.trans (List.suffix_cons w ws))⟩

/-- A list that is not empty has an end that fits: its last word alone is a name. -/
theorem longestFit_eq_none_iff : longestFit ws = none ↔ ws = [] := by
  induction ws with
  | nil => simp [longestFit]
  | cons w ws ih =>
      rw [longestFit, Option.or_eq_none_iff, ih]
      constructor
      · rintro ⟨hfit, rfl⟩
        cases hfit
      · intro h
        exact absurd h (List.cons_ne_nil w ws)

/-! ### Assignments -/

/-- If all of the words fit, they are assigned as they fit. -/
theorem assign_of_fit (h : fit ws = some s) : assign ws = some s := by
  cases ws with
  | nil => simp [fit] at h
  | cons w ws => rw [assign_eq_longestFit, longestFit, h, Option.some_or]

/-- **The words in the slots** are an end of the words that were assigned. -/
theorem words_suffix_of_assign (h : assign ws = some s) : s.words <:+ ws := by
  rw [assign_eq_longestFit] at h
  exact (longestFit_eq_some_iff.mp h).1

/-- A lone `int` is moved without a change to the words. -/
theorem words_settleInt (s : Slots) : s.settleInt.words = s.words := by
  unfold settleInt
  split
  · next h => simp [words, h.1, h.2]
  · rfl

/-- Nor is the sign or the name changed. -/
theorem sign_settleInt (s : Slots) : s.settleInt.sign = s.sign := by
  rw [settleInt]
  split <;> rfl

theorem name_settleInt (s : Slots) : s.settleInt.name = s.name := by
  rw [settleInt]
  split <;> rfl

/-- A second `int` keeps the one in front of it where it is. -/
theorem settleInt_of_int {w : Text} (h : s.int = some w) : s.settleInt = s := by
  rw [settleInt, if_neg (by simp [h])]

/-- The **greediest** assignment of a list of words: it is valid for an end of the list, no longer
end has a valid assignment, and any other valid assignment of this end leaves the first slot in
which the two differ without a word. -/
structure IsGreediest (s : Slots) (ws : List Text) : Prop where
  /-- The words in the slots are an end of the list. -/
  suffix : s.words <:+ ws
  /-- They are assigned in a valid way. -/
  valid : s.IsValid s.words
  /-- No longer end of the list has a valid assignment. -/
  longest : ∀ (ws' : List Text) (t : Slots), ws' <:+ ws → t.IsValid ws' → ws'.length ≤ s.words.length
  /-- Every other valid assignment of the same words has a presence that is below. -/
  greatest : ∀ t : Slots, t.IsValid s.words → t = s ∨ t.presence.Below s.presence

/-- **Assigning is greedy.** Only the empty list has no assignment; the assignment of any other list
is the greediest one; and words in front of five others do not matter for it. -/
theorem assign_greedy (ws : List Text) :
    (assign ws = none ↔ ws = []) ∧
    (∀ s, assign ws = some s ↔ s.IsGreediest ws) ∧
    (∀ us, 5 ≤ ws.length → assign (us ++ ws) = assign ws) := by
  refine ⟨?_, fun s => ?_, fun us hlength => ?_⟩
  · rw [assign_eq_longestFit, longestFit_eq_none_iff]
  · rw [assign_eq_longestFit, longestFit_eq_some_iff, fit_eq_some_iff]
    constructor
    · rintro ⟨hsuffix, ⟨hvalid, hgreatest⟩, hlonger⟩
      refine ⟨hsuffix, hvalid, fun ws' t hws' ht => ?_, hgreatest⟩
      by_contra hlt
      exact fit_eq_none_iff.mp (hlonger ws' hws' (Nat.lt_of_not_le hlt)) t ht
    · intro h
      refine ⟨h.suffix, ⟨h.valid, h.greatest⟩, fun ws' hws' hlt => ?_⟩
      exact fit_eq_none_iff.mpr fun t ht => absurd (h.longest ws' t hws' ht) (Nat.not_le_of_lt hlt)
  · rw [assign_eq_longestFit, assign_eq_longestFit, longestFit_append us hlength]

/-- Words with qualifiers in front of a sign, a type and a name. -/
def qualifiedWords : List Text :=
  ["static", "const", "volatile", "signed", "int", "x"]

/-- The qualifiers are left out, and of the three valid assignments of the other words the one with
a sign and a length is taken. -/
theorem assign_greedy_qualifiedWords :
    assign qualifiedWords = some { sign := signedWord, length := intWord, name := "x" } ∧
    IsGreediest { sign := signedWord, length := intWord, name := "x" } qualifiedWords ∧
    assign ("extern" :: qualifiedWords) = assign qualifiedWords := by
  obtain ⟨-, hgreedy, hfront⟩ := assign_greedy qualifiedWords
  have h : assign qualifiedWords =
      some { sign := signedWord, length := intWord, name := "x" } := by decide
  exact ⟨h, (hgreedy _).mp h, hfront ["extern"] (by decide)⟩

end Slots

end StructEndian
