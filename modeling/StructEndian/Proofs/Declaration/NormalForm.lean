import Mathlib.Data.List.Basic
import StructEndian.Proofs.Declaration.RoundTrip
import StructEndian.Proofs.Declaration.WellFormed

/-!
# The normal form of a declaration

A type can be spelled in several ways: `short` and `short int` come to the same. What is kept of the
words is a sign, a text for the type and a name, and sign and type are what a cast is printed with.
Put in a row they are the words of a declaration again, the **normal form** of the one that they were
read from. It is read as the same sign, type and name, although its words need not go to the slots
that they came from: an `int` behind a type word is gone, and a lone `int` stands where the type word
would.

The search puts none of these words into another slot, because it has put every keyword as far in
front as it can be once already: slots in which there is nothing more to move are **settled**. The
only type that is not kept is `long int`, which comes from a `long` with two `int` behind it. In the
normal form there is one of them left, and `long` with one `int` is read as `long`.

## Main definitions

* `Text.IsSolid`, `Text.fields`: words without blanks, and the words between the blanks of a text.
* `Slots.typeWords`: the words in the slots that are the type.
* `Slots.IsSettled`: what assigning words and settling a lone `int` lead to.
* `Slots.spelling`: the words of the normal form.
* `Slots.respelled`: the slots that they are assigned to.

## Main results

* `Text.fields_join`: words are read back from the text that they are joined to.
* `Slots.typeText_eq_join`: the type is the words in its slots, with blanks between.
* `Slots.isSettled_of_assign`: assigned slots are settled.
* `Slots.assign_spelling`: how the words of the normal form are assigned.
* `Slots.typeText_respelled`: the type that they spell.
* `readPiece_join`: names with blanks between them are the words of a declaration.
* `membersOf_storageType`: the storage type of a member is read back.
* `normalForm_stable`: normal forms are stable, for words and for the members of a line.
-/

namespace StructEndian

/-! ### Words and blanks -/

namespace Text

/-- A word is **solid** if there is something in it and nothing of it is blank. -/
def IsSolid (w : Text) : Prop :=
  w ≠ [] ∧ ∀ c ∈ w, isBlank c = false

instance : DecidablePred IsSolid := fun w =>
  decidable_of_iff (w ≠ [] ∧ w.all (fun c => !isBlank c) = true) (by simp [IsSolid])

/-- The **fields** of a text are the words between its blanks. -/
def fields (s : Text) : List Text :=
  (split isBlank s).filter (· ≠ [])

variable {ws : List Text} {w : Text}

/-- Names are solid. -/
theorem IsName.isSolid (h : w.IsName) : w.IsSolid := by
  have hblank := h.isSpelled.isBlank_of_mem
  rcases h with h | ⟨v, -, -, rfl⟩
  · obtain ⟨c, s, rfl, -⟩ := exists_cons_of_isIdentifier h
    exact ⟨List.cons_ne_nil c s, hblank⟩
  · exact ⟨List.cons_ne_nil _ _, hblank⟩

/-- A blank separates fields. -/
theorem fields_append_cons {c : Char} (hc : isBlank c = true) (s t : Text) :
    fields (s ++ c :: t) = fields s ++ fields t := by
  rw [fields, split_append_cons hc, List.filter_append, fields, fields]

/-- A solid word is one field. -/
theorem IsSolid.fields (h : w.IsSolid) : fields w = [w] := by
  rw [Text.fields, split_eq_singleton h.2, List.filter_cons_of_pos (by simp [h.1]), List.filter_nil]

/-- **Joined words** are read back as the fields of the text. -/
theorem fields_join (h : ∀ w ∈ ws, w.IsSolid) : fields (join " " ws) = ws := by
  fun_induction join " " ws with
  | case1 => rfl
  | case2 w => exact (h w (by simp)).fields
  | case3 w ws hne ih =>
      obtain ⟨hw, hws⟩ := List.forall_mem_cons.mp h
      have hblank : w ++ (" " : Text) ++ join " " ws = w ++ ' ' :: join " " ws := by simp
      rw [hblank, fields_append_cons (by decide), hw.fields, ih hws, List.singleton_append]

/-- Words that are joined start with the first of them. -/
theorem head?_join {separator : Text} (hw : w ≠ []) (ws : List Text) :
    (join separator (w :: ws)).head? = w.head? := by
  cases ws with
  | nil => rfl
  | cons v vs =>
      rw [join, List.append_assoc, List.head?_append_of_ne_nil _ hw]
      simp

theorem join_ne_nil (hne : ws ≠ []) (h : ∀ w ∈ ws, w.IsSolid) : join " " ws ≠ [] := by
  intro hnil
  rw [← fields_join h, hnil] at hne
  exact hne rfl

/-- One word more. -/
theorem join_concat {separator : Text} (hne : ws ≠ []) (w : Text) :
    join separator (ws ++ [w]) = join separator ws ++ separator ++ w := by
  fun_induction join separator ws with
  | case1 => exact absurd rfl hne
  | case2 v => rfl
  | case3 v vs hvs ih =>
      rw [List.cons_append, join, ih hvs]
      · simp only [List.append_assoc]
      · simp

/-- **Joined words** have no blanks at their ends. -/
theorem trim_join (h : ∀ w ∈ ws, w.IsSolid) : trim (join " " ws) = join " " ws := by
  have hhead : ∀ c ∈ (join " " ws).head?, isBlank c = false := by
    cases ws with
    | nil => simp [join]
    | cons w ws =>
        obtain ⟨hne, hblank⟩ := h w (by simp)
        rw [head?_join hne]
        exact fun c hc => hblank c (List.mem_of_mem_head? hc)
  refine trim_eq_self hhead ?_
  rcases List.eq_nil_or_concat ws with rfl | ⟨front, w, rfl⟩
  · simp [join]
  · rw [List.concat_eq_append] at h ⊢
    obtain ⟨hne, hblank⟩ := h w (by simp)
    have hlast : (join " " (front ++ [w])).getLast? = w.getLast? := by
      by_cases hfront : front = []
      · rw [hfront]
        rfl
      · rw [join_concat hfront, List.getLast?_append_of_ne_nil _ hne]
    rw [hlast]
    exact fun c hc => hblank c (List.mem_of_mem_getLast? hc)

end Text

/-! ### The words of a type -/

namespace Slots

variable {s : Slots} {ws : List Text}

/-- The words in the slots that are the **type**: `long` and the length, or else `int`. -/
def typeWords (s : Slots) : List Text :=
  match s.long.toList ++ s.length.toList with
  | [] => s.int.toList
  | ws => ws

/-- They are among the words in the slots. -/
theorem mem_words_of_mem_typeWords {w : Text} (h : w ∈ s.typeWords) : w ∈ s.words := by
  rw [typeWords] at h
  split at h
  · simp [words, h]
  · rcases List.mem_append.mp h with h | h <;> simp [words, h]

theorem typeWords_eq_nil_iff :
    s.typeWords = [] ↔ s.long = none ∧ s.length = none ∧ s.int = none := by
  obtain ⟨sign, long, length, int, name⟩ := s
  cases long <;> cases length <;> cases int <;> simp [typeWords]

/-- **The type** that slots spell is the words in them, with blanks between. -/
theorem typeText_eq_join (h : ∀ w ∈ s.words, w.IsSolid) :
    s.typeText = Text.join " " s.typeWords := by
  have hsolid : ∀ w ∈ s.long.toList ++ s.length.toList, w.IsSolid := fun w hw => h w (by
    rcases List.mem_append.mp hw with hw | hw <;> simp [words, hw])
  have htrim : Text.trim (s.long.getD [] ++ ' ' :: s.length.getD []) =
      Text.join " " (s.long.toList ++ s.length.toList) := by
    rw [← Text.trim_join hsolid]
    cases s.long with
    | none => exact (Text.trim_cons (c := ' ') (by decide) _).trans (by cases s.length <;> rfl)
    | some k =>
        cases s.length with
        | none => exact Text.trim_concat (by decide) k
        | some w => simp [Text.join]
  rw [typeText, htrim, typeWords]
  cases hws : s.long.toList ++ s.length.toList with
  | nil => cases s.int <;> rfl
  | cons w ws =>
      rw [hws] at hsolid
      have hne := Text.join_ne_nil (List.cons_ne_nil w ws) hsolid
      split
      · next hnil => exact absurd hnil hne
      · rfl

/-- **No type** is spelled exactly if there is no word in its slots. -/
theorem typeText_eq_nil_iff (h : ∀ w ∈ s.words, w.IsSolid) :
    s.typeText = [] ↔ s.long = none ∧ s.length = none ∧ s.int = none := by
  have hsolid : ∀ w ∈ s.typeWords, w.IsSolid := fun w hw => h w (mem_words_of_mem_typeWords hw)
  rw [typeText_eq_join h, ← typeWords_eq_nil_iff]
  constructor
  · intro hnil
    by_contra hne
    exact Text.join_ne_nil hne hsolid hnil
  · intro hnil
    rw [hnil]
    rfl

/-- The fields of the type are its words. -/
theorem fields_typeText (h : ∀ w ∈ s.words, w.IsSolid) : Text.fields s.typeText = s.typeWords := by
  rw [typeText_eq_join h, Text.fields_join fun w hw => h w (mem_words_of_mem_typeWords hw)]

/-! ### Settled slots -/

/-- Slots are **settled** if every keyword is as far in front as it can be, and a lone `int` is in the
slot of its own. -/
structure IsSettled (s : Slots) : Prop where
  /-- The keywords are the right ones. -/
  valid : s.IsValid s.words
  /-- A `long` is not in the slot for the length while its own is empty. -/
  long : s.long = none → s.length ≠ some longWord
  /-- Nor is a keyword for signs, unless a sign or `long` is in front of it. -/
  sign : s.sign = none → s.long = none →
    s.length ≠ some signedWord ∧ s.length ≠ some unsignedWord
  /-- An `int` in the slot for the length has another one behind it. -/
  int : s.length = some intWord → s.int = some intWord

/-- The words of an assignment are fitted into the slots. -/
theorem fit_words_of_assign (h : assign ws = some s) : fit s.words = some s := by
  rw [assign_eq_longestFit] at h
  exact (longestFit_eq_some_iff.mp h).2.1

/-- Other slots for the same words are not valid if their presence is greater: the search would have
come to them first. -/
theorem not_isValid_of_fit {t : Slots} (h : fit s.words = some s) (hwords : t.words = s.words)
    (hbelow : s.presence.Below t.presence) : ¬ t.IsValid t.words := by
  intro ht
  rcases (isValid_of_fit h).2 t (hwords ▸ ht) with rfl | hbelow'
  · exact hbelow.asymm hbelow
  · exact hbelow.asymm hbelow'

/-- So a `long` is in the slot of its own, if that is free. -/
theorem length_ne_long_of_fit (h : fit s.words = some s) (hlong : s.long = none) :
    s.length ≠ some longWord := by
  intro hlength
  have hvalid := (isValid_of_fit h).1
  obtain ⟨sign, long, length, int, name⟩ := s
  obtain rfl : long = none := hlong
  obtain rfl : length = some longWord := hlength
  exact not_isValid_of_fit (t := { sign, long := longWord, length := int, name }) h
    (by simp [words]) (Presence.below_of_long rfl rfl rfl) ⟨rfl, hvalid.sign, by simp, by simp⟩

/-- And a keyword for signs is in the slot for the sign, if it can get there. -/
theorem length_ne_sign_of_fit (h : fit s.words = some s) (hsign : s.sign = none)
    (hlong : s.long = none) {w : Text} (hw : w = signedWord ∨ w = unsignedWord) :
    s.length ≠ some w := by
  intro hlength
  obtain ⟨sign, long, length, int, name⟩ := s
  obtain rfl : sign = none := hsign
  obtain rfl : long = none := hlong
  obtain rfl : length = some w := hlength
  exact not_isValid_of_fit (t := { sign := some w, length := int, name }) h
    (by simp [words]) (Presence.below_of_sign rfl rfl) ⟨rfl, by simpa using hw, by simp, by simp⟩

/-- **Assigned slots** are settled when a lone `int` is. -/
theorem isSettled_of_assign (h : assign ws = some s) : s.settleInt.IsSettled := by
  have hfit := fit_words_of_assign h
  have hvalid := (isValid_of_fit hfit).1
  by_cases hlone : s.length = some intWord ∧ s.int = none
  · rw [settleInt, if_pos hlone]
    exact ⟨⟨rfl, hvalid.sign, hvalid.long, by simp⟩, by simp, by simp, by simp⟩
  · rw [settleInt, if_neg hlone]
    refine ⟨hvalid, length_ne_long_of_fit hfit, fun hsign hlong => ?_, fun hlength => ?_⟩
    · exact ⟨length_ne_sign_of_fit hfit hsign hlong (Or.inl rfl),
        length_ne_sign_of_fit hfit hsign hlong (Or.inr rfl)⟩
    · obtain ⟨w, hw⟩ := Option.ne_none_iff_exists'.mp fun hnone => hlone ⟨hlength, hnone⟩
      rw [hw, hvalid.int w hw]

/-! ### The normal form -/

/-- The words of the **normal form**: the sign if there is one, the words of the type, and the
name. -/
def spelling (s : Slots) : List Text :=
  s.sign.toList ++ Text.fields s.typeText ++ [s.name]

/-- They are among the words in the slots. -/
theorem mem_words_of_mem_spelling {w : Text} (hsolid : ∀ w ∈ s.words, w.IsSolid)
    (h : w ∈ s.spelling) : w ∈ s.words := by
  rw [spelling, fields_typeText hsolid, List.append_assoc, List.mem_append, List.mem_append] at h
  rcases h with h | h | h
  · simp [words, h]
  · exact mem_words_of_mem_typeWords h
  · simp [words, h]

/-- The slots for the words of the normal form. An `int` that is the type stands where another type
word would. -/
def respelled (s : Slots) : Slots :=
  match s.long with
  | none => { s with length := s.length.or s.int, int := none }
  | some _ => { s with int := none }

/-- With `long` all words go back to the slots that they came from. -/
theorem fit_long {sign : Option Text} (hsign : ∀ k ∈ sign, k = signedWord ∨ k = unsignedWord)
    (length : Option Text) (name : Text) :
    fit (sign.toList ++ (longWord :: length.toList) ++ [name]) =
      some { sign, long := some longWord, length, name } := by
  have hsigned : longWord ≠ signedWord := by decide
  have hunsigned : longWord ≠ unsignedWord := by decide
  rw [fit_concat]
  cases sign <;> cases length <;>
    simp_all [Presence.all, fill, takeWord, List.findSome?, Option.filter, wellSpelled]

/-- Without it a single type word goes to the slot for the length. -/
theorem fit_length {sign : Option Text} (hsign : ∀ k ∈ sign, k = signedWord ∨ k = unsignedWord)
    {w : Text} (hlong : w ≠ longWord)
    (hfirst : sign = none → w ≠ signedWord ∧ w ≠ unsignedWord) (name : Text) :
    fit (sign.toList ++ [w] ++ [name]) = some { sign, length := some w, name } := by
  cases sign with
  | none => exact fit_plain (hfirst rfl).1 (hfirst rfl).2 hlong name
  | some k => exact fit_sign_plain (hsign k rfl) hlong name

/-- **The words of the normal form** are assigned in the order of the slots, with none left out. -/
theorem assign_spelling (hs : s.IsSettled) (hsolid : ∀ w ∈ s.words, w.IsSolid)
    (htype : s.typeText ≠ []) : assign s.spelling = some s.respelled := by
  have hne : ¬ (s.long = none ∧ s.length = none ∧ s.int = none) := fun h =>
    htype ((typeText_eq_nil_iff hsolid).mpr h)
  rw [spelling, fields_typeText hsolid]
  obtain ⟨sign, long, length, int, name⟩ := s
  refine assign_of_fit ?_
  cases long with
  | some k =>
      obtain rfl : k = longWord := hs.valid.long k rfl
      exact fit_long hs.valid.sign length name
  | none =>
      cases length with
      | some w =>
          refine fit_length hs.valid.sign (fun hw => hs.long rfl (congrArg some hw)) ?_ name
          exact fun hsign => ⟨fun hw => (hs.sign hsign rfl).1 (congrArg some hw),
            fun hw => (hs.sign hsign rfl).2 (congrArg some hw)⟩
      | none =>
          obtain ⟨w, rfl⟩ := Option.ne_none_iff_exists'.mp fun hint => hne ⟨rfl, rfl, hint⟩
          obtain rfl : w = intWord := hs.valid.int w rfl
          exact fit_length hs.valid.sign (by decide) (fun _ => by decide) name

theorem sign_respelled (s : Slots) : s.respelled.sign = s.sign := by
  rw [respelled]
  split <;> rfl

theorem name_respelled (s : Slots) : s.respelled.name = s.name := by
  rw [respelled]
  split <;> rfl

/-- The slots for the normal form hold no other words. -/
theorem mem_words_of_mem_respelled {w : Text} (h : w ∈ s.respelled.words) : w ∈ s.words := by
  obtain ⟨sign, long, length, int, name⟩ := s
  cases long <;> cases length <;> cases int <;> simp [respelled, words] at h ⊢ <;> tauto

/-- **The words of the type** are the same in them, unless they are `long` and `int`. With nothing
behind it the `int` is a lone one, and no length any more. -/
theorem typeWords_respelled (hs : s.IsSettled)
    (hne : ¬ (s.long = some longWord ∧ s.length = some intWord)) :
    s.respelled.settleInt.typeWords = s.typeWords := by
  obtain ⟨sign, long, length, int, name⟩ := s
  cases long with
  | some k =>
      obtain rfl : k = longWord := hs.valid.long k rfl
      rw [respelled, settleInt, if_neg fun h => hne ⟨rfl, h.1⟩]
      rfl
  | none =>
      by_cases hlength : length.or int = some intWord
      · have htype : typeWords { sign, length, int, name } = [intWord] := by
          cases length with
          | none => exact congrArg Option.toList hlength
          | some w => exact congrArg Option.toList hlength
        rw [respelled, settleInt, if_pos ⟨hlength, rfl⟩, htype]
        rfl
      · rw [respelled, settleInt, if_neg fun h => hlength h.1]
        cases length <;> cases int <;> rfl

/-- The type `long int` is spelled by these two words, in the slots for `long` and for the length. -/
theorem typeText_eq_longInt_iff (hsolid : ∀ w ∈ s.words, w.IsSolid) :
    s.typeText = "long int" ↔ s.long = some longWord ∧ s.length = some intWord := by
  constructor
  · intro htype
    have hwords := fields_typeText hsolid
    rw [htype] at hwords
    obtain ⟨sign, long, length, int, name⟩ := s
    cases long <;> cases length <;> cases int <;> cases hwords
    all_goals exact ⟨rfl, rfl⟩
  · rintro ⟨hlong, hlength⟩
    rw [typeText_eq_join hsolid, typeWords, hlong, hlength]
    rfl

/-- **The type** of the normal form is the same, unless it is `long int`. -/
theorem typeText_respelled (hs : s.IsSettled) (hsolid : ∀ w ∈ s.words, w.IsSolid) :
    s.respelled.settleInt.typeText =
      if s.typeText = "long int" then longWord else s.typeText := by
  split
  · next htype =>
      obtain ⟨hlong, hlength⟩ := (typeText_eq_longInt_iff hsolid).mp htype
      rw [respelled, hlong]
      dsimp only
      rw [settleInt, if_pos ⟨hlength, rfl⟩]
      rfl
  · next htype =>
      have hsolid' : ∀ w ∈ s.respelled.settleInt.words, w.IsSolid := fun w hw =>
        hsolid w (mem_words_of_mem_respelled (words_settleInt s.respelled ▸ hw))
      rw [typeText_eq_join hsolid', typeText_eq_join hsolid,
        typeWords_respelled hs fun h => htype ((typeText_eq_longInt_iff hsolid).mpr h)]

/-- **The normal form is read back** as the same sign, type and name, unless the type is `long int`.
That is read as `long`. -/
theorem exists_assign_spelling (hs : s.IsSettled) (hsolid : ∀ w ∈ s.words, w.IsSolid)
    (htype : s.typeText ≠ []) :
    ∃ t, (assign s.spelling).map settleInt = some t ∧ t.sign = s.sign ∧ t.name = s.name ∧
      t.typeText = if s.typeText = "long int" then longWord else s.typeText := by
  refine ⟨s.respelled.settleInt, ?_, ?_, ?_, typeText_respelled hs hsolid⟩
  · rw [assign_spelling hs hsolid htype, Option.map_some]
  · rw [sign_settleInt, sign_respelled]
  · rw [name_settleInt, name_respelled]

/-- Solid words are assigned to slots that are settled and solid when a lone `int` is moved. -/
theorem exists_isSettled (hne : ws ≠ []) (hsolid : ∀ w ∈ ws, w.IsSolid) :
    ∃ s, (assign ws).map settleInt = some s ∧ s.IsSettled ∧ ∀ w ∈ s.words, w.IsSolid := by
  obtain ⟨s, hassign⟩ : ∃ s, assign ws = some s := by
    rw [← Option.ne_none_iff_exists', assign_eq_longestFit, Ne, longestFit_eq_none_iff]
    exact hne
  refine ⟨s.settleInt, by rw [hassign, Option.map_some], isSettled_of_assign hassign, fun w hw => ?_⟩
  rw [words_settleInt] at hw
  exact hsolid w ((words_suffix_of_assign hassign).subset hw)

end Slots

/-! ### Texts of names -/

section

variable {ws : List Text} (hne : ws ≠ []) (hws : ∀ w ∈ ws, w.IsName)

include hne hws

/-- **The tokens of joined names** are these names. -/
theorem Token.lex_join : lex (Text.join " " ws) = some (ws.map .word) := by
  have hscan : Lexeme.scan (Text.join " " ws) = some ((ws.map .word).map .leaf) := by
    have hall := Lexeme.scan_join hne hws Text.breaks_nil
    rw [List.append_nil, Lexeme.scan_nil] at hall
    rw [hall]
    simp
  have hmark : (Text.join " " ws).head? ≠ some '\uFEFF' := by
    obtain ⟨w, vs, rfl⟩ := List.exists_cons_of_ne_nil hne
    have hw := hws w (by simp)
    rw [Text.head?_join hw.isSolid.1]
    exact fun hhead => absurd (List.mem_of_mem_head? hhead)
      (hw.isSpelled.notMem (by decide +kernel) (by decide))
  rw [lex, if_neg hmark, hscan, Option.bind_some, ofLexemes?_map_leaf]

/-- **A declaration of joined names** has these words and nothing else. -/
theorem readPiece_join :
    readPiece (Text.join " " ws) = readDeclarator (Text.join " " ws) { words := ws } := by
  rw [readPiece, Token.lex_join hne hws]
  dsimp only
  rw [Declarator.read_words]

/-- Joined names are a piece of a line. -/
theorem isPiece_join : IsPiece (Text.join " " ws) := by
  have hsolid : ∀ w ∈ ws, w.IsSolid := fun w hw => (hws w hw).isSolid
  have hnotMem : ∀ c, isIdentifierPart c = false → c ≠ '#' → c ≠ ' ' → c ∉ Text.join " " ws := by
    intro c hpart hhash hblank hmem
    rcases Text.mem_join hmem with hmem | ⟨w, hw, hmem⟩
    · exact hblank (List.mem_singleton.mp hmem)
    · exact (hws w hw).isSpelled.notMem hpart hhash hmem
  have htrim := Text.trim_join hsolid
  constructor
  case ne_nil => exact Text.join_ne_nil hne hsolid
  case head => exact fun c hc => Text.isBlank_of_mem_head?_trim (htrim.symm ▸ hc)
  case last => exact fun c hc => Text.isBlank_of_mem_getLast?_trim (htrim.symm ▸ hc)
  case semicolon => exact hnotMem ';' (by decide) (by decide) (by decide)
  case brace =>
    exact ⟨hnotMem _ (by decide) (by decide) (by decide),
      hnotMem _ (by decide) (by decide) (by decide)⟩

end

/-- A piece with a semicolon behind it is the only piece of its line. -/
theorem IsPiece.pieces_eq {piece : Text} (h : IsPiece piece) : pieces (piece ++ ";") = [piece] := by
  have hpieces : pieces (piece ++ ";") = piecesBetween piece ++ pieces [] :=
    pieces_append_semicolon h.semicolon []
  rw [hpieces, piecesBetween_eq_singleton h.ne_nil h.head h.last h.brace.1 h.brace.2]
  rfl

/-- So a line with nothing else in it declares the member that the piece is read as. -/
theorem membersOf_of_isPiece {piece : Text} {m : Member} (hpiece : IsPiece piece)
    (h : readPiece piece = .member m) : membersOf (piece ++ ";") = [m] := by
  rw [membersOf, readings, hpiece.pieces_eq, List.map_singleton, h]
  rfl

/-! ### Members -/

/-- **The storage type** of a member and its name are the words of the normal form, with blanks
between. -/
theorem Slots.IsSettled.join_spelling {s : Slots} (hs : s.IsSettled)
    (hsolid : ∀ w ∈ s.words, w.IsSolid) (htype : s.typeText ≠ []) (d : Declarator) (source : Text) :
    Text.join " " s.spelling = (s.toMember d source).storageType ++ ' ' :: s.name := by
  have hne : Text.fields s.typeText ≠ [] := by
    rw [Slots.fields_typeText hsolid]
    exact fun hnil => htype ((Slots.typeText_eq_nil_iff hsolid).mpr
      (Slots.typeWords_eq_nil_iff.mp hnil))
  have hjoin : Text.join " " (Text.fields s.typeText) = s.typeText := by
    rw [Slots.fields_typeText hsolid, Slots.typeText_eq_join hsolid]
  have hfront : Text.join " " (s.sign.toList ++ Text.fields s.typeText) =
      (s.toMember d source).storageType := by
    rw [Member.storageType, Slots.toMember, BaseType.name_ofName]
    cases hsign : s.sign with
    | none => exact hjoin
    | some k =>
        have hkeyword : Text.join " " (k :: Text.fields s.typeText) = k ++ " " ++ s.typeText := by
          rw [Text.join, hjoin]
          exact hne
        rcases hs.valid.sign k hsign with rfl | rfl
        · exact hkeyword
        · exact hkeyword
  rw [Slots.spelling, Text.join_concat (by simp [hne]), hfront]
  simp

/-- **The text of the normal form** is read as a member of the same sign, type and name. -/
theorem Slots.IsSettled.readPiece_spelling {s : Slots} (hs : s.IsSettled)
    (hnames : ∀ w ∈ s.words, w.IsName) (htype : s.typeText ≠ []) (hother : s.typeText ≠ "long int") :
    readPiece (Text.join " " s.spelling) = .member (s.toMember {} (Text.join " " s.spelling)) := by
  have hsolid : ∀ w ∈ s.words, w.IsSolid := fun w hw => (hnames w hw).isSolid
  have hspelling : ∀ w ∈ s.spelling, w.IsName := fun w hw =>
    hnames w (Slots.mem_words_of_mem_spelling hsolid hw)
  have hne : s.name ≠ [] := (hsolid s.name (by simp [Slots.words])).1
  obtain ⟨t, ht, hsign, hname, htext⟩ := Slots.exists_assign_spelling hs hsolid htype
  rw [if_neg hother] at htext
  rw [readPiece_join (by simp [Slots.spelling]) hspelling, readDeclarator, ht]
  dsimp only
  rw [if_neg (by simp [htext, htype, hname, hne]), Slots.toMember, Slots.toMember, hsign, hname, htext]

/-- **A member that has been read** has a storage type that is read back, with the name behind it, as
a member of the same sign and type. -/
theorem membersOf_storageType {piece : Text} {m : Member} (h : readPiece piece = .member m)
    (hother : m.base.name ≠ "long int") :
    membersOf (m.storageType ++ ' ' :: (m.name ++ ";")) =
      [{ m with bits := 0, isArray := false, source := m.storageType ++ ' ' :: m.name }] := by
  obtain ⟨-, -, htype⟩ := source_of_readPiece h
  obtain ⟨ts, d, u, hlex, hread, hassign, rfl⟩ := exists_of_readPiece h
  have hs := Slots.isSettled_of_assign hassign
  have hnames : ∀ w ∈ u.settleInt.words, w.IsName := fun w hw =>
    isName_of_mem_words hlex hread hassign hw
  rw [Slots.toMember, BaseType.name_ofName] at htype hother
  have hsolid : ∀ w ∈ u.settleInt.words, w.IsSolid := fun w hw => (hnames w hw).isSolid
  have hpiece : IsPiece (Text.join " " u.settleInt.spelling) :=
    isPiece_join (by simp [Slots.spelling]) fun w hw =>
      hnames w (Slots.mem_words_of_mem_spelling hsolid hw)
  have hmembers := membersOf_of_isPiece hpiece (hs.readPiece_spelling hnames htype hother)
  rw [hs.join_spelling hsolid htype d piece, List.append_assoc] at hmembers
  exact hmembers

/-- **Normal forms are stable.** Solid words are assigned to slots that spell no type exactly if there
is no word in the slots for it. If they do spell one, the normal form is assigned to slots with the
same sign, type and name, where only the type `long int` becomes `long`. So the storage type of a
member of any line is read back, with its name behind it, as the same sign and type. -/
theorem normalForm_stable :
    (∀ ws : List Text, ws ≠ [] → (∀ w ∈ ws, w.IsSolid) →
      ∃ s, (Slots.assign ws).map Slots.settleInt = some s ∧
        (s.typeText = [] ↔ s.long = none ∧ s.length = none ∧ s.int = none) ∧
        (s.typeText ≠ [] →
          ∃ t, (Slots.assign s.spelling).map Slots.settleInt = some t ∧
            t.sign = s.sign ∧ t.name = s.name ∧
            (s.typeText ≠ "long int" → t.typeText = s.typeText) ∧
            (s.typeText = "long int" → t.typeText = "long"))) ∧
    (∀ line : Text, ∀ m ∈ membersOf line, m.base.name ≠ "long int" →
      membersOf (m.storageType ++ ' ' :: (m.name ++ ";")) =
        [{ m with bits := 0, isArray := false, source := m.storageType ++ ' ' :: m.name }]) := by
  constructor
  · intro ws hne hws
    obtain ⟨s, hassign, hs, hsolid⟩ := Slots.exists_isSettled hne hws
    refine ⟨s, hassign, Slots.typeText_eq_nil_iff hsolid, fun htype => ?_⟩
    obtain ⟨t, ht, hsign, hname, htext⟩ := Slots.exists_assign_spelling hs hsolid htype
    exact ⟨t, ht, hsign, hname, fun hother => htext.trans (if_neg hother),
      fun hlongInt => htext.trans (if_pos hlongInt)⟩
  · intro line m hm hlongInt
    obtain ⟨piece, -, hread⟩ := mem_membersOf_iff.mp hm
    exact membersOf_storageType hread hlongInt

/-- The words of an array that is `unsigned long int`, and the member that they declare. -/
theorem normalForm_stable_longInt :
    (∃ s t, (Slots.assign ["static", "unsigned", "long", "int", "x"]).map Slots.settleInt = some s ∧
      (Slots.assign ["unsigned", "long", "x"]).map Slots.settleInt = some t ∧
      s.typeText = "long" ∧ t.typeText = "long" ∧ t.sign = s.sign ∧ t.name = s.name) ∧
    ∃ m ∈ membersOf "int i; static unsigned long int x[2];",
      m.storageType = "unsigned long" ∧ m.isArray = true ∧
      membersOf "unsigned long x;" =
        [{ m with bits := 0, isArray := false, source := "unsigned long x" }] := by
  obtain ⟨hwords, hmembers⟩ := normalForm_stable
  constructor
  · obtain ⟨s, hs, -, hstable⟩ := hwords ["static", "unsigned", "long", "int", "x"] (by decide)
      (by decide)
    have hassign : (Slots.assign ["static", "unsigned", "long", "int", "x"]).map Slots.settleInt =
        some { sign := unsignedWord, long := longWord, int := intWord, name := "x" } := by decide
    obtain rfl := Option.some.inj (hs.symm.trans hassign)
    obtain ⟨t, ht, hsign, hname, htype, -⟩ := hstable (by decide)
    exact ⟨_, t, hs, ht, by decide, htype (by decide), hsign, hname⟩
  · have hm : (⟨.unsigned, "x", .long, 0, 0, true, "static unsigned long int x[2]"⟩ : Member) ∈
        membersOf "int i; static unsigned long int x[2];" := by decide +kernel
    exact ⟨_, hm, rfl, rfl, hmembers _ _ hm (by decide)⟩

end StructEndian
