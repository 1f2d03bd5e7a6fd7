import Mathlib.Data.List.TakeWhile
import StructEndian.Proofs.Declaration.Pieces
import StructEndian.Proofs.Generation.Outline

/-!
# Reading the written functions

Without a listing the output is the two functions with an empty line in between. Here it is read
from the outside: which lines are the function for a direction, what is its signature, and what
stands between its braces. No line of a function is empty and no statement is a lone brace, so
what is read is what was written. A listing in front is passed over when the statements are read.

## Main definitions

* `functionIn`, `signatureIn`, `statementsIn`: the function for a direction, its signature and its
  statement lines, in an output.
* `statementLines`: the lines that statements are written as.

## Main results

* `functionIn_functions`, `signatureIn_functions`, `statementsIn_functions`: the parts of two
  written functions are found.
* `statementsIn_lines`: the statements of a plan are found, with a listing in front or without one.
* `generate_eq_ok_iff`: what is behind an output, from packing to the plan.
* `map_statementsIn_generate`: the statement lines of an output are those of the outline.
* `exists_signature_of_generate`: the signatures of an output are those of a conversion.
-/

namespace StructEndian

/-! ### The parts of an output -/

/-- The lines of the **function** for a direction: those in front of the first empty line, or
those behind it. -/
def functionIn (d : Direction) (out : List Text) : List Text :=
  match d with
  | .toLittle => out.takeWhile (· ≠ [])
  | .toBig => (out.dropWhile (· ≠ [])).drop 1

/-- The **signature** for a direction: the first line of its function. -/
def signatureIn (d : Direction) (out : List Text) : Option Text :=
  (functionIn d out).head?

/-- The **statement lines** for a direction: the lines between the braces of its function. -/
def statementsIn (d : Direction) (out : List Text) : List Text :=
  (((functionIn d out).dropWhile (· ≠ ['\x7b'])).drop 1).takeWhile (· ≠ ['\x7d'])

/-- In an empty output there are no statements. -/
@[simp] theorem statementsIn_nil (d : Direction) : statementsIn d [] = [] := by
  cases d <;> rfl

/-- The lines that **statements** are written as, between the braces. -/
def statementLines (d : Direction) (body : List Statement) : List Text :=
  (body.flatMap (Statement.lines d)).map (indentation ++ ·)

theorem statementLines_append (d : Direction) (body body' : List Statement) :
    statementLines d (body ++ body') = statementLines d body ++ statementLines d body' := by
  rw [statementLines, List.flatMap_append, List.map_append]
  rfl

/-! ### Written functions -/

namespace Conversion

variable {c : Conversion} {d : Direction}

/-- A statement line starts with a blank. -/
theorem exists_of_mem_bodyLines {line : Text} (h : line ∈ c.bodyLines d) :
    ∃ rest, line = ' ' :: rest := by
  obtain ⟨rest, -, rfl⟩ := List.mem_map.mp h
  exact ⟨_, rfl⟩

/-- The signature starts with a letter. -/
theorem exists_signature (c : Conversion) (d : Direction) :
    ∃ rest, c.signature d = 'v' :: rest :=
  ⟨_, rfl⟩

/-- No line of a function is empty. -/
theorem ne_nil_of_mem_function {line : Text} (h : line ∈ c.function d) : line ≠ [] := by
  rw [function, List.mem_cons, List.mem_cons, List.mem_append, List.mem_singleton] at h
  rcases h with rfl | rfl | h | rfl
  · obtain ⟨rest, hrest⟩ := c.exists_signature d
    rw [hrest]
    exact List.cons_ne_nil _ _
  · exact List.cons_ne_nil _ _
  · obtain ⟨rest, rfl⟩ := exists_of_mem_bodyLines h
    exact List.cons_ne_nil _ _
  · exact List.cons_ne_nil _ _

/-- **The functions are found** in what is written. -/
theorem functionIn_functions (c : Conversion) (d : Direction) :
    functionIn d c.functions = c.function d := by
  have hne : ∀ line ∈ c.function .toLittle, decide (line ≠ []) = true := fun line h =>
    decide_eq_true (ne_nil_of_mem_function h)
  cases d with
  | toLittle =>
      rw [functionIn, functions, List.takeWhile_append_of_pos hne, List.takeWhile_cons,
        if_neg (by simp), List.append_nil]
  | toBig =>
      rw [functionIn, functions, List.dropWhile_append_of_pos hne, List.dropWhile_cons,
        if_neg (by simp), List.drop_one, List.tail_cons]

/-- **The signatures are found** in what is written. -/
theorem signatureIn_functions (c : Conversion) (d : Direction) :
    signatureIn d c.functions = some (c.signature d) := by
  rw [signatureIn, functionIn_functions]
  rfl

/-- **The statement lines are found** in what is written. -/
theorem statementsIn_functions (c : Conversion) (d : Direction) :
    statementsIn d c.functions = statementLines d c.body := by
  have hbody : ∀ line ∈ c.bodyLines d, decide (line ≠ ['\x7d']) = true := fun line h => by
    obtain ⟨rest, rfl⟩ := exists_of_mem_bodyLines h
    simp
  have hopen : (c.function d).dropWhile (· ≠ ['\x7b']) =
      ['\x7b'] :: (c.bodyLines d ++ [['\x7d']]) := by
    obtain ⟨rest, hrest⟩ := c.exists_signature d
    rw [function, hrest, List.dropWhile_cons, if_pos (by simp), List.dropWhile_cons,
      if_neg (by simp)]
  rw [statementsIn, functionIn_functions, hopen, List.drop_one, List.tail_cons,
    List.takeWhile_append_of_pos hbody, List.takeWhile_cons, if_neg (by simp), List.append_nil]
  rfl

/-- A signature is written from the tag and the mark for functions that do not throw. -/
theorem signature_congr {c' : Conversion} (htag : c.tag = c'.tag)
    (hnoThrow : c.noThrow = c'.noThrow) : c.signature d = c'.signature d := by
  obtain ⟨tag, noThrow, body⟩ := c
  obtain ⟨tag', noThrow', body'⟩ := c'
  obtain rfl : tag = tag' := htag
  obtain rfl : noThrow = noThrow' := hnoThrow
  rfl

end Conversion

/-! ### Written plans -/

/-- A line of a listing starts with a slash or a blank. -/
theorem exists_of_mem_listing {model : DataModel} {tag : Text} {rs : List Region} {line : Text}
    (h : line ∈ listing model tag rs) : ∃ c rest, line = c :: rest ∧ (c = '/' ∨ c = ' ') := by
  rw [listing] at h
  rcases List.mem_cons.mp h with rfl | h
  · exact ⟨_, _, rfl, Or.inl rfl⟩
  rcases List.mem_cons.mp h with rfl | h
  · exact ⟨_, _, rfl, Or.inr rfl⟩
  rcases List.mem_cons.mp h with rfl | h
  · exact ⟨_, _, rfl, Or.inr rfl⟩
  rcases List.mem_append.mp h with h | h
  · obtain ⟨row, -, rfl⟩ := List.mem_map.mp h
    exact ⟨_, _, Text.trimEnd_append_cons (c := '*') (by decide) [' '] _, Or.inr rfl⟩
  · obtain rfl := List.mem_singleton.mp h
    exact ⟨_, _, rfl, Or.inr rfl⟩

/-- **A listing is passed over** when statements are read. -/
theorem statementsIn_listing_append (d : Direction) (model : DataModel) (tag : Text)
    (rs : List Region) (out : List Text) :
    statementsIn d (listing model tag rs ++ out) = statementsIn d out := by
  have hne : ∀ line ∈ listing model tag rs, decide (line ≠ []) = true := fun line h => by
    obtain ⟨c, rest, rfl, -⟩ := exists_of_mem_listing h
    simp
  have hopen : ∀ line ∈ listing model tag rs, decide (line ≠ ['\x7b']) = true := fun line h => by
    obtain ⟨c, rest, rfl, rfl | rfl⟩ := exists_of_mem_listing h <;> simp
  cases d with
  | toLittle =>
      rw [statementsIn, functionIn, List.takeWhile_append_of_pos hne,
        List.dropWhile_append_of_pos hopen]
      rfl
  | toBig =>
      rw [statementsIn, functionIn, List.dropWhile_append_of_pos hne]
      rfl

/-- **The statement lines of a plan are found**, with a listing in front or without one. -/
theorem statementsIn_lines (o : Options) (p : Plan) (d : Direction) :
    statementsIn d (p.lines o) = statementLines d (p.conversion o).body := by
  rw [Plan.lines]
  cases o.layout with
  | false => exact Conversion.statementsIn_functions _ d
  | true =>
      rw [if_pos rfl, statementsIn_listing_append]
      exact Conversion.statementsIn_functions _ d

/-! ### Generated outputs -/

/-- **What is behind an output**: packed members, their regions and the plan that is carried
out. -/
theorem generate_eq_ok_iff {o : Options} {lines out : List Text} (h : declaredMembers lines ≠ []) :
    generate o lines = .ok out ↔ ∃ grouped n rs,
      pack o.model (declaredMembers lines) = .ok (grouped, n) ∧
      regions o.model grouped = .ok rs ∧
      Plan.lines o ⟨o.nameFor (structTag lines), (declaredMembers lines).length, n, rs⟩ = out := by
  rw [generate_of_ne_nil h, Except.map_eq_ok_iff]
  constructor
  · rintro ⟨p, hp, rfl⟩
    obtain ⟨⟨grouped, n⟩, hpack, hp⟩ := Except.bind_eq_ok_iff.mp hp
    obtain ⟨rs, hrs, hp⟩ := Except.bind_eq_ok_iff.mp hp
    obtain rfl := Except.ok.inj hp
    exact ⟨grouped, n, rs, hpack, hrs, rfl⟩
  · rintro ⟨grouped, n, rs, hpack, hrs, rfl⟩
    refine ⟨_, Except.bind_eq_ok_iff.mpr ⟨_, hpack, ?_⟩, rfl⟩
    exact Except.bind_eq_ok_iff.mpr ⟨rs, hrs, rfl⟩

/-- An output is empty, or there is a plan behind it. -/
theorem generate_cases {o : Options} {lines out : List Text} (h : generate o lines = .ok out) :
    out = [] ∨ ∃ grouped n rs, pack o.model (declaredMembers lines) = .ok (grouped, n) ∧
      regions o.model grouped = .ok rs ∧
      Plan.lines o ⟨o.nameFor (structTag lines), (declaredMembers lines).length, n, rs⟩ = out := by
  by_cases hne : out = []
  · exact Or.inl hne
  · exact Or.inr ((generate_eq_ok_iff (declaredMembers_ne_nil h hne)).mp h)

/-- **The statement lines of an output** are those of the outline, also where there are no members
and nothing is written; and one is an error where the other is. -/
theorem map_statementsIn_generate {o : Options} (ho : o.layout = false) (lines : List Text)
    (d : Direction) :
    (generate o lines).map (statementsIn d) =
      ((outline o.model (declaredMembers lines)).map Outline.body).map (statementLines d) := by
  by_cases h : declaredMembers lines = []
  · rw [generate_eq_nil_of_declaredMembers h, h]
    simp [outline, statementLines]
  · rw [generate_eq_outline ho h, Except.map_map]
    exact congrArg (Except.map · _) (funext fun body => Conversion.statementsIn_functions _ d)

/-- **The signatures of an output** that is not empty are those of a conversion under the name
that the options and the tag lead to. -/
theorem exists_signature_of_generate {o : Options} (ho : o.layout = false) {lines out : List Text}
    (h : generate o lines = .ok out) (hne : declaredMembers lines ≠ []) :
    ∃ c : Conversion, c.tag = o.nameFor (structTag lines) ∧ c.noThrow = o.noThrow ∧
      ∀ d, signatureIn d out = some (c.signature d) := by
  rw [generate_eq_outline ho hne] at h
  obtain ⟨body, -, rfl⟩ := Except.map_eq_ok_iff.mp h
  exact ⟨_, rfl, rfl, Conversion.signatureIn_functions _⟩

end StructEndian
