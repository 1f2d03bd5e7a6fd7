import StructEndian.Proofs.Generation.Output
import StructEndian.Proofs.Region.Partition

/-!
# The two functions mirror each other

The functions for the two directions are written one after the other, and each goes over all
regions anew. Here their lines are traced back to what they are made from: a region, the primitive
of its type and a template in which the name of a converting function is left open. The list of
these is the same for both directions, so the functions have line for line the same region, the
same primitive and the same template, and differ in nothing but the names that are filled in.

## Main definitions

* `Template`, `Template.fill`: a line of a body with the converting function left open.
* `BodyLine`, `Region.bodyLines`: what the lines for a region are made from.
* `Region.lineCount`: how many lines there are for a region.
* `IsMirrored`: what is claimed of two functions.

## Main results

* `statementLines_filterMap`: statement lines are made from the same body lines in both directions.
* `generate_mirror`: the functions of an output are mirrored.
-/

namespace StructEndian

/-! ### Body lines -/

/-- A **template** of a line between the braces of a function. The name of the converting function
is left open. -/
inductive Template
  /-- The head of the loop over the array of the given name. Nothing is converted here. -/
  | loop (name : Text)
  /-- What stands at a place is handed to the function and its answer is put back there. -/
  | exchange (margin place : Text)
deriving DecidableEq, Repr

/-- **Fill in** the name of the converting function. -/
def Template.fill (function : Text) : Template → Text
  | loop name => indentation ++ loopHeader name
  | exchange margin place => margin ++ place ++ " = " ++ function ++ "(" ++ place ++ ");"

/-- What a **body line** is made from. -/
structure BodyLine where
  /-- The region that is converted. -/
  region : Region
  /-- The primitive that converts it. -/
  primitive : Primitive
  /-- The line, apart from the name of the converting function. -/
  template : Template
deriving DecidableEq, Repr

/-- The text of a body line for one direction. -/
def BodyLine.text (d : Direction) (l : BodyLine) : Text :=
  l.template.fill (l.primitive.name d)

namespace Region

/-- The place that the conversion of a region reads and writes. -/
def place : Region → Text
  | scalar m => memberText m.name
  | array m => elementText m.name
  | bits first _ _ address => storageText first.storageType address

/-- The templates of the lines for a region. -/
def templates : Region → List Template
  | r@(array m) => [.loop m.name, .exchange (indentation ++ indentation) r.place]
  | r => [.exchange indentation r.place]

/-- The **body lines** for a region. There are none if its type has no primitive. -/
def bodyLines (model : DataModel) (r : Region) : List BodyLine :=
  match model.primitive r.lead.base with
  | none => []
  | some q => r.templates.map (⟨r, q, ·⟩)

/-- **How many lines** there are for a region: none if its type has no primitive, two for an array
and one for anything else. -/
def lineCount (model : DataModel) (r : Region) : Nat :=
  match model.primitive r.lead.base, r with
  | none, _ => 0
  | some _, array _ => 2
  | some _, scalar _ | some _, bits _ _ _ _ => 1

theorem length_bodyLines (model : DataModel) (r : Region) :
    (r.bodyLines model).length = r.lineCount model := by
  cases hq : model.primitive r.lead.base with
  | none => simp [bodyLines, lineCount, hq]
  | some q => cases r <;> simp [bodyLines, lineCount, templates, hq]

/-- The statement of a region, if it has one, is written as its body lines. -/
theorem map_text_bodyLines (model : DataModel) (d : Direction) (r : Region) :
    (r.bodyLines model).map (BodyLine.text d) =
      statementLines d (r.statement? model).toList := by
  rw [bodyLines, statement?]
  cases model.primitive r.lead.base with
  | none => rfl
  | some q =>
      cases r <;>
        simp [templates, BodyLine.text, Template.fill, statementLines, Statement.lines,
          Statement.place, Statement.primitive, place, assignment, List.append_assoc]

/-- Margins are blank. -/
theorem eq_of_mem_indentation : ∀ c ∈ indentation, c = ' ' := by
  simp [indentation]

/-- **Where a body line comes from**: its primitive is that of its region, and it is either the
head of a loop, the same in both directions, or behind some blanks an assignment to the place of
the region from that place. -/
theorem of_mem_bodyLines {model : DataModel} {r : Region} {l : BodyLine}
    (h : l ∈ r.bodyLines model) :
    l.region = r ∧ model.primitive r.lead.base = some l.primitive ∧
      ((∃ m, r = .array m ∧ ∀ d, l.text d = indentation ++ loopHeader m.name) ∨
        ∃ margin : Text, (∀ c ∈ margin, c = ' ') ∧ ∀ d, l.text d =
          margin ++ r.place ++ " = " ++ l.primitive.name d ++ "(" ++ r.place ++ ");") := by
  rw [bodyLines] at h
  cases hq : model.primitive r.lead.base with
  | none => simp [hq] at h
  | some q =>
      rw [hq] at h
      obtain ⟨template, htemplate, rfl⟩ := List.mem_map.mp h
      refine ⟨rfl, rfl, ?_⟩
      cases r with
      | scalar m =>
          obtain rfl := List.mem_singleton.mp htemplate
          exact Or.inr ⟨_, eq_of_mem_indentation, fun d => rfl⟩
      | array m =>
          rcases List.mem_pair.mp htemplate with rfl | rfl
          · exact Or.inl ⟨m, rfl, fun d => rfl⟩
          · exact Or.inr ⟨_, List.forall_mem_append.mpr
              ⟨eq_of_mem_indentation, eq_of_mem_indentation⟩, fun d => rfl⟩
      | bits first others storage address =>
          obtain rfl := List.mem_singleton.mp htemplate
          exact Or.inr ⟨_, eq_of_mem_indentation, fun d => rfl⟩

end Region

/-- **The statement lines of regions** are made from body lines in which the direction has no
part. -/
theorem statementLines_filterMap (model : DataModel) (d : Direction) (rs : List Region) :
    statementLines d (rs.filterMap (Region.statement? model)) =
      (rs.flatMap (Region.bodyLines model)).map (BodyLine.text d) := by
  induction rs with
  | nil => rfl
  | cons r rs ih =>
      rw [List.flatMap_cons, List.map_append, Region.map_text_bodyLines, ← ih,
        ← statementLines_append, List.filterMap_cons]
      cases r.statement? model <;> rfl

/-- The body lines of some regions are as many as the regions ask for. -/
theorem length_flatMap_bodyLines (model : DataModel) (rs : List Region) :
    (rs.flatMap (Region.bodyLines model)).length = (rs.map (Region.lineCount model)).sum := by
  rw [List.length_flatMap]
  exact congrArg List.sum (List.map_congr_left fun r _ => r.length_bodyLines model)

/-- The lines between the braces of a function are the texts of body lines. -/
theorem Conversion.bodyLines_ofRegions (model : DataModel) (tag : Text) (noThrow : Bool)
    (rs : List Region) (d : Direction) :
    (ofRegions model tag noThrow rs).bodyLines d =
      (rs.flatMap (Region.bodyLines model)).map (BodyLine.text d) :=
  statementLines_filterMap model d rs

/-! ### Both functions -/

/-- An output is **mirrored** if it consists of two functions for the same regions that differ in
nothing but the byte order and the names of the converting functions. -/
structure IsMirrored (o : Options) (lines : List Text) (rs : List Region) (out : List Text) :
    Prop where
  /-- The regions are made of the declared members in their order, each in some group. -/
  members : List.Forall₂ (fun m m' => m' = m.inGroup m'.group) (declaredMembers lines)
    (rs.flatMap Region.members)
  /-- There is nothing in the output but the two functions and an empty line. -/
  functions : out = functionIn .toLittle out ++ [] :: functionIn .toBig out
  /-- Both functions are of the length that the regions ask for. -/
  length : ∀ d, (functionIn d out).length = 3 + (rs.map (Region.lineCount o.model)).sum
  /-- A signature and the texts of the body lines are all that there is to a function. -/
  function : ∃ front back : Text, ∀ d, functionIn d out =
    (front ++ d.suffix ++ back) :: ['\x7b'] ::
      ((rs.flatMap (Region.bodyLines o.model)).map (BodyLine.text d) ++ [['\x7d']])
  /-- The text of a body line is the head of a loop, or converts its region by its primitive. -/
  line : ∀ l ∈ rs.flatMap (Region.bodyLines o.model),
    l.region ∈ rs ∧ o.model.primitive l.region.lead.base = some l.primitive ∧
      ((∃ m, l.region = .array m ∧ ∀ d, l.text d = indentation ++ loopHeader m.name) ∨
        ∃ margin : Text, (∀ c ∈ margin, c = ' ') ∧ ∀ d, l.text d =
          margin ++ l.region.place ++ " = " ++ l.primitive.name d ++
            "(" ++ l.region.place ++ ");")

/-- What stands in a signature in front of the byte order, and what stands behind it. -/
theorem Conversion.exists_signature_eq (c : Conversion) :
    ∃ front back : Text, ∀ d, c.signature d = front ++ d.suffix ++ back := by
  refine ⟨"void " ++ ("Reverse" ++ c.tag ++ "To"), "Endian" ++ ("(" ++ c.tag ++ "* " ++
    parameter ++ ")" ++ if c.noThrow then (" noexcept" : Text) else []), fun d => ?_⟩
  unfold signature functionName
  simp only [List.append_assoc]

/-- **The two functions mirror each other.** Without a listing, an output that is not empty
consists of a function for each direction, made from the regions of the packed members by the same
body lines in the same order. -/
theorem generate_mirror (o : Options) (ho : o.layout = false) {lines out : List Text}
    (h : generate o lines = .ok out) (hne : out ≠ []) :
    ∃ grouped n rs, pack o.model (declaredMembers lines) = .ok (grouped, n) ∧
      regions o.model grouped = .ok rs ∧ IsMirrored o lines rs out := by
  obtain ⟨grouped, n, rs, hpack, hrs, rfl⟩ := (generate_cases h).resolve_left hne
  refine ⟨grouped, n, rs, hpack, hrs, ?_⟩
  set c := Conversion.ofRegions o.model (o.nameFor (structTag lines)) o.noThrow rs
  have hout : Plan.lines o ⟨o.nameFor (structTag lines), (declaredMembers lines).length, n, rs⟩ =
      c.functions := by
    rw [Plan.lines, ho]
    rfl
  have hbody : ∀ d, c.bodyLines d =
      (rs.flatMap (Region.bodyLines o.model)).map (BodyLine.text d) :=
    Conversion.bodyLines_ofRegions _ _ _ rs
  rw [hout]
  constructor
  case members =>
    rw [flatMap_members_of_pack hpack hrs]
    exact pack_forall₂ hpack
  case functions =>
    rw [Conversion.functionIn_functions, Conversion.functionIn_functions]
    rfl
  case length =>
    intro d
    rw [Conversion.functionIn_functions, Conversion.function, hbody, List.length_cons,
      List.length_cons, List.length_append, List.length_map, length_flatMap_bodyLines,
      List.length_singleton]
    omega
  case function =>
    obtain ⟨front, back, hsignature⟩ := c.exists_signature_eq
    refine ⟨front, back, fun d => ?_⟩
    rw [Conversion.functionIn_functions, Conversion.function, hsignature, hbody]
  case line =>
    intro l hl
    obtain ⟨r, hr, hl⟩ := List.mem_flatMap.mp hl
    obtain ⟨rfl, hline⟩ := Region.of_mem_bodyLines hl
    exact ⟨hr, hline⟩

/-- Lines with a member of every kind: two bit-fields in one storage, an array, a member that is not
converted and a number. -/
def assortedLines : List Text :=
  ["struct Frame \x7b int low : 20; int high : 12;", "  short xs[4]; char mark; // kept",
    "  float rate; \x7d;"]

/-- Members of every kind are mirrored. -/
theorem generate_mirror_assortedLines :
    ∃ out, generate {} assortedLines = .ok out ∧ out ≠ [] ∧
      ∃ grouped n rs, pack {} (declaredMembers assortedLines) = .ok (grouped, n) ∧
        regions {} grouped = .ok rs ∧ IsMirrored {} assortedLines rs out := by
  obtain ⟨out, h, hne⟩ := exists_generate_ne_nil {} assortedLines (by decide +kernel)
    (by decide +kernel)
  exact ⟨out, h, hne, generate_mirror {} rfl h hne⟩

end StructEndian
