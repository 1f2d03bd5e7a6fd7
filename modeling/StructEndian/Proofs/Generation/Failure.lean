import StructEndian.Generate
import StructEndian.Proofs.Packing.Failure
import StructEndian.Proofs.Region.Walk

/-!
# When a generation fails

A generation can fail in two places: when the members are packed, and again when the packed
members are cut into regions. The second never happens, since packing lets no bit-field through
whose type has no storage. So what packing answers is what the generation answers, and neither
the width of `long` nor any other option has a part in it.

## Main results

* `exists_regions_of_pack`: packed members can be cut into regions, in every data model.
* `planMembers_eq_error_iff`: a plan fails exactly if packing does.
* `generate_eq_error_iff`: a generation fails on the first unsupported member.
* `exists_generate_eq_ok_iff`: it succeeds exactly if every member is supported.
* `generate_eq_nil_iff`: nothing is written exactly if there are no members.
* `generate_failure`: all of it about a list of lines.
-/

namespace StructEndian

/-! ### Plans -/

/-- **Packed members can be cut into regions**, also in another data model than the one that
they were packed in. -/
theorem exists_regions_of_pack {model : DataModel} (model' : DataModel) {ms grouped : List Member}
    {n : Nat} (h : pack model ms = .ok (grouped, n)) : ∃ rs, regions model' grouped = .ok rs :=
  exists_regionsFrom {} grouped fun m hm hb =>
    exists_bitStorage model' (bitStorage_of_mem_pack h m hm hb)

/-- **A plan fails** exactly on the first unsupported member, and answers its text. -/
theorem planMembers_eq_error_iff {o : Options} {tag : Text} {ms : List Member}
    {e : UnsupportedBitField} :
    planMembers o tag ms = .error e ↔
      ∃ m, ms.find? (·.IsUnsupported) = some m ∧ e = ⟨m.source⟩ := by
  rw [← pack_eq_error_iff o.model, planMembers]
  cases hp : pack o.model ms with
  | error e' => simp
  | ok packed =>
      obtain ⟨rs, hrs⟩ := exists_regions_of_pack o.model hp
      simp [hrs, pure, Except.pure]

/-! ### Generations -/

/-- Something is planned for a list of lines that declare members. -/
theorem plan_of_ne_nil {o : Options} {lines : List Text} (h : declaredMembers lines ≠ []) :
    plan o lines = (planMembers o (structTag lines) (declaredMembers lines)).map some := by
  rw [plan]
  split
  · next hnil => exact absurd hnil h
  · rfl

/-- The lines that are written for a list of lines that declare members are those of its plan. -/
theorem generate_of_ne_nil {o : Options} {lines : List Text} (h : declaredMembers lines ≠ []) :
    generate o lines =
      (planMembers o (structTag lines) (declaredMembers lines)).map (Plan.lines o) := by
  rw [generate, plan_of_ne_nil h]
  cases planMembers o (structTag lines) (declaredMembers lines) <;> rfl

/-- **A generation fails** exactly on the first unsupported member, and answers its text. -/
theorem generate_eq_error_iff {o : Options} {lines : List Text} {e : UnsupportedBitField} :
    generate o lines = .error e ↔
      ∃ m, (declaredMembers lines).find? (·.IsUnsupported) = some m ∧ e = ⟨m.source⟩ := by
  by_cases h : declaredMembers lines = []
  · simp [generate_eq_nil_of_declaredMembers h, h]
  · rw [generate_of_ne_nil h, Except.map_eq_error_iff, planMembers_eq_error_iff]

/-- A generation fails exactly if some member is unsupported. -/
theorem exists_generate_eq_error_iff {o : Options} {lines : List Text} :
    (∃ e, generate o lines = .error e) ↔ ∃ m ∈ declaredMembers lines, m.IsUnsupported := by
  have hfind : (∃ m, (declaredMembers lines).find? (·.IsUnsupported) = some m) ↔
      ∃ m ∈ declaredMembers lines, m.IsUnsupported := by
    rw [← Option.isSome_iff_exists]
    simp
  rw [← hfind]
  constructor
  · rintro ⟨e, he⟩
    obtain ⟨m, hm, -⟩ := generate_eq_error_iff.mp he
    exact ⟨m, hm⟩
  · rintro ⟨m, hm⟩
    exact ⟨_, generate_eq_error_iff.mpr ⟨m, hm, rfl⟩⟩

/-- **A generation succeeds** exactly if every member is supported. -/
theorem exists_generate_eq_ok_iff {o : Options} {lines : List Text} :
    (∃ out, generate o lines = .ok out) ↔ ∀ m ∈ declaredMembers lines, ¬ m.IsUnsupported := by
  rw [Except.exists_eq_ok_iff, exists_generate_eq_error_iff]
  simp only [not_exists, not_and]

/-- A plan that is carried out writes something, and its first line is not empty. -/
theorem Plan.exists_lines_eq_cons (o : Options) (p : Plan) :
    ∃ c s later, p.lines o = (c :: s) :: later := by
  unfold Plan.lines
  cases o.layout with
  | false | true => exact ⟨_, _, _, rfl⟩

theorem Plan.lines_ne_nil (o : Options) (p : Plan) : p.lines o ≠ [] := by
  obtain ⟨c, s, later, h⟩ := p.exists_lines_eq_cons o
  simp [h]

/-- **Nothing is written** exactly if there are no members. -/
theorem generate_eq_nil_iff {o : Options} {lines : List Text} :
    generate o lines = .ok [] ↔ declaredMembers lines = [] := by
  refine ⟨fun hnil => ?_, generate_eq_nil_of_declaredMembers⟩
  by_contra h
  rw [generate_of_ne_nil h] at hnil
  obtain ⟨p, -, hp⟩ := Except.map_eq_ok_iff.mp hnil
  exact p.lines_ne_nil o hp

/-- **Something is written** for lines that declare members, all of them supported. -/
theorem exists_generate_ne_nil (o : Options) (lines : List Text)
    (h : declaredMembers lines ≠ [])
    (hsupported : ∀ m ∈ declaredMembers lines, ¬ m.IsUnsupported) :
    ∃ out, generate o lines = .ok out ∧ out ≠ [] := by
  obtain ⟨out, hout⟩ := exists_generate_eq_ok_iff (o := o) |>.mpr hsupported
  refine ⟨out, hout, ?_⟩
  rintro rfl
  exact h (generate_eq_nil_iff.mp hout)

/-- Lines for which something is written declare members. -/
theorem declaredMembers_ne_nil {o : Options} {lines out : List Text}
    (h : generate o lines = .ok out) (hne : out ≠ []) : declaredMembers lines ≠ [] := fun hnil => by
  rw [generate_eq_nil_of_declaredMembers hnil] at h
  exact hne (Except.ok.inj h).symm

/-- **The failures of a generation.** It fails exactly if some member is unsupported, and then
with the text of the first such member, whatever the options are; packing is the only step that
fails; and nothing is written exactly if there are no members. -/
theorem generate_failure (o : Options) (lines : List Text) :
    ((∃ e, generate o lines = .error e) ↔ ∃ m ∈ declaredMembers lines, m.IsUnsupported) ∧
    (∀ e, generate o lines = .error e ↔
      ∃ m, (declaredMembers lines).find? (·.IsUnsupported) = some m ∧ e = ⟨m.source⟩) ∧
    (∀ o' e, generate o' lines = .error e ↔ generate o lines = .error e) ∧
    (∀ (model model' : DataModel) (ms grouped : List Member) (n : Nat),
      pack model ms = .ok (grouped, n) → ∃ rs, regions model' grouped = .ok rs) ∧
    (generate o lines = .ok [] ↔ declaredMembers lines = []) := by
  refine ⟨exists_generate_eq_error_iff, fun e => generate_eq_error_iff, fun o' e => ?_,
    fun model model' ms grouped n => exists_regions_of_pack model', generate_eq_nil_iff⟩
  rw [generate_eq_error_iff, generate_eq_error_iff]

/-- Lines with two unsupported members, in front of which a run has been opened. -/
def narrowLines : List Text :=
  ["struct E \x7b int a : 3;", "  char c : 3; // narrow", "  bool d : 1; \x7d;"]

/-- The first of the two is what the failure is about, with a listing and a wide `long` as well as
without. -/
theorem generate_failure_narrowLines :
    generate {} narrowLines = .error ⟨"char c : 3"⟩ ∧
    generate { long := .eight, layout := true } narrowLines = .error ⟨"char c : 3"⟩ := by
  have hfirst : (declaredMembers narrowLines).find? (·.IsUnsupported) =
      some { name := "c", base := .char, bits := 3, source := "char c : 3" } := by
    decide +kernel
  have hfail := generate_failure {} narrowLines
  have h : generate {} narrowLines = .error ⟨"char c : 3"⟩ :=
    (hfail.2.1 _).mpr ⟨_, hfirst, rfl⟩
  exact ⟨h, (hfail.2.2.1 _ _).mpr h⟩

end StructEndian
