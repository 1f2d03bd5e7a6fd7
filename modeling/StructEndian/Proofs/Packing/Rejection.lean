import StructEndian.Proofs.Packing.Failure
import StructEndian.Proofs.Region.Partition

/-!
# Rejected members leave no trace

A packer is kept over a list of members and goes on behind the ones that it rejects. Written as
a function, placing a member answers a new packer or none, so that nothing can be left half done.
Here it is written as it works **in place**: the run, the number of the last group and the group of
the member are overwritten one after the other, and an error keeps whatever has been overwritten up
to there. That both are the same is `run_assign`, and it holds because the storage of a type is
looked up in front of the first write.

So a rejected member changes nothing. Behind any members that have been placed or rejected the
packer is the one behind the placed ones alone, and it gives the members to come the same groups.

## Main definitions

* `Packer.Desk`: what is overwritten in place.
* `Packer.assign`: one member is placed in place.
* `Packer.assignEach`: one packer is kept over a list of members, whatever it rejects.

## Main results

* `Packer.run_assign`: a member is placed in place as it is by `Packer.place`, or nothing is changed.
* `Packer.IsSupported.place_eq_error_iff`: which members are rejected.
* `Packer.assignEach_traceless`: all of it about a packer that is kept over a list of members.
-/

namespace StructEndian

/-- A bit-field lacks storage in one data model exactly if it is unsupported, which means that it
lacks storage in every one. -/
theorem Member.lacksStorage_iff {model : DataModel} {m : Member} :
    m.lacksStorage model = true ↔ m.IsUnsupported := by
  rw [lacksStorage, IsUnsupported, ← bitStorage_eq_none_iff model, Bool.and_eq_true,
    Option.isNone_iff_eq_none]

namespace Packer

/-! ### Placing in place -/

/-- The **desk** of a packer: what it overwrites, itself and the member that is placed. -/
structure Desk where
  /-- The packer. -/
  packer : Packer
  /-- The member that is placed. -/
  member : Member
deriving DecidableEq, Repr

/-- Work at the desk that may end in an error. What has been overwritten then stays so. -/
abbrev AtDesk := ExceptT UnsupportedBitField (StateM Desk)

/-- Overwrite the run. -/
def setRun (run : Option Run) : AtDesk Unit :=
  modify fun desk => { desk with packer := { desk.packer with run } }

/-- Go on to the next group. -/
def nextGroup : AtDesk Unit :=
  modify fun desk => { desk with packer := { desk.packer with group := desk.packer.group + 1 } }

/-- Write the number of the group into the member. -/
def labelMember : AtDesk Unit :=
  modify fun desk => { desk with member := desk.member.inGroup desk.packer.group }

/-- **Enter** a member: an ordinary one closes the run and takes the next group, a bit-field that the
run admits is added to it, and any other bit-field opens a run in the next group, if its type has
storage. -/
def enter (model : DataModel) (p : Packer) (m : Member) : AtDesk Unit :=
  if m.isBitField then
    match p.run.filter (·.admits m) with
    | some r => setRun (some { r with used := r.used + m.bits })
    | none =>
        match model.bitStorage m.base with
        | none => throw ⟨m.source⟩
        | some bytes => do
            nextGroup
            setRun (some ⟨m.base, m.sign, m.bits, 8 * bytes⟩)
  else do
    setRun none
    nextGroup

/-- **Assign** the member at the desk to a group. -/
def assign (model : DataModel) : AtDesk Unit := do
  let ⟨p, m⟩ ← get
  enter model p m
  labelMember

/-- The outcome of assigning a member, and the desk behind it. -/
def runAssign (model : DataModel) (p : Packer) (m : Member) :
    Except UnsupportedBitField Unit × Desk :=
  ((assign model).run ⟨p, m⟩).run

/-- One packer is **kept** over a list of members. For every member there is the outcome and the
member behind it; errors are not looked at. -/
def assignEach (model : DataModel) : Packer → List Member →
    Packer × List (Except UnsupportedBitField Unit × Member)
  | p, [] => (p, [])
  | p, m :: ms =>
      let (outcome, desk) := runAssign model p m
      let (last, later) := assignEach model desk.packer ms
      (last, (outcome, desk.member) :: later)

variable {model : DataModel}

/-! ### One member -/

/-- A bit-field joins the run that is open and admits it, or opens a new one. -/
theorem advance_of_isBitField {p : Packer} {m : Member} (hb : m.isBitField = true) :
    p.advance model m =
      match p.run.filter (·.admits m) with
      | some r => .ok { p with run := some { r with used := r.used + m.bits } }
      | none => p.openRun model m := by
  rw [advance, if_pos hb]
  cases p.run with
  | none => rfl
  | some r => cases ha : r.admits m <;> simp [Option.filter_some, ha]

/-- **In place and as a function** a member is placed alike. If it is rejected, the desk is as it
was. -/
theorem run_assign (model : DataModel) (p : Packer) (m : Member) :
    runAssign model p m =
      match p.place model m with
      | .ok (p', m') => (.ok (), ⟨p', m'⟩)
      | .error e => (.error e, ⟨p, m⟩) := by
  have hget : runAssign model p m =
      ((enter model p m >>= fun _ => labelMember).run ⟨p, m⟩).run := rfl
  rw [hget, place]
  cases hb : m.isBitField with
  | false =>
      rw [enter, advance, hb]
      rfl
  | true =>
      rw [enter, advance_of_isBitField hb, if_pos hb]
      cases p.run.filter (·.admits m) with
      | some r => rfl
      | none =>
          -- the storage is looked up before anything is overwritten
          dsimp only
          rw [openRun]
          cases model.bitStorage m.base <;> rfl

variable {p : Packer} {m : Member}

/-- **Which members are rejected** by a packer whose run is of a type with storage: the bit-fields
that lack it. -/
theorem IsSupported.place_eq_error_iff {e : UnsupportedBitField} (hp : p.IsSupported model) :
    p.place model m = .error e ↔ m.lacksStorage model = true ∧ e = ⟨m.source⟩ := by
  rw [place, Except.map_eq_error_iff, hp.advance_eq_error_iff, Member.lacksStorage_iff]

/-- A rejected member and the packer stay as they are. -/
theorem IsSupported.run_assign_of_lacksStorage (hp : p.IsSupported model)
    (h : m.lacksStorage model = true) : runAssign model p m = (.error ⟨m.source⟩, ⟨p, m⟩) := by
  rw [run_assign, hp.place_eq_error_iff.mpr ⟨h, rfl⟩]

/-- Any other member is placed, and the packer behind it is supported again. -/
theorem IsSupported.exists_run_assign (hp : p.IsSupported model)
    (h : m.lacksStorage model = false) :
    ∃ p', p'.IsSupported model ∧ runAssign model p m = (.ok (), ⟨p', m.inGroup p'.group⟩) := by
  obtain ⟨⟨p', m'⟩, hplace⟩ : ∃ placed, p.place model m = .ok placed := by
    refine Except.exists_eq_ok_iff.mpr fun ⟨e, he⟩ => ?_
    have hlacks := (hp.place_eq_error_iff.mp he).1
    rw [h] at hlacks
    cases hlacks
  obtain ⟨hadvance, rfl⟩ := place_eq_ok_iff.mp hplace
  exact ⟨p', (hp.advance hadvance).1, by rw [run_assign, hplace]⟩

/-! ### One packer over many members -/

/-- What becomes of a member: one that lacks storage is answered with its text and stays as it is,
and any other one gets a group. -/
def IsAnswered (model : DataModel) (m : Member)
    (answer : Except UnsupportedBitField Unit × Member) : Prop :=
  if m.lacksStorage model then answer = (.error ⟨m.source⟩, m)
  else ∃ k, answer = (.ok (), m.inGroup k)

/-- **What a kept packer does**, member by member: it is supported again, and the members are
answered. -/
theorem IsSupported.isAnswered_assignEach (hp : p.IsSupported model) (ms : List Member) :
    (assignEach model p ms).1.IsSupported model ∧
      List.Forall₂ (IsAnswered model) ms (assignEach model p ms).2 := by
  induction ms generalizing p with
  | nil => exact ⟨hp, .nil⟩
  | cons m ms ih =>
      cases h : m.lacksStorage model with
      | true =>
          obtain ⟨hlast, hms⟩ := ih hp
          rw [assignEach, hp.run_assign_of_lacksStorage h]
          exact ⟨hlast, .cons (by simp [IsAnswered, h]) hms⟩
      | false =>
          obtain ⟨p', hp', hrun⟩ := hp.exists_run_assign h
          obtain ⟨hlast, hms⟩ := ih hp'
          rw [assignEach, hrun]
          exact ⟨hlast, .cons (by simp [IsAnswered, h]) hms⟩

/-- **Rejected members leave no trace**: without them the packer ends up the same and gives the same
answers to the others. -/
theorem IsSupported.assignEach_filter (hp : p.IsSupported model) (ms : List Member) :
    assignEach model p (ms.filter (!·.lacksStorage model)) =
      ((assignEach model p ms).1, (assignEach model p ms).2.filter (·.1.isOk)) := by
  induction ms generalizing p with
  | nil => rfl
  | cons m ms ih =>
      cases h : m.lacksStorage model with
      | true =>
          rw [List.filter_cons_of_neg (by simp [h]), assignEach,
            hp.run_assign_of_lacksStorage h]
          exact ih hp
      | false =>
          obtain ⟨p', hp', hrun⟩ := hp.exists_run_assign h
          rw [List.filter_cons_of_pos (by simp [h]), assignEach, assignEach, hrun]
          dsimp only
          rw [ih hp']
          rfl

/-- Member by member a packer answers alike in place and as a function. -/
theorem placeEach_eq_assignEach (model : DataModel) (p : Packer) (ms : List Member) :
    p.placeEach model ms =
      ((assignEach model p ms).1, (assignEach model p ms).2.map fun (outcome, m) =>
        outcome.map fun _ => m) := by
  induction ms generalizing p with
  | nil => rfl
  | cons m ms ih =>
      rw [placeEach, assignEach, run_assign]
      cases p.place model m with
      | ok placed =>
          dsimp only
          rw [ih]
          rfl
      | error e =>
          dsimp only
          rw [ih]
          rfl

/-- **Rejected members leave no trace.** Let one packer be kept over any members. A further member
is rejected exactly if it is a bit-field that lacks storage, and then packer and member stay as they
are; so it has been with all the members. The packer and the answers to the members that were placed
are those of a new packer over these members alone. And what joined the open run in front of a
rejected member joins it behind it. -/
theorem assignEach_traceless (model : DataModel) (ms : List Member) :
    ∃ last answers, assignEach model {} ms = (last, answers) ∧
      (∀ m, ((∃ e, (runAssign model last m).1 = .error e) ↔ m.lacksStorage model = true) ∧
        (m.lacksStorage model = true →
          runAssign model last m = (.error ⟨m.source⟩, ⟨last, m⟩))) ∧
      List.Forall₂ (IsAnswered model) ms answers ∧
      assignEach model {} (ms.filter (!·.lacksStorage model)) =
        (last, answers.filter (·.1.isOk)) ∧
      (∀ r m m', last.run = some r → m.lacksStorage model = true → m'.isBitField = true →
        r.admits m' = true →
          (assignEach model last [m, m']).2.map Prod.snd = [m, m'.inGroup last.group]) ∧
      placeEach model {} ms = (last, answers.map fun (outcome, m) => outcome.map fun _ => m) := by
  have hstart := isSupported_empty model
  obtain ⟨hlast, hanswers⟩ := hstart.isAnswered_assignEach ms
  have hfilter := hstart.assignEach_filter ms
  have hplaced := placeEach_eq_assignEach model {} ms
  obtain ⟨last, answers, hkept⟩ : ∃ last answers, assignEach model {} ms = (last, answers) :=
    ⟨_, _, rfl⟩
  rw [hkept] at hlast hanswers hfilter hplaced
  refine ⟨last, answers, hkept, fun m => ⟨⟨?_, fun h => ?_⟩, hlast.run_assign_of_lacksStorage⟩,
    hanswers, hfilter, ?_, hplaced⟩
  · rintro ⟨e, he⟩
    by_contra h
    obtain ⟨p', -, hrun⟩ := hlast.exists_run_assign (by simpa using h)
    rw [hrun] at he
    cases he
  · exact ⟨_, by rw [hlast.run_assign_of_lacksStorage h]⟩
  · intro r m m' hr hm hb hadmits
    have hjoin : last.place model m' =
        .ok ({ last with run := some { r with used := r.used + m'.bits } },
          m'.inGroup last.group) := by
      refine place_eq_ok_iff.mpr ⟨?_, rfl⟩
      rw [advance_of_isBitField hb, hr, Option.filter_some, if_pos hadmits]
    simp only [assignEach, hlast.run_assign_of_lacksStorage hm, run_assign, hjoin, List.map_cons,
      List.map_nil]

/-- A `char` cannot have bits, and the numbers in front of it and behind it are in one group. -/
example : ((assignEach {} {} [{ name := "a", base := .int, bits := 3 },
      { name := "b", base := .char, bits := 1 }, { name := "c", base := .int, bits := 4 }]).2.map
    fun answer => (answer.1.isOk, answer.2.group)) = [(true, 1), (false, 0), (true, 1)] := by
  decide

end Packer

end StructEndian
