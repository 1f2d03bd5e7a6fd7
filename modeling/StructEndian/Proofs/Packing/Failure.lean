import StructEndian.Proofs.Packing.Step
import StructEndian.Proofs.Result

/-!
# When packing fails

The packer looks up the storage of a bit-field's type only when it opens a run. A bit-field that
joins a run is never looked up, but it is of the run's type, and no run is open whose type has no
storage. So packing fails exactly on the first bit-field, anywhere in the list, whose type has
none, and which types these are does not depend on the data model.

## Main definitions

* `Member.IsUnsupported`: a bit-field of a type other than the integers of several bytes.

## Main results

* `bitStorage_eq_none_iff`: the types without storage are the same in every data model.
* `Packer.placeAll_cons`: a walk is a first step and the walk behind it, failures included.
* `Packer.IsSupported.advance_eq_error_iff`: one step fails on an unsupported member only.
* `Packer.IsSupported.placeAll_eq_error_iff`: a walk fails on the first unsupported member.
* `pack_eq_error_iff`: so does packing.
-/

namespace StructEndian

/-! ### Unsupported bit-fields -/

/-- A member is **unsupported** if it is a bit-field whose type is not an integer of several
bytes. -/
def Member.IsUnsupported (m : Member) : Prop :=
  m.isBitField = true ∧ m.base ∉ [BaseType.short, .int, .long, .longLong]

instance : DecidablePred Member.IsUnsupported := fun m =>
  inferInstanceAs (Decidable (m.isBitField = true ∧ _))

/-- In every data model **the same types have no storage**. -/
theorem bitStorage_eq_none_iff (model : DataModel) {t : BaseType} :
    model.bitStorage t = none ↔ t ∉ [BaseType.short, .int, .long, .longLong] := by
  obtain ⟨long⟩ := model
  cases long <;> cases t <;> simp [DataModel.bitStorage, DataModel.byteWidth, LongWidth.bytes]

/-- Storage that a type has in one data model it has, of whatever size, in every other. -/
theorem exists_bitStorage {model : DataModel} (model' : DataModel) {t : BaseType}
    (h : ∃ bytes, model.bitStorage t = some bytes) :
    ∃ bytes, model'.bitStorage t = some bytes := by
  rw [← Option.ne_none_iff_exists'] at h ⊢
  rwa [ne_eq, bitStorage_eq_none_iff model', ← bitStorage_eq_none_iff model]

namespace Packer

/-! ### One step -/

/-- A run cannot be opened if the type has no storage. -/
theorem openRun_eq_error_iff {model : DataModel} {p : Packer} {m : Member}
    {e : UnsupportedBitField} :
    p.openRun model m = .error e ↔ model.bitStorage m.base = none ∧ e = ⟨m.source⟩ := by
  rw [openRun]
  cases model.bitStorage m.base with
  | none => simp [eq_comm]
  | some bytes => simp

/-- **A step fails** exactly on an unsupported member, and answers its text. -/
theorem IsSupported.advance_eq_error_iff {model : DataModel} {p : Packer} {m : Member}
    {e : UnsupportedBitField} (hp : p.IsSupported model) :
    p.advance model m = .error e ↔ m.IsUnsupported ∧ e = ⟨m.source⟩ := by
  rw [Member.IsUnsupported, ← bitStorage_eq_none_iff model, Packer.advance]
  cases hb : m.isBitField with
  | false => simp
  | true =>
      cases hr : p.run with
      | none => simp [openRun_eq_error_iff]
      | some r =>
          cases ha : r.admits m with
          | false => simp [openRun_eq_error_iff, ha]
          | true =>
              -- the member was not looked up, but the type of the run has been
              obtain ⟨bytes, hs⟩ := hp r hr
              rw [← (Run.admits_iff.mp ha).1] at hs
              simp [ha, hs]

/-! ### A walk -/

/-- **A walk** is a first step and the walk behind it, whether they succeed or not. -/
theorem placeAll_cons (model : DataModel) (p : Packer) (m : Member) (ms : List Member) :
    p.placeAll model (m :: ms) =
      p.advance model m >>= fun q =>
        (q.placeAll model ms).map fun last => (last.1, m.inGroup q.group :: last.2) := by
  rw [placeAll, place]
  rw [Except.bind_map]
  refine bind_congr fun q => ?_
  dsimp only
  cases q.placeAll model ms <;> rfl

/-- **A walk fails** exactly on the first unsupported member, and answers its text. -/
theorem IsSupported.placeAll_eq_error_iff {model : DataModel} {p : Packer} {ms : List Member}
    {e : UnsupportedBitField} (hp : p.IsSupported model) :
    p.placeAll model ms = .error e ↔
      ∃ m, ms.find? (·.IsUnsupported) = some m ∧ e = ⟨m.source⟩ := by
  induction ms generalizing p with
  | nil => simp [Packer.placeAll]
  | cons m ms ih =>
      rw [placeAll_cons]
      cases ha : p.advance model m with
      | error e' =>
          obtain ⟨hm, rfl⟩ := hp.advance_eq_error_iff.mp ha
          simp [hm, eq_comm]
      | ok q =>
          have hm : ¬ m.IsUnsupported := fun hm => by
            have herror := hp.advance_eq_error_iff.mpr ⟨hm, rfl⟩
            rw [ha] at herror
            cases herror
          rw [List.find?_cons_of_neg (by simpa using hm), ← ih (hp.advance ha).1]
          exact Except.map_eq_error_iff

end Packer

/-! ### Whole structures -/

/-- A new packer is supported. -/
theorem isSupported_empty (model : DataModel) : Packer.IsSupported model {} := by
  intro r hr
  cases hr

/-- **Packing fails** exactly on the first unsupported member, and answers its text. -/
theorem pack_eq_error_iff (model : DataModel) {ms : List Member} {e : UnsupportedBitField} :
    pack model ms = .error e ↔
      ∃ m, ms.find? (·.IsUnsupported) = some m ∧ e = ⟨m.source⟩ := by
  rw [pack, Except.map_eq_error_iff, (isSupported_empty model).placeAll_eq_error_iff]

end StructEndian
