import StructEndian.DataModel
import StructEndian.Member

/-!
# Packing bit-fields into groups

Every ordinary member is converted on its own. Consecutive bit-fields of one sign and base
type share storage as long as their widths fit into it, and the storage is converted as a
whole. The packer walks over the members in order and numbers the groups from `1`.

## Main definitions

* `Run`: the shared storage that is being filled.
* `Packer`: the last group's number and the open run.
* `Packer.place`: the group of the next member.
* `pack`: the members of a whole structure in their groups.
* `Packer.placeEach`: the same with rejected members passed over.

## Main results

* `Packer.place_eq_inGroup`: placing a member changes its group and nothing else.
-/

namespace StructEndian

/-- A **bit-field that cannot be converted**: its type has no storage in which a byte order
could be reversed. -/
structure UnsupportedBitField where
  /-- The text that it was declared by. -/
  source : Text
deriving DecidableEq, Repr

/-- What is said about a bit-field that cannot be converted. -/
def UnsupportedBitField.message (e : UnsupportedBitField) : Text :=
  "unsupported bit-field `" ++ e.source ++ "`"

/-- A **run** of bit-fields that share storage, all of one sign and base type. -/
structure Run where
  /-- The base type of all members. -/
  base : BaseType
  /-- The sign of all members. -/
  sign : Sign
  /-- The bits that the members take. -/
  used : Nat
  /-- The bits that the storage has. -/
  capacity : Nat
deriving DecidableEq, Repr

/-- A run **admits** a member of its sign and type whose width still fits. -/
def Run.admits (r : Run) (m : Member) : Bool :=
  m.base = r.base && m.sign = r.sign && r.used + m.bits ≤ r.capacity

/-- The **packer** between two members: the number of the last group, and the run that is
open if that group is one of bit-fields. -/
structure Packer where
  /-- The number of the last group, `0` at the start. -/
  group : Nat := 0
  /-- The run that the next bit-field may join. -/
  run : Option Run := none
deriving DecidableEq, Repr

namespace Packer

/-- Open a new run, and with it a new group, for a bit-field. -/
def openRun (model : DataModel) (p : Packer) (m : Member) :
    Except UnsupportedBitField Packer :=
  match model.bitStorage m.base with
  | none => .error ⟨m.source⟩
  | some bytes => .ok ⟨p.group + 1, some ⟨m.base, m.sign, m.bits, 8 * bytes⟩⟩

/-- The packer behind the next member. An ordinary member closes the run and takes a group
of its own; a bit-field joins the run if that admits it and opens a new one otherwise. -/
def advance (model : DataModel) (p : Packer) (m : Member) :
    Except UnsupportedBitField Packer :=
  if m.isBitField then
    match p.run with
    | some r =>
        if r.admits m then .ok { p with run := some { r with used := r.used + m.bits } }
        else p.openRun model m
    | none => p.openRun model m
  else .ok ⟨p.group + 1, none⟩

/-- **Place** the next member: the packer behind it, and the member in its group. -/
def place (model : DataModel) (p : Packer) (m : Member) :
    Except UnsupportedBitField (Packer × Member) :=
  (p.advance model m).map fun p' => (p', m.inGroup p'.group)

/-- Place one member after the other. The first that is rejected ends the walk. -/
def placeAll (model : DataModel) : Packer → List Member →
    Except UnsupportedBitField (Packer × List Member)
  | p, [] => .ok (p, [])
  | p, m :: ms => do
      let (p, m) ← p.place model m
      let (p, ms) ← p.placeAll model ms
      return (p, m :: ms)

/-- Place one member after the other, where a rejected member is answered with the reason
and leaves the packer as it was. -/
def placeEach (model : DataModel) : Packer → List Member →
    Packer × List (Except UnsupportedBitField Member)
  | p, [] => (p, [])
  | p, m :: ms =>
      match p.place model m with
      | .ok (p', m') =>
          let (last, answers) := p'.placeEach model ms
          (last, .ok m' :: answers)
      | .error e =>
          let (last, answers) := p.placeEach model ms
          (last, .error e :: answers)

end Packer

/-- **Pack** the members of a structure: each member in its group, in order, and the number
of groups. -/
def pack (model : DataModel) (ms : List Member) :
    Except UnsupportedBitField (List Member × Nat) :=
  (Packer.placeAll model {} ms).map fun (p, placed) => (placed, p.group)

/-! ### Packing changes groups only -/

/-- A placed member is the member in some group. -/
theorem Packer.place_eq_inGroup {model : DataModel} {p p' : Packer} {m m' : Member}
    (h : p.place model m = .ok (p', m')) : m' = m.inGroup p'.group := by
  unfold Packer.place at h
  cases ha : p.advance model m with
  | error e => simp [ha, Except.map] at h
  | ok q =>
      simp only [ha, Except.map, Except.ok.injEq, Prod.mk.injEq] at h
      obtain ⟨rfl, rfl⟩ := h
      rfl

end StructEndian
