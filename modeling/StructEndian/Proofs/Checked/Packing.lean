import StructEndian.Proofs.Checked.Operations
import StructEndian.Proofs.Packing.Failure
import StructEndian.Proofs.Packing.Greedy

/-!
# Packing in words

On a machine the packer counts bits in words of 32 bits. The width that a member is declared with may
be almost as large as a word, so two of them need not have a sum. Here the packer is run on words: a
run asks whether there is a sum before it admits a member, and every sum that is taken is checked.

Such a packer stands for one that counts in numbers, and a step of the one stands for the same step of
the other. So it is never out of range. What bounds its counts is the greedy law: members that share
storage fit into it, and a member that does not fit is alone.

## Main definitions

* `WordRun`, `WordPacker`: a run and a packer that count in words.
* `Checked.pack`: packing in words.
* `Packer.InRange`: the ranges of what a packer counts.

## Main results

* `WordPacker.map_advance`, `WordPacker.map_placeAll`: steps and walks stand for those in numbers.
* `Checked.pack_eq`: packing in words is in range.
* `IsGreedy.groupBits_lt_size`: the bits of a group are a word.
* `inRange_of_placeAll`: the packer's counts keep their ranges.
-/

namespace StructEndian

open Checked

/-! ### Runs and packers in words -/

/-- A **run in words** counts its bits in words. -/
structure WordRun where
  /-- The base type of all members. -/
  base : BaseType
  /-- The sign of all members. -/
  sign : Sign
  /-- The bits that the members take. -/
  used : UInt32
  /-- The bits that the storage has. -/
  capacity : UInt32

namespace WordRun

/-- The run that a run in words stands for. -/
def toRun (r : WordRun) : Run :=
  { base := r.base, sign := r.sign, used := r.used.toNat, capacity := r.capacity.toNat }

/-- A run in words **admits** a member of its sign and type if the sum of the widths is a word and not
larger than the capacity. -/
def admits (r : WordRun) (m : Member) (width : UInt32) : Bool :=
  m.base = r.base && m.sign = r.sign &&
    match add r.used width with
    | .ok used => used ≤ r.capacity
    | .error _ => false

/-- **A sum that is no word** is larger than any capacity, so the run admits what the run in numbers
does. -/
theorem admits_eq {r : WordRun} {m : Member} {width : UInt32} (h : width.toNat = m.bits) :
    r.admits m width = r.toRun.admits m := by
  have hfits : (match add r.used width with
      | .ok used => decide (used ≤ r.capacity)
      | .error _ => false) = decide (r.used.toNat + m.bits ≤ r.capacity.toNat) := by
    cases hadd : add r.used width with
    | ok used => simp only [UInt32.le_iff_toNat_le, add_eq_ok_iff.mp hadd, h]
    | error e =>
        have hle : ¬ r.used.toNat + m.bits ≤ r.capacity.toNat := fun hle => by
          obtain ⟨used, hused, -⟩ := exists_word (lt_of_le_of_lt hle r.capacity.toNat_lt_size)
          rw [add, h, hused] at hadd
          cases hadd
        simp [hle]
  rw [admits, hfits]
  rfl

end WordRun

/-- A **packer in words**: its run counts bits in words. -/
structure WordPacker where
  /-- The number of the last group, `0` at the start. -/
  group : Nat := 0
  /-- The run that the next bit-field may join. -/
  run : Option WordRun := none

namespace WordPacker

/-- The packer that a packer in words stands for. -/
def toPacker (p : WordPacker) : Packer :=
  { group := p.group, run := p.run.map WordRun.toRun }

/-- Open a new run for a bit-field of the given width. -/
def openRun (model : DataModel) (p : WordPacker) (m : Member) (width : UInt32) :
    Except Stop WordPacker :=
  match model.bitStorage m.base with
  | none => .error (.unsupported ⟨m.source⟩)
  | some bytes => do
      let capacity ← word (8 * bytes)
      return { group := p.group + 1, run := some ⟨m.base, m.sign, width, capacity⟩ }

/-- The packer behind the next member. -/
def advance (model : DataModel) (p : WordPacker) (m : Member) : Except Stop WordPacker := do
  let width ← word m.bits
  if m.isBitField then
    match p.run with
    | some r =>
        if r.admits m width then do
          let used ← add r.used width
          return { p with run := some { r with used } }
        else p.openRun model m width
    | none => p.openRun model m width
  else return { group := p.group + 1 }

/-- Place one member after the other. -/
def placeAll (model : DataModel) : WordPacker → List Member →
    Except Stop (WordPacker × List Member)
  | p, [] => .ok (p, [])
  | p, m :: ms => do
      let q ← p.advance model m
      let last ← q.placeAll model ms
      return (last.1, m.inGroup q.group :: last.2)

end WordPacker

/-- **Pack** the members of a structure in words. -/
def Checked.pack (model : DataModel) (ms : List Member) : Except Stop (List Member × Nat) :=
  (WordPacker.placeAll model {} ms).map fun (p, placed) => (placed, p.group)

/-! ### Words stand for numbers -/

/-- The storage of bit-fields is of two, four or eight bytes. -/
theorem bytes_of_bitStorage {model : DataModel} {t : BaseType} {bytes : Nat}
    (h : model.bitStorage t = some bytes) : bytes = 2 ∨ bytes = 4 ∨ bytes = 8 := by
  obtain ⟨long⟩ := model
  cases long <;> cases t <;> revert h <;>
    simp [DataModel.bitStorage, DataModel.byteWidth, LongWidth.bytes] <;> omega

namespace WordPacker

variable {model : DataModel}

/-- A run in words is opened as the one in numbers is. -/
theorem map_openRun (p : WordPacker) {m : Member} {width : UInt32} (h : width.toNat = m.bits) :
    (p.openRun model m width).map toPacker =
      (p.toPacker.openRun model m).mapError Stop.unsupported := by
  rw [openRun, Packer.openRun]
  cases hs : model.bitStorage m.base with
  | none => rfl
  | some bytes =>
      have hbytes := bytes_of_bitStorage hs
      obtain ⟨capacity, hword, hcapacity⟩ :=
        exists_word (show 8 * bytes < UInt32.size by simp only [UInt32.size]; omega)
      simp [hword, toPacker, WordRun.toRun, h, hcapacity]

/-- **One step** in words stands for the step in numbers, if the width of the member is a word. -/
theorem map_advance (p : WordPacker) {m : Member} (h : m.bits < UInt32.size) :
    (p.advance model m).map toPacker =
      (p.toPacker.advance model m).mapError Stop.unsupported := by
  obtain ⟨width, hword, hwidth⟩ := exists_word h
  rw [advance, hword, Except.ok_bind, Packer.advance]
  cases m.isBitField with
  | false => rfl
  | true =>
      simp only [if_true]
      obtain ⟨group, run⟩ := p
      cases run with
      | none => exact map_openRun _ hwidth
      | some r =>
          simp only [toPacker, Option.map_some, ← WordRun.admits_eq hwidth]
          cases ha : r.admits m width with
          | false => exact map_openRun ⟨group, some r⟩ hwidth
          | true =>
              -- the run has asked whether there is a sum, so taking it is in range
              rw [WordRun.admits_eq hwidth] at ha
              have hle := lt_of_le_of_lt (Run.admits_iff.mp ha).2.2 r.capacity.toNat_lt_size
              obtain ⟨used, hused, hsum⟩ := exists_word hle
              rw [← hwidth, WordRun.toRun, ← add] at hused
              simp [hused, toPacker, WordRun.toRun, hsum]

/-- **A walk** in words stands for the walk in numbers, if the widths of all members are words. -/
theorem map_placeAll (p : WordPacker) {ms : List Member} (h : ∀ m ∈ ms, m.bits < UInt32.size) :
    (p.placeAll model ms).map (fun last => (last.1.toPacker, last.2)) =
      (p.toPacker.placeAll model ms).mapError Stop.unsupported := by
  induction ms generalizing p with
  | nil => rfl
  | cons m ms ih =>
      obtain ⟨hm, hms⟩ := List.forall_mem_cons.mp h
      rw [Packer.placeAll_cons, Except.mapError_bind, ← map_advance p hm, Except.bind_map, placeAll,
        Except.map_bind]
      refine bind_congr fun q => ?_
      rw [Except.mapError_map, ← ih q hms, Except.map_map]
      cases q.placeAll model ms <;> rfl

end WordPacker

/-- **Packing in words** is in range, and its answer is that of packing. -/
theorem Checked.pack_eq {model : DataModel} {ms : List Member}
    (h : ∀ m ∈ ms, m.bits < UInt32.size) :
    Checked.pack model ms = (StructEndian.pack model ms).mapError Stop.unsupported := by
  have hwalk : (WordPacker.placeAll model {} ms).map (fun last => (last.1.toPacker, last.2)) =
      (Packer.placeAll model {} ms).mapError Stop.unsupported := WordPacker.map_placeAll {} h
  rw [pack, StructEndian.pack, Except.mapError_map, ← hwalk, Except.map_map]
  rfl

/-! ### Ranges -/

/-- A packer behind the members `placed` is **in range**: there are not more groups than members, and
the open run has some bits and a capacity of two, four or eight bytes. It has room for them unless its
group has a single member, and the bits of a member that it admits can be added in a word. -/
structure Packer.InRange (p : Packer) (placed : List Member) : Prop where
  /-- There are not more groups than members. -/
  group : p.group ≤ placed.length
  /-- The capacity of a run is that of a storage. -/
  capacity : ∀ r ∈ p.run, r.capacity = 16 ∨ r.capacity = 32 ∨ r.capacity = 64
  /-- A run is not empty. -/
  used_pos : ∀ r ∈ p.run, 1 ≤ r.used
  /-- The bits of a run are a word. -/
  used_lt : ∀ r ∈ p.run, r.used < UInt32.size
  /-- They exceed the capacity only if a single member has them. -/
  used_le : ∀ r ∈ p.run, r.used ≤ r.capacity ∨ (placed.filter (·.group = p.group)).length = 1
  /-- With those of a member that joins they are a word. -/
  sum_lt : ∀ r ∈ p.run, ∀ m, r.admits m = true → r.used + m.bits < UInt32.size

/-- **The bits of a group** are a word if the width of every member is: a group of several members is
not wider than its storage. -/
theorem IsGreedy.groupBits_lt_size {model : DataModel} {placed : List Member}
    (hg : IsGreedy model placed) (h : ∀ m ∈ placed, m.bits < UInt32.size) (k : Nat) :
    groupBits placed k < UInt32.size := by
  -- a group of several members fits into its storage; any other one has at most one width
  by_cases h2 : 2 ≤ (placed.filter (·.group = k)).length
  · obtain ⟨_, _, _, _, bytes, -, -, hs, hle⟩ := hg.exists_run h2
    have hbytes := bytes_of_bitStorage hs
    simp only [UInt32.size]
    omega
  · rw [groupBits]
    cases hk : placed.filter (·.group = k) with
    | nil => decide
    | cons m ms =>
        have hm : m ∈ placed.filter (·.group = k) := hk ▸ List.mem_cons_self
        have hms : ms = [] := List.eq_nil_of_length_eq_zero (by
          rw [hk, List.length_cons] at h2
          omega)
        simpa [hms] using h m (List.mem_filter.mp hm).1

/-- A step opens one group at most. -/
theorem Packer.group_le_of_placeAll {model : DataModel} {p p' : Packer} {ms placed : List Member}
    (h : p.placeAll model ms = .ok (p', placed)) : p'.group ≤ p.group + placed.length := by
  induction ms generalizing p placed with
  | nil =>
      obtain ⟨rfl, rfl⟩ := Prod.mk.inj (Except.ok.inj h)
      exact Nat.le_refl _
  | cons m ms ih =>
      obtain ⟨q, rest, hq, hrest, rfl⟩ := placeAll_cons_eq_ok h
      have hle := ih hrest
      have hstep : q.group ≤ p.group + 1 := by
        rcases advance_cases hq with ⟨-, rfl⟩ | ⟨_, -, -, -, rfl⟩ | ⟨_, -, -, -, rfl⟩
        · exact Nat.le_refl _
        · exact Nat.le_succ _
        · exact Nat.le_refl _
      rw [List.length_cons]
      omega

/-- **The packer stays in range**, wherever it has come to, if the widths of all members are words. -/
theorem inRange_of_placeAll {model : DataModel} {p : Packer} {ms placed : List Member}
    (h : Packer.placeAll model {} ms = .ok (p, placed)) (hms : ∀ m ∈ ms, m.bits < UInt32.size) :
    p.InRange placed := by
  have hplaced : ∀ m ∈ placed, m.bits < UInt32.size :=
    Packer.forall_mem_of_placeAll (fun _ _ hm => hm) h hms
  have ht : p.Tracks model placed := (Packer.tracks_nil model).placeAll h
  have hg : IsGreedy model placed :=
    (Packer.tracks_nil model).isGreedy_placeAll (isGreedy_nil model) h
  have hcapacity : ∀ r ∈ p.run, r.capacity = 16 ∨ r.capacity = 32 ∨ r.capacity = 64 := by
    intro r hr
    obtain ⟨f, bytes, -, -, hs, rfl⟩ := ht.exists_of_run hr
    have hbytes := bytes_of_bitStorage hs
    dsimp only
    omega
  constructor
  case group => simpa using Packer.group_le_of_placeAll h
  case capacity => exact hcapacity
  case used_pos =>
    intro r hr
    obtain ⟨f, bytes, hl, hb, -, rfl⟩ := ht.exists_of_run hr
    obtain ⟨before, rfl⟩ := List.getLast?_eq_some_iff.mp hl
    have hbits : 0 < f.bits := of_decide_eq_true hb
    dsimp only
    rw [groupBits_append, groupBits_singleton (ht.last f hl).symm]
    omega
  case used_lt =>
    intro r hr
    obtain ⟨f, bytes, -, -, -, rfl⟩ := ht.exists_of_run hr
    exact hg.groupBits_lt_size hplaced p.group
  case used_le =>
    intro r hr
    obtain ⟨f, bytes, hl, -, hs, rfl⟩ := ht.exists_of_run hr
    have hf : f ∈ placed := List.mem_of_getLast? hl
    by_cases h2 : 2 ≤ (placed.filter (·.group = p.group)).length
    · obtain ⟨_, _, base, _, bytes', -, hall, hs', hle⟩ := hg.exists_run h2
      rw [(hall f hf (ht.last f hl).symm).2.1, hs'] at hs
      obtain rfl := Option.some.inj hs
      exact Or.inl hle
    · have hpos : 0 < (placed.filter (·.group = p.group)).length :=
        List.length_pos_of_mem (List.mem_filter.mpr ⟨hf, by simp [ht.last f hl]⟩)
      exact Or.inr (by omega)
  case sum_lt =>
    intro r hr m hm
    have hle := (Run.admits_iff.mp hm).2.2
    have hbound := hcapacity r hr
    simp only [UInt32.size]
    omega

end StructEndian
