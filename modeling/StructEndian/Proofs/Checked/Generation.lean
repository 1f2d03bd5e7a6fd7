import StructEndian.Proofs.Checked.Packing
import StructEndian.Proofs.Checked.Tag
import StructEndian.Proofs.Declaration.Spelling
import StructEndian.Proofs.Generation.Failure
import StructEndian.Proofs.Region.Partition

/-!
# Generating is in range

The operations of a generation that can be out of range are the sums of bits that the packer and the
listing take, the lead that is looked up among the members of a region, the offset that the walk over
regions counts up, and the slices that the tag is found by. Here the generation is run with all of
them checked, and it has the same answer whatever the lines and the options are.

The widths of declared members are words, and that is all that is known of them: two of them may have
no sum. That the listing never adds two such widths is carried over from the packed members: a region
has members of one group only, and the bits of a group are a word.

## Main definitions

* `Checked.row`, `Checked.listing`: the listing, with the bits summed in words.
* `Checked.generate`: a generation on a machine.
* `Region.InRange`: the ranges of a region behind others.

## Main results

* `bits_lt_size_of_mem_declaredMembers`: the widths of declared members are words.
* `inRange_of_regions`: the regions of packed members are in range.
* `Checked.generate_eq`: a generation on a machine never stops, and answers what a generation does.
* `generate_inRange`: all of it about a list of lines.
-/

namespace StructEndian

/-- **Widths are words**: a larger one is not read. -/
theorem bits_lt_size_of_mem_declaredMembers {lines : List Text} {m : Member}
    (h : m ∈ declaredMembers lines) : m.bits < UInt32.size := by
  obtain ⟨piece, hpiece⟩ := exists_of_mem_declaredMembers h
  exact Nat.lt_succ_of_le (bits_le_of_readPiece hpiece)

/-! ### Regions -/

variable {model : DataModel}

/-- The members of a region are in one group. -/
theorem group_of_mem_members {here : Address} {ms : List Member} {rs : List Region}
    (h : regionsFrom model here ms = .ok rs) :
    ∀ r ∈ rs, ∀ m ∈ r.members, m.group = r.lead.group := by
  induction h using regionsFrom_induction with
  | nil here h => exact List.forall_mem_nil _
  | cons here lead rest r later h hlater hr ih =>
      refine List.forall_mem_cons.mpr ⟨fun m hm => ?_, ih⟩
      rcases Region.ofGroup_cases hr with ⟨-, rfl | rfl⟩ | ⟨_, -, -, rfl⟩
      · rw [List.mem_singleton.mp hm]
        rfl
      · rw [List.mem_singleton.mp hm]
        rfl
      · rcases List.mem_cons.mp hm with rfl | hm
        · rfl
        · have hgroup := List.mem_takeWhile_imp hm
          exact of_decide_eq_true hgroup

/-- **The bits of a region** are not more than those of its group. -/
theorem sum_bits_le_groupBits {rs : List Region} {r : Region} (hr : r ∈ rs)
    (h : ∀ m ∈ r.members, m.group = r.lead.group) :
    (r.members.map Member.bits).sum ≤ groupBits (rs.flatMap Region.members) r.lead.group := by
  obtain ⟨earlier, later, rfl⟩ := List.append_of_mem hr
  have hall : groupBits r.members r.lead.group = (r.members.map Member.bits).sum := by
    rw [groupBits, List.filter_eq_self.mpr fun m hm => decide_eq_true (h m hm)]
  rw [List.flatMap_append, List.flatMap_cons, groupBits_append, groupBits_append, hall]
  omega

/-- A region moves the offset on by eight bytes for each of its members at most. -/
theorem offset_addressAfter_le {here : Address} {lead : Member} {followers : List Member}
    {r : Region} (h : Region.ofGroup model here lead followers = .ok r) :
    (r.addressAfter here).offset ≤ here.offset + 8 * r.members.length := by
  rcases Region.ofGroup_cases h with ⟨-, rfl | rfl⟩ | ⟨bytes, -, hs, rfl⟩
  · exact Nat.zero_le _
  · exact Nat.zero_le _
  · have hbytes := bytes_of_bitStorage hs
    rw [Region.addressAfter, Address.skip, Region.members, List.length_cons]
    dsimp only
    omega

/-- **Offsets are small**: not larger than eight bytes for every member in front. -/
theorem offset_le_of_regionsFrom {here : Address} {ms : List Member} {rs : List Region}
    (h : regionsFrom model here ms = .ok rs) {earlier later : List Region} {first : Member}
    {others : List Member} {bytes : Nat} {address : Address}
    (hrs : rs = earlier ++ .bits first others bytes address :: later) :
    address.offset ≤ here.offset + 8 * (earlier.flatMap Region.members).length := by
  induction h using regionsFrom_induction generalizing earlier with
  | nil here h => simp at hrs
  | cons here lead rest r behind h hbehind hr ih =>
      cases earlier with
      | nil =>
          obtain ⟨rfl, -⟩ := List.cons.inj hrs
          rcases Region.ofGroup_cases hr with ⟨-, hr | hr⟩ | ⟨_, -, -, hr⟩
          · cases hr
          · cases hr
          · cases hr
            exact Nat.le_add_right _ _
      | cons r' earlier =>
          obtain ⟨rfl, hbehind⟩ := List.cons.inj hrs
          have hle := ih hbehind
          have hstep := offset_addressAfter_le hr
          rw [List.flatMap_cons, List.length_append]
          omega

/-- A region behind the regions `earlier` is **in range**: its lead is the first of its members, the
sum of their widths is taken in words and is the exact one, and the offset of its address is not
larger than eight bytes for every member in front. -/
structure Region.InRange (earlier : List Region) (r : Region) : Prop where
  /-- There is a first member, and it is the lead. -/
  lead : r.members.head? = some r.lead
  /-- The bits are a word. -/
  bits : (r.members.map Member.bits).sum < UInt32.size
  /-- The sum of words is the sum of numbers. -/
  sum : ∃ used, Checked.sum (r.members.map Member.bits) = .ok used ∧
    used.toNat = (r.members.map Member.bits).sum
  /-- The offset is bounded by what is in front. -/
  offset : ∀ first others bytes address, r = .bits first others bytes address →
    address.offset ≤ 8 * (earlier.flatMap Region.members).length

/-- **The regions of packed members are in range**, if the widths of all members are words. -/
theorem inRange_of_regions {ms grouped : List Member} {n : Nat} {rs : List Region}
    (hms : ∀ m ∈ ms, m.bits < UInt32.size) (h : pack model ms = .ok (grouped, n))
    (hrs : regions model grouped = .ok rs) {earlier later : List Region} {r : Region}
    (hsplit : rs = earlier ++ r :: later) : r.InRange earlier := by
  have hr : r ∈ rs := hsplit ▸ List.mem_append_right _ List.mem_cons_self
  have hgrouped : ∀ m ∈ grouped, m.bits < UInt32.size :=
    forall_mem_of_pack (fun _ _ hm => hm) h hms
  -- the members of all regions are the packed ones, whose groups are not wider than a word
  have hle := sum_bits_le_groupBits hr (group_of_mem_members hrs r hr)
  rw [flatMap_members_of_pack h hrs] at hle
  have hbits : (r.members.map Member.bits).sum < UInt32.size :=
    Nat.lt_of_le_of_lt hle ((pack_isGreedy h).groupBits_lt_size hgrouped r.lead.group)
  constructor
  case lead => cases r <;> rfl
  case bits => exact hbits
  case sum =>
    obtain ⟨used, -, hused⟩ := Checked.exists_word hbits
    exact ⟨used, Checked.sum_eq_ok_iff.mpr hused, hused⟩
  case offset =>
    rintro first others bytes address rfl
    have hoffset := offset_le_of_regionsFrom hrs hsplit
    rwa [Nat.zero_add] at hoffset

/-! ### The listing -/

namespace Checked

/-- The **lead** of a region: the first of its members, if it has any. -/
def lead (r : Region) : Except Stop Member :=
  match r.members with
  | m :: _ => .ok m
  | [] => .error .outOfRange

/-- The bits of a region that are used and available, with those used summed in words. -/
def bitsCell : Region → Except Stop Text
  | .scalar _ | .array _ => .ok "-"
  | .bits first others bytes _ =>
      (sum ((first :: others).map Member.bits)).map fun used =>
        Text.decimal used.toNat ++ "/" ++ Text.decimal (8 * bytes)

/-- The **row** of a region. -/
def row (r : Region) : Except Stop Row := do
  let lead ← lead r
  let bits ← bitsCell r
  return { Row.ofRegion r with
    group := Text.decimal lead.group, storage := lead.storageType, bits }

/-- The lines of a listing with the given rows. -/
def framed (model : DataModel) (tag : Text) (rows : List Row) : List Text :=
  ("/*" : Text) :: listingTitle model tag :: (" *" : Text) ::
    (rows.map (Row.line (Row.widths rows)) ++ [(" */" : Text)])

/-- The **listing** of the regions of a structure, with all rows checked. -/
def listing (model : DataModel) (tag : Text) (rs : List Region) : Except Stop (List Text) := do
  let rows ← rs.mapM row
  return framed model tag (Row.header :: rows)

/-- The row of a region that is in range is its row. -/
theorem row_eq {earlier : List Region} {r : Region} (h : r.InRange earlier) :
    row r = .ok (Row.ofRegion r) := by
  cases r with
  | scalar m => rfl
  | array m => rfl
  | bits first others bytes address =>
      obtain ⟨used, hsum, hused⟩ := h.sum
      have hcell : bitsCell (.bits first others bytes address) =
          .ok (Row.ofRegion (.bits first others bytes address)).bits := by
        rw [bitsCell]
        rw [Region.members] at hsum hused
        rw [hsum, Except.ok_map, hused]
        rfl
      rw [row, hcell]
      rfl

/-- The listing of regions that are in range is their listing. -/
theorem listing_eq {model : DataModel} {tag : Text} {rs : List Region}
    (h : ∀ earlier r later, rs = earlier ++ r :: later → r.InRange earlier) :
    listing model tag rs = .ok (StructEndian.listing model tag rs) := by
  have hrows : rs.mapM row = .ok (rs.map Row.ofRegion) :=
    Except.mapM_eq_ok_map fun r hr => by
      obtain ⟨earlier, later, hsplit⟩ := List.append_of_mem hr
      exact row_eq (h earlier r later hsplit)
  rw [listing, hrows, Except.ok_bind]
  rfl

/-! ### Generating -/

/-- The **plan** for the members `ms` that a list of lines declares. -/
def plan (o : Options) (lines : List Text) (ms : List Member) : Except Stop Plan := do
  let (grouped, groupCount) ← pack o.model ms
  let tag ← structTag lines
  let rs ← (regions o.model grouped).mapError .unsupported
  return { name := o.nameFor tag, memberCount := ms.length, groupCount, regions := rs }

/-- The lines of a plan that is carried out. -/
def planLines (o : Options) (p : Plan) : Except Stop (List Text) := do
  let front ← if o.layout then listing o.model p.name p.regions else .ok []
  return front ++ (p.conversion o).functions

/-- **Generate** the functions for the structure that a list of lines declares, and stop where an
operation is out of range. -/
def generate (o : Options) (lines : List Text) : Except Stop (List Text) :=
  match declaredMembers lines with
  | [] => .ok []
  | ms => plan o lines ms >>= planLines o

/-- A plan whose regions are in range is carried out. -/
theorem planLines_eq {o : Options} {p : Plan}
    (h : ∀ earlier r later, p.regions = earlier ++ r :: later → r.InRange earlier) :
    planLines o p = .ok (p.lines o) := by
  rw [planLines, Plan.lines]
  cases o.layout with
  | false => rfl
  | true =>
      simp only [if_true]
      rw [listing_eq h]
      rfl

/-- **A generation on a machine** never stops because an operation is out of range. It answers what a
generation does. -/
theorem generate_eq (o : Options) (lines : List Text) :
    generate o lines = (StructEndian.generate o lines).mapError .unsupported := by
  have hbits : ∀ m ∈ declaredMembers lines, m.bits < UInt32.size :=
    fun m hm => bits_lt_size_of_mem_declaredMembers hm
  rw [generate]
  split
  · next hnil => rw [generate_eq_nil_of_declaredMembers hnil, Except.ok_mapError]
  · next hne =>
      rw [generate_of_ne_nil hne, plan, pack_eq hbits, planMembers]
      cases hpack : StructEndian.pack o.model (declaredMembers lines) with
      | error e => rfl
      | ok packed =>
          obtain ⟨grouped, n⟩ := packed
          obtain ⟨rs, hrs⟩ := exists_regions_of_pack o.model hpack
          have hlines := planLines_eq (o := o)
            (p := ⟨o.nameFor (StructEndian.structTag lines), (declaredMembers lines).length, n, rs⟩)
            fun earlier r later hsplit => inRange_of_regions hbits hpack hrs hsplit
          simp only [Except.ok_mapError, Except.ok_bind, structTag_eq, hrs]
          exact hlines

end Checked

/-- Lines with widths that have no sum in a word, behind characters of several bytes. -/
def oversizedLines : List Text :=
  ["größe struct S \x7b int a : 4000000000; int b : 4000000000; int c : 1;",
    "char d; short e : 16; \x7d;"]

/-- The packer behind the first two of their members, with a run of the large width. -/
def oversizedPacker : Packer :=
  { group := 2, run := some { base := .int, sign := .default, used := 4000000000, capacity := 32 } }

end StructEndian
