import StructEndian.Address
import StructEndian.Packing

/-!
# Conversion regions

A region is a part of the structure that is converted at once: an ordinary member, an array,
or the storage that a group of bit-fields shares. A list of grouped members is cut into
regions wherever the group changes, and every shared storage gets its address on the way.

## Main definitions

* `Region`: what is converted at once.
* `Region.lead`: the member whose type decides how.
* `regions`: the regions of a list of grouped members.
-/

namespace StructEndian

/-- A **region** of the structure. -/
inductive Region
  /-- An ordinary member that is not an array. -/
  | scalar (member : Member)
  /-- An ordinary member that is an array. -/
  | array (member : Member)
  /-- The storage that a first bit-field and the others of its group share, with its size in
  bytes and its address. -/
  | bits (first : Member) (others : List Member) (storage : Nat) (address : Address)
deriving DecidableEq, Repr

namespace Region

/-- The **lead** of a region: the member whose sign and type decide how it is converted. -/
def lead : Region → Member
  | scalar m | array m => m
  | bits first _ _ _ => first

/-- All members of a region, in order. -/
def members : Region → List Member
  | scalar m | array m => [m]
  | bits first others _ _ => first :: others

/-- The region of a lead and its followers in one group, where `here` is the address of
unnamed storage at this point. An ordinary lead has no followers that count. -/
def ofGroup (model : DataModel) (here : Address) (lead : Member) (followers : List Member) :
    Except UnsupportedBitField Region :=
  if lead.isBitField then
    match model.bitStorage lead.base with
    | none => .error ⟨lead.source⟩
    | some storage => .ok (bits lead followers storage here)
  else .ok (if lead.isArray then array lead else scalar lead)

/-- The address of unnamed storage behind a region, if it is `here` in front of it. -/
def addressAfter (here : Address) : Region → Address
  | scalar m | array m => .after m.name
  | bits _ _ storage _ => here.skip storage

end Region

/-- The regions of grouped members from the address `here` on. A member leads a region if
its group differs from that of the member in front of it; the followers are the members
behind it in the same group. -/
def regionsFrom (model : DataModel) (here : Address) :
    List Member → Except UnsupportedBitField (List Region)
  | [] => .ok []
  | lead :: rest => do
      let region ← Region.ofGroup model here lead (rest.takeWhile (·.group = lead.group))
      let later ← regionsFrom model (region.addressAfter here)
        (rest.dropWhile (·.group = lead.group))
      return region :: later
termination_by ms => ms.length
decreasing_by
  have := (List.dropWhile_sublist (l := rest) (·.group = lead.group)).length_le
  simp only [List.length_cons]
  omega

/-- The **regions** of the grouped members of a structure. -/
def regions (model : DataModel) (ms : List Member) : Except UnsupportedBitField (List Region) :=
  regionsFrom model {} ms

end StructEndian
