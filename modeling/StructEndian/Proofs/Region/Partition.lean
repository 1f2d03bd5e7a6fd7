import Mathlib.Data.List.DropRight
import StructEndian.Proofs.Packing.Greedy
import StructEndian.Proofs.Region.Walk

/-!
# Regions from first principles

The walk over grouped members carries along where it is: which group it is in, which ordinary member
it has passed last, and how much storage since then. Here its answers are described by what stands in
the list alone. A **lead** is a member whose group is not that of the member in front of it. There is
one region for every lead, and it is found at the position that the leads in front of it count up to;
its address is that of the last ordinary lead in front of it, and its offset is the storage of all
bit-fields among the leads since then. Group numbers may come again later on, or be out of order:
only neighbours are compared.

For packed members nothing is dropped on the way, and the groups of the leads are the numbers from
`1` on, each of them once.

## Main definitions

* `Member.LeadsBehind`: a member leads behind the members in front of it.
* `leads`: the leads among some members.
* `addressBehind`: the address of unnamed storage behind some leads.

## Main results

* `leads_cons`, `leads_append`: the leads of a list, taken apart at its front and anywhere.
* `regionsFrom_eq_error_iff`: the walk fails on the first lead that lacks storage.
* `map_lead_regionsFrom`, `exists_getElem?_regionsFrom`: there is one region for every lead, with the
  address that the leads in front of it lead to.
* `flatMap_members_of_pack`: the members of the regions are the packed members in their order.
* `map_group_leads`: the groups of packed members are numbered by their leads.
* `regions_partition`: all of it about the regions of grouped members.
-/

namespace StructEndian

/-! ### Leads -/

/-- A member **leads** behind the members in front of it if it is the first, or the last one of
them is in another group. -/
def Member.LeadsBehind (before : List Member) (m : Member) : Prop :=
  ∀ f ∈ before.getLast?, f.group ≠ m.group

/-- The leads among members, where `k` is the group of the member in front of them, if there is
one. -/
def leadsAfter (k : Option Nat) : List Member → List Member
  | [] => []
  | m :: ms => if k = some m.group then leadsAfter k ms else m :: leadsAfter (some m.group) ms

/-- The **leads** among members, in order. -/
def leads (ms : List Member) : List Member :=
  leadsAfter none ms

theorem leadsAfter_cons_of_ne {k : Option Nat} {m : Member} (h : k ≠ some m.group)
    (ms : List Member) : leadsAfter k (m :: ms) = leads (m :: ms) := by
  rw [leads, leadsAfter, leadsAfter, if_neg h, if_neg (by simp)]

/-- Members in the group of the one in front of them are passed over. -/
theorem leadsAfter_some (k : Nat) (ms : List Member) :
    leadsAfter (some k) ms = leads (ms.dropWhile (·.group = k)) := by
  induction ms with
  | nil => rfl
  | cons m ms ih =>
      by_cases h : m.group = k
      · rw [leadsAfter, if_pos (by rw [h]), ih, List.dropWhile_cons_of_pos (by simpa using h)]
      · rw [leadsAfter_cons_of_ne (by simpa using Ne.symm h),
          List.dropWhile_cons_of_neg (by simpa using h)]

/-- **The leads of a list** that is not empty are its first member and the leads behind its
group. -/
theorem leads_cons (m : Member) (ms : List Member) :
    leads (m :: ms) = m :: leads (ms.dropWhile (·.group = m.group)) := by
  rw [← leadsAfter_some, leads, leadsAfter, if_neg (by simp)]

theorem leadsAfter_append (k : Option Nat) (ms ms' : List Member) :
    leadsAfter k (ms ++ ms') =
      leadsAfter k ms ++ leadsAfter ((ms.getLast?.map Member.group).or k) ms' := by
  induction ms generalizing k with
  | nil => simp [leadsAfter]
  | cons m ms ih =>
      have hlast : ∀ k', ((m :: ms).getLast?.map Member.group).or k' =
          (ms.getLast?.map Member.group).or (some m.group) := fun k' => by
        rw [List.getLast?_cons]
        cases ms.getLast? <;> rfl
      rw [List.cons_append, leadsAfter, leadsAfter, hlast]
      by_cases h : k = some m.group
      · rw [if_pos h, if_pos h, ih, h]
      · rw [if_neg h, if_neg h, ih, List.cons_append]

/-- **The leads of a list in two parts**: of the second part those that lead behind the last member
of the first. -/
theorem leads_append (ms ms' : List Member) :
    leads (ms ++ ms') = leads ms ++ leadsAfter (ms.getLast?.map Member.group) ms' := by
  rw [leads, leadsAfter_append, Option.or_none]
  rfl

/-- What stands behind a group and leads there leads behind the group, too, and the walk from the
group's end comes to it. -/
theorem Member.LeadsBehind.dropWhile {m lead : Member} {before : List Member}
    (h : lead.LeadsBehind (m :: before)) (after : List Member) :
    lead.LeadsBehind (before.dropWhile (·.group = m.group)) ∧
      (before ++ lead :: after).dropWhile (·.group = m.group) =
        before.dropWhile (·.group = m.group) ++ lead :: after := by
  induction before with
  | nil =>
      have hne : m.group ≠ lead.group := h m rfl
      refine ⟨fun f hf => absurd hf (by simp), ?_⟩
      rw [List.nil_append, List.dropWhile_cons_of_neg (by simpa using Ne.symm hne)]
      rfl
  | cons f before ih =>
      rw [List.cons_append]
      by_cases hf : f.group = m.group
      · have hlast : lead.LeadsBehind (m :: before) := fun x hx => by
          cases before with
          | nil =>
              obtain rfl : m = x := by simpa using hx
              exact hf ▸ h f rfl
          | cons y before => exact h x (by simpa using hx)
        rw [List.dropWhile_cons_of_pos (by simpa using hf),
          List.dropWhile_cons_of_pos (by simpa using hf)]
        exact ih hlast
      · rw [List.dropWhile_cons_of_neg (by simpa using hf),
          List.dropWhile_cons_of_neg (by simpa using hf)]
        exact ⟨fun x hx => h x (by simpa using hx), rfl⟩

/-! ### Addresses behind leads -/

/-- The **address behind** some leads: the anchor is the last ordinary one, and the offset is the
storage of the bit-fields behind it. -/
def addressBehind (model : DataModel) (earlier : List Member) : Address :=
  { anchor := (earlier.filter (!·.isBitField)).getLast?.map Member.name
    offset := ((earlier.rtakeWhile (·.isBitField)).filterMap fun m => model.bitStorage m.base).sum }

/-- **The address moves on** with every region as it does behind the region's lead. -/
theorem addressAfter_addressBehind {model : DataModel} {earlier followers : List Member}
    {lead : Member} {r : Region}
    (h : Region.ofGroup model (addressBehind model earlier) lead followers = .ok r) :
    r.addressAfter (addressBehind model earlier) = addressBehind model (earlier ++ [lead]) := by
  rcases Region.ofGroup_cases h with ⟨hb, hr⟩ | ⟨storage, hb, hs, rfl⟩
  · have hafter : addressBehind model (earlier ++ [lead]) = .after lead.name := by
      rw [addressBehind, List.rtakeWhile_concat_neg _ _ _ (by simp [hb]), List.filter_append,
        List.filter_cons_of_pos (by simp [hb]), List.filter_nil, List.getLast?_concat]
      rfl
    rw [hafter]
    rcases hr with rfl | rfl <;> rfl
  · rw [Region.addressAfter, Address.skip, addressBehind, addressBehind,
      List.rtakeWhile_concat_pos _ _ _ hb, List.filter_append,
      List.filter_cons_of_neg (by simp [hb]), List.filter_nil, List.append_nil,
      List.filterMap_append, List.sum_append]
    simp [hs]

/-! ### Regions of grouped members -/

/-- A bit-field **lacks storage** if its type has none. -/
def Member.lacksStorage (model : DataModel) (m : Member) : Bool :=
  m.isBitField && (model.bitStorage m.base).isNone

variable {model : DataModel}

/-- There is no region for a lead that lacks storage, and that is the only reason. -/
theorem Region.ofGroup_eq_error_iff {here : Address} {lead : Member} {followers : List Member}
    {e : UnsupportedBitField} :
    ofGroup model here lead followers = .error e ↔
      lead.lacksStorage model = true ∧ e = ⟨lead.source⟩ := by
  rw [ofGroup, Member.lacksStorage]
  cases lead.isBitField with
  | false => simp
  | true => cases model.bitStorage lead.base <;> simp [eq_comm]

/-- **The walk fails** exactly on the first lead that lacks storage, and answers its text. -/
theorem regionsFrom_eq_error_iff {here : Address} {ms : List Member} {e : UnsupportedBitField} :
    regionsFrom model here ms = .error e ↔
      ∃ m, (leads ms).find? (Member.lacksStorage model) = some m ∧ e = ⟨m.source⟩ := by
  induction ms using group_induction generalizing here with
  | nil => simp [regionsFrom, leads, leadsAfter]
  | cons lead rest ih =>
      rw [regionsFrom_cons, leads_cons]
      cases hr : Region.ofGroup model here lead (rest.takeWhile (·.group = lead.group)) with
      | error e' =>
          obtain ⟨hlead, rfl⟩ := Region.ofGroup_eq_error_iff.mp hr
          simp [hlead, eq_comm]
      | ok r =>
          have hlead : ¬ lead.lacksStorage model = true := fun hlead => by
            rw [Region.ofGroup_eq_error_iff.mpr ⟨hlead, rfl⟩] at hr
            cases hr
          rw [Except.ok_bind, Except.map_eq_error_iff, List.find?_cons_of_neg hlead]
          exact ih

/-- **There is one region for every lead**, in order. -/
theorem map_lead_regionsFrom {here : Address} {ms : List Member} {rs : List Region}
    (h : regionsFrom model here ms = .ok rs) : rs.map Region.lead = leads ms := by
  induction h using regionsFrom_induction with
  | nil here h => rfl
  | cons here lead rest r later h hlater hr ih =>
      have hlead : r.lead = lead := by
        rcases Region.ofGroup_cases hr with ⟨-, rfl | rfl⟩ | ⟨storage, -, -, rfl⟩ <;> rfl
      rw [List.map_cons, ih, leads_cons, hlead]

/-- **The region of a lead** stands behind those of the leads in front of it, and it is made from the
lead, the members in its group and the address that the leads in front of it lead to. -/
theorem exists_getElem?_regionsFrom {earlier before : List Member} {lead : Member}
    {after : List Member} {rs : List Region}
    (h : regionsFrom model (addressBehind model earlier) (before ++ lead :: after) = .ok rs)
    (hlead : lead.LeadsBehind before) :
    ∃ r, rs[(leads before).length]? = some r ∧
      Region.ofGroup model (addressBehind model (earlier ++ leads before)) lead
        (after.takeWhile (·.group = lead.group)) = .ok r := by
  induction before using group_induction generalizing earlier rs with
  | nil =>
      obtain ⟨r, later, hr, -, rfl⟩ := regionsFrom_cons_eq_ok h
      refine ⟨r, rfl, ?_⟩
      rwa [leads, leadsAfter, List.append_nil]
  | cons first before ih =>
      rw [List.cons_append] at h
      obtain ⟨r, later, hr, hlater, rfl⟩ := regionsFrom_cons_eq_ok h
      obtain ⟨hlead, hdrop⟩ := hlead.dropWhile after
      rw [hdrop, addressAfter_addressBehind hr] at hlater
      obtain ⟨r', hr', hgroup⟩ := ih hlater hlead
      rw [leads_cons, List.length_cons, List.getElem?_cons_succ, List.append_cons]
      exact ⟨r', hr', hgroup⟩

/-! ### The members of the regions -/

/-- The lead of a region is one of its members. -/
theorem Region.lead_mem_members (r : Region) : r.lead ∈ r.members := by
  cases r <;> exact List.mem_cons_self

/-- The members of regions are the grouped ones in their order, if no ordinary member shares its
group with the next. -/
theorem flatMap_members_of_regionsFrom {here : Address} {ms : List Member}
    {rs : List Region} (h : regionsFrom model here ms = .ok rs)
    (halone : ms.IsChain fun f g => f.isBitField = false → g.group ≠ f.group) :
    rs.flatMap Region.members = ms := by
  induction h using regionsFrom_induction with
  | nil here h => rfl
  | cons here lead rest r later h hlater hr ih =>
      have hrest := ih (halone.tail.suffix (List.dropWhile_suffix _))
      rw [List.flatMap_cons, hrest]
      rcases Region.ofGroup_cases hr with ⟨hb, hr⟩ | ⟨storage, -, -, rfl⟩
      · have hnext : rest.dropWhile (·.group = lead.group) = rest := by
          cases rest with
          | nil => rfl
          | cons next rest =>
              have hgroup := (List.isChain_cons_cons.mp halone).1 hb
              rw [List.dropWhile_cons_of_neg (by simp [hgroup])]
        rw [hnext]
        rcases hr with rfl | rfl <;> rfl
      · rw [Region.members, List.cons_append, List.takeWhile_append_dropWhile]

/-- **The members of the regions** of a packed structure are the packed members, each of them once
and all in order. -/
theorem flatMap_members_of_pack {ms grouped : List Member} {n : Nat}
    {rs : List Region} (h : pack model ms = .ok (grouped, n))
    (hrs : regions model grouped = .ok rs) : rs.flatMap Region.members = grouped := by
  have hg := pack_isGreedy h
  refine flatMap_members_of_regionsFrom hrs (List.isChain_iff_forall_rel_of_append_cons_cons.mpr ?_)
  intro f g before after hsplit hb hgroup
  have hfront := ((hg.same before f g after hsplit).mp hgroup).front
  rw [hb] at hfront
  exact absurd hfront (by simp)

/-- What holds of all members whatever their groups are holds of the members of every region. -/
theorem forall_mem_members_of_pack {P : Member → Prop} (hP : ∀ m k, P m → P (m.inGroup k))
    {ms grouped : List Member} {n : Nat} {rs : List Region} (h : pack model ms = .ok (grouped, n))
    (hrs : regions model grouped = .ok rs) (hms : ∀ m ∈ ms, P m) :
    ∀ r ∈ rs, ∀ m ∈ r.members, P m := by
  intro r hr m hm
  refine forall_mem_of_pack hP h hms m ?_
  rw [← flatMap_members_of_pack h hrs]
  exact List.mem_flatMap.mpr ⟨r, hr, hm⟩

/-! ### Groups of packed members -/

/-- **The leads number the groups**: those of members that obey the greedy law are in the groups from
`1` up to the last one. -/
theorem IsGreedy.map_group_leads {placed : List Member} (hg : IsGreedy model placed) :
    (leads placed).map Member.group =
      List.range' 1 ((placed.getLast?.map Member.group).getD 0) := by
  induction placed using List.reverseRecOn with
  | nil => rfl
  | append_singleton seen m ih =>
      have hseen := ih hg.of_append
      rw [leads_append, List.map_append, hseen, List.getLast?_concat]
      rcases List.eq_nil_or_concat seen with rfl | ⟨before, f, rfl⟩
      · have hm : m.group = 1 := hg.first m rfl
        simp [leadsAfter, hm]
      · rw [List.concat_eq_append, List.getLast?_concat]
        have hsplit : before.concat f ++ [m] = before ++ f :: m :: [] := by simp
        -- by the law the member is in the group in front of it, or leads the next one
        by_cases hshare : SharesStorage model (before ++ [f]) f m
        · have hm := (hg.same before f m [] hsplit).mpr hshare
          simp [leadsAfter, hm]
        · have hm := hg.next before f m [] hsplit hshare
          simp [leadsAfter, hm, List.range'_concat, Nat.add_comm]

/-- There are as many regions as groups, and the leads of the regions are in the groups from `1`
on. -/
theorem map_group_lead_of_pack {ms grouped : List Member} {n : Nat} {rs : List Region}
    (h : pack model ms = .ok (grouped, n)) (hrs : regions model grouped = .ok rs) :
    rs.map (fun r => r.lead.group) = List.range' 1 n := by
  have hgroups := (pack_isGreedy h).map_group_leads
  rw [← groupCount_of_pack h, ← map_lead_regionsFrom hrs, List.map_map] at hgroups
  exact hgroups

/-! ### All of it -/

/-- Regions **partition** grouped members if they are the regions of the leads, each of them made from
what stands in the list around its lead. -/
structure IsPartition (model : DataModel) (ms : List Member) (rs : List Region) : Prop where
  /-- There is one region for every lead, in order. -/
  lead : rs.map Region.lead = leads ms
  /-- The region of an ordinary lead is the member. -/
  ordinary : ∀ before lead after, ms = before ++ lead :: after → lead.LeadsBehind before →
    lead.isBitField = false → rs[(leads before).length]? =
      some (if lead.isArray then .array lead else .scalar lead)
  /-- The region of a bit-field is the storage of its type for it and the members up to the next
  lead, at the address that the leads in front of it lead to. -/
  storage : ∀ before lead after, ms = before ++ lead :: after → lead.LeadsBehind before →
    lead.isBitField = true → ∃ bytes, model.bitStorage lead.base = some bytes ∧
      rs[(leads before).length]? = some (.bits lead
        (after.takeWhile (·.group = lead.group)) bytes (addressBehind model (leads before)))

/-- The regions of grouped members partition them. -/
theorem isPartition_of_regions {ms : List Member} {rs : List Region}
    (h : regions model ms = .ok rs) : IsPartition model ms rs := by
  have hregion : ∀ before lead after, ms = before ++ lead :: after → lead.LeadsBehind before →
      ∃ r, rs[(leads before).length]? = some r ∧
        Region.ofGroup model (addressBehind model (leads before)) lead
          (after.takeWhile (·.group = lead.group)) = .ok r := by
    rintro before lead after rfl hlead
    have hwalk : regionsFrom model (addressBehind model []) (before ++ lead :: after) = .ok rs := h
    exact exists_getElem?_regionsFrom hwalk hlead
  constructor
  case lead => exact map_lead_regionsFrom h
  case ordinary =>
    intro before lead after hms hlead hb
    obtain ⟨r, hr, hgroup⟩ := hregion before lead after hms hlead
    rw [Region.ofGroup, hb, if_neg Bool.false_ne_true] at hgroup
    rw [hr, Except.ok.inj hgroup]
  case storage =>
    intro before lead after hms hlead hb
    obtain ⟨r, hr, hgroup⟩ := hregion before lead after hms hlead
    rcases Region.ofGroup_cases hgroup with ⟨hb', -⟩ | ⟨bytes, -, hs, rfl⟩
    · exact absurd (hb.symm.trans hb') (by simp)
    · exact ⟨bytes, hs, hr⟩

/-- **The regions of grouped members.** There are none exactly if some lead lacks storage, and the
first such lead is what the failure is about; otherwise the regions partition the members. The regions
of packed members hold all of these in their order, and there are as many as the number of the last
group: their leads are in the groups from `1` on. -/
theorem regions_partition (model : DataModel) (ms : List Member) :
    (∀ e, regions model ms = .error e ↔
      ∃ m, (leads ms).find? (Member.lacksStorage model) = some m ∧ e = ⟨m.source⟩) ∧
    ((∀ m ∈ leads ms, m.lacksStorage model = false) →
      ∃ rs, regions model ms = .ok rs ∧ IsPartition model ms rs) ∧
    (∀ fields n, pack model fields = .ok (ms, n) → ∃ rs, regions model ms = .ok rs ∧
      rs.flatMap Region.members = ms ∧ rs.map (fun r => r.lead.group) = List.range' 1 n ∧
      ∀ m ∈ ms.getLast?, rs.length = m.group) := by
  refine ⟨fun e => regionsFrom_eq_error_iff, fun hleads => ?_, fun fields n h => ?_⟩
  · have hno : ¬ ∃ e, regions model ms = .error e := by
      rintro ⟨e, he⟩
      obtain ⟨m, hm, -⟩ := regionsFrom_eq_error_iff.mp he
      have hlacks := List.find?_some hm
      rw [hleads m (List.mem_of_find?_eq_some hm)] at hlacks
      cases hlacks
    obtain ⟨rs, hrs⟩ := Except.exists_eq_ok_iff.mpr hno
    exact ⟨rs, hrs, isPartition_of_regions hrs⟩
  · obtain ⟨rs, hrs⟩ := exists_regionsFrom {} ms (bitStorage_of_mem_pack h)
    have hgroups := map_group_lead_of_pack h hrs
    refine ⟨rs, hrs, flatMap_members_of_pack h hrs, hgroups, fun m hm => ?_⟩
    have hlength := congrArg List.length hgroups
    rw [List.length_map, List.length_range', groupCount_of_pack h, hm] at hlength
    exact hlength

/-- Members in groups of which one comes again, with an array that is in the group in front of it. -/
def regroupedMembers : List Member :=
  [{ name := "a", base := .int, bits := 3, group := 5 },
    { name := "b", base := .int, bits := 4, group := 5 }, { name := "c", base := .char, group := 2 },
    { name := "d", base := .short, isArray := true, group := 2 },
    { name := "e", base := .long, bits := 5, group := 5 },
    { name := "f", base := .short, bits := 7, group := 9 }]

/-- The last of their regions is behind the storage of the group that comes again, and the members
that fill a storage exactly are packed into three groups and regions. -/
theorem regions_partition_regroupedMembers :
    (∀ m ∈ leads regroupedMembers, m.lacksStorage {} = false) ∧
    (∃ rs, regions {} regroupedMembers = .ok rs ∧ rs.map Region.lead = leads regroupedMembers ∧
      rs[3]? = some (.bits { name := "f", base := .short, bits := 7, group := 9 } [] 2
        { anchor := ("c" : Text), offset := 4 })) ∧
    (∃ e, regions {} [{ name := "g", base := .char, bits := 1, source := "char g : 1" }] = .error e ∧
      e.source = "char g : 1") ∧
    pack {} exactFill = .ok (List.zipWith Member.inGroup exactFill [1, 1, 2, 3], 3) ∧
    ∃ rs, regions {} (List.zipWith Member.inGroup exactFill [1, 1, 2, 3]) = .ok rs ∧
      rs.map (fun r => r.lead.group) = [1, 2, 3] := by
  have hleads : ∀ m ∈ leads regroupedMembers, m.lacksStorage {} = false := by decide
  have hpacked : pack {} exactFill =
      .ok (List.zipWith Member.inGroup exactFill [1, 1, 2, 3], 3) := by decide
  refine ⟨hleads, ?_, ?_, hpacked, ?_⟩
  · obtain ⟨-, hok, -⟩ := regions_partition {} regroupedMembers
    obtain ⟨rs, hrs, hpartition⟩ := hok hleads
    obtain ⟨bytes, hbytes, hlast⟩ := hpartition.storage (regroupedMembers.take 5)
      { name := "f", base := .short, bits := 7, group := 9 } [] rfl
      (by simp [Member.LeadsBehind, regroupedMembers]) rfl
    obtain rfl := Option.some.inj hbytes
    exact ⟨rs, hrs, hpartition.lead, hlast⟩
  · obtain ⟨herror, -, -⟩ :=
      regions_partition {} [{ name := "g", base := .char, bits := 1, source := "char g : 1" }]
    exact ⟨_, (herror _).mpr ⟨_, rfl, rfl⟩, rfl⟩
  · obtain ⟨-, -, hpack⟩ := regions_partition {} (List.zipWith Member.inGroup exactFill [1, 1, 2, 3])
    obtain ⟨rs, hrs, -, hgroups, -⟩ := hpack exactFill 3 hpacked
    exact ⟨rs, hrs, hgroups⟩

end StructEndian
