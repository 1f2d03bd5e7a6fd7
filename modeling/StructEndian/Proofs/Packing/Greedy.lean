import Mathlib.Algebra.GroupWithZero.Nat
import Mathlib.Data.List.Chain
import StructEndian.Proofs.Packing.Step

/-!
# Packing is greedy

The packer knows the last group and how full the open run is, and no more. Here its answers
are described without it, by a law about neighbours in the packed list: the second of two
neighbours is in the group of the first exactly if both are bit-fields of one type and sign
and the widths of all members so far in that group leave room for it.

The link between the two is `Packer.Tracks`, which says what the packer's state means for the
list of members that it has placed. A step keeps it, and with it the law.

## Main definitions

* `groupBits`: the bits that the members of a group take.
* `SharesStorage`: the condition under which a member joins the group in front of it.
* `IsGreedy`: the law about neighbours.

## Main results

* `Packer.Tracks.advance`: what the packer's state means is kept by a step.
* `pack_isGreedy`: packed members obey the law.
* `IsGreedy.exists_run`: a group of several members is a block of bit-fields of one type and
  sign that fit into their storage.
* `pack_greedy`: all of it about a packed structure.
-/

namespace StructEndian

/-- The **bits of a group**: the widths of its members, added up. -/
def groupBits (ms : List Member) (k : Nat) : Nat :=
  ((ms.filter (·.group = k)).map Member.bits).sum

/-- A member `g` **shares the storage** of the member `f` in front of it, where `seen` are the
members up to `f`: both are bit-fields of one type and sign, and `g` fits behind all members
so far in the group of `f`. -/
structure SharesStorage (model : DataModel) (seen : List Member) (f g : Member) : Prop where
  /-- The member in front is a bit-field. -/
  front : f.isBitField = true
  /-- The next member is a bit-field. -/
  back : g.isBitField = true
  /-- Both are of one base type. -/
  base : g.base = f.base
  /-- Both are of one sign. -/
  sign : g.sign = f.sign
  /-- The storage has room. -/
  fits : ∃ bytes, model.bitStorage f.base = some bytes ∧
    groupBits seen f.group + g.bits ≤ 8 * bytes

/-- The **greedy law**: groups are numbered from `1`, a member that shares the storage in
front of it is in the same group, and any other member is in the next one. -/
structure IsGreedy (model : DataModel) (placed : List Member) : Prop where
  /-- The first member is in group `1`. -/
  first : ∀ m, placed.head? = some m → m.group = 1
  /-- Neighbours are in one group if and only if they share storage. -/
  same : ∀ before f g after, placed = before ++ f :: g :: after →
    (g.group = f.group ↔ SharesStorage model (before ++ [f]) f g)
  /-- Otherwise the group is the next one. -/
  next : ∀ before f g after, placed = before ++ f :: g :: after →
    ¬ SharesStorage model (before ++ [f]) f g → g.group = f.group + 1

/-! ### Bits of groups -/

theorem groupBits_append (ms ms' : List Member) (k : Nat) :
    groupBits (ms ++ ms') k = groupBits ms k + groupBits ms' k := by
  rw [groupBits, List.filter_append, List.map_append, List.sum_append]
  rfl

theorem groupBits_singleton {m : Member} {k : Nat} (h : m.group = k) :
    groupBits [m] k = m.bits := by
  simp [groupBits, h]

/-- A group without members takes no bits. -/
theorem groupBits_eq_zero {ms : List Member} {k : Nat} (h : ∀ m ∈ ms, m.group ≠ k) :
    groupBits ms k = 0 := by
  have hnil : ms.filter (·.group = k) = [] :=
    List.filter_eq_nil_iff.mpr fun m hm hk => h m hm (of_decide_eq_true hk)
  rw [groupBits, hnil]
  rfl

/-! ### What the packer's state means -/

namespace Packer

/-- A packer **tracks** the members that have been placed: its group is that of the last one,
which no earlier one exceeds, and a run is open exactly behind a bit-field, with the type, the
sign, the room and the bits of the last group. -/
structure Tracks (model : DataModel) (p : Packer) (seen : List Member) : Prop where
  /-- At the start the packer is new. -/
  start : seen = [] → p = {}
  /-- The packer is in the group of the last member. -/
  last : ∀ f, seen.getLast? = some f → p.group = f.group
  /-- Behind an ordinary member no run is open. -/
  closed : ∀ f, seen.getLast? = some f → f.isBitField = false → p.run = none
  /-- Behind a bit-field its run is open. -/
  opened : ∀ f, seen.getLast? = some f → f.isBitField = true →
    ∃ bytes, model.bitStorage f.base = some bytes ∧
      p.run = some ⟨f.base, f.sign, groupBits seen p.group, 8 * bytes⟩
  /-- No member is in a later group. -/
  bound : ∀ m ∈ seen, m.group ≤ p.group

/-- A new packer tracks the empty list. -/
theorem tracks_nil (model : DataModel) : Tracks model {} [] where
  start _ := rfl
  last f hf := by simp at hf
  closed f hf := by simp at hf
  opened f hf := by simp at hf
  bound m hm := absurd hm List.not_mem_nil

/-- An open run belongs to the last member, which is a bit-field. -/
theorem Tracks.exists_of_run {model : DataModel} {p : Packer} {seen : List Member} {r : Run}
    (ht : p.Tracks model seen) (hr : p.run = some r) :
    ∃ f bytes, seen.getLast? = some f ∧ f.isBitField = true ∧
      model.bitStorage f.base = some bytes ∧
      r = ⟨f.base, f.sign, groupBits seen p.group, 8 * bytes⟩ := by
  cases hl : seen.getLast? with
  | none =>
      have hp := ht.start (List.getLast?_eq_none_iff.mp hl)
      rw [hp] at hr
      simp at hr
  | some f =>
      cases hb : f.isBitField with
      | false =>
          rw [ht.closed f hl hb] at hr
          simp at hr
      | true =>
          obtain ⟨bytes, hs, hrun⟩ := ht.opened f hl hb
          exact ⟨f, bytes, rfl, hb, hs, Option.some.inj (hr.symm.trans hrun)⟩

/-- A packer in group `k` tracks a member that has been placed there behind others, if none
of them is in a later group and its run is the one of that member. -/
theorem tracks_append {model : DataModel} {seen : List Member} {m : Member} {k : Nat}
    {run : Option Run} (hle : ∀ m' ∈ seen, m'.group ≤ k)
    (hclosed : m.isBitField = false → run = none)
    (hopened : m.isBitField = true → ∃ bytes, model.bitStorage m.base = some bytes ∧
      run = some ⟨m.base, m.sign, groupBits seen k + m.bits, 8 * bytes⟩) :
    Tracks model ⟨k, run⟩ (seen ++ [m.inGroup k]) := by
  have hlast : ∀ f, (seen ++ [m.inGroup k]).getLast? = some f → m.inGroup k = f := by
    intro f hf
    simpa using hf
  refine ⟨fun h => by simp at h, ?_, ?_, ?_, ?_⟩
  · intro f hf
    rw [← hlast f hf]
    rfl
  · intro f hf hb
    rw [← hlast f hf] at hb
    exact hclosed hb
  · intro f hf hb
    rw [← hlast f hf] at hb ⊢
    obtain ⟨bytes, hs, hrun⟩ := hopened hb
    have hbits : groupBits (seen ++ [m.inGroup k]) k = groupBits seen k + m.bits := by
      rw [groupBits_append, groupBits_singleton (show (m.inGroup k).group = k from rfl)]
      rfl
    exact ⟨bytes, hs, by rw [hrun, hbits]; rfl⟩
  · intro m' hm'
    rcases List.mem_append.mp hm' with hm' | hm'
    · exact hle m' hm'
    · rw [List.mem_singleton.mp hm']
      exact Nat.le_refl _

/-- **A step is tracked**: behind it the packer tracks one member more. -/
theorem Tracks.advance {model : DataModel} {p p' : Packer} {seen : List Member} {m : Member}
    (ht : p.Tracks model seen) (h : p.advance model m = .ok p') :
    p'.Tracks model (seen ++ [m.inGroup p'.group]) := by
  have hlt : ∀ m' ∈ seen, m'.group < p.group + 1 := fun m' hm' =>
    Nat.lt_succ_of_le (ht.bound m' hm')
  rcases advance_cases h with ⟨hb, rfl⟩ | ⟨r, hb, hr, ha, rfl⟩ | ⟨bytes, hb, -, hs, rfl⟩
  · refine tracks_append (fun m' hm' => (hlt m' hm').le) (fun _ => rfl) fun hb' => ?_
    exact absurd (hb.symm.trans hb') (by simp)
  · -- the run has the last group's type and sign, so only the bits have to be added
    obtain ⟨f, bytes, -, -, hs, rfl⟩ := ht.exists_of_run hr
    obtain ⟨hbase, hsign, -⟩ := Run.admits_iff.mp ha
    refine tracks_append ht.bound (fun hb' => ?_) fun _ => ⟨bytes, hbase ▸ hs, ?_⟩
    · exact absurd (hb'.symm.trans hb) (by simp)
    · rw [hbase, hsign]
  · have hzero : groupBits seen (p.group + 1) = 0 := groupBits_eq_zero fun m' hm' => (hlt m' hm').ne
    refine tracks_append (fun m' hm' => (hlt m' hm').le) (fun hb' => ?_) fun _ => ⟨bytes, hs, ?_⟩
    · exact absurd (hb'.symm.trans hb) (by simp)
    · rw [hzero, Nat.zero_add]

/-- **A walk is tracked**: behind it the packer tracks the members that it has placed, too. -/
theorem Tracks.placeAll {model : DataModel} {p p' : Packer} {seen ms placed : List Member}
    (ht : p.Tracks model seen) (h : p.placeAll model ms = .ok (p', placed)) :
    p'.Tracks model (seen ++ placed) := by
  induction ms generalizing p seen placed with
  | nil =>
      obtain ⟨rfl, rfl⟩ := Prod.mk.inj (Except.ok.inj h)
      rwa [List.append_nil]
  | cons m ms ih =>
      obtain ⟨q, rest, hq, hrest, rfl⟩ := placeAll_cons_eq_ok h
      have hall := ih (ht.advance hq) hrest
      rwa [List.append_assoc] at hall

/-- The packer's group is that of the last member, or `0` at the start. -/
theorem Tracks.group_eq {model : DataModel} {p : Packer} {seen : List Member}
    (ht : p.Tracks model seen) : p.group = (seen.getLast?.map Member.group).getD 0 := by
  cases hl : seen.getLast? with
  | none => rw [ht.start (List.getLast?_eq_none_iff.mp hl)]; rfl
  | some f => exact ht.last f hl

/-- **A step obeys the law**: the member that is placed behind `f` is in the group of `f` if
it shares storage with it, and in the next group otherwise. -/
theorem Tracks.group_advance {model : DataModel} {p p' : Packer} {seen : List Member}
    {f m : Member} (ht : p.Tracks model seen) (hl : seen.getLast? = some f)
    (h : p.advance model m = .ok p') :
    (SharesStorage model seen f m ∧ p'.group = f.group) ∨
      (¬ SharesStorage model seen f m ∧ p'.group = f.group + 1) := by
  have hgroup := ht.last f hl
  rcases advance_cases h with ⟨hb, rfl⟩ | ⟨r, hb, hr, ha, rfl⟩ | ⟨bytes, hb, ha, hs, rfl⟩
  · refine Or.inr ⟨fun hshare => ?_, congrArg Nat.succ hgroup⟩
    exact absurd (hb.symm.trans hshare.back) (by simp)
  · obtain ⟨f', bytes, hl', hbf, hs, rfl⟩ := ht.exists_of_run hr
    obtain rfl : f = f' := Option.some.inj (hl.symm.trans hl')
    obtain ⟨hbase, hsign, hfits⟩ := Run.admits_iff.mp ha
    exact Or.inl ⟨⟨hbf, hb, hbase, hsign, bytes, hs, hgroup ▸ hfits⟩, hgroup⟩
  · refine Or.inr ⟨fun hshare => ?_, congrArg Nat.succ hgroup⟩
    -- a run behind a bit-field is open, and it would have admitted the member
    obtain ⟨bytes', hs', hrun⟩ := ht.opened f hl hshare.front
    obtain ⟨bytes'', hs'', hfits⟩ := hshare.fits
    obtain rfl : bytes' = bytes'' := Option.some.inj (hs'.symm.trans hs'')
    have hadmits : (⟨f.base, f.sign, groupBits seen p.group, 8 * bytes'⟩ : Run).admits m = true :=
      Run.admits_iff.mpr ⟨hshare.base, hshare.sign, by rw [hgroup]; exact hfits⟩
    exact absurd ((ha _ hrun).symm.trans hadmits) (by simp)

end Packer

/-! ### The law holds of packed members -/

/-- The empty list obeys the law. -/
theorem isGreedy_nil (model : DataModel) : IsGreedy model [] where
  first m hm := by simp at hm
  same before f g after h := by simp at h
  next before f g after h := by simp at h

/-- Two neighbours in a list with one more member at its end are neighbours in the list, or
they are its last member and the new one. -/
theorem eq_concat_cons_cons {seen before after : List Member} {m f g : Member}
    (h : seen ++ [m] = before ++ f :: g :: after) :
    (∃ after', seen = before ++ f :: g :: after') ∨ (seen = before ++ [f] ∧ g = m) := by
  rcases List.eq_nil_or_concat after with rfl | ⟨after', x, rfl⟩
  · have hsplit : seen ++ [m] = (before ++ [f]) ++ [g] := by simpa using h
    obtain ⟨hseen, hm⟩ := List.append_inj' hsplit rfl
    exact Or.inr ⟨hseen, (List.cons.inj hm).1.symm⟩
  · have hsplit : seen ++ [m] = (before ++ f :: g :: after') ++ [x] := by simpa using h
    exact Or.inl ⟨after', (List.append_inj' hsplit rfl).1⟩

/-- The law is kept if a member is added at the end and obeys it there. -/
theorem IsGreedy.append {model : DataModel} {seen : List Member} {m : Member}
    (hg : IsGreedy model seen) (hfirst : seen = [] → m.group = 1)
    (hlast : ∀ f, seen.getLast? = some f →
      (SharesStorage model seen f m ∧ m.group = f.group) ∨
        (¬ SharesStorage model seen f m ∧ m.group = f.group + 1)) :
    IsGreedy model (seen ++ [m]) := by
  have hstep : ∀ before f, seen = before ++ [f] →
      (SharesStorage model (before ++ [f]) f m ∧ m.group = f.group) ∨
        (¬ SharesStorage model (before ++ [f]) f m ∧ m.group = f.group + 1) := by
    rintro before f rfl
    exact hlast f (by simp)
  refine ⟨fun x hx => ?_, fun before f g after h => ?_, fun before f g after h hno => ?_⟩
  · cases seen with
    | nil =>
        obtain rfl : m = x := by simpa using hx
        exact hfirst rfl
    | cons y ys => exact hg.first x (by simpa using hx)
  · rcases eq_concat_cons_cons h with ⟨after', hseen⟩ | ⟨hseen, rfl⟩
    · exact hg.same before f g after' hseen
    · rcases hstep before f hseen with ⟨hshare, heq⟩ | ⟨hshare, heq⟩
      · exact ⟨fun _ => hshare, fun _ => heq⟩
      · exact ⟨fun h => absurd h (by omega), fun h => absurd h hshare⟩
  · rcases eq_concat_cons_cons h with ⟨after', hseen⟩ | ⟨hseen, rfl⟩
    · exact hg.next before f g after' hseen hno
    · rcases hstep before f hseen with ⟨hshare, -⟩ | ⟨-, heq⟩
      · exact absurd hshare hno
      · exact heq

/-- The law about a list is the law about its front. -/
theorem IsGreedy.of_append {model : DataModel} {seen ms : List Member}
    (hg : IsGreedy model (seen ++ ms)) : IsGreedy model seen := by
  refine ⟨fun m hm => hg.first m ?_, fun before f g after h => hg.same before f g (after ++ ms) ?_,
    fun before f g after h => hg.next before f g (after ++ ms) ?_⟩
  · rw [List.head?_append, hm, Option.some_or]
  · simp [h]
  · simp [h]

/-- Which group a member is in does not matter for the storage in front of it. -/
theorem sharesStorage_inGroup {model : DataModel} {seen : List Member} {f m : Member}
    {k : Nat} : SharesStorage model seen f (m.inGroup k) ↔ SharesStorage model seen f m :=
  ⟨fun h => ⟨h.front, h.back, h.base, h.sign, h.fits⟩,
    fun h => ⟨h.front, h.back, h.base, h.sign, h.fits⟩⟩

/-- A walk of the packer extends a list that obeys the law to one that does. -/
theorem Packer.Tracks.isGreedy_placeAll {model : DataModel} {p p' : Packer}
    {seen ms placed : List Member} (ht : p.Tracks model seen) (hg : IsGreedy model seen)
    (h : p.placeAll model ms = .ok (p', placed)) : IsGreedy model (seen ++ placed) := by
  induction ms generalizing p seen placed with
  | nil =>
      obtain ⟨rfl, rfl⟩ := Prod.mk.inj (Except.ok.inj h)
      rw [List.append_nil]
      exact hg
  | cons m ms ih =>
      obtain ⟨q, rest, hq, hrest, rfl⟩ := Packer.placeAll_cons_eq_ok h
      have hstep : IsGreedy model (seen ++ [m.inGroup q.group]) := by
        refine hg.append (fun hseen => ?_) fun f hf => ?_
        · have hp := ht.start hseen
          subst hp
          rcases Packer.advance_cases hq with ⟨-, rfl⟩ | ⟨r, -, hr, -⟩ | ⟨bytes, -, -, -, rfl⟩
          · rfl
          · simp at hr
          · rfl
        · rw [sharesStorage_inGroup]
          exact ht.group_advance hf hq
      have hall := ih (ht.advance hq) hstep hrest
      rwa [List.append_assoc] at hall

/-- **Packed members obey the greedy law.** -/
theorem pack_isGreedy {model : DataModel} {ms grouped : List Member} {n : Nat}
    (h : pack model ms = .ok (grouped, n)) : IsGreedy model grouped := by
  obtain ⟨p, hp, -⟩ := pack_eq_ok h
  exact (Packer.tracks_nil model).isGreedy_placeAll (isGreedy_nil model) hp

/-- The number of groups is the group of the last member, or `0` if there is none. -/
theorem groupCount_of_pack {model : DataModel} {ms grouped : List Member} {n : Nat}
    (h : pack model ms = .ok (grouped, n)) : n = (grouped.getLast?.map Member.group).getD 0 := by
  obtain ⟨p, hp, rfl⟩ := pack_eq_ok h
  exact ((Packer.tracks_nil model).placeAll hp).group_eq

/-! ### What the law says about groups -/

/-- Groups do not go down. -/
theorem IsGreedy.pairwise_group_le {model : DataModel} {placed : List Member}
    (hg : IsGreedy model placed) : placed.Pairwise fun f g => f.group ≤ g.group := by
  have htrans : IsTrans Member fun f g => f.group ≤ g.group := ⟨fun _ _ _ => Nat.le_trans⟩
  refine List.isChain_iff_pairwise.mp ?_
  refine List.isChain_iff_forall_rel_of_append_cons_cons.mpr fun f g before after h => ?_
  by_cases hshare : SharesStorage model (before ++ [f]) f g
  · exact ((hg.same before f g after h).mpr hshare).ge
  · have hnext := hg.next before f g after h hshare
    omega

/-- If groups do not go down, the members of a group stand together. -/
theorem eq_append_filter_group {ms : List Member} (k : Nat)
    (h : ms.Pairwise fun f g => f.group ≤ g.group) :
    ms = ms.filter (·.group < k) ++ ms.filter (·.group = k) ++ ms.filter (k < ·.group) := by
  induction ms with
  | nil => rfl
  | cons m ms ih =>
      obtain ⟨hm, hms⟩ := List.pairwise_cons.mp h
      have hsplit := ih hms
      have hlow : k ≤ m.group → ms.filter (·.group < k) = [] := fun hk =>
        List.filter_eq_nil_iff.mpr fun m' hm' hlt => by
          have hle := hm m' hm'
          have hlt' : m'.group < k := of_decide_eq_true hlt
          omega
      rcases Nat.lt_trichotomy m.group k with hlt | heq | hgt
      · rw [List.filter_cons_of_pos (by simpa using hlt), List.filter_cons_of_neg (by simp; omega),
          List.filter_cons_of_neg (by simp; omega), List.cons_append, List.cons_append, ← hsplit]
      · rw [hlow heq.ge, List.nil_append] at hsplit
        rw [List.filter_cons_of_neg (by simp; omega), List.filter_cons_of_pos (by simpa using heq),
          List.filter_cons_of_neg (by simp; omega), hlow heq.ge, List.nil_append,
          List.cons_append, ← hsplit]
      · have hmid : ms.filter (·.group = k) = [] :=
          List.filter_eq_nil_iff.mpr fun m' hm' heq => by
            have hle := hm m' hm'
            have heq' : m'.group = k := of_decide_eq_true heq
            omega
        rw [hlow hgt.le, hmid, List.nil_append, List.nil_append] at hsplit
        rw [List.filter_cons_of_neg (by simp; omega), List.filter_cons_of_neg (by simp; omega),
          List.filter_cons_of_pos (by simpa using hgt), hlow hgt.le, hmid, List.nil_append,
          List.nil_append, ← hsplit]

/-- A list of at least two elements ends in two. -/
theorem exists_eq_append_pair {α : Type} {l : List α} (h : 2 ≤ l.length) :
    ∃ front a b, l = front ++ [a, b] := by
  rcases List.eq_nil_or_concat l with rfl | ⟨l', b, rfl⟩
  · simp at h
  · rcases List.eq_nil_or_concat l' with rfl | ⟨front, a, rfl⟩
    · simp at h
    · exact ⟨front, a, b, by simp⟩

/-- **A group of several members** is a block of bit-fields of one type and sign, and
together they fit into the storage of that type. -/
theorem IsGreedy.exists_run {model : DataModel} {placed : List Member} {k : Nat}
    (hg : IsGreedy model placed) (h : 2 ≤ (placed.filter (·.group = k)).length) :
    ∃ before after base sign bytes,
      placed = before ++ placed.filter (·.group = k) ++ after ∧
      (∀ m ∈ placed, m.group = k → m.isBitField = true ∧ m.base = base ∧ m.sign = sign) ∧
      model.bitStorage base = some bytes ∧ groupBits placed k ≤ 8 * bytes := by
  have hsplit := eq_append_filter_group k hg.pairwise_group_le
  obtain ⟨front, f, g, hrun⟩ := exists_eq_append_pair h
  have hmem : ∀ m ∈ placed.filter (·.group = k), m.group = k := fun m hm => by
    simpa using (List.mem_filter.mp hm).2
  -- neighbours in the group share storage, because they are in one group
  have hshare : ∀ xs a b ys, placed.filter (·.group = k) = xs ++ a :: b :: ys →
      SharesStorage model (placed.filter (·.group < k) ++ xs ++ [a]) a b := by
    intro xs a b ys hxs
    have ha : a.group = k := hmem a (by rw [hxs]; simp)
    have hb : b.group = k := hmem b (by rw [hxs]; simp)
    refine (hg.same _ a b (ys ++ placed.filter (k < ·.group)) ?_).mp (hb.trans ha.symm)
    conv_lhs => rw [hsplit, hxs]
    simp
  have hchain : (placed.filter (·.group = k)).IsChain fun a b =>
      a.isBitField = true ∧ a.base = b.base ∧ a.sign = b.sign :=
    List.isChain_iff_forall_rel_of_append_cons_cons.mpr fun a b xs ys hxs =>
      have hab := hshare xs a b ys hxs
      ⟨hab.front, hab.base.symm, hab.sign.symm⟩
  have hlast : SharesStorage model (placed.filter (·.group < k) ++ front ++ [f]) f g :=
    hshare front f g [] hrun
  obtain ⟨bytes, hs, hfits⟩ := hlast.fits
  refine ⟨placed.filter (·.group < k), placed.filter (k < ·.group), g.base, g.sign, bytes,
    hsplit, fun m hm hmk => ?_, hlast.base ▸ hs, ?_⟩
  · have htrans : IsTrans Member fun a b =>
        a.isBitField = true ∧ a.base = b.base ∧ a.sign = b.sign :=
      ⟨fun _ _ _ hab hbc => ⟨hab.1, hab.2.1.trans hbc.2.1, hab.2.2.trans hbc.2.2⟩⟩
    have hpair := List.isChain_iff_pairwise.mp hchain
    have hmrun : m ∈ (front ++ [f]) ++ [g] := by
      have : m ∈ placed.filter (·.group = k) := List.mem_filter.mpr ⟨hm, by simpa using hmk⟩
      rw [hrun] at this
      simpa using this
    rw [hrun, show front ++ [f, g] = (front ++ [f]) ++ [g] by simp] at hpair
    rcases List.mem_append.mp hmrun with hmf | hmg
    · exact (List.pairwise_append.mp hpair).2.2 m hmf g (by simp)
    · rw [List.mem_singleton.mp hmg]
      exact ⟨hlast.back, rfl, rfl⟩
  · have hf : f.group = k := hmem f (by rw [hrun]; simp)
    have hgk : g.group = k := hmem g (by rw [hrun]; simp)
    have hafter : groupBits (placed.filter (k < ·.group)) k = 0 :=
      groupBits_eq_zero fun m hm => by
        have : k < m.group := by simpa using (List.mem_filter.mp hm).2
        omega
    have htotal : groupBits placed k =
        groupBits (placed.filter (·.group < k) ++ front ++ [f]) k + g.bits := by
      have hgbits : groupBits [g] k = g.bits := groupBits_singleton hgk
      conv_lhs => rw [hsplit, hrun, show front ++ [f, g] = (front ++ [f]) ++ [g] by simp]
      simp only [groupBits_append, hafter, hgbits]
      omega
    rw [hf] at hfits
    rw [htotal]
    exact hfits

/-- **An ordinary member is alone** in its group. -/
theorem IsGreedy.filter_group_eq_singleton {model : DataModel} {placed : List Member}
    {m : Member} (hg : IsGreedy model placed) (hm : m ∈ placed) (hb : m.isBitField = false) :
    placed.filter (·.group = m.group) = [m] := by
  have hmem : m ∈ placed.filter (·.group = m.group) := List.mem_filter.mpr ⟨hm, by simp⟩
  by_cases h2 : 2 ≤ (placed.filter (·.group = m.group)).length
  · obtain ⟨_, _, _, _, _, -, hall, -⟩ := hg.exists_run h2
    exact absurd (hb.symm.trans (hall m hm rfl).1) (by simp)
  · obtain ⟨x, hx⟩ := List.length_eq_one_iff.mp
      (Nat.le_antisymm (Nat.le_of_lt_succ (Nat.lt_of_not_le h2)) (List.length_pos_of_mem hmem))
    rw [hx] at hmem ⊢
    rw [List.mem_singleton.mp hmem]

/-! ### Packed structures -/

/-- **Packing is greedy.** Only groups change and the order is kept; the groups obey the law
about neighbours; an ordinary member, array or not, is alone in its group; and a group of
several members is a block of bit-fields of one type and sign that fit into the storage of
their type. -/
theorem pack_greedy {model : DataModel} {ms grouped : List Member} {n : Nat}
    (h : pack model ms = .ok (grouped, n)) :
    List.Forall₂ (fun m m' => m' = m.inGroup m'.group) ms grouped ∧
    IsGreedy model grouped ∧
    (∀ m ∈ grouped, m.isBitField = false → grouped.filter (·.group = m.group) = [m]) ∧
    (∀ k, 2 ≤ (grouped.filter (·.group = k)).length →
      ∃ before after base sign bytes,
        grouped = before ++ grouped.filter (·.group = k) ++ after ∧
        (∀ m ∈ grouped, m.group = k → m.isBitField = true ∧ m.base = base ∧ m.sign = sign) ∧
        model.bitStorage base = some bytes ∧ groupBits grouped k ≤ 8 * bytes) := by
  have hg := pack_isGreedy h
  refine ⟨pack_forall₂ h, hg, fun m hm hb => ?_, fun k hk => ?_⟩
  · exact hg.filter_group_eq_singleton hm hb
  · exact hg.exists_run hk

/-- Members of which the first two fill a storage exactly and the third fits into none. -/
def exactFill : List Member :=
  [{ name := "a", base := .int, bits := 20 }, { name := "b", base := .int, bits := 12 },
    { name := "c", base := .int, bits := 4000000000 }, { name := "d", base := .char }]

/-- The law at a storage that is filled exactly, in front of a width that no storage holds
and an ordinary member. -/
theorem pack_greedy_exactFill :
    pack {} exactFill = .ok (List.zipWith Member.inGroup exactFill [1, 1, 2, 3], 3) ∧
    IsGreedy {} (List.zipWith Member.inGroup exactFill [1, 1, 2, 3]) := by
  have h : pack {} exactFill = .ok (List.zipWith Member.inGroup exactFill [1, 1, 2, 3], 3) := by
    decide
  exact ⟨h, (pack_greedy h).2.1⟩

/-- An array that is given a bit width counts as a bit-field, so that it need not be alone in
its group. -/
theorem not_forall_array_alone :
    ¬ ∀ (model : DataModel) (ms grouped : List Member) (n : Nat),
      pack model ms = .ok (grouped, n) →
        ∀ m ∈ grouped, m.isBitField = false ∨ m.isArray = true →
          grouped.filter (·.group = m.group) = [m] := by
  intro h
  have halone := h {}
    [{ name := "a", base := .int, bits := 3, isArray := true },
      { name := "b", base := .int, bits := 3 }]
    [{ name := "a", base := .int, bits := 3, isArray := true, group := 1 },
      { name := "b", base := .int, bits := 3, group := 1 }]
    1 (by decide) { name := "a", base := .int, bits := 3, isArray := true, group := 1 }
    (by decide) (Or.inr rfl)
  exact absurd halone (by decide)

end StructEndian
