import StructEndian.Proofs.Generation.Failure
import StructEndian.Proofs.Packing.Greedy
import StructEndian.Proofs.Region.Anonymity

/-!
# Outlining the functions in one pass

The members of a structure are packed first, then cut into regions, and then every region is
given its statement. Each of the three goes over the whole structure. Here they are done in one
pass: an **outline** holds the packer, the address of unnamed storage and the statements behind
the members so far, and `Outline.add` takes it behind the next member. That both ways write the
same statements is `map_body_outline`.

What the pass is good for is what it makes of a list in two parts. The outline of both parts goes
on from that of the first, so statements are only ever added. And an ordinary member leaves
nothing of the outline in front of it but its statements: no run is open behind it, and the
address is counted from its own end.

## Main definitions

* `statementsFrom`: the statements of grouped members.
* `Outline`, `Outline.add`, `Outline.addAll`: the pass and one step of it.
* `outline`: the outline of a whole structure.
* `Outline.behind`: an outline with another one in front of it.

## Main results

* `map_body_outline`: the outline has the statements of the packed members.
* `generate_eq_outline`: what is written for a structure, read off its outline.
* `Outline.body_prefix_of_addAll`: statements are only added.
* `Outline.addAll_behind`: what is in front of an outline does not matter for what is added.
* `map_body_outline_append`: the outline of two lists, the second of which starts with an
  ordinary member, has the statements of the one and those of the other.
-/

namespace StructEndian

/-! ### The statements of grouped members -/

/-- The **statements** of grouped members from the address `here` on. -/
def statementsFrom (model : DataModel) (here : Address) (ms : List Member) :
    Except UnsupportedBitField (List Statement) :=
  (regionsFrom model here ms).map fun rs => rs.filterMap (Region.statement? model)

/-- The statements of a list that is not empty are that of the first region, if it has one, and
those behind its group. -/
theorem statementsFrom_cons {model : DataModel} {here : Address} {m : Member} {r : Region}
    (h : Region.ofGroup model here m [] = .ok r) (k : Nat) (rest : List Member) :
    statementsFrom model here (m.inGroup k :: rest) =
      (statementsFrom model (r.addressAfter here) (rest.dropWhile (·.group = k))).map
        ((r.statement? model).toList ++ ·) := by
  obtain ⟨r', hr', hstatement, haddress⟩ :=
    (m.resembles_inGroup k).exists_ofGroup h (rest.takeWhile (·.group = k))
  have hcons := regionsFrom_cons model here (m.inGroup k) rest
  rw [Member.group_inGroup, hr', Except.ok_bind] at hcons
  rw [statementsFrom, statementsFrom, hcons, Except.map_map, Except.map_map, ← haddress,
    ← hstatement]
  congr 1
  funext later
  rw [List.filterMap_cons]
  cases r'.statement? model <;> rfl

/-! ### Groups counted from another number on -/

namespace Packer

/-- The packer with its groups **counted from** `k` on. -/
def countedFrom (k : Nat) (p : Packer) : Packer :=
  { p with group := k + p.group }

theorem openRun_countedFrom (model : DataModel) (k : Nat) (p : Packer) (m : Member) :
    (p.countedFrom k).openRun model m = (p.openRun model m).map (countedFrom k) := by
  rw [openRun, openRun]
  cases model.bitStorage m.base <;> rfl

/-- **The packer takes its step** by the open run alone, so it does not matter from where the
groups are counted. -/
theorem advance_countedFrom (model : DataModel) (k : Nat) (p : Packer) (m : Member) :
    (p.countedFrom k).advance model m = (p.advance model m).map (countedFrom k) := by
  have hopen := openRun_countedFrom model k p m
  rw [advance, advance]
  cases m.isBitField with
  | false => rfl
  | true =>
      obtain ⟨group, run⟩ := p
      cases run with
      | none => exact hopen
      | some r =>
          cases ha : r.admits m with
          | false => simpa [countedFrom, ha] using hopen
          | true => simp [countedFrom, ha]

end Packer

/-! ### The pass -/

/-- The **outline** of the functions of a structure behind some of its members. -/
structure Outline where
  /-- The packer behind the members. -/
  packer : Packer := {}
  /-- The address of unnamed storage behind them. -/
  here : Address := {}
  /-- The statements that convert them, in order. -/
  body : List Statement := []

namespace Outline

/-- The outline behind one more region. -/
def addRegion (model : DataModel) (t : Outline) (p : Packer) (r : Region) : Outline :=
  { packer := p, here := r.addressAfter t.here, body := t.body ++ (r.statement? model).toList }

/-- **Add** the next member. One that joins the last group is in a region that has its statement
already, and any other one leads a new region. -/
def add (model : DataModel) (t : Outline) (m : Member) : Except UnsupportedBitField Outline := do
  let p ← t.packer.advance model m
  if p.group = t.packer.group then return { t with packer := p }
  else
    let r ← Region.ofGroup model t.here m []
    return t.addRegion model p r

/-- Add one member after the other. -/
def addAll (model : DataModel) (t : Outline) (ms : List Member) :
    Except UnsupportedBitField Outline :=
  ms.foldlM (add model) t

end Outline

/-- The **outline** of a whole structure. -/
def outline (model : DataModel) (ms : List Member) : Except UnsupportedBitField Outline :=
  Outline.addAll model {} ms

namespace Outline

variable {model : DataModel}

@[simp] theorem addAll_nil (t : Outline) : t.addAll model [] = .ok t := rfl

theorem addAll_cons (t : Outline) (m : Member) (ms : List Member) :
    t.addAll model (m :: ms) = t.add model m >>= fun u => u.addAll model ms :=
  List.foldlM_cons

theorem addAll_append (t : Outline) (ms ms' : List Member) :
    t.addAll model (ms ++ ms') = t.addAll model ms >>= fun u => u.addAll model ms' :=
  List.foldlM_append

/-! ### One step -/

/-- A step fails where packing does. -/
theorem add_of_error {t : Outline} {m : Member} {e : UnsupportedBitField}
    (h : t.packer.advance model m = .error e) : t.add model m = .error e := by
  rw [add, h]
  rfl

/-- Where packing does not fail a step looks at the group alone. -/
theorem add_of_ok {t : Outline} {m : Member} {p : Packer}
    (h : t.packer.advance model m = .ok p) :
    t.add model m = if p.group = t.packer.group then .ok { t with packer := p }
      else (Region.ofGroup model t.here m []).map (t.addRegion model p) := by
  rw [add, h]
  rfl

/-- **What one step does** where packing does not fail: the member joins the last group and
nothing is added, or it leads a region in the next one. -/
theorem exists_add {t : Outline} {m : Member} {p : Packer}
    (h : t.packer.advance model m = .ok p) :
    (p.group = t.packer.group ∧ t.add model m = .ok { t with packer := p }) ∨
    (p.group = t.packer.group + 1 ∧ ∃ r, Region.ofGroup model t.here m [] = .ok r ∧
      t.add model m = .ok (t.addRegion model p r)) := by
  have hopen : p.group = t.packer.group + 1 →
      (m.isBitField = true → ∃ bytes, model.bitStorage m.base = some bytes) →
      ∃ r, Region.ofGroup model t.here m [] = .ok r ∧
        t.add model m = .ok (t.addRegion model p r) := by
    intro hgroup hstorage
    obtain ⟨r, hr⟩ := Region.exists_ofGroup hstorage t.here []
    exact ⟨r, hr, by rw [add_of_ok h, if_neg (by omega), hr]; rfl⟩
  rcases Packer.advance_cases h with ⟨hb, rfl⟩ | ⟨r, hb, hr, ha, rfl⟩ | ⟨bytes, hb, ha, hs, rfl⟩
  · exact Or.inr ⟨rfl, hopen rfl fun hb' => absurd (hb.symm.trans hb') (by simp)⟩
  · exact Or.inl ⟨rfl, by rw [add_of_ok h, if_pos rfl]⟩
  · exact Or.inr ⟨rfl, hopen rfl fun _ => ⟨bytes, hs⟩⟩

/-! ### The pass and the three walks -/

/-- **One pass writes what the three walks write.** Members that are still in the group that the
outline has reached are in its last region, so the statements to come start behind them. -/
theorem map_body_addAll (t : Outline) (ms : List Member) :
    (t.addAll model ms).map Outline.body =
      (t.packer.placeAll model ms >>= fun last =>
        statementsFrom model t.here (last.2.dropWhile (·.group = t.packer.group))).map
          (t.body ++ ·) := by
  induction ms generalizing t with
  | nil => simp [Packer.placeAll, statementsFrom, regionsFrom]
  | cons m ms ih =>
      rw [addAll_cons, Packer.placeAll_cons]
      cases ha : t.packer.advance model m with
      | error e =>
          rw [add_of_error ha]
          rfl
      | ok p =>
          rw [Except.ok_bind, Except.bind_map]
          rcases exists_add ha with ⟨hgroup, hadd⟩ | ⟨hgroup, r, hr, hadd⟩
          · -- the member is dropped with the group that it joins
            rw [hadd, Except.ok_bind, ih]
            simp [hgroup]
          · -- nothing is dropped in front of it, and the members of its group are behind it
            have hne : p.group ≠ t.packer.group := by omega
            rw [hadd, Except.ok_bind, ih, addRegion, Except.map_bind, Except.map_bind]
            refine bind_congr fun last => ?_
            rw [List.dropWhile_cons_of_neg (by simp [hne]), statementsFrom_cons hr,
              Except.map_map]
            simp [List.append_assoc]

/-! ### Statements are only added -/

/-- A step adds statements at the end. -/
theorem body_prefix_of_add {t u : Outline} {m : Member} (h : t.add model m = .ok u) :
    t.body <+: u.body := by
  cases ha : t.packer.advance model m with
  | error e =>
      rw [add_of_error ha] at h
      cases h
  | ok p =>
      rcases exists_add ha with ⟨-, hadd⟩ | ⟨-, r, -, hadd⟩
      · obtain rfl := Except.ok.inj (hadd.symm.trans h)
        exact List.prefix_rfl
      · obtain rfl := Except.ok.inj (hadd.symm.trans h)
        exact List.prefix_append _ _

/-- **Statements are only added**: what stands in an outline stays where it is. -/
theorem body_prefix_of_addAll {t u : Outline} {ms : List Member} (h : t.addAll model ms = .ok u) :
    t.body <+: u.body := by
  induction ms generalizing t with
  | nil =>
      obtain rfl := Except.ok.inj h
      exact List.prefix_rfl
  | cons m ms ih =>
      rw [addAll_cons] at h
      obtain ⟨v, hv, hu⟩ := Except.bind_eq_ok_iff.mp h
      exact (body_prefix_of_add hv).trans (ih hu)

/-! ### What is in front does not matter -/

/-- An outline **behind** another one: its groups are counted on and its statements are added,
but the run and the address are its own. -/
def behind (s t : Outline) : Outline :=
  { packer := t.packer.countedFrom s.packer.group, here := t.here, body := s.body ++ t.body }

theorem addRegion_behind (s t : Outline) (p : Packer) (r : Region) :
    (s.behind t).addRegion model (p.countedFrom s.packer.group) r =
      s.behind (t.addRegion model p r) := by
  simp [behind, addRegion]

/-- **A step behind another outline** is the step, behind that outline. -/
theorem add_behind (s t : Outline) (m : Member) :
    (s.behind t).add model m = (t.add model m).map s.behind := by
  have hadvance := Packer.advance_countedFrom model s.packer.group t.packer m
  cases ha : t.packer.advance model m with
  | error e =>
      rw [ha] at hadvance
      rw [add_of_error ha, add_of_error hadvance]
      rfl
  | ok p =>
      rw [ha] at hadvance
      rw [add_of_ok ha, add_of_ok hadvance]
      have hiff : (p.countedFrom s.packer.group).group = (s.behind t).packer.group ↔
          p.group = t.packer.group := Nat.add_left_cancel_iff
      by_cases hgroup : p.group = t.packer.group
      · rw [if_pos hgroup, if_pos (hiff.mpr hgroup)]
        rfl
      · rw [if_neg hgroup, if_neg (mt hiff.mp hgroup), Except.map_map]
        exact congrArg (Except.map · _) (funext fun r => addRegion_behind s t p r)

/-- **An outline behind another one** goes on as it does on its own. -/
theorem addAll_behind (s t : Outline) (ms : List Member) :
    (s.behind t).addAll model ms = (t.addAll model ms).map s.behind := by
  induction ms generalizing t with
  | nil => rfl
  | cons m ms ih =>
      rw [addAll_cons, addAll_cons, add_behind, Except.bind_map, Except.map_bind]
      exact bind_congr fun u => ih u

/-- **An ordinary member leaves nothing of an outline** but its statements: it is added as it is
to an empty one. -/
theorem add_of_not_isBitField (s : Outline) {m : Member} (hm : m.isBitField = false) :
    s.add model m = (({} : Outline).add model m).map s.behind := by
  have hadvance : ∀ p : Packer, p.advance model m = .ok ⟨p.group + 1, none⟩ := fun p => by
    rw [Packer.advance, hm]
    rfl
  rw [add_of_ok (hadvance s.packer), add_of_ok (hadvance {}), if_neg (by simp), if_neg (by simp),
    Region.ofGroup, Region.ofGroup, hm]
  cases m.isArray <;> simp [addRegion, behind, Packer.countedFrom, Region.addressAfter]

end Outline

/-! ### Lists in two parts -/

/-- **A list whose second part starts with an ordinary member**: its statements are those of the
one part and those of the other. -/
theorem map_body_outline_append {model : DataModel} (ms : List Member) {ms' : List Member}
    (hms' : ∀ m ∈ ms'.head?, m.isBitField = false) :
    (outline model (ms ++ ms')).map Outline.body =
      outline model ms >>= fun s => (outline model ms').map fun t => s.body ++ t.body := by
  rw [outline, Outline.addAll_append, Except.map_bind]
  refine bind_congr fun s => ?_
  cases ms' with
  | nil => simp [outline]
  | cons m ms' =>
      rw [Outline.addAll_cons, Outline.add_of_not_isBitField s (hms' m rfl), Except.bind_map,
        outline, Outline.addAll_cons, Except.map_bind, Except.map_bind]
      refine bind_congr fun t => ?_
      rw [Outline.addAll_behind, Except.map_map]
      rfl

/-! ### What is written -/

/-- The outline of a structure has the statements of its packed members. -/
theorem map_body_outline (model : DataModel) (ms : List Member) :
    (outline model ms).map Outline.body =
      pack model ms >>= fun packed => statementsFrom model {} packed.1 := by
  rw [outline, Outline.map_body_addAll]
  cases hp : Packer.placeAll model {} ms with
  | error e =>
      rw [pack, hp]
      rfl
  | ok last =>
      have hpack : pack model ms = .ok (last.2, last.1.group) := by
        rw [pack, hp]
        rfl
      -- no group has the number of an empty outline
      have hstart : last.2.dropWhile (·.group = 0) = last.2 := by
        cases hl : last.2 with
        | nil => rfl
        | cons m rest =>
            have hm : m.group = 1 := (pack_isGreedy hpack).first m (by rw [hl]; rfl)
            rw [List.dropWhile_cons_of_neg (by simp [hm])]
      rw [hpack, Except.ok_bind, Except.ok_bind, hstart]
      cases statementsFrom model {} last.2 <;> rfl

/-- The conversion that is planned for members consists of the statements of their outline. -/
theorem map_conversion_planMembers (o : Options) (tag : Text) (ms : List Member) :
    (planMembers o tag ms).map (Plan.conversion o) =
      ((outline o.model ms).map Outline.body).map fun body =>
        { tag := o.nameFor tag, noThrow := o.noThrow, body } := by
  rw [map_body_outline, planMembers, Except.map_bind, Except.map_bind]
  refine bind_congr fun packed => ?_
  obtain ⟨grouped, n⟩ := packed
  dsimp only
  rw [statementsFrom, regions, Except.map_map]
  cases regionsFrom o.model {} grouped <;> rfl

/-- **What is written** without a listing for lines that declare members: the functions with the
statements of the outline. -/
theorem generate_eq_outline {o : Options} {lines : List Text} (ho : o.layout = false)
    (h : declaredMembers lines ≠ []) :
    generate o lines = ((outline o.model (declaredMembers lines)).map Outline.body).map fun body =>
      ({ tag := o.nameFor (structTag lines), noThrow := o.noThrow, body } :
        Conversion).functions := by
  have hlines : Plan.lines o = fun p => (p.conversion o).functions := by
    funext p
    rw [Plan.lines, ho]
    rfl
  rw [generate_of_ne_nil h, hlines, ← Except.map_map (Plan.conversion o),
    map_conversion_planMembers, Except.map_map]

end StructEndian
