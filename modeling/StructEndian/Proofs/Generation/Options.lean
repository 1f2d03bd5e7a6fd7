import StructEndian.Proofs.Generation.Mirror

/-!
# What the options change

Every option has a part of the output of its own. With a listing there are some lines more in
front; the name stands in the signatures and in the title of the listing; the mark for functions
that do not throw stands at the end of the signatures. The width of `long` stands in the title,
and it is looked up for members of the type `long` only: without such members the packer, the
regions and the statements are the same for both widths.

All of it is read off one **page**, an output with its title and its signatures left open.

## Main definitions

* `Page`, `Page.fill`: an output with its title and its signatures left open.
* `Options.title`, `Options.signature`: the lines that the options are read in.

## Main results

* `pack_congr`, `regions_congr`, `Page.ofRegions_congr`: two widths of `long` make no difference where
  no member is a `long`.
* `exists_page`: a page that is the same for all options.
* `generate_options`: each option changes its own part of the output and nothing else.
-/

namespace StructEndian

/-! ### Pages -/

/-- A **page**: an output with the title of its listing and its two signatures left open. -/
structure Page where
  /-- The lines of the listing behind its title. -/
  table : List Text
  /-- The lines of the function for each direction behind its signature. -/
  body : Direction → List Text

/-- **Fill in** the title and the signatures, where the title is for a listing only. -/
def Page.fill (p : Page) (layout : Bool) (title : Text) (signature : Direction → Text) :
    List Text :=
  (if layout then ("/*" : Text) :: title :: p.table else []) ++
    (signature .toLittle :: p.body .toLittle ++ [] :: signature .toBig :: p.body .toBig)

/-- The number of lines does not depend on what is filled in. -/
theorem Page.length_fill (p : Page) (layout : Bool) (title title' : Text)
    (signature signature' : Direction → Text) :
    (p.fill layout title signature).length = (p.fill layout title' signature').length := by
  cases layout <;> simp [fill]

/-- The page of some regions. -/
def Page.ofRegions (model : DataModel) (rs : List Region) : Page :=
  { table := (listing model [] rs).drop 2
    body := fun d => ((Conversion.ofRegions model [] false rs).function d).drop 1 }

namespace Options

/-- The title of the listing for a structure with the given tag. -/
def title (o : Options) (tag : Text) : Text :=
  listingTitle o.model (o.nameFor tag)

/-- The signature for a structure with the given tag. -/
def signature (o : Options) (tag : Text) (d : Direction) : Text :=
  ({ tag := o.nameFor tag, noThrow := o.noThrow, body := [] } : Conversion).signature d

/-- **A structure always has a name.** -/
theorem nameFor_ne_nil (o : Options) (tag : Text) : o.nameFor tag ≠ [] := by
  rw [nameFor]
  cases hgiven : o.givenName with
  | none =>
      by_cases htag : tag = []
      · rw [Option.getD_none, if_pos htag]
        decide
      · rwa [Option.getD_none, if_neg htag]
  | some name =>
      rw [givenName, Option.filter_eq_some_iff] at hgiven
      exact of_decide_eq_true hgiven.2

/-- The mark for functions that do not throw stands at the end of the signature. -/
theorem signature_eq_append (o : Options) (tag : Text) (d : Direction) :
    o.signature tag d = { o with noThrow := false }.signature tag d ++
      if o.noThrow then (" noexcept" : Text) else [] := by
  unfold signature Conversion.signature
  rw [if_neg Bool.false_ne_true, List.append_nil]
  rfl

end Options

/-- The lines of a plan fill its page. -/
theorem lines_eq_fill (o : Options) (tag : Text) (k n : Nat) (rs : List Region) :
    Plan.lines o ⟨o.nameFor tag, k, n, rs⟩ =
      (Page.ofRegions o.model rs).fill o.layout (o.title tag) (o.signature tag) := by
  rw [Plan.lines, Page.fill]
  cases o.layout <;> rfl

/-! ### The width of `long` -/

variable {model model' : DataModel}

/-- Only bit-fields of the type `long` have storage of a size that depends on the model. -/
theorem bitStorage_congr {t : BaseType} (h : t ≠ .long) :
    model.bitStorage t = model'.bitStorage t := by
  cases t <;> first | rfl | exact absurd rfl h

/-- Only the type `long` has a primitive that depends on the model. -/
theorem primitive_congr {t : BaseType} (h : t ≠ .long) :
    model.primitive t = model'.primitive t := by
  cases t <;> first | rfl | exact absurd rfl h

theorem Packer.advance_congr {m : Member} (h : m.base ≠ .long) (p : Packer) :
    p.advance model m = p.advance model' m := by
  have hopen : p.openRun model m = p.openRun model' m := by
    rw [openRun, openRun, bitStorage_congr h]
  rw [advance, advance, hopen]

theorem Packer.placeAll_congr {ms : List Member} (h : ∀ m ∈ ms, m.base ≠ .long) (p : Packer) :
    p.placeAll model ms = p.placeAll model' ms := by
  induction ms generalizing p with
  | nil => rfl
  | cons m ms ih =>
      obtain ⟨hm, hms⟩ := List.forall_mem_cons.mp h
      rw [placeAll_cons, placeAll_cons, advance_congr hm]
      exact bind_congr fun q => by rw [ih hms q]

/-- **Packing** does not look at the width of `long` if no member is a `long`. -/
theorem pack_congr {ms : List Member} (h : ∀ m ∈ ms, m.base ≠ .long) :
    pack model ms = pack model' ms := by
  rw [pack, pack, Packer.placeAll_congr h]

/-- **Cutting into regions** does not look at the width of `long` if no member is a `long`. -/
theorem regions_congr {here : Address} {ms : List Member} {rs : List Region}
    (hrs : regionsFrom model here ms = .ok rs) (h : ∀ m ∈ ms, m.base ≠ .long) :
    regionsFrom model' here ms = .ok rs := by
  induction hrs using regionsFrom_induction with
  | nil here _ => rw [regionsFrom]
  | cons here lead rest r later _ _ hr ih =>
      obtain ⟨hlead, hrest⟩ := List.forall_mem_cons.mp h
      have hlater := ih fun m hm => hrest m ((List.dropWhile_suffix _).subset hm)
      have hr' : Region.ofGroup model' here lead (rest.takeWhile (·.group = lead.group)) = .ok r := by
        rw [← hr, Region.ofGroup, Region.ofGroup, bitStorage_congr hlead]
      rw [regionsFrom_cons, hr', Except.ok_bind, hlater, Except.ok_map]

/-- **The page** of regions does not depend on the width of `long` if none is led by a `long`. -/
theorem Page.ofRegions_congr {rs : List Region} (h : ∀ r ∈ rs, r.lead.base ≠ .long) :
    ofRegions model rs = ofRegions model' rs := by
  have hbody : rs.filterMap (Region.statement? model) = rs.filterMap (Region.statement? model') :=
    List.filterMap_congr fun r hr => by
      rw [Region.statement?, Region.statement?, primitive_congr (h r hr)]
  rw [ofRegions, ofRegions, Conversion.ofRegions, Conversion.ofRegions, hbody]
  rfl

/-! ### Options -/

/-- **One page for all options.** Where something is written, the same page is filled in whatever
the options are, if they agree on the width of `long` or no member is a `long`. -/
theorem exists_page {o : Options} {lines out : List Text} (h : generate o lines = .ok out)
    (hne : out ≠ []) :
    ∃ grouped n rs, pack o.model (declaredMembers lines) = .ok (grouped, n) ∧
      regions o.model grouped = .ok rs ∧
      ∀ o' : Options, o'.long = o.long ∨ (∀ m ∈ declaredMembers lines, m.base ≠ .long) →
        generate o' lines = .ok ((Page.ofRegions o.model rs).fill o'.layout
          (o'.title (structTag lines)) (o'.signature (structTag lines))) := by
  obtain ⟨grouped, n, rs, hpack, hrs, -⟩ := (generate_cases h).resolve_left hne
  refine ⟨grouped, n, rs, hpack, hrs, fun o' ho' => ?_⟩
  have hsame : pack o'.model (declaredMembers lines) = .ok (grouped, n) ∧
      regions o'.model grouped = .ok rs ∧
      Page.ofRegions o'.model rs = Page.ofRegions o.model rs := by
    rcases ho' with hlong | hlong
    · have hmodel : o'.model = o.model := by rw [Options.model, Options.model, hlong]
      rw [hmodel]
      exact ⟨hpack, hrs, rfl⟩
    · have hgrouped : ∀ m ∈ grouped, m.base ≠ .long :=
        forall_mem_of_pack (fun m _ hm => hm) hpack hlong
      have hmembers := forall_mem_members_of_pack (fun m _ hm => hm) hpack hrs hlong
      exact ⟨(pack_congr hlong).trans hpack, regions_congr hrs hgrouped,
        Page.ofRegions_congr fun r hr => hmembers r hr _ r.lead_mem_members⟩
  obtain ⟨hpack', hrs', hpage⟩ := hsame
  rw [← hpage, ← lines_eq_fill]
  exact (generate_eq_ok_iff (declaredMembers_ne_nil h hne)).mpr ⟨grouped, n, rs, hpack', hrs', rfl⟩

/-- **Each option changes its own part of the output.** Where something is written, a listing
stands in front of what is written without one. The other options leave a page as it is, and with
it the number of lines: the mark for functions that do not throw is added to the signatures; the
name, which is never empty, stands in the title and the signatures; and if no member is a `long`
then its width stands in the title alone. -/
theorem generate_options (o : Options) {lines out : List Text} (h : generate o lines = .ok out)
    (hne : out ≠ []) :
    (∃ grouped n rs plain, pack o.model (declaredMembers lines) = .ok (grouped, n) ∧
      regions o.model grouped = .ok rs ∧
      generate { o with layout := false } lines = .ok plain ∧
      generate { o with layout := true } lines =
        .ok (listing o.model (o.nameFor (structTag lines)) rs ++ plain)) ∧
    ∃ p : Page,
      (∀ title signature, (p.fill o.layout title signature).length = out.length) ∧
      (∃ title, ∃ signature : Direction → Text, ∀ noThrow, generate { o with noThrow } lines =
        .ok (p.fill o.layout title fun d =>
          signature d ++ if noThrow then (" noexcept" : Text) else [])) ∧
      (∀ name, { o with name }.nameFor (structTag lines) ≠ [] ∧
        generate { o with name } lines = .ok (p.fill o.layout
          ({ o with name }.title (structTag lines))
          ({ o with name }.signature (structTag lines)))) ∧
      ((∀ m ∈ declaredMembers lines, m.base ≠ .long) →
        ∃ signature, ∀ long, generate { o with long } lines =
          .ok (p.fill o.layout ({ o with long }.title (structTag lines)) signature)) := by
  obtain ⟨grouped, n, rs, hpack, hrs, hpage⟩ := exists_page h hne
  refine ⟨⟨grouped, n, rs, _, hpack, hrs, hpage _ (Or.inl rfl), hpage _ (Or.inl rfl)⟩,
    Page.ofRegions o.model rs, fun title signature => ?_, ?_, fun name => ?_, fun hlong => ?_⟩
  · rw [Except.ok.inj (h.symm.trans (hpage o (Or.inl rfl)))]
    exact Page.length_fill _ _ _ _ _ _
  · refine ⟨o.title (structTag lines), { o with noThrow := false }.signature (structTag lines),
      fun noThrow => ?_⟩
    rw [hpage { o with noThrow } (Or.inl rfl),
      funext (Options.signature_eq_append { o with noThrow } _)]
    rfl
  · exact ⟨Options.nameFor_ne_nil _ _, hpage _ (Or.inl rfl)⟩
  · exact ⟨o.signature (structTag lines), fun long => hpage _ (Or.inr hlong)⟩

/-- Lines without a `long` are written in the same way for both widths, up to the title. -/
theorem generate_options_assortedLines :
    ∃ out, generate { layout := true } assortedLines = .ok out ∧ out ≠ [] ∧
      (∀ m ∈ declaredMembers assortedLines, m.base ≠ .long) ∧
      ∃ p : Page, ∃ signature, ∀ long, generate { layout := true, long } assortedLines =
        .ok (p.fill true (listingTitle { long } "Frame") signature) := by
  have hlong : ∀ m ∈ declaredMembers assortedLines, m.base ≠ .long := by
    decide +kernel
  obtain ⟨out, h, hne⟩ := exists_generate_ne_nil { layout := true } assortedLines
    (by decide +kernel) (by decide +kernel)
  obtain ⟨-, p, -, -, -, hwidth⟩ := generate_options { layout := true } h hne
  obtain ⟨signature, hpage⟩ := hwidth hlong
  have htitle : ∀ long, { layout := true, long : Options }.title (structTag assortedLines) =
      listingTitle { long } "Frame" := fun long => by
    rw [show structTag assortedLines = "Frame" by decide +kernel]
    rfl
  exact ⟨out, h, hne, hlong, p, signature, fun long => by rw [hpage long, htitle]⟩

end StructEndian
