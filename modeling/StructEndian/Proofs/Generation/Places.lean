import StructEndian.Proofs.Generation.Lines

/-!
# No storage is converted twice

Converting the same storage a second time undoes the first conversion. So the assignments of a
function must have different left sides, and these are texts: a member, an element of an array and
unnamed storage at an address must not be spelled alike. They are told apart as follows.

* A member is a name behind an arrow, and an element of an array has an index behind the name. The
  names of ordinary members are different by assumption.
* Unnamed storage is told apart from members by its first character, and from other unnamed storage
  by its address. Between two ordinary members the offsets grow, and behind each of them they are
  counted from a new anchor.
* An address is read back from its text, although an offset of zero is not written.

## Main definitions

* `leftSide?`, `leftSidesIn`: the left side of an assignment, and those in a function of an output.
* `Region.IsNamed`: the words in the place of a region are spelled.

## Main results

* `Address.text_injective`: an address is read back from its text.
* `AddressedFrom.pairwise_place`: regions with different names are at different places.
* `leftSidesIn_lines`: the left sides in a function are the places of the converted regions.
* `generate_places`: the left sides in a function of an output are pairwise different.
-/

namespace StructEndian

/-! ### Addresses -/

namespace Text

/-- A text is cut in one way only at the first place where some character stands. -/
theorem append_cons_inj {c : Char} {s s' t t' : Text} (hs : c ∉ s) (hs' : c ∉ s')
    (h : s ++ c :: t = s' ++ c :: t') : s = s' ∧ t = t' := by
  induction s generalizing s' with
  | nil =>
      cases s' with
      | nil => exact ⟨rfl, (List.cons.inj h).2⟩
      | cons d s' => exact absurd ((List.cons.inj h).1 ▸ List.mem_cons_self) hs'
  | cons d s ih =>
      cases s' with
      | nil => exact absurd ((List.cons.inj h).1 ▸ List.mem_cons_self) hs
      | cons d' s' =>
          obtain ⟨rfl, htail⟩ := List.cons.inj h
          obtain ⟨rfl, rfl⟩ := ih (fun hmem => hs (List.mem_cons_of_mem _ hmem))
            (fun hmem => hs' (List.mem_cons_of_mem _ hmem)) htail
          exact ⟨rfl, rfl⟩

/-- A number is read back from its digits. -/
theorem decimal_injective : Function.Injective decimal := by
  intro m n h
  have hvalue := Numeral.value?_decimal m
  rw [h, Numeral.value?_decimal n] at hvalue
  exact (Option.some.inj hvalue).symm

end Text

namespace Address

/-- How the offset of an address is written behind its origin. -/
def offsetText (offset : Nat) : Text :=
  if offset = 0 then [] else " + " ++ Text.decimal offset

theorem text_eq (a : Address) : a.text = originText a.anchor ++ offsetText a.offset := by
  rw [text, offsetText]
  split
  · exact (List.append_nil _).symm
  · exact List.append_assoc _ _ _

/-- **An offset is read back**, also one of zero, which is not written. -/
theorem offsetText_injective : Function.Injective offsetText := by
  intro m n h
  by_cases hm : m = 0
  · by_cases hn : n = 0
    · rw [hm, hn]
    · rw [offsetText, offsetText, if_pos hm, if_neg hn] at h
      exact absurd h.symm (List.cons_ne_nil _ _)
  · by_cases hn : n = 0
    · rw [offsetText, offsetText, if_neg hm, if_pos hn] at h
      exact absurd h (List.cons_ne_nil _ _)
    · rw [offsetText, offsetText, if_neg hm, if_neg hn] at h
      exact Text.decimal_injective (List.append_cancel_left h)

theorem originText_none_append (s : Text) : originText none ++ s = "(char*)" ++ 'p' :: s :=
  rfl

/-- An origin with an anchor, up to the first blank. -/
theorem originText_some_append (name s : Text) :
    originText (some name) ++ s = "(char*)" ++ '&' :: (parameter ++ "->" ++
      (name ++ ' ' :: ("+ sizeof(" ++ (memberText name ++ (")" ++ s))))) := by
  have horigin : originText (some name) =
      "(char*)&" ++ memberText name ++ " + sizeof(" ++ memberText name ++ ")" := rfl
  have hfront : ("(char*)&" : Text) = "(char*)" ++ ['&'] := rfl
  have hblank : (" + sizeof(" : Text) = ' ' :: "+ sizeof(" := rfl
  have hmember : memberText name = parameter ++ "->" ++ name := rfl
  rw [horigin, hfront, hblank, hmember]
  simp only [List.append_assoc, List.cons_append, List.nil_append]

/-- **An anchor is read back**, whatever stands behind it, if there is no blank in its name. -/
theorem anchor_eq_of_originText {anchor anchor' : Option Text} {s s' : Text}
    (hanchor : ∀ name ∈ anchor, ' ' ∉ name) (hanchor' : ∀ name ∈ anchor', ' ' ∉ name)
    (h : originText anchor ++ s = originText anchor' ++ s') : anchor = anchor' := by
  cases anchor with
  | none =>
      cases anchor' with
      | none => rfl
      | some name =>
          rw [originText_none_append, originText_some_append] at h
          exact absurd (List.cons.inj (List.append_cancel_left h)).1 (by decide)
  | some name =>
      cases anchor' with
      | none =>
          rw [originText_none_append, originText_some_append] at h
          exact absurd (List.cons.inj (List.append_cancel_left h)).1 (by decide)
      | some name' =>
          rw [originText_some_append, originText_some_append] at h
          have hname := List.append_cancel_left (List.cons.inj (List.append_cancel_left h)).2
          rw [(Text.append_cons_inj (hanchor name rfl) (hanchor' name' rfl) hname).1]

/-- **An address is read back** from its text, if there is no blank in the name of its anchor. -/
theorem text_injective {a b : Address} (ha : ∀ name ∈ a.anchor, ' ' ∉ name)
    (hb : ∀ name ∈ b.anchor, ' ' ∉ name) (h : a.text = b.text) : a = b := by
  obtain ⟨anchor, offset⟩ := a
  obtain ⟨anchor', offset'⟩ := b
  rw [text_eq, text_eq] at h
  obtain rfl : anchor = anchor' := anchor_eq_of_originText ha hb h
  obtain rfl : offset = offset' := offsetText_injective (List.append_cancel_left h)
  rfl

/-- The address behind a storage is further on. -/
theorem offset_skip (a : Address) (bytes : Nat) : (a.skip bytes).offset = a.offset + bytes :=
  rfl

end Address

/-! ### Places -/

theorem memberText_injective : Function.Injective memberText := fun _ _ h =>
  List.append_cancel_left h

theorem elementText_injective : Function.Injective elementText := fun _ _ h =>
  memberText_injective (List.append_cancel_right h)

/-- A member is no element of an array. -/
theorem memberText_ne_elementText {name : Text} (h : '[' ∉ name) (array : Text) :
    memberText name ≠ elementText array := by
  intro heq
  have hassoc : elementText array = memberText (array ++ "[n]") := List.append_assoc _ _ _
  rw [memberText_injective (heq.trans hassoc)] at h
  exact h (List.mem_append_right _ List.mem_cons_self)

/-- **Unnamed storage is read back**, as far as its address is concerned. -/
theorem text_eq_of_storageText {type type' : Text} {a a' : Address} (h : '*' ∉ type)
    (h' : '*' ∉ type') (heq : storageText type a = storageText type' a') : a.text = a'.text := by
  have hfront : ∀ (type : Text) (a : Address), storageText type a =
      "*(" ++ (type ++ '*' :: (")(" ++ (a.text ++ ")"))) := fun type a => by
    have hstar : ("*)(" : Text) = '*' :: ")(" := rfl
    rw [storageText, hstar]
    simp only [List.append_assoc, List.cons_append]
  rw [hfront, hfront] at heq
  obtain ⟨-, hrest⟩ := Text.append_cons_inj h h' (List.append_cancel_left heq)
  exact List.append_cancel_right (List.append_cancel_left hrest)

/-- A character that is neither of an identifier nor a hash nor a blank is in no storage type. -/
theorem Member.IsSpelled.notMem_storageType {m : Member} (hm : m.IsSpelled) {c : Char}
    (hc : isIdentifierPart c = false) (hhash : c ≠ '#') (hblank : c ≠ ' ') : c ∉ m.storageType := by
  have hbase := hm.notMem_typeName hc hhash hblank
  have hkeyword : ∀ sign : Sign, c ∉ sign.keyword := by
    intro sign hmem
    have hwords : sign.keyword.all isWordChar = true := by
      cases sign <;> decide
    have hword := List.all_eq_true.mp hwords c hmem
    exact absurd ((isIdentifierPart_of_isWordChar hword).symm.trans hc) (by decide)
  rw [storageType]
  split
  · exact hbase
  · exact List.not_mem_append (List.not_mem_append (hkeyword _) (by simp [hblank])) hbase

namespace Region

/-- A region is **named** if the names that it is addressed by are spelled, and its lead is. -/
structure IsNamed (r : Region) : Prop where
  /-- The names are spelled. -/
  names : ∀ name ∈ r.names, name.IsSpelled
  /-- The lead is spelled. -/
  lead : r.lead.IsSpelled

/-- The place of a region starts with the parameter if the region has a name, and otherwise with
a star. -/
theorem exists_place_eq (r : Region) :
    ∃ s, r.place = (if r.name?.isSome then 'p' else '*') :: s := by
  cases r <;> exact ⟨_, rfl⟩

/-- A region with a name and one without are at different places. -/
theorem place_ne_of_name?_eq_none {r s : Region} {name : Text} (hr : r.name? = some name)
    (hs : s.name? = none) : r.place ≠ s.place := by
  obtain ⟨t, ht⟩ := r.exists_place_eq
  obtain ⟨t', ht'⟩ := s.exists_place_eq
  rw [ht, ht', hr, hs]
  exact fun h => absurd (List.cons.inj h).1 (by simp)

/-- Regions with different names are at different places. -/
theorem IsNamed.place_ne {r s : Region} (hr : r.IsNamed) (hs : s.IsNamed) {name name' : Text}
    (hname : r.name? = some name) (hname' : s.name? = some name') (hne : name ≠ name') :
    r.place ≠ s.place := by
  cases r with
  | bits => cases hname
  | scalar m =>
      obtain rfl := Option.some.inj hname
      cases s with
      | bits => cases hname'
      | scalar m' =>
          obtain rfl := Option.some.inj hname'
          exact memberText_injective.ne hne
      | array m' =>
          exact memberText_ne_elementText ((hr.names _ List.mem_cons_self).notMem (by decide)
            (by decide)) _
  | array m =>
      obtain rfl := Option.some.inj hname
      cases s with
      | bits => cases hname'
      | scalar m' =>
          exact (memberText_ne_elementText ((hs.names _ List.mem_cons_self).notMem (by decide)
            (by decide)) _).symm
      | array m' =>
          obtain rfl := Option.some.inj hname'
          exact elementText_injective.ne hne

/-- Unnamed storage at different addresses is at different places. -/
theorem IsNamed.place_ne_of_address_ne {first first' : Member} {others others' : List Member}
    {storage storage' : Nat} {address address' : Address}
    (h : (bits first others storage address).IsNamed)
    (h' : (bits first' others' storage' address').IsNamed) (hne : address ≠ address') :
    (bits first others storage address).place ≠ (bits first' others' storage' address').place := by
  intro heq
  have htext := text_eq_of_storageText
    (h.lead.notMem_storageType (by decide) (by decide) (by decide))
    (h'.lead.notMem_storageType (by decide) (by decide) (by decide)) heq
  refine hne (Address.text_injective (fun name hname => ?_) (fun name hname => ?_) htext)
  · exact (h.names name (Option.mem_toList.mpr hname)).notMem (by decide) (by decide)
  · exact (h'.names name (Option.mem_toList.mpr hname)).notMem (by decide) (by decide)

end Region

/-- The address of a storage is further on behind the anchor that a walk starts with, or behind a
named region that the walk comes to. -/
theorem AddressedFrom.address_cases {here : Address} {rs : List Region}
    (h : AddressedFrom here rs) {first : Member} {others : List Member} {storage : Nat}
    {address : Address} (hr : Region.bits first others storage address ∈ rs) :
    (address.anchor = here.anchor ∧ here.offset ≤ address.offset) ∨
      ∃ name ∈ rs.filterMap Region.name?, address.anchor = some name := by
  induction rs generalizing here with
  | nil => exact absurd hr List.not_mem_nil
  | cons r rs ih =>
      obtain ⟨hfirst, hlater⟩ := h
      rcases List.mem_cons.mp hr with rfl | hmem
      · rw [hfirst first others storage address rfl]
        exact Or.inl ⟨rfl, le_rfl⟩
      · have hcases := ih hlater hmem
        cases r with
        | scalar m | array m =>
            rcases hcases with ⟨hanchor, -⟩ | ⟨name, hname, hanchor⟩
            · exact Or.inr ⟨m.name, List.mem_cons_self, hanchor⟩
            · exact Or.inr ⟨name, List.mem_cons_of_mem _ hname, hanchor⟩
        | bits first' others' storage' address' =>
            rcases hcases with ⟨hanchor, hoffset⟩ | hname
            · exact Or.inl ⟨hanchor, (Nat.le_add_right _ _).trans hoffset⟩
            · exact Or.inr hname

/-- **Regions are at different places** if the named ones have different names and no storage is
empty. -/
theorem AddressedFrom.pairwise_place {here : Address} {rs : List Region}
    (h : AddressedFrom here rs) (hnamed : ∀ r ∈ rs, r.IsNamed)
    (hstorage : ∀ first others storage address,
      Region.bits first others storage address ∈ rs → 0 < storage)
    (hnodup : (here.anchor.toList ++ rs.filterMap Region.name?).Nodup) :
    rs.Pairwise fun r s => r.place ≠ s.place := by
  induction rs generalizing here with
  | nil => exact List.Pairwise.nil
  | cons r rs ih =>
      obtain ⟨hfirst, hlater⟩ := h
      obtain ⟨hr, hrest⟩ := List.forall_mem_cons.mp hnamed
      have hpairwise := ih hlater hrest fun first others storage address hmem =>
        hstorage first others storage address (List.mem_cons_of_mem _ hmem)
      cases r with
      | scalar m | array m =>
          have hnames : (m.name :: rs.filterMap Region.name?).Nodup :=
            (List.nodup_append.mp hnodup).2.1
          refine List.pairwise_cons.mpr ⟨fun s hs => ?_, hpairwise hnames⟩
          cases hname : s.name? with
          | none => exact Region.place_ne_of_name?_eq_none rfl hname
          | some name =>
              refine hr.place_ne (hrest s hs) rfl hname fun heq => ?_
              exact (List.nodup_cons.mp hnames).1 (List.mem_filterMap.mpr ⟨s, hs, heq ▸ hname⟩)
      | bits first others storage address =>
          have hpos := hstorage _ _ _ _ List.mem_cons_self
          obtain rfl : address = here := hfirst _ _ _ _ rfl
          refine List.pairwise_cons.mpr ⟨fun s hs => ?_, hpairwise hnodup⟩
          cases s with
          | scalar m | array m => exact (Region.place_ne_of_name?_eq_none rfl rfl).symm
          | bits first' others' storage' address' =>
              refine hr.place_ne_of_address_ne (hrest _ hs) ?_
              rintro rfl
              -- a later address is further on, or its anchor is a name that has not come yet
              rcases hlater.address_cases hs with ⟨-, hoffset⟩ | ⟨name, hname, hanchor⟩
              · rw [Region.addressAfter, Address.offset_skip] at hoffset
                omega
              · exact (List.nodup_append.mp hnodup).2.2 name (Option.mem_toList.mpr hanchor)
                  name hname rfl

/-- The regions of packed members are named if they have been declared. -/
theorem isNamed_of_mem_regions {model : DataModel} {lines : List Text} {grouped : List Member}
    {n : Nat} {rs : List Region} (hpack : pack model (declaredMembers lines) = .ok (grouped, n))
    (hrs : regions model grouped = .ok rs) : ∀ r ∈ rs, r.IsNamed := by
  have hgrouped : ∀ m ∈ grouped, m.IsSpelled :=
    forall_mem_of_pack (fun _ _ hm => ⟨hm.name, hm.base⟩) hpack fun _ hm =>
      isSpelled_of_mem_declaredMembers hm
  intro r hr
  constructor
  case names =>
    intro name hname
    rcases exists_mem_of_mem_names hrs hr hname with hanchor | ⟨m, hm, -, rfl⟩
    · cases hanchor
    · exact (hgrouped m hm).name
  case lead => exact (isSpelled_of_mem_regions hpack hrs r hr).members _ r.lead_mem_members

/-- **Regions of declared members are at different places** if no two ordinary members have the
same name. -/
theorem pairwise_place_of_pack {model : DataModel} {lines : List Text} {grouped : List Member}
    {n : Nat} {rs : List Region} (hpack : pack model (declaredMembers lines) = .ok (grouped, n))
    (hrs : regions model grouped = .ok rs)
    (hnodup : (((declaredMembers lines).filter (!·.isBitField)).map Member.name).Nodup) :
    rs.Pairwise fun r s => r.place ≠ s.place := by
  refine (addressedFrom_of_regionsFrom hrs).pairwise_place (isNamed_of_mem_regions hpack hrs) ?_ ?_
  · intro first others storage address hr
    have hbytes := bitStorage_of_mem_regionsFrom hrs hr
    rw [DataModel.bitStorage, Option.filter_eq_some_iff] at hbytes
    have hwide := of_decide_eq_true hbytes.2
    omega
  · rw [← map_name_filter_of_forall₂ (pack_forall₂ hpack)] at hnodup
    exact hnodup.sublist (names_sublist_of_regionsFrom hrs)

/-! ### Left sides -/

/-- The **left side** of an assignment: what stands in front of the equals sign, without the margin
and without the blank in front of the sign. The head of a loop is no assignment. -/
def leftSide? (line : Text) : Option Text :=
  let code := line.dropWhile (· = ' ')
  if ("for (" : Text) <+: code then none else some (code.takeWhile (· ≠ '=')).dropLast

/-- The **left sides** of the assignments in the function for a direction. -/
def leftSidesIn (d : Direction) (out : List Text) : List Text :=
  (statementsIn d out).filterMap leftSide?

/-- The head of a loop has no left side. -/
theorem leftSide?_loop (name function : Text) :
    leftSide? ((Template.loop name).fill function) = none :=
  rfl

/-- What is handed over and put back at a place has the place on its left side. -/
theorem leftSide?_exchange {margin place : Text} (hmargin : ∀ c ∈ margin, c = ' ')
    (hstart : ∃ c s, place = c :: s ∧ c ≠ ' ' ∧ c ≠ 'f') (hequals : '=' ∉ place)
    (function : Text) : leftSide? ((Template.exchange margin place).fill function) = some place := by
  obtain ⟨rest, hfill⟩ : ∃ rest, (Template.exchange margin place).fill function =
      margin ++ (place ++ [' '] ++ '=' :: rest) := by
    refine ⟨' ' :: (function ++ ("(" ++ (place ++ ");"))), ?_⟩
    have hsign : (" = " : Text) = [' '] ++ ['=', ' '] := rfl
    rw [Template.fill, hsign]
    simp only [List.append_assoc, List.cons_append, List.nil_append]
  obtain ⟨c, s, rfl, hblank, hloop⟩ := hstart
  have hcode : ((Template.exchange margin (c :: s)).fill function).dropWhile (· = ' ') =
      c :: s ++ [' '] ++ '=' :: rest := by
    rw [hfill, List.dropWhile_append_of_pos (by simpa using hmargin), List.cons_append,
      List.cons_append, List.dropWhile_cons_of_neg (by simpa using hblank)]
  have hhead : ¬ ("for (" : Text) <+: c :: s ++ [' '] ++ '=' :: rest := by
    rintro ⟨t, ht⟩
    exact hloop (List.cons.inj ht).1.symm
  have hleft : ∀ d ∈ c :: s ++ [' '], decide (d ≠ '=') = true := by
    intro d hd
    refine decide_eq_true fun heq => ?_
    rcases List.mem_append.mp (heq ▸ hd) with hd | hd
    · exact hequals hd
    · exact absurd hd (by decide)
  rw [leftSide?, hcode, if_neg hhead, List.takeWhile_append_of_pos hleft, List.takeWhile_cons,
    if_neg (by simp), List.append_nil, List.dropLast_concat]

/-- There is no equals sign in an address, if there is none in the name of its anchor. -/
theorem Address.notMem_text {a : Address} (h : ∀ name ∈ a.anchor, '=' ∉ memberText name) :
    '=' ∉ a.text := by
  have horigin : '=' ∉ originText a.anchor := by
    obtain ⟨_ | name, offset⟩ := a
    · exact show '=' ∉ originText none by decide
    · have hname := h name rfl
      exact List.not_mem_append (List.not_mem_append (List.not_mem_append (List.not_mem_append
        (by decide) hname) (by decide)) hname) (by decide)
  have hoffset : '=' ∉ offsetText a.offset := by
    rw [offsetText]
    split
    · exact List.not_mem_nil
    · refine List.not_mem_append (by decide) fun hmem => ?_
      exact absurd (Text.isDigit_of_mem_decimal hmem) (by decide)
  rw [text_eq]
  exact List.not_mem_append horigin hoffset

namespace Region

/-- There is no equals sign in the place of a named region. -/
theorem IsNamed.notMem_place {r : Region} (hr : r.IsNamed) : '=' ∉ r.place := by
  have hmember : ∀ name ∈ r.names, '=' ∉ memberText name := fun name hname =>
    List.not_mem_append (by decide) ((hr.names name hname).notMem (by decide) (by decide))
  cases r with
  | scalar m => exact hmember _ List.mem_cons_self
  | array m => exact List.not_mem_append (hmember _ List.mem_cons_self) (by decide)
  | bits first others storage address =>
      have haddress := Address.notMem_text fun name hname => hmember name (Option.mem_toList.mpr hname)
      have htype := List.not_mem_append (show '=' ∉ ("*(" : Text) by decide)
        (hr.lead.notMem_storageType (by decide) (by decide) (by decide))
      exact List.not_mem_append (List.not_mem_append (List.not_mem_append htype (by decide))
        haddress) (by decide)

/-- **The left side for a region** is its place, if its type has a primitive. -/
theorem IsNamed.filterMap_leftSide? {r : Region} (hr : r.IsNamed) (model : DataModel)
    (d : Direction) : ((r.bodyLines model).map (BodyLine.text d)).filterMap leftSide? =
      if (model.primitive r.lead.base).isSome then [r.place] else [] := by
  have hstart : ∃ c s, r.place = c :: s ∧ c ≠ ' ' ∧ c ≠ 'f' := by
    obtain ⟨s, hs⟩ := r.exists_place_eq
    refine ⟨_, s, hs, ?_⟩
    split <;> decide
  rw [bodyLines]
  cases model.primitive r.lead.base with
  | none => rfl
  | some q =>
      have hplace : ∀ margin : Text, (∀ c ∈ margin, c = ' ') →
          leftSide? ((Template.exchange margin r.place).fill (q.name d)) = some r.place :=
        fun margin hmargin => leftSide?_exchange hmargin hstart hr.notMem_place (q.name d)
      cases r with
      | scalar m | bits first others storage address =>
          exact List.filterMap_cons_some (hplace _ eq_of_mem_indentation)
      | array m =>
          have hloop := leftSide?_loop m.name (q.name d)
          have hline := hplace _
            (List.forall_mem_append.mpr ⟨eq_of_mem_indentation, eq_of_mem_indentation⟩)
          exact (List.filterMap_cons_none hloop).trans (List.filterMap_cons_some hline)

end Region

/-- **The left sides in the functions of a plan** are the places of the regions that are converted,
in order, whatever the direction is. -/
theorem leftSidesIn_lines {o : Options} {p : Plan} (hnamed : ∀ r ∈ p.regions, r.IsNamed)
    (d : Direction) :
    leftSidesIn d (p.lines o) =
      (p.regions.filter fun r => (o.model.primitive r.lead.base).isSome).map Region.place := by
  have hbody : (p.conversion o).body = p.regions.filterMap (Region.statement? o.model) := rfl
  rw [leftSidesIn, statementsIn_lines, hbody, statementLines_filterMap]
  generalize p.regions = rs at hnamed ⊢
  induction rs with
  | nil => rfl
  | cons r rs ih =>
      obtain ⟨hr, hrs⟩ := List.forall_mem_cons.mp hnamed
      rw [List.flatMap_cons, List.map_append, List.filterMap_append, hr.filterMap_leftSide?, ih hrs,
        List.filter_cons]
      split <;> rfl

/-- **No storage is converted twice.** If no two ordinary members that some lines declare have the
same name, then the left sides in each of the functions that are written for them, with a listing or
without one, are pairwise different: they are the places of the regions that are converted. The
addresses among them are read back from their texts. -/
theorem generate_places (o : Options) {lines out : List Text} (h : generate o lines = .ok out)
    (hnodup : (((declaredMembers lines).filter (!·.isBitField)).map Member.name).Nodup) :
    (∃ grouped n rs, pack o.model (declaredMembers lines) = .ok (grouped, n) ∧
      regions o.model grouped = .ok rs ∧
      ∀ d, leftSidesIn d out =
          (rs.filter fun r => (o.model.primitive r.lead.base).isSome).map Region.place ∧
        (leftSidesIn d out).Nodup) ∧
    ∀ a b : Address, (∀ name ∈ a.anchor, ' ' ∉ name) → (∀ name ∈ b.anchor, ' ' ∉ name) →
      a.text = b.text → a = b := by
  refine ⟨?_, fun a b ha hb => Address.text_injective ha hb⟩
  by_cases hnil : declaredMembers lines = []
  · rw [generate_eq_nil_of_declaredMembers hnil] at h
    obtain rfl := Except.ok.inj h
    refine ⟨[], 0, [], by rw [hnil]; rfl, by rw [regions, regionsFrom], fun d => ?_⟩
    rw [leftSidesIn, statementsIn_nil]
    exact ⟨rfl, List.nodup_nil⟩
  · obtain ⟨grouped, n, rs, hpack, hrs, rfl⟩ := (generate_eq_ok_iff hnil).mp h
    refine ⟨grouped, n, rs, hpack, hrs, fun d => ?_⟩
    have hleft := leftSidesIn_lines (o := o) (p := ⟨o.nameFor (structTag lines),
      (declaredMembers lines).length, n, rs⟩) (isNamed_of_mem_regions hpack hrs) d
    refine ⟨hleft, ?_⟩
    rw [hleft]
    have hplaces := pairwise_place_of_pack hpack hrs hnodup
    exact List.pairwise_map.mpr (hplaces.sublist List.filter_sublist)

/-- Lines with unnamed storage in front of every member, behind other unnamed storage and behind an
array. -/
def storedLines : List Text :=
  ["struct Frame \x7b int low : 20; short high : 3; int xs[2];",
    "  long a : 5; short b : 1; char mark; short c : 2; \x7d;"]

/-- They have ordinary members of different names, the left sides in both functions are different,
and no offset is mistaken for the one that is not written. -/
theorem generate_places_storedLines :
    (((declaredMembers storedLines).filter (!·.isBitField)).map Member.name).Nodup ∧
    (∃ out, generate { layout := true } storedLines = .ok out ∧ out ≠ [] ∧
      ∀ d, (leftSidesIn d out).Nodup) ∧
    ∀ offset, ({ anchor := ("xs" : Text) } : Address).text =
      ({ anchor := ("xs" : Text), offset } : Address).text → offset = 0 := by
  have hnodup : (((declaredMembers storedLines).filter (!·.isBitField)).map Member.name).Nodup := by
    decide +kernel
  obtain ⟨out, h, hne⟩ := exists_generate_ne_nil { layout := true } storedLines (by decide +kernel)
    (by decide +kernel)
  obtain ⟨⟨-, -, rs, -, -, hleft⟩, haddress⟩ := generate_places { layout := true } h hnodup
  refine ⟨hnodup, ⟨out, h, hne, fun d => (hleft d).2⟩, fun offset htext => ?_⟩
  have hblank : ∀ name ∈ some ("xs" : Text), ' ' ∉ name := by simp
  exact (congrArg Address.offset (haddress _ _ hblank hblank htext)).symm

end StructEndian
