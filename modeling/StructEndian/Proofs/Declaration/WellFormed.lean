import StructEndian.Proofs.Declaration.Spelling
import StructEndian.Proofs.Declaration.Pieces

/-!
# Declared members are well formed

What later stages rely on is true of every member that is read off a line, whatever the line is. A
member is not both an array and a bit-field, because nothing that the declarator's reader holds has
dimensions and a width. It has a name and a type, the type is a named one if its name is, and it is in
no group yet. The text that it was declared by stands in the line, trimmed and without semicolons and
braces; the texts of several members stand there one behind the other, and a semicolon stands behind
each of them, so that a line declares no more members than it has semicolons.

## Main definitions

* `Text.OccurIn`: texts stand in a line one behind the other, each in front of a semicolon.
* `Member.IsWellFormed`: what is true of every member that has been read.

## Main results

* `occurIn_pieces`: the pieces of a line occur in it.
* `Text.OccurIn.length_le`: no more texts occur than there are semicolons.
* `Declarator.width_eq_none_of_read`: a declarator with dimensions has no width.
* `membersOf_wellFormed`: all of it about the members of a line.
-/

namespace StructEndian

/-! ### Texts in a line -/

namespace Text

/-- Texts **occur** in a line if they stand there one behind the other, and behind each of them, with
nothing but blanks between, a semicolon of its own. -/
def OccurIn : List Text → Text → Prop
  | [], _ => True
  | t :: ts, line => ∃ before blanks rest, line = before ++ t ++ blanks ++ ';' :: rest ∧
      (∀ c ∈ blanks, isBlank c = true) ∧ OccurIn ts rest

/-- What occurs in a line occurs in it behind any others. -/
theorem OccurIn.append_left {ts : List Text} {line : Text} (h : OccurIn ts line) (front : Text) :
    OccurIn ts (front ++ line) := by
  cases ts with
  | nil => trivial
  | cons t ts =>
      obtain ⟨before, blanks, rest, rfl, hblanks, hts⟩ := h
      exact ⟨front ++ before, blanks, rest, by simp only [List.append_assoc], hblanks, hts⟩

/-- Some of the texts that occur in a line occur in it, too. -/
theorem OccurIn.sublist {ts ts' : List Text} {line : Text} (h : OccurIn ts line)
    (hsub : ts'.Sublist ts) : OccurIn ts' line := by
  induction hsub generalizing line with
  | slnil => trivial
  | cons t _ ih =>
      obtain ⟨before, blanks, rest, rfl, -, hts⟩ := h
      rw [List.append_cons]
      exact (ih hts).append_left _
  | cons_cons t _ ih =>
      obtain ⟨before, blanks, rest, rfl, hblanks, hts⟩ := h
      exact ⟨before, blanks, rest, rfl, hblanks, ih hts⟩

/-- **Every text that occurs** in a line is a contiguous part of it. -/
theorem OccurIn.infix_of_mem {ts : List Text} {line t : Text} (h : OccurIn ts line) (ht : t ∈ ts) :
    t <:+: line := by
  obtain ⟨before, blanks, rest, rfl, -, -⟩ := h.sublist (List.singleton_sublist.mpr ht)
  exact ⟨before, blanks ++ ';' :: rest, by simp only [List.append_assoc]⟩

/-- **No more texts occur** in a line than it has semicolons. -/
theorem OccurIn.length_le {ts : List Text} {line : Text} (h : OccurIn ts line) :
    ts.length ≤ line.count ';' := by
  induction ts generalizing line with
  | nil => exact Nat.zero_le _
  | cons t ts ih =>
      obtain ⟨before, blanks, rest, rfl, -, hts⟩ := h
      have hrest := ih hts
      rw [List.length_cons, List.count_append, List.count_cons_self]
      omega

/-! ### Trimmed texts -/

/-- A text with the blanks at its end cut off starts the text. -/
theorem exists_eq_trimEnd_append (s : Text) :
    ∃ blanks, s = trimEnd s ++ blanks ∧ ∀ c ∈ blanks, isBlank c = true := by
  refine ⟨(s.reverse.takeWhile isBlank).reverse, ?_, fun c hc => ?_⟩
  · rw [trimEnd, ← List.reverse_append, List.takeWhile_append_dropWhile, List.reverse_reverse]
  · exact List.mem_takeWhile_imp (List.mem_reverse.mp hc)

/-- A trimmed text stands in the text, in front of blanks. -/
theorem exists_eq_append_trim (s : Text) :
    ∃ front blanks, s = front ++ trim s ++ blanks ∧ ∀ c ∈ blanks, isBlank c = true := by
  obtain ⟨blanks, hs, hblanks⟩ := exists_eq_trimEnd_append (s.dropWhile isBlank)
  refine ⟨s.takeWhile isBlank, blanks, ?_, hblanks⟩
  rw [List.append_assoc, trim, ← hs, List.takeWhile_append_dropWhile]

/-- There is no blank at the front of a trimmed text. -/
theorem isBlank_of_mem_head?_trim {s : Text} {c : Char} (h : c ∈ (trim s).head?) :
    isBlank c = false := by
  obtain ⟨blanks, hs, -⟩ := exists_eq_trimEnd_append (s.dropWhile isBlank)
  have hhead : (s.dropWhile isBlank).head? = some c := by
    rw [hs, List.head?_append]
    rw [trim] at h
    rw [Option.mem_def.mp h, Option.some_or]
  have hblank := List.head?_dropWhile_not isBlank s
  rw [hhead] at hblank
  simpa using hblank

/-- There is no blank at the end of a trimmed text. -/
theorem isBlank_of_mem_getLast?_trim {s : Text} {c : Char} (h : c ∈ (trim s).getLast?) :
    isBlank c = false := by
  rw [trim, trimEnd, List.getLast?_reverse, Option.mem_def] at h
  have hblank := List.head?_dropWhile_not isBlank (s.dropWhile isBlank).reverse
  rw [h] at hblank
  simpa using hblank

end Text

/-! ### Pieces -/

/-- **Induction over the semicolons** of a line: a property holds of every line if it holds of those
without semicolons and is kept when a part and a semicolon are put in front. -/
@[elab_as_elim] theorem semicolon_induction {motive : Text → Prop}
    (last : ∀ a, ';' ∉ a → motive a)
    (cons : ∀ a line, ';' ∉ a → motive line → motive (a ++ ';' :: line)) (line : Text) :
    motive line := by
  -- the characters since the last semicolon are carried along
  suffices h : ∀ a : Text, ';' ∉ a → motive (a ++ line) from h [] List.not_mem_nil
  induction line with
  | nil => exact fun a ha => last _ (by rwa [List.append_nil])
  | cons c line ih =>
      intro a ha
      by_cases hc : c = ';'
      · rw [hc]
        exact cons a line ha (ih [] List.not_mem_nil)
      · rw [List.append_cons]
        exact ih (a ++ [c]) (by simpa [ha] using Ne.symm hc)

/-- Without a semicolon there is no piece. -/
theorem pieces_of_notMem {a : Text} (ha : ';' ∉ a) : pieces a = [] := by
  rw [pieces_eq, Text.split_eq_singleton (Text.decide_eq_of_notMem ha)]
  rfl

/-- What stands behind the last brace ends the text and holds no brace. -/
theorem exists_eq_append_afterBrace (s : Text) : ∃ front, s = front ++ afterBrace s := by
  refine ⟨(s.reverse.dropWhile fun c => !isBrace c).reverse, ?_⟩
  rw [afterBrace, ← List.reverse_append, List.takeWhile_append_dropWhile, List.reverse_reverse]

theorem isBrace_of_mem_afterBrace {s : Text} {c : Char} (h : c ∈ afterBrace s) :
    isBrace c = false := by
  have hbrace := List.mem_takeWhile_imp (List.mem_reverse.mp h)
  simpa using hbrace

/-- A text is a **piece** if it is not empty, is trimmed and holds no semicolon and no brace. -/
structure IsPiece (piece : Text) : Prop where
  /-- There is something in it. -/
  ne_nil : piece ≠ []
  /-- It starts with no blank. -/
  head : ∀ c ∈ piece.head?, isBlank c = false
  /-- It ends in no blank. -/
  last : ∀ c ∈ piece.getLast?, isBlank c = false
  /-- It holds no semicolon. -/
  semicolon : ';' ∉ piece
  /-- It holds no brace. -/
  brace : '\x7b' ∉ piece ∧ '\x7d' ∉ piece

/-- What stands between two semicolons and is not empty is a piece. -/
theorem isPiece_of_mem_piecesBetween {a piece : Text} (ha : ';' ∉ a)
    (h : piece ∈ piecesBetween a) : IsPiece piece := by
  obtain ⟨hpiece, hne⟩ := List.mem_filter.mp h
  obtain rfl := List.mem_singleton.mp hpiece
  obtain ⟨front, hfront⟩ := exists_eq_append_afterBrace a
  have hbrace : ∀ c ∈ Text.trim (afterBrace a), isBrace c = false := fun c hc =>
    isBrace_of_mem_afterBrace (Text.mem_of_mem_trim hc)
  constructor
  case ne_nil => exact of_decide_eq_true hne
  case head => exact fun c hc => Text.isBlank_of_mem_head?_trim hc
  case last => exact fun c hc => Text.isBlank_of_mem_getLast?_trim hc
  case semicolon =>
    intro hmem
    refine ha ?_
    rw [hfront]
    exact List.mem_append_right front (Text.mem_of_mem_trim hmem)
  case brace => exact ⟨fun hmem => absurd (hbrace _ hmem) (by decide),
    fun hmem => absurd (hbrace _ hmem) (by decide)⟩

/-- **The pieces of a line** are pieces. -/
theorem isPiece_of_mem_pieces {line piece : Text} (h : piece ∈ pieces line) : IsPiece piece := by
  induction line using semicolon_induction with
  | last a ha =>
      rw [pieces_of_notMem ha] at h
      exact absurd h List.not_mem_nil
  | cons a line ha ih =>
      rw [pieces_append_semicolon ha] at h
      rcases List.mem_append.mp h with h | h
      · exact isPiece_of_mem_piecesBetween ha h
      · exact ih h

/-- **The pieces of a line** occur in it. -/
theorem occurIn_pieces (line : Text) : Text.OccurIn (pieces line) line := by
  induction line using semicolon_induction with
  | last a ha =>
      rw [pieces_of_notMem ha]
      trivial
  | cons a line ha ih =>
      obtain ⟨front, hfront⟩ := exists_eq_append_afterBrace a
      obtain ⟨front', blanks, htrim, hblanks⟩ := Text.exists_eq_append_trim (afterBrace a)
      have hall : Text.OccurIn (Text.trim (afterBrace a) :: pieces line) (a ++ ';' :: line) := by
        refine ⟨front ++ front', blanks, line, ?_, hblanks, ih⟩
        conv_lhs => rw [hfront, htrim]
        simp only [List.append_assoc]
      rw [pieces_append_semicolon ha]
      exact hall.sublist (List.filter_sublist.append_right (pieces line))

/-! ### Declarators -/

namespace Declarator

/-- **A declarator with dimensions has no width.** -/
theorem width_eq_none_of_read {ts : List Token} {d : Declarator} (h : read ts = .ok d)
    (hd : 0 < d.dimensions) : d.width = none := by
  have hstart : Describes [] {} := Or.inl ⟨rfl, by simp⟩
  rcases hstart.readFrom h with ⟨rfl, -⟩ | ⟨⟨ignored, words, suffix⟩, -, rfl⟩
  · rfl
  · cases suffix with
    | nothing | brackets more => rfl
    | colon value => exact absurd hd (Nat.lt_irrefl 0)

end Declarator

/-! ### Members -/

/-- A member is **well formed** if it is as reading leaves it: an array or a bit-field or neither,
with a name and a type on one line, in no group, and with the piece that it was declared by. -/
structure Member.IsWellFormed (m : Member) : Prop where
  /-- It is not both an array and a bit-field. -/
  exclusive : ¬ (m.isArray = true ∧ m.isBitField = true)
  /-- It has a name. -/
  name_ne_nil : m.name ≠ []
  /-- There is no line feed in the name. -/
  name_line : '\n' ∉ m.name
  /-- Its type has a name. -/
  typeName_ne_nil : m.base.name ≠ []
  /-- There is no line feed in the name of the type. -/
  typeName_line : '\n' ∉ m.base.name
  /-- Its type is a named one if the name is one of those. -/
  base : BaseType.ofName m.base.name = m.base
  /-- It is in no group. -/
  group : m.group = 0
  /-- It was declared by a piece. -/
  source : IsPiece m.source

/-- A member that has been read has the piece as its text, and it has a name and a type. -/
theorem source_of_readPiece {piece : Text} {m : Member} (h : readPiece piece = .member m) :
    m.source = piece ∧ m.name ≠ [] ∧ m.base.name ≠ [] := by
  obtain ⟨ts, d, s, hlex, hread, hassign, rfl⟩ := exists_of_readPiece h
  simp only [readPiece, hlex, hread, readDeclarator, hassign, Option.map_some] at h
  split at h
  · cases h
  · next hne =>
      obtain ⟨htype, hname⟩ := not_or.mp hne
      refine ⟨rfl, hname, ?_⟩
      rwa [Slots.toMember, BaseType.name_ofName]

/-- **A member that has been read** from a piece is well formed. -/
theorem isWellFormed_of_readPiece {piece : Text} {m : Member} (hpiece : IsPiece piece)
    (h : readPiece piece = .member m) : m.IsWellFormed := by
  obtain ⟨hsource, hname, htype⟩ := source_of_readPiece h
  have hspelled := isSpelled_of_readPiece h
  obtain ⟨ts, d, s, -, hread, -, rfl⟩ := exists_of_readPiece h
  constructor
  case exclusive =>
    rintro ⟨harray, hbits⟩
    have hwidth := Declarator.width_eq_none_of_read hread (of_decide_eq_true harray)
    rw [Slots.toMember, Member.isBitField, hwidth] at hbits
    cases hbits
  case name_ne_nil => exact hname
  case name_line => exact hspelled.name.notMem (by decide) (by decide)
  case typeName_ne_nil => exact htype
  case typeName_line => exact hspelled.notMem_typeName (by decide) (by decide) (by decide)
  case base => rw [Slots.toMember, BaseType.name_ofName]
  case group => rfl
  case source => exact hpiece

/-- The texts of the members of a line are some of its pieces, in order. -/
theorem map_source_membersOf_sublist (line : Text) :
    ((membersOf line).map Member.source).Sublist (pieces line) := by
  rw [membersOf, readings]
  induction pieces line with
  | nil => exact List.Sublist.slnil
  | cons piece ps ih =>
      rw [List.map_cons, List.filterMap_cons]
      cases h : readPiece piece with
      | member m =>
          rw [Reading.member?, List.map_cons, (source_of_readPiece h).1]
          exact ih.cons_cons piece
      | skipped piece' why => exact ih.cons piece
      | nothing => exact ih.cons piece

/-- **Declared members are well formed**, whatever the line is. The texts that they were declared by
are contiguous parts of the line, and they occur in it one behind the other and in front of a
semicolon each, so that there are no more members than semicolons. -/
theorem membersOf_wellFormed (line : Text) :
    (∀ m ∈ membersOf line, m.IsWellFormed ∧ m.source <:+: line) ∧
    Text.OccurIn ((membersOf line).map Member.source) line ∧
    (membersOf line).length ≤ line.count ';' := by
  have hoccur := (occurIn_pieces line).sublist (map_source_membersOf_sublist line)
  refine ⟨fun m hm => ⟨?_, hoccur.infix_of_mem (List.mem_map_of_mem hm)⟩, hoccur, ?_⟩
  · obtain ⟨piece, hpiece, hread⟩ := mem_membersOf_iff.mp hm
    exact isWellFormed_of_readPiece (isPiece_of_mem_pieces hpiece) hread
  · have hle := hoccur.length_le
    rwa [List.length_map] at hle

/-- A line with an array, a pointer, a bit-field, an array that is given a width, and a raw name. -/
def mixedLine : Text :=
  "struct S \x7b int a[2]; char *p; \tunsigned long b : 3 ; int c[3]:2; T r#d;\x7d;"

/-- The bit-field of the line, and the three members that are declared by it. -/
theorem membersOf_wellFormed_mixedLine :
    ∃ m ∈ membersOf mixedLine, m.bits = 3 ∧ m.source = "unsigned long b : 3" ∧
      m.IsWellFormed ∧ m.source <:+: mixedLine ∧
      Text.OccurIn ["int a[2]", "unsigned long b : 3", "T r#d"] mixedLine ∧
      (membersOf mixedLine).length ≤ mixedLine.count ';' := by
  have hmem : (⟨.unsigned, "b", .long, 0, 3, false, "unsigned long b : 3"⟩ : Member) ∈
      membersOf mixedLine := by decide +kernel
  have hsources : (membersOf mixedLine).map Member.source =
      (["int a[2]", "unsigned long b : 3", "T r#d"] : List Text) := by decide +kernel
  obtain ⟨hmembers, hoccur, hle⟩ := membersOf_wellFormed mixedLine
  obtain ⟨hm, hinfix⟩ := hmembers _ hmem
  rw [hsources] at hoccur
  exact ⟨_, hmem, rfl, rfl, hm, hinfix, hoccur, hle⟩

end StructEndian
