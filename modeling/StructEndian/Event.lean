import StructEndian.Generate

/-!
# The record of a generation

A generation leaves a record of what it met on the way: declarations that it skipped, how
many members and groups there are, and which members are copied without a conversion.

## Main definitions

* `Level`: how important an event is.
* `Event`: something worth recording, with its level and message.
* `events`: the events of a generation, in order.

## Main results

* `skipped_mem_events`: whatever becomes of the generation, a skipped declaration is
  recorded.
-/

namespace StructEndian

/-- The **level** of an event. -/
inductive Level
  | trace
  | debug
  | warn
deriving DecidableEq, Repr

/-- The name of a level. -/
def Level.name : Level → Text
  | trace => "TRACE"
  | debug => "DEBUG"
  | warn => "WARN"

/-- An **event** of a generation. -/
inductive Event
  /-- A declaration was skipped. -/
  | skipped (piece : Text) (why : Skip)
  /-- The given number of lines declared no members. -/
  | noMembers (lines : Nat)
  /-- The members were packed into groups. -/
  | packed (members groups : Nat)
  /-- The structure has neither a given name nor a tag. -/
  | placeholderUsed
  /-- A region has no primitive, and its lead was declared by the given text. -/
  | copied (source : Text)
  /-- The given number of lines was written for a structure. -/
  | generated (lines : Nat) (name : Text)
deriving DecidableEq, Repr

namespace Event

/-- The level of an event. -/
def level : Event → Level
  | skipped _ _ | copied _ => .trace
  | noMembers _ | packed _ _ | generated _ _ => .debug
  | placeholderUsed => .warn

/-- The message of an event. -/
def message : Event → Text
  | skipped piece why => "skipping `" ++ piece ++ "`: " ++ why.message
  | noMembers lines => "no field declarations in " ++ Text.decimal lines ++ " lines"
  | packed members groups =>
      Text.decimal members ++ " fields in " ++ Text.decimal groups ++ " groups"
  | placeholderUsed =>
      "no `struct <name>` found, using `" ++ Options.placeholderName ++ "`"
  | copied source => "`" ++ source ++ "` copied as-is"
  | generated lines name =>
      "generated " ++ Text.decimal lines ++ " lines for `" ++ name ++ "`"

end Event

/-- The event of a reading, if it is one. -/
def Reading.event? : Reading → Option Event
  | skipped piece why => some (.skipped piece why)
  | _ => none

/-- The event of a region that is copied as it is. -/
def Region.event? (model : DataModel) (r : Region) : Option Event :=
  match model.primitive r.lead.base with
  | none => some (.copied r.lead.source)
  | some _ => none

/-- The events of carrying out a plan. Every function passes over all regions. -/
def Plan.events (o : Options) (tag : Text) (p : Plan) : List Event :=
  .packed p.memberCount p.groupCount ::
    (if o.needsPlaceholder tag then [.placeholderUsed] else []) ++
      (Direction.all.flatMap fun _ => p.regions.filterMap (Region.event? o.model)) ++
        [.generated (p.lines o).length p.name]

/-- The **events** of generating from a list of lines: first what the declarations come to,
then, unless a bit-field is not supported, what is written. -/
def events (o : Options) (lines : List Text) : List Event :=
  (lines.flatMap fun line => (readings line.stripComment).filterMap Reading.event?) ++
    match plan o lines with
    | .error _ => []
    | .ok none => [.noMembers lines.length]
    | .ok (some p) => p.events o (structTag lines)

/-- Whatever becomes of the generation, a skipped declaration is recorded. -/
theorem skipped_mem_events {o : Options} {lines : List Text} {line piece : Text} {why : Skip}
    (hline : line ∈ lines) (h : .skipped piece why ∈ readings line.stripComment) :
    .skipped piece why ∈ events o lines := by
  refine List.mem_append.2 (Or.inl (List.mem_flatMap.2 ⟨line, hline, ?_⟩))
  exact List.mem_filterMap.2 ⟨_, h, rfl⟩

end StructEndian
