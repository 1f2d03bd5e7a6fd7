import StructEndian.Generate

/-!
# Command-line arguments

The command line names an input, an output and the options of the generation. A value that
is given in an argument of its own is *pending* at first: only when the next option is
accepted, or at the end of the line, is it checked whether it is missing, repeated or
malformed. So an argument that is not known is reported in front of a pending value that is
wrong.

## Main definitions

* `Halt`: why a command line does not lead to a run.
* `Invocation`: what a command line asks for.
* `Argument`: the four forms of an argument.
* `Draft`: an invocation that is being read.
* `Invocation.parse`: the invocation of a list of arguments.

## Main results

* `Invocation.parse_nil`: without arguments everything has its default.
-/

namespace StructEndian

/-- Why a command line does not lead to a run: it asks for something else, or it is
**not accepted**. -/
inductive Halt
  /-- It asks for help. -/
  | help
  /-- It asks for the version. -/
  | version
  /-- There is no such option, or there is one input too many. -/
  | unknownArgument
  /-- An option or a flag is given twice. -/
  | repeatedArgument
  /-- A flag is given a value. -/
  | needlessValue
  /-- An option has no value, or a path is empty. -/
  | missingValue
  /-- The width of `long` is malformed. -/
  | malformedValue
deriving DecidableEq, Repr

/-- An **invocation**: what a command line asks for. -/
structure Invocation where
  /-- The path to read. -/
  input : Option Text := none
  /-- The path to write. -/
  output : Option Text := none
  /-- The options of the generation. -/
  options : Options := {}
deriving DecidableEq, Repr

/-! ### Forms of arguments -/

/-- The form of an **argument**, as its first characters make it. -/
inductive Argument
  /-- Two hyphens alone, behind which nothing is an option. -/
  | terminator
  /-- Two hyphens and a name, with a value behind an equals sign or without one. -/
  | long (name : Text) (value : Option Text)
  /-- A hyphen and a letter, with more characters behind. -/
  | short (letter : Char) (rest : Text)
  /-- Anything else, also a hyphen alone. -/
  | plain (text : Text)
deriving DecidableEq, Repr

/-- The form of an argument. -/
def Argument.ofText : Text → Argument
  | ['-', '-'] => terminator
  | '-' :: '-' :: s =>
      match s.dropWhile (· ≠ '=') with
      | [] => long s none
      | _ :: value => long (s.takeWhile (· ≠ '=')) (some value)
  | '-' :: c :: s => short c s
  | s => plain s

/-- The value that is attached to a short option, with or without an equals sign. -/
def attachedValue : Text → Option Text
  | [] => none
  | '=' :: value => some value
  | value => some value

/-- What takes a **value** on the command line. -/
inductive Parameter
  | input
  | output
  | longBytes
  | name
deriving DecidableEq, Repr

/-- What an option does: take a value, set a flag, or ask for something else. -/
inductive Effect
  | value (parameter : Parameter)
  | noThrow
  | layout
  | halt (why : Halt)
deriving DecidableEq, Repr

/-- The options with a name. -/
def namedOptions : List (Text × Effect) :=
  [("output", .value .output), ("long-bytes", .value .longBytes), ("name", .value .name),
    ("no-throw", .noThrow), ("layout", .layout), ("help", .halt .help),
    ("version", .halt .version)]

/-- The options with a letter. -/
def letterOptions : List (Char × Effect) :=
  [('o', .value .output), ('h', .halt .help), ('V', .halt .version)]

/-! ### Drafts -/

/-- A **draft** of an invocation: what has been accepted so far, and the parameter that is
pending, with its value once that has been met. -/
structure Draft where
  /-- The input. -/
  input : Option Text := none
  /-- The output. -/
  output : Option Text := none
  /-- The width of `long`. -/
  long : Option LongWidth := none
  /-- The name of the structure. -/
  name : Option Text := none
  /-- Whether the flag for functions that do not throw is set. -/
  noThrow : Bool := false
  /-- Whether the flag for the listing is set. -/
  layout : Bool := false
  /-- The pending parameter. -/
  pending : Option (Parameter × Option Text) := none
deriving DecidableEq, Repr

namespace Draft

/-- The invocation that a draft without anything pending amounts to. -/
def toInvocation (d : Draft) : Invocation :=
  { input := d.input
    output := d.output
    options :=
      { noThrow := d.noThrow, long := d.long.getD .four, name := d.name,
        layout := d.layout } }

/-- Accept a path, which must not be given already nor be empty. -/
def acceptPath (given : Option Text) (path : Text) : Except Halt Text :=
  if given.isSome then .error .repeatedArgument
  else if path = [] then .error .missingValue
  else .ok path

/-- Accept the width of `long`, which must not be given already nor be malformed. -/
def acceptLong (given : Option LongWidth) (text : Text) : Except Halt LongWidth :=
  if given.isSome then .error .repeatedArgument
  else
    match LongWidth.parse text with
    | .ok width => .ok width
    | .error _ => .error .malformedValue

/-- **Assign** a value to a parameter. -/
def assign (d : Draft) (v : Text) : Parameter → Except Halt Draft
  | .input => do return { d with input := some (← acceptPath d.input v) }
  | .output => do return { d with output := some (← acceptPath d.output v) }
  | .longBytes => do return { d with long := some (← acceptLong d.long v) }
  | .name =>
      if d.name.isSome then .error .repeatedArgument else .ok { d with name := some v }

/-- **Settle** what is pending. -/
def settle (d : Draft) : Except Halt Draft :=
  match d.pending with
  | none => .ok d
  | some (_, none) => .error .missingValue
  | some (p, some v) => { d with pending := none }.assign v p

/-- Carry out an option with the given value, if one is attached to it. What is pending is
settled first, but a flag with a value is refused even before that. -/
def perform (d : Draft) (value : Option Text) : Effect → Except Halt Draft
  | .value p => do
      let d ← d.settle
      match value with
      | some v => d.assign v p
      | none => return { d with pending := some (p, none) }
  | .noThrow => do
      if value.isSome then throw .needlessValue
      let d ← d.settle
      if d.noThrow then throw .repeatedArgument
      return { d with noThrow := true }
  | .layout => do
      if value.isSome then throw .needlessValue
      let d ← d.settle
      if d.layout then throw .repeatedArgument
      return { d with layout := true }
  | .halt why => do
      if value.isSome then throw .needlessValue
      let _ ← d.settle
      throw why

/-- Whether the input is given, be it pending. -/
def hasInput (d : Draft) : Bool :=
  d.input.isSome || d.pending.any (fun p => p.1 = .input)

/-- Take an argument as the input. There is only one. -/
def offerInput (d : Draft) (a : Text) : Except Halt Draft := do
  if d.hasInput then throw .unknownArgument
  let d ← d.settle
  return { d with pending := some (.input, some a) }

/-- Take an argument that is no option: as the value that is pending, or as the input. -/
def offer (d : Draft) (a : Text) : Except Halt Draft :=
  match d.pending with
  | some (p, none) => .ok { d with pending := some (p, some a) }
  | _ => d.offerInput a

/-- Take a letter and what is attached to it. A letter that takes no value is carried out
before anything that is attached to it is looked at. -/
def performLetter (d : Draft) (rest : Text) (e : Effect) : Except Halt Draft :=
  match e with
  | .value _ => d.perform (attachedValue rest) e
  | _ => d.perform none e

/-- Read the arguments behind a terminator. -/
def readPlain : Draft → List Text → Except Halt Draft
  | d, [] => d.settle
  | d, a :: as => do readPlain (← d.offerInput a) as

/-- **Read** arguments. -/
def read : Draft → List Text → Except Halt Draft
  | d, [] => d.settle
  | d, a :: as =>
      match Argument.ofText a with
      | .terminator => readPlain d as
      | .long name value =>
          match namedOptions.lookup name with
          | none => .error .unknownArgument
          | some e => do read (← d.perform value e) as
      | .short letter rest =>
          match letterOptions.lookup letter with
          | none => .error .unknownArgument
          | some e => do read (← d.performLetter rest e) as
      | .plain a => do read (← d.offer a) as

end Draft

/-- The **invocation** of a list of arguments. -/
def Invocation.parse (args : List Text) : Except Halt Invocation :=
  (Draft.read {} args).map Draft.toInvocation

/-- Without arguments everything has its default. -/
theorem Invocation.parse_nil : Invocation.parse [] = .ok {} := by
  rfl

end StructEndian
