import StructEndian.CommandLine.Arguments
import StructEndian.CommandLine.FileTree
import StructEndian.Text.Utf8

/-!
# Command-line runs

A run reads one text, generates, and writes one text, in this order: nothing is written
before the generation has succeeded. What a run can do to its surroundings is collected in a
shell, so that the same run works on the file system of a computer and on a file tree.

## Main definitions

* `RunError`: why a run fails.
* `Shell`: reading and writing in some surroundings.
* `Invocation.convert`: the text to write for the bytes that were read.
* `Invocation.run`: a run in the surroundings of a shell.
* `World`, `World.shell`: surroundings that consist of a file tree and two streams.

## Main results

* `Invocation.textOf_nil`: no lines are written as an empty text.
-/

namespace StructEndian

/-- Why a run **fails**. -/
inductive RunError
  /-- A bit-field cannot be converted. -/
  | unsupported (e : UnsupportedBitField)
  /-- A file cannot be read or written. -/
  | file (e : FileError)
  /-- The input is not a text in UTF-8. -/
  | notUtf8
deriving DecidableEq, Repr

/-- What is said about a run that fails. -/
def RunError.message : RunError → Text
  | unsupported e => e.message
  | file e => e.message
  | notUtf8 => "stream did not contain valid UTF-8"

/-- A **shell**: what a run can do in its surroundings. -/
structure Shell (m : Type → Type) where
  /-- Read a file. -/
  readFile : Text → m (Except FileError Bytes)
  /-- Read the standard input to its end. -/
  readInput : m (Except FileError Bytes)
  /-- Replace a file, or make a new one. -/
  writeFile : Text → Bytes → m (Except FileError Unit)
  /-- Write to the standard output. -/
  writeOutput : Bytes → m (Except FileError Unit)

namespace Invocation

/-- The file to read, unless it is the standard input, which a hyphen stands for as well. -/
def inputPath (i : Invocation) : Option Text :=
  i.input.filter (· ≠ ['-'])

/-- The text of generated lines: every line with a line feed behind it. If the lines come to
nothing, so does the text. -/
def textOf (lines : List Text) : Text :=
  match Text.join ['\n'] lines with
  | [] => []
  | t => t ++ ['\n']

/-- **Convert** the bytes that were read to the bytes to write. -/
def convert (i : Invocation) (input : Bytes) : Except RunError Bytes :=
  match Text.ofUtf8? input with
  | none => .error .notUtf8
  | some text =>
      match generateText i.options text with
      | .error e => .error (.unsupported e)
      | .ok lines => .ok (Text.toUtf8 (textOf lines))

/-- **Run** an invocation: read, convert, write. The first step that fails ends the run. -/
def run {m : Type → Type} [Monad m] (sh : Shell m) (i : Invocation) :
    m (Except RunError Unit) := do
  let read ← match i.inputPath with
    | some path => sh.readFile path
    | none => sh.readInput
  match read with
  | .error e => return .error (.file e)
  | .ok input =>
      match i.convert input with
      | .error e => return .error e
      | .ok text =>
          let written ← match i.output with
            | some path => sh.writeFile path text
            | none => sh.writeOutput text
          return written.mapError .file

/-- No lines are written as an empty text. -/
theorem textOf_nil : textOf [] = [] := by
  rfl

end Invocation

/-! ### A world of files and streams -/

/-- A **world**: a file tree, what there is to read on the standard input, and what has been
written to the standard output. -/
structure World where
  /-- The files. -/
  files : FileTree := {}
  /-- The standard input. -/
  input : Bytes := []
  /-- What has been written to the standard output. -/
  output : Bytes := []
deriving DecidableEq, Repr

namespace World

/-- Read a file of a world. -/
def readFile (path : Text) : StateM World (Except FileError Bytes) := do
  return (← get).files.read path

/-- Read what is left of a world's standard input. -/
def readInput : StateM World (Except FileError Bytes) := do
  let w ← get
  set { w with input := [] }
  return .ok w.input

/-- Write a file of a world. -/
def writeFile (path : Text) (contents : Bytes) : StateM World (Except FileError Unit) := do
  let w ← get
  match w.files.write path contents with
  | .error e => return .error e
  | .ok files =>
      set { w with files }
      return .ok ()

/-- Write to a world's standard output. -/
def writeOutput (contents : Bytes) : StateM World (Except FileError Unit) := do
  modify fun w => { w with output := w.output ++ contents }
  return .ok ()

/-- The **shell** of a world. -/
def shell : Shell (StateM World) :=
  { readFile, readInput, writeFile, writeOutput }

end World

end StructEndian
