import StructEndian.CommandLine.Program

/-!
# The executable

The program in the surroundings of the operating system.

## Main definitions

* `systemShell`: the files and the standard streams of the system.
* `main`: the program with the arguments that the system hands over.
-/

namespace StructEndian

/-- Why the system could not read or write a file. -/
def FileError.ofSystem : IO.Error → FileError
  | .noFileOrDirectory .. => .notFound
  | .inappropriateType _ code words =>
      if code = 20 then .notDirectory
      else if code = 21 then .isDirectory
      else .other words.toList
  | e => .other (toString e).toList

/-- Carry out an action of the system and catch its failure. -/
def attempt {α : Type} (action : IO α) : IO (Except FileError α) := do
  try
    return .ok (← action)
  catch e => return .error (.ofSystem e)

/-- The **shell** of the operating system. -/
def systemShell : Shell IO :=
  { readFile := fun path => attempt do
      return (← IO.FS.readBinFile (String.ofList path)).data.toList
    readInput := attempt do
      return (← (← IO.getStdin).readBinToEnd).data.toList
    writeFile := fun path contents => attempt do
      IO.FS.writeBinFile (String.ofList path) ⟨contents.toArray⟩
    writeOutput := fun contents => attempt do
      let stream ← IO.getStdout
      stream.write ⟨contents.toArray⟩
      stream.flush }

end StructEndian

/-- Run the program with the arguments that the system hands over. -/
def main (args : List String) : IO UInt32 := do
  let ending ← StructEndian.program StructEndian.systemShell (args.map String.toList)
  IO.eprint (String.ofList ending.complaint)
  return UInt32.ofNat ending.code
