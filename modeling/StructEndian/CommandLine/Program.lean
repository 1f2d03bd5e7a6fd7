import StructEndian.CommandLine.Run

/-!
# The program

The program reads its arguments, runs, and says how it went: by its exit code, and by a
message if something is wrong.

## Main definitions

* `Ending`: an exit code and what is said on the standard error stream.
* `program`: the program in the surroundings of a shell.
-/

namespace StructEndian

/-- How the program **ends**. -/
structure Ending where
  /-- The exit code. -/
  code : Nat := 0
  /-- What is written to the standard error stream. -/
  complaint : Text := []
deriving DecidableEq, Repr

/-- The name and version of the program. -/
def versionText : Text := "netswap 0.1.0\n"

/-- How the program is used. -/
def usageText : Text :=
  "Usage: netswap [OPTIONS] [INPUT]\n\n" ++
    "  -o, --output <OUTPUT>     write to a file instead of the standard output\n" ++
    "      --no-throw            mark the functions noexcept\n" ++
    "      --long-bytes <BYTES>  the width of long, 4 or 8\n" ++
    "      --name <NAME>         the name of the structure\n" ++
    "      --layout              put a listing of the groups in front\n" ++
    "  -h, --help                print this text\n" ++
    "  -V, --version             print the version\n"

/-- What is said about a command line that is not accepted. -/
def Halt.message : Halt → Text
  | help => usageText
  | version => versionText
  | unknownArgument => "unexpected argument"
  | repeatedArgument => "an argument cannot be used multiple times"
  | needlessValue => "a flag takes no value"
  | missingValue => "a value is required"
  | malformedValue => "the width of long must be 4 or 8 bytes"

/-- Write something other than generated functions to the standard output. -/
def inform {m : Type → Type} [Monad m] (sh : Shell m) (text : Text) : m Ending := do
  let _ ← sh.writeOutput text.toUtf8
  return {}

/-- The **program**: carry out a command line. A run that fails ends with code `1`, a command
line that is not accepted with code `2`. -/
def program {m : Type → Type} [Monad m] (sh : Shell m) (args : List Text) : m Ending := do
  match Invocation.parse args with
  | .error .help => inform sh usageText
  | .error .version => inform sh versionText
  | .error why => return { code := 2, complaint := "error: " ++ why.message ++ "\n" }
  | .ok i =>
      match ← i.run sh with
      | .ok () => return {}
      | .error e => return { code := 1, complaint := "Error: " ++ e.message ++ "\n" }

end StructEndian
