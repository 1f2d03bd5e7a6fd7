import StructEndian.Bytes
import StructEndian.Text.Basic

/-!
# File trees

A file tree is what a command-line run can see and change of a file system: the files below
the directory that it runs in. A directory is there if a file is in it.

## Main definitions

* `FileTree`: files by their places.
* `FileError`: why a file cannot be read or written.
* `FileTree.resolve`: where a path leads.
* `FileTree.read`, `FileTree.write`: the contents of a file, and a tree with a file
  replaced.

## Main results

* `FileTree.find?_put`: after a file is put into a tree, it is found there, and all other
  files are as they were.
-/

namespace StructEndian

/-- The **place** of a file: the names on the way to it. -/
abbrev Place := List Text

/-- A **file tree**: the files with their contents, each place at most once. -/
structure FileTree where
  /-- The files. -/
  files : List (Place × Bytes) := []
deriving DecidableEq, Repr

/-- Why a file **cannot be read or written**. -/
inductive FileError
  /-- The path leads nowhere. -/
  | notFound
  /-- The path leads to a directory. -/
  | isDirectory
  /-- The path goes on behind a file. -/
  | notDirectory
  /-- Any other reason, in the words of the system. -/
  | other (message : Text)
deriving DecidableEq, Repr

/-- What is said about a file that cannot be read or written. -/
def FileError.message : FileError → Text
  | notFound => "No such file or directory (os error 2)"
  | isDirectory => "Is a directory (os error 21)"
  | notDirectory => "Not a directory (os error 20)"
  | other message => message

/-- Where a path **leads**. -/
inductive Destination
  /-- To a place in a directory, where a file may be or not. If the path goes on with slashes
  behind the place, it asks for a directory there. -/
  | place (p : Place) (asDirectory : Bool)
  /-- To a directory. -/
  | directory
deriving DecidableEq, Repr

namespace FileTree

/-- The contents of the file at a place. -/
def find? (t : FileTree) (p : Place) : Option Bytes :=
  t.files.lookup p

/-- The tree with the file at a place replaced, or added if there is none. -/
def put (t : FileTree) (p : Place) (contents : Bytes) : FileTree :=
  { files := t.files.filter (fun f => f.1 ≠ p) ++ [(p, contents)] }

/-- Whether a place is a directory: some file is below it. -/
def hasDirectory (t : FileTree) (p : Place) : Bool :=
  t.files.any fun f => p.isPrefixOf f.1 && p.length < f.1.length

/-- Whether a name on a path stays in the same directory. -/
def staysPut (name : Text) : Bool :=
  name = [] || name = ['.']

/-- Where a path leads that has left the tree. Nothing is known of what is there except that
the directories on the way are. -/
def resolveOutside (names : List Text) : Except FileError Destination :=
  if names.all fun n => staysPut n || n = ['.', '.'] then .ok .directory
  else .error .notFound

/-- Where the names on a path lead from the directory `here`. -/
def resolveFrom (t : FileTree) : Place → List Text → Except FileError Destination
  | _, [] => .ok .directory
  | here, name :: names =>
      if staysPut name then t.resolveFrom here names
      else if name = ['.', '.'] then
        if here = [] then resolveOutside names else t.resolveFrom here.dropLast names
      else
        let p := here ++ [name]
        if t.hasDirectory p then t.resolveFrom p names
        else if names.all (· = []) then .ok (.place p (names ≠ []))
        else if (t.find? p).isSome then .error .notDirectory
        else .error .notFound

/-- Where a **path** leads from the directory of the tree. -/
def resolve (t : FileTree) (path : Text) : Except FileError Destination :=
  match path with
  | [] => .error .notFound
  | '/' :: s => resolveOutside (Text.split (· = '/') s)
  | s => t.resolveFrom [] (Text.split (· = '/') s)

/-- **Read** the file that a path leads to. -/
def read (t : FileTree) (path : Text) : Except FileError Bytes := do
  match ← t.resolve path with
  | .directory => throw .isDirectory
  | .place p asDirectory =>
      match t.find? p with
      | none => throw .notFound
      | some contents => if asDirectory then throw .notDirectory else return contents

/-- **Write** the file that a path leads to, as a whole. -/
def write (t : FileTree) (path : Text) (contents : Bytes) : Except FileError FileTree := do
  match ← t.resolve path with
  | .place p false => return t.put p contents
  | .place _ true | .directory => throw .isDirectory

/-! ### Putting files -/

/-- After a file is put into a tree, it is found there, and all other files are as they
were. -/
theorem find?_put (t : FileTree) (p q : Place) (contents : Bytes) :
    (t.put p contents).find? q = if q = p then some contents else t.find? q := by
  have hf : ∀ files : List (Place × Bytes),
      (files.filter (fun f => f.1 ≠ p) ++ [(p, contents)]).lookup q =
        if q = p then some contents else files.lookup q := by
    intro files
    induction files with
    | nil =>
        by_cases hq : q = p
        · simp [hq]
        · simp [hq]
    | cons f files ih =>
        obtain ⟨r, b⟩ := f
        by_cases hr : r = p
        · rw [List.filter_cons_of_neg (by simp [hr]), ih]
          by_cases hq : q = p
          · simp [hq]
          · simp [List.lookup_cons, hr, beq_false_of_ne hq, hq]
        · rw [List.filter_cons_of_pos (by simp [hr]), List.cons_append]
          by_cases hq : q = r
          · subst hq
            simp [hr]
          · rw [List.lookup_cons, List.lookup_cons, beq_false_of_ne hq]
            exact ih
  exact hf t.files

end FileTree

end StructEndian
