import StructEndian.Text.Basic

/-!
# Addresses of unnamed storage

The storage that bit-fields share has no name. Its address is written relative to the last
ordinary member in front of it, or to the structure if there is none.

## Main definitions

* `Address`: an anchor and the bytes behind it.
* `Address.text`: the expression for it.
-/

namespace StructEndian

/-- The parameter of the generated functions: a pointer to the structure. -/
def parameter : Text := "p"

/-- The expression for a member of the structure. -/
def memberText (name : Text) : Text :=
  parameter ++ "->" ++ name

/-- The **address** of unnamed storage: some bytes behind the end of an anchor. -/
structure Address where
  /-- The name of the last ordinary member in front of the storage. Without one, the
  address is counted from the start of the structure. -/
  anchor : Option Text := none
  /-- The bytes of other storage in between. -/
  offset : Nat := 0
deriving DecidableEq, Repr

namespace Address

/-- The address directly behind a named member. -/
def after (name : Text) : Address :=
  { anchor := some name }

/-- The address behind `bytes` more bytes of storage. -/
def skip (a : Address) (bytes : Nat) : Address :=
  { a with offset := a.offset + bytes }

/-- The place that offsets are counted from: the end of the anchor, or the start of the
structure. -/
def originText : Option Text → Text
  | some name =>
      "(char*)&" ++ memberText name ++ " + sizeof(" ++ memberText name ++ ")"
  | none => "(char*)" ++ parameter

/-- The expression for an address. An offset of zero is not written. -/
def text (a : Address) : Text :=
  if a.offset = 0 then originText a.anchor
  else originText a.anchor ++ " + " ++ Text.decimal a.offset

end Address

end StructEndian
