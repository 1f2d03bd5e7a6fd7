import StructEndian.Region

/-!
# The group listing

On request the generated functions are preceded by a comment with a table of the groups: one
row for every region, with the group's number, the members, the storage type, the bits used
out of those available, and the address that the functions convert at.

## Main definitions

* `Row`: the five cells of a line of the table.
* `Row.ofRegion`: the row of a region.
* `listing`: the lines of the comment.
-/

namespace StructEndian

/-- A **row** of the table. -/
structure Row where
  /-- The number of the group. -/
  group : Text
  /-- The names of its members. -/
  members : Text
  /-- The storage type. -/
  storage : Text
  /-- The bits used and available, for bit-fields. -/
  bits : Text
  /-- The place that is converted. -/
  address : Text
deriving DecidableEq, Repr

namespace Row

/-- The cells of a row from left to right. -/
def cells (r : Row) : List Text :=
  [r.group, r.members, r.storage, r.bits, r.address]

/-- The row that names the columns. -/
def header : Row :=
  { group := "group", members := "members", storage := "storage", bits := "bits",
    address := "address" }

/-- The row of a region. An array's name is followed by brackets, and only bit-fields have
an entry in the column of bits. -/
def ofRegion (region : Region) : Row :=
  let group := Text.decimal region.lead.group
  let storage := region.lead.storageType
  match region with
  | .scalar m =>
      { group, storage, members := m.name, bits := "-", address := memberText m.name }
  | .array m =>
      { group, storage, members := m.name ++ "[]", bits := "-", address := memberText m.name }
  | .bits _ _ bytes address =>
      { group, storage
        members := Text.join ", " (region.members.map Member.name)
        bits := Text.decimal ((region.members.map Member.bits).foldr (· + ·) 0) ++ "/" ++
          Text.decimal (8 * bytes)
        address := address.text }

/-! ### Columns -/

/-- The widths of the columns of a table: for every column the UTF-8 width of its widest
cell. -/
def widths (rows : List Row) : List Nat :=
  rows.foldl (fun ws r => List.zipWith max ws (r.cells.map Text.utf8Width)) [0, 0, 0, 0, 0]

/-- A cell with blanks behind it, up to `width` characters. A cell that is longer stays as
it is. -/
def pad (width : Nat) (cell : Text) : Text :=
  cell ++ List.replicate (width - cell.length) ' '

/-- The line of a row: its cells padded to the widths of the columns and two blanks apart,
behind the margin of the comment and without blanks at its end. -/
def line (ws : List Nat) (r : Row) : Text :=
  Text.trimEnd (" *  " ++ Text.join "  " (List.zipWith pad ws r.cells))

end Row

/-- The title line of the listing. -/
def listingTitle (model : DataModel) (tag : Text) : Text :=
  " * " ++ tag ++ " group layout, `long` = " ++ Text.decimal model.long.bytes ++ " bytes"

/-- The **listing** of the regions of a structure, a comment of several lines. -/
def listing (model : DataModel) (tag : Text) (rs : List Region) : List Text :=
  let rows := Row.header :: rs.map Row.ofRegion
  ("/*" : Text) :: listingTitle model tag :: (" *" : Text) ::
    (rows.map (Row.line (Row.widths rows)) ++ [(" */" : Text)])

end StructEndian
