import StructEndian.Bytes
import StructEndian.Text.Basic

/-!
# Texts as bytes

Files and streams hold bytes, which are texts in UTF-8.

## Main definitions

* `Text.ofUtf8?`: the text that bytes encode, if they encode one.
* `Text.toUtf8`: the bytes of a text.

## Main results

* `Text.ofUtf8?_toUtf8`: a text is read back from its bytes.
-/

namespace StructEndian

namespace Text

/-- The text that bytes encode in UTF-8, if they do. -/
def ofUtf8? (bs : Bytes) : Option Text :=
  (String.fromUTF8? ⟨bs.toArray⟩).map String.toList

/-- The bytes that encode a text in UTF-8. -/
def toUtf8 (s : Text) : Bytes :=
  (String.ofList s).toUTF8.data.toList

/-- A string is read back from its bytes. -/
theorem fromUTF8?_toUTF8 (s : String) : String.fromUTF8? s.toUTF8 = some s := by
  unfold String.fromUTF8?
  exact dif_pos s.isValidUTF8

/-- A text is read back from its bytes. -/
theorem ofUtf8?_toUtf8 (s : Text) : ofUtf8? (toUtf8 s) = some s := by
  have h : (⟨(toUtf8 s).toArray⟩ : ByteArray) = (String.ofList s).toUTF8 := rfl
  rw [ofUtf8?, h, fromUTF8?_toUTF8, Option.map_some, String.toList_ofList]

end Text

end StructEndian
