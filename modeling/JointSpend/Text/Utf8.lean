import JointSpend.Bytes

set_option autoImplicit false
set_option relaxedAutoImplicit false

/-!
# Text as bytes

## Main definitions

* `JointSpend.Text.utf8` — the UTF-8 form of a text.
* `JointSpend.Text.ofUtf8?` — the text that a byte string spells, if it is UTF-8.
* `JointSpend.Text.ofAscii` — the text whose code points are given as bytes.
-/

namespace JointSpend.Text

/-- The UTF-8 form of a text, character by character. -/
def utf8 (s : String) : Bytes :=
  s.toList.flatMap String.utf8EncodeChar

/-- The text that a byte string spells, if it is well-formed UTF-8. -/
def ofUtf8? (bs : Bytes) : Option String :=
  String.fromUTF8? ⟨bs.toArray⟩

/-- The text with the given bytes as code points. -/
def ofAscii (bs : Bytes) : String :=
  String.ofList (bs.map fun b => Char.ofNat b.toNat)

/-- A text without its last characters that fail a test. -/
def dropRightWhile (p : Char → Bool) (cs : List Char) : List Char :=
  (cs.reverse.dropWhile p).reverse

end JointSpend.Text
