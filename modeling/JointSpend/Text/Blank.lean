set_option autoImplicit false
set_option relaxedAutoImplicit false

/-!
# Blanks

Two classes of blank characters: the five that may stand anywhere in base64 text, and all those
that count as white space at the ends of a text.

## Main definitions

* `JointSpend.Text.isAsciiBlank` — space, tab, line feed, form feed, carriage return.
* `JointSpend.Text.isBlank` — white space of any script.
* `JointSpend.Text.trim` — a text without the blanks at its ends.
-/

namespace JointSpend.Text

/-- Space, tab, line feed, form feed and carriage return; a vertical tab is not among them. -/
def isAsciiBlank (b : UInt8) : Bool :=
  b == 32 || b == 9 || b == 10 || b == 12 || b == 13

/-- White space of any script. Zero-width characters are not blank. -/
def isBlank (c : Char) : Bool :=
  let n := c.toNat
  (9 ≤ n && n ≤ 13) || n == 0x20 || n == 0x85 || n == 0xa0 || n == 0x1680 ||
    (0x2000 ≤ n && n ≤ 0x200a) || n == 0x2028 || n == 0x2029 || n == 0x202f || n == 0x205f ||
    n == 0x3000

/-- A text without the blanks at its ends. -/
def trim (s : String) : String :=
  String.ofList (((s.toList.dropWhile isBlank).reverse.dropWhile isBlank).reverse)

end JointSpend.Text
