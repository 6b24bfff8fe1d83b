import JointSpend.Text.EscapeTable
import JointSpend.Text.Lowercase

set_option autoImplicit false
set_option relaxedAutoImplicit false

/-!
# Quoted text

Text between quotes is shown so that it can be read on one line: the quote itself, the backslash
and the usual control characters have short escapes, and every other character that would not be
visible by itself is spelled by its number.

## Main definitions

* `JointSpend.Text.Quoted.character` — a character between single quotes.
* `JointSpend.Text.Quoted.string` — a text between double quotes.
* `JointSpend.Text.Quoted.path` — a file name between double quotes.
-/

namespace JointSpend.Text.Quoted

/-- The digits of a number in base 16, lowercase, without leading zeros. -/
def hexNumber (n : Nat) : List Char :=
  Nat.toDigits 16 n

/-- A character between quotes of the given kinds. -/
def escape (quotes : List Char) (c : Char) : List Char :=
  if c = '\x00' then ['\\', '0']
  else if c = '\t' then ['\\', 't']
  else if c = '\r' then ['\\', 'r']
  else if c = '\n' then ['\\', 'n']
  else if c = '\\' then ['\\', '\\']
  else if quotes.contains c then ['\\', c]
  else if inRanges EscapeTable.ranges c.toNat then
    ['\\', 'u', '\x7b'] ++ hexNumber c.toNat ++ ['\x7d']
  else [c]

/-- A character between single quotes. -/
def character (c : Char) : String :=
  String.ofList ('\'' :: escape ['\''] c ++ ['\''])

/-- A text between double quotes; single quotes need no escape. -/
def string (s : String) : String :=
  String.ofList ('"' :: s.toList.flatMap (escape ['"']) ++ ['"'])

/-- A file name between double quotes; here single quotes are escaped as well. -/
def path (s : String) : String :=
  String.ofList ('"' :: s.toList.flatMap (escape ['"', '\'']) ++ ['"'])

end JointSpend.Text.Quoted
