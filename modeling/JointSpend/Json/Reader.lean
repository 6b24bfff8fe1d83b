import JointSpend.Json.Value

set_option autoImplicit false
set_option relaxedAutoImplicit false

/-!
# Reading JSON

A text is read from left to right as a list of characters; every scanner returns what is left. A
string is read in two steps: first into units, one for each character or escape as it is written,
and then into characters, which is where a surrogate finds its other half or does not.

## Main definitions

* `JointSpend.Json.parse?` — the value that a text stands for.
-/

namespace JointSpend.Json

/-- Whether a character may stand between the parts of a value. -/
def isSpace (c : Char) : Bool :=
  c == ' ' || c == '\n' || c == '\t' || c == '\r'

/-- The text without the spaces at its start. -/
def skipSpaces (text : List Char) : List Char :=
  text.dropWhile isSpace

/-! ## Strings -/

/-- A part of a string as it is written. -/
inductive StringUnit where
  /-- A character, or an escape that stands for one. -/
  | char (c : Char)
  /-- Four digits that stand for a character or half of one. -/
  | code (n : Nat)
  deriving DecidableEq

/-- The value of a digit in base 16. -/
def hexDigit? (c : Char) : Option Nat :=
  if '0' ≤ c ∧ c ≤ '9' then some (c.toNat - '0'.toNat)
  else if 'a' ≤ c ∧ c ≤ 'f' then some (c.toNat - 'a'.toNat + 10)
  else if 'A' ≤ c ∧ c ≤ 'F' then some (c.toNat - 'A'.toNat + 10)
  else none

/-- The character that a letter stands for after a backslash. -/
def escaped? (c : Char) : Option Char :=
  if c = '"' ∨ c = '\\' ∨ c = '/' then some c
  else if c = 'b' then some '\x08'
  else if c = 'f' then some '\x0c'
  else if c = 'n' then some '\n'
  else if c = 'r' then some '\r'
  else if c = 't' then some '\t'
  else none

/-- Reads the units of a string after its opening quote, to its closing quote. -/
def scanUnits : List Char → List StringUnit → Option (List StringUnit × List Char)
  | [], _ => none
  | '"' :: rest, units => some (units.reverse, rest)
  | '\\' :: 'u' :: a :: b :: c :: d :: rest, units => do
    let n := (((← hexDigit? a) * 16 + (← hexDigit? b)) * 16 + (← hexDigit? c)) * 16 + (← hexDigit? d)
    scanUnits rest (.code n :: units)
  | '\\' :: c :: rest, units => do
    scanUnits rest (.char (← escaped? c) :: units)
  | c :: rest, units =>
    if c.toNat < 0x20 ∨ c = '\\' then none else scanUnits rest (.char c :: units)

/-- Whether a number is the first half of a character. -/
def isLeading (n : Nat) : Bool :=
  0xd800 ≤ n && n < 0xdc00

/-- Whether a number is the second half of a character. -/
def isTrailing (n : Nat) : Bool :=
  0xdc00 ≤ n && n < 0xe000

/-- The characters that units stand for, unless a half of one stands alone. -/
def joinUnits : List StringUnit → Option (List Char)
  | [] => some []
  | .char c :: rest => (c :: ·) <$> joinUnits rest
  | .code hi :: .code lo :: rest =>
    if isLeading hi && isTrailing lo then
      (Char.ofNat (0x10000 + (hi - 0xd800) * 0x400 + (lo - 0xdc00)) :: ·) <$> joinUnits rest
    else if isLeading hi || isTrailing hi then none
    else (Char.ofNat hi :: ·) <$> joinUnits (.code lo :: rest)
  | .code n :: rest =>
    if isLeading n || isTrailing n then none else (Char.ofNat n :: ·) <$> joinUnits rest

/-- The text that units stand for. -/
def unitsText? (units : List StringUnit) : Option String :=
  String.ofList <$> joinUnits units

/-! ## Numbers -/

/-- Reads digits, at least one. -/
def scanDigits (text : List Char) : Option (List Char × List Char) :=
  let (digits, rest) := text.span Char.isDigit
  if digits.isEmpty then none else some (digits, rest)

/-- Reads the digits before the point, without a needless zero. -/
def scanWhole (text : List Char) : Option (List Char × List Char) :=
  match text with
  | '0' :: rest => some (['0'], rest)
  | _ => scanDigits text

/-- Reads the point and the digits after it, if there is a point. -/
def scanFraction : List Char → Option (List Char × List Char)
  | '.' :: rest => do
    let (digits, rest) ← scanDigits rest
    return ('.' :: digits, rest)
  | text => some ([], text)

/-- Reads the sign of an exponent, if there is one. -/
def scanSign : List Char → List Char × List Char
  | '+' :: rest => (['+'], rest)
  | '-' :: rest => (['-'], rest)
  | text => ([], text)

/-- Reads the exponent, if there is one. -/
def scanExponent : List Char → Option (List Char × List Char)
  | c :: rest =>
    if c = 'e' ∨ c = 'E' then do
      let (sign, rest) := scanSign rest
      let (digits, rest) ← scanDigits rest
      return (c :: sign ++ digits, rest)
    else some ([], c :: rest)
  | [] => some ([], [])

/-- Reads a number without its sign. -/
def scanUnsigned (text : List Char) : Option (List Char × List Char) := do
  let (whole, rest) ← scanWhole text
  let (fraction, rest) ← scanFraction rest
  let (exponent, rest) ← scanExponent rest
  return (whole ++ fraction ++ exponent, rest)

/-- Reads a number. -/
def scanNumber : List Char → Option (Json × List Char)
  | '-' :: rest => do
    let (digits, rest) ← scanUnsigned rest
    return (.number (String.ofList ('-' :: digits)), rest)
  | text => do
    let (digits, rest) ← scanUnsigned text
    return (.number (String.ofList digits), rest)

/-! ## Values -/

/-- A field whose name may spell no text. -/
abbrev WrittenField := Option String × Json

/-- The object with the given fields in reverse order. -/
def objectOf (fields : List WrittenField) : Json :=
  match fields.reverse.mapM fun f => f.1.map (·, f.2) with
  | some fields => .object fields
  | none => .unreadable

mutual

/-- Reads a value. The number bounds how many steps are taken. -/
def scanValue : Nat → List Char → Option (Json × List Char)
  | 0, _ => none
  | fuel + 1, text =>
    match skipSpaces text with
    | 'n' :: 'u' :: 'l' :: 'l' :: rest => some (.null, rest)
    | 't' :: 'r' :: 'u' :: 'e' :: rest => some (.bool true, rest)
    | 'f' :: 'a' :: 'l' :: 's' :: 'e' :: rest => some (.bool false, rest)
    | '"' :: rest => do
      let (units, rest) ← scanUnits rest []
      return (((unitsText? units).map Json.string).getD .unreadable, rest)
    | '[' :: rest =>
      match skipSpaces rest with
      | ']' :: rest => some (.array [], rest)
      | rest => scanItems fuel rest []
    | '\x7b' :: rest =>
      match skipSpaces rest with
      | '\x7d' :: rest => some (.object [], rest)
      | rest => scanFields fuel rest []
    | text => scanNumber text

/-- Reads the items of an array after those that were read. -/
def scanItems : Nat → List Char → List Json → Option (Json × List Char)
  | 0, _, _ => none
  | fuel + 1, text, items => do
    let (item, rest) ← scanValue fuel text
    match skipSpaces rest with
    | ',' :: rest => scanItems fuel rest (item :: items)
    | ']' :: rest => some (.array (item :: items).reverse, rest)
    | _ => none

/-- Reads the fields of an object after those that were read. -/
def scanFields : Nat → List Char → List WrittenField → Option (Json × List Char)
  | 0, _, _ => none
  | fuel + 1, text, fields =>
    match skipSpaces text with
    | '"' :: rest => do
      let (units, rest) ← scanUnits rest []
      match skipSpaces rest with
      | ':' :: rest =>
        let (value, rest) ← scanValue fuel rest
        let fields := (unitsText? units, value) :: fields
        match skipSpaces rest with
        | ',' :: rest => scanFields fuel rest fields
        | '\x7d' :: rest => some (objectOf fields, rest)
        | _ => none
      | _ => none
    | _ => none

end

/-- The value that a text stands for. Every step reads a character, so the length of the text bounds
the steps. -/
def parse? (text : String) : Option Json := do
  let chars := text.toList
  let (value, rest) ← scanValue (chars.length + 1) chars
  if (skipSpaces rest).isEmpty then some value else none

end JointSpend.Json
