set_option autoImplicit false
set_option relaxedAutoImplicit false

/-!
# JSON values

Numbers are kept as they are written, so that an integer can be told from the same number with a
fraction or an exponent.

## Main definitions

* `JointSpend.Json` — a JSON value.
* `JointSpend.Json.compact`, `JointSpend.Json.pretty` — its text on one line, and indented.
-/

namespace JointSpend

/-- A JSON value. -/
inductive Json where
  | null
  | bool (b : Bool)
  /-- A number as it is written. -/
  | number (lexeme : String)
  | string (s : String)
  | array (items : List Json)
  /-- Fields in the order in which they are written; a name may occur more than once. -/
  | object (fields : List (String × Json))
  /-- A well-formed string, or an object with a well-formed name, that spells no text: it has an
  unpaired surrogate. It can be passed over, but not read. -/
  | unreadable
  deriving Inhabited

namespace Json

/-- A natural number. -/
def nat (n : Nat) : Json := number (toString n)

/-- An integer. -/
def int (i : Int) : Json := number (toString i)

/-- A value or `null`. -/
def nullable {α : Type} (f : α → Json) : Option α → Json
  | some a => f a
  | none => null

/-- A field that is left out when there is no value. -/
def optionalField {α : Type} (name : String) (f : α → Json) : Option α → List (String × Json)
  | some a => [(name, f a)]
  | none => []

/-- The value of the last field with a name. -/
def field? (name : String) : Json → Option Json
  | object fields => (fields.reverse.find? fun f => f.1 == name).map (·.2)
  | _ => none

/-! ## Text -/

/-- The four digits of a control character. -/
def controlDigits (n : Nat) : List Char :=
  let digits := Nat.toDigits 16 n
  List.replicate (4 - digits.length) '0' ++ digits

/-- A character inside a string. -/
def escapeChar (c : Char) : List Char :=
  if c = '"' then ['\\', '"']
  else if c = '\\' then ['\\', '\\']
  else if c = '\n' then ['\\', 'n']
  else if c = '\r' then ['\\', 'r']
  else if c = '\t' then ['\\', 't']
  else if c = '\x08' then ['\\', 'b']
  else if c = '\x0c' then ['\\', 'f']
  else if c.toNat < 0x20 then '\\' :: 'u' :: controlDigits c.toNat
  else [c]

/-- A string between its quotes. -/
def quoted (s : String) : String :=
  "\"" ++ String.ofList (s.toList.flatMap escapeChar) ++ "\""

/-- The value of a field is smaller than the fields it is among. -/
theorem sizeOf_snd_lt {f : String × Json} {fields : List (String × Json)} (h : f ∈ fields) :
    sizeOf f.2 < sizeOf fields := by
  have hf := List.sizeOf_lt_of_mem h
  obtain ⟨name, value⟩ := f
  simp only [Prod.mk.sizeOf_spec] at hf
  show sizeOf value < _
  omega

/-- The text of a value on one line. -/
def compact : Json → String
  | null => "null"
  | bool b => if b then "true" else "false"
  | number lexeme => lexeme
  | string s => quoted s
  | array items => "[" ++ ",".intercalate (items.map compact) ++ "]"
  | object fields =>
    "\x7b" ++ ",".intercalate (fields.map fun f => quoted f.1 ++ ":" ++ compact f.2) ++ "\x7d"
  | unreadable => "null"
termination_by v => sizeOf v
decreasing_by
  all_goals simp_wf
  · have := List.sizeOf_lt_of_mem ‹_ ∈ items›
    omega
  · have := sizeOf_snd_lt ‹_ ∈ fields›
    omega

/-- A line break and the indentation of a level. -/
def lineBreak (level : Nat) : String :=
  "\n" ++ String.ofList (List.replicate (2 * level) ' ')

/-- The text of a value at a level of indentation: one item or field a line, two spaces a level. -/
def prettyAt (level : Nat) : Json → String
  | null => "null"
  | bool b => if b then "true" else "false"
  | number lexeme => lexeme
  | string s => quoted s
  | array [] => "[]"
  | array items =>
    "[" ++ lineBreak (level + 1) ++
      ("," ++ lineBreak (level + 1)).intercalate (items.map (prettyAt (level + 1))) ++
      lineBreak level ++ "]"
  | object [] => "\x7b\x7d"
  | object fields =>
    "\x7b" ++ lineBreak (level + 1) ++
      ("," ++ lineBreak (level + 1)).intercalate
        (fields.map fun f => quoted f.1 ++ ": " ++ prettyAt (level + 1) f.2) ++
      lineBreak level ++ "\x7d"
  | unreadable => "null"
termination_by v => sizeOf v
decreasing_by
  all_goals simp_wf
  · have := List.sizeOf_lt_of_mem ‹_ ∈ items›
    omega
  · have := sizeOf_snd_lt ‹_ ∈ fields›
    omega

/-- The indented text of a value. -/
def pretty (v : Json) : String :=
  prettyAt 0 v

end Json

end JointSpend
