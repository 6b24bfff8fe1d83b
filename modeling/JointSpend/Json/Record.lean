import JointSpend.Json.Reader

set_option autoImplicit false
set_option relaxedAutoImplicit false

/-!
# Reading records from JSON

A record is written as an object, in which unknown fields are passed over, or as the array of its
fields in a fixed order, in which the last ones may be left off. A known field must not occur twice.
A field that may be absent may be `null` as well.

## Main definitions

* `JointSpend.Json.fields?` — the fields of a record.
* `JointSpend.Json.required`, `JointSpend.Json.optional` — the value of a field.
* `JointSpend.Json.text?`, `JointSpend.Json.natural?`, `JointSpend.Json.list?` — values by kind.
* `JointSpend.Json.lastWins` — the value in which no field is repeated.
-/

namespace JointSpend.Json

/-- What is written for a field of a record, if anything is. -/
abbrev Written := Option Json

/-- What an object says for a name, unless it says it twice. -/
def occurrence? (fields : List (String × Json)) (name : String) : Option Written :=
  match fields.filter fun f => f.1 == name with
  | [] => some none
  | [f] => some (some f.2)
  | _ => none

/-- What is written for the fields of a record, in the order of their names. -/
def fields? (names : List String) : Json → Option (List Written)
  | object fields => names.mapM (occurrence? fields)
  | array items =>
    if items.length ≤ names.length then
      some (items.map some ++ List.replicate (names.length - items.length) none)
    else none
  | _ => none

/-- The value of a field that must be there. -/
def required {α : Type} (read : Json → Option α) : Written → Option α
  | some v => read v
  | none => none

/-- The value of a field that may be absent. -/
def optional {α : Type} (read : Json → Option α) : Written → Option (Option α)
  | none => some none
  | some null => some none
  | some v => some <$> read v

/-- The text that a value is. -/
def text? : Json → Option String
  | string s => some s
  | _ => none

/-- The natural number below a bound that a value is. A fraction or an exponent is no part of one,
nor is a sign. -/
def natural? (bound : Nat) : Json → Option Nat
  | number lexeme =>
    match lexeme.toNat? with
    | some n => if lexeme.toList.all Char.isDigit ∧ n < bound then some n else none
    | none => none
  | _ => none

/-- The 32-bit number that a value is. -/
def uint32? (v : Json) : Option UInt32 :=
  UInt32.ofNat <$> v.natural? UInt32.size

/-- The 64-bit number that a value is. -/
def uint64? (v : Json) : Option UInt64 :=
  UInt64.ofNat <$> v.natural? UInt64.size

/-- The items of an array. -/
def list? {α : Type} (read : Json → Option α) : Json → Option (List α)
  | array items => items.mapM read
  | _ => none

/-- The fields without those that are repeated later. -/
def keepLast : List (String × Json) → List (String × Json)
  | [] => []
  | f :: rest => if rest.any (fun g => g.1 == f.1) then keepLast rest else f :: keepLast rest

/-- The value in which every object has only the last of the fields with a name. -/
def lastWins : Json → Json
  | array items => array (items.map lastWins)
  | object fields => object (keepLast (fields.map fun f => (f.1, lastWins f.2)))
  | v => v
termination_by v => sizeOf v
decreasing_by
  all_goals simp_wf
  · have := List.sizeOf_lt_of_mem ‹_ ∈ items›
    omega
  · have := sizeOf_snd_lt ‹_ ∈ fields›
    omega

end JointSpend.Json
