import JointSpend.Text.Utf8

set_option autoImplicit false
set_option relaxedAutoImplicit false

/-!
# Base64 text

The alphabet with `+` and `/`, canonical padding and zero unused bits: every byte string has one
spelling. Reading reports the first fault in a fixed order, with positions that count bytes.

## Main definitions

* `JointSpend.Text.Base64.encodeBytes`, `JointSpend.Text.Base64.encode` — the spelling of a byte
  string.
* `JointSpend.Text.Base64.decode` — the bytes that a spelling stands for.
* `JointSpend.Text.Base64.Fault`, `JointSpend.Text.Base64.Fault.message` — what can be wrong.
-/

namespace JointSpend.Text.Base64

/-- Why a text is not base64. -/
inductive Fault where
  /-- A byte that may not stand at its place. -/
  | symbol (byte : UInt8) (offset : Nat)
  /-- The last group has fewer than two symbols. -/
  | length (count : Nat)
  /-- The padding does not complete the last group. -/
  | padding
  /-- The last symbol has bits that belong to no byte. -/
  | lastSymbol (byte : UInt8) (offset : Nat)
  deriving DecidableEq

/-- The wording of a fault. -/
def Fault.message : Fault → String
  | .symbol byte offset =>
    "Invalid symbol " ++ toString byte.toNat ++ ", offset " ++ toString offset ++ "."
  | .length count => "Invalid input length: " ++ toString count
  | .padding => "Invalid padding"
  | .lastSymbol byte offset =>
    "Invalid last symbol " ++ toString byte.toNat ++ ", offset " ++ toString offset ++ "."

/-- The padding symbol `=`. -/
def pad : UInt8 := 61

/-- The symbol of a value below 64. -/
def symbol (v : Nat) : UInt8 :=
  if v < 26 then UInt8.ofNat (65 + v)
  else if v < 52 then UInt8.ofNat (71 + v)
  else if v < 62 then UInt8.ofNat (v - 4)
  else if v = 62 then 43
  else 47

/-- The value of a symbol of the alphabet. -/
def value? (b : UInt8) : Option Nat :=
  if 65 ≤ b ∧ b ≤ 90 then some (b.toNat - 65)
  else if 97 ≤ b ∧ b ≤ 122 then some (b.toNat - 71)
  else if 48 ≤ b ∧ b ≤ 57 then some (b.toNat + 4)
  else if b = 43 then some 62
  else if b = 47 then some 63
  else none

/-- The spelling of a byte string: four symbols for three bytes, the last group filled up. -/
def encodeBytes : Bytes → Bytes
  | [] => []
  | [a] =>
    [symbol (a.toNat / 4), symbol (a.toNat % 4 * 16), pad, pad]
  | [a, b] =>
    [symbol (a.toNat / 4), symbol (a.toNat % 4 * 16 + b.toNat / 16),
      symbol (b.toNat % 16 * 4), pad]
  | a :: b :: c :: rest =>
    symbol (a.toNat / 4) :: symbol (a.toNat % 4 * 16 + b.toNat / 16) ::
      symbol (b.toNat % 16 * 4 + c.toNat / 64) :: symbol (c.toNat % 64) :: encodeBytes rest

/-- The spelling of a byte string as text. -/
def encode (bs : Bytes) : String :=
  ofAscii (encodeBytes bs)

/-- The values of symbols from the given offset on, all of which have to be in the alphabet. -/
def values (offset : Nat) : Bytes → Except Fault (List Nat)
  | [] => .ok []
  | b :: rest =>
    match value? b with
    | none => .error (.symbol b offset)
    | some v => do
      let vs ← values (offset + 1) rest
      return v :: vs

/-- The values in a last group that starts at `start`, after which only padding may stand. The
accumulator holds the values read so far, last first. Padding at one of the first two places is a
fault of its own; a byte behind padding that is no padding blames the padding. -/
def scanTail (start : Nat) : Bytes → List Nat → Except Fault (List Nat × Nat)
  | [], acc => .ok (acc.reverse, 0)
  | b :: rest, acc =>
    if b = pad then
      if acc.length < 2 ∨ !rest.all (· == pad) then .error (.symbol pad (start + acc.length))
      else .ok (acc.reverse, rest.length + 1)
    else
      match value? b with
      | none => .error (.symbol b (start + acc.length))
      | some v => scanTail start rest (v :: acc)

/-- The bytes of full groups. -/
def joinGroups : List Nat → Bytes
  | a :: b :: c :: d :: rest =>
    UInt8.ofNat (a * 4 + b / 16) :: UInt8.ofNat (b % 16 * 16 + c / 4) ::
      UInt8.ofNat (c % 4 * 64 + d) :: joinGroups rest
  | _ => []

/-- The bytes of a last group of two to four values, and the value of its unused bits. -/
def joinTail : List Nat → Bytes × Nat
  | [a, b] => ([UInt8.ofNat (a * 4 + b / 16)], b % 16)
  | [a, b, c] => ([UInt8.ofNat (a * 4 + b / 16), UInt8.ofNat (b % 16 * 16 + c / 4)], c % 4)
  | vs => (joinGroups vs, 0)

/-- The bytes that a spelling stands for. -/
def decode (text : Bytes) : Except Fault Bytes := do
  let n := text.length
  let start := if n % 4 = 0 then n - 4 else n - n % 4
  let tail := text.drop start
  match n % 4, tail with
  | 1, [b] => if b ≠ pad ∧ value? b = none then throw (.symbol b start)
  | _, _ => pure ()
  let front ← values 0 (text.take start)
  let (last, pads) ← scanTail start tail []
  if text = [] then return []
  if last.length < 2 then throw (.length (start + last.length))
  if (last.length + pads) % 4 ≠ 0 then throw .padding
  let (bytes, unused) := joinTail last
  if unused ≠ 0 then
    throw (.lastSymbol (symbol (last.getLast?.getD 0)) (start + last.length - 1))
  return joinGroups front ++ bytes

end JointSpend.Text.Base64
