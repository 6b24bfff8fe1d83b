import JointSpend.Text.Utf8

set_option autoImplicit false
set_option relaxedAutoImplicit false

/-!
# Hexadecimal text

Bytes are written with two lowercase digits, and read with digits of either case. Positions in the
faults count the bytes of the text.

## Main definitions

* `JointSpend.Text.Hex.encode` — two lowercase digits per byte.
* `JointSpend.Text.Hex.decode` — the bytes, or the first fault.
* `JointSpend.Text.Hex.Fault` — what can be wrong.
-/

namespace JointSpend.Text.Hex

/-- Why a text is not hexadecimal. -/
inductive Fault where
  /-- The number of bytes is odd. This comes before any bad digit. -/
  | oddLength
  /-- The byte at the position is no digit. -/
  | badDigit (byte : UInt8) (position : Nat)
  deriving DecidableEq

/-- The lowercase digit of a value below sixteen. -/
def digit (v : Nat) : UInt8 :=
  if v < 10 then UInt8.ofNat (48 + v) else UInt8.ofNat (87 + v)

/-- The value of a digit of either case. -/
def value? (b : UInt8) : Option Nat :=
  if 48 ≤ b ∧ b ≤ 57 then some (b.toNat - 48)
  else if 97 ≤ b ∧ b ≤ 102 then some (b.toNat - 87)
  else if 65 ≤ b ∧ b ≤ 70 then some (b.toNat - 55)
  else none

/-- The digits of a byte string. -/
def encodeBytes (bs : Bytes) : Bytes :=
  bs.flatMap fun b => [digit (b.toNat / 16), digit (b.toNat % 16)]

/-- The text of a byte string. -/
def encode (bs : Bytes) : String :=
  ofAscii (encodeBytes bs)

/-- Reads pairs of digits from the given position on. -/
def decodePairs (position : Nat) : Bytes → Except Fault Bytes
  | [] => .ok []
  | [_] => .error .oddLength
  | high :: low :: rest =>
    match value? high, value? low with
    | none, _ => .error (.badDigit high position)
    | some _, none => .error (.badDigit low (position + 1))
    | some h, some l => do
      let bs ← decodePairs (position + 2) rest
      return UInt8.ofNat (16 * h + l) :: bs

/-- The bytes of a text in digits. -/
def decodeBytes (text : Bytes) : Except Fault Bytes :=
  if text.length % 2 = 1 then .error .oddLength else decodePairs 0 text

/-- The bytes that a hexadecimal text spells. -/
def decode (s : String) : Except Fault Bytes :=
  decodeBytes (utf8 s)

end JointSpend.Text.Hex
