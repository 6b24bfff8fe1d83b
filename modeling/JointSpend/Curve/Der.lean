import JointSpend.Curve.Scheme

set_option autoImplicit false
set_option relaxedAutoImplicit false

/-!
# ECDSA signatures as byte strings

A signature is written as a sequence of two integers in the distinguished encoding. Lengths have
one form: a single byte below 128, else the shortest list of bytes. An integer that is negative or
not below the group order is read as zero.

## Main definitions

* `JointSpend.Curve.EcdsaSignature.toDer` — the encoding.
* `JointSpend.Curve.EcdsaSignature.ofDer?` — reading it.
-/

namespace JointSpend.Curve

namespace Der

/-- An integer below `2 ^ 256`, with a leading zero byte where the first bit would be a sign. -/
def integer (v : Nat) : Bytes :=
  let digits := Bytes.minimalBigEndian 32 v
  let body :=
    match digits with
    | [] => [0]
    | b :: _ => if 128 ≤ b then 0 :: digits else digits
  2 :: UInt8.ofNat body.length :: body

/-- Reads a length and the bytes that it counts. -/
def readContent : Reader Bytes
  | [] => none
  | b :: rest =>
    if b < 128 then Bytes.splitExact b.toNat rest
    else if b = 128 ∨ b = 255 then none
    else do
      let (digits, rest) ← Bytes.splitExact (b.toNat - 128) rest
      if digits.head? = some 0 ∨ 8 < digits.length then none
      else
        let n := Bytes.ofBigEndian digits
        if n < 128 ∨ rest.length < n then none else Bytes.splitExact n rest

/-- The value of the bytes of an integer: nothing when there are none, or when the first one is
not needed; zero when the integer is negative or not below the group order. -/
def integerValue? : Bytes → Option Nat
  | [] => none
  | [b] => some (if 128 ≤ b then 0 else b.toNat)
  | b :: c :: rest =>
    if b = 0 ∧ c < 128 then none
    else if b = 255 ∧ 128 ≤ c then none
    else if 128 ≤ b then some 0
    else
      let v := Bytes.ofBigEndian (b :: c :: rest)
      some (if v < groupOrder then v else 0)

/-- Reads an integer. -/
def readInteger : Reader Nat
  | [] => none
  | tag :: rest =>
    if tag = 2 then do
      let (content, rest) ← readContent rest
      let v ← integerValue? content
      return (v, rest)
    else none

end Der

namespace EcdsaSignature

/-- The signature with the given scalars, if they are reduced. -/
def ofScalars? (r s : Nat) : Option EcdsaSignature :=
  if h : r < groupOrder ∧ s < groupOrder then some ⟨r, s, h.1, h.2⟩ else none

/-- The encoding of a signature. -/
def toDer (sig : EcdsaSignature) : Bytes :=
  let body := Der.integer sig.r ++ Der.integer sig.s
  0x30 :: UInt8.ofNat body.length :: body

/-- Reads the encoding of a signature. -/
def ofDer? : Bytes → Option EcdsaSignature
  | [] => none
  | tag :: rest =>
    if tag = 0x30 then do
      let body ← Bytes.readAll Der.readContent rest
      let (r, rest) ← Der.readInteger body
      let s ← Bytes.readAll Der.readInteger rest
      ofScalars? r s
    else none

end EcdsaSignature

end JointSpend.Curve
