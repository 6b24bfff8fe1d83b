import JointSpend.Bytes

set_option autoImplicit false
set_option relaxedAutoImplicit false

/-!
# Bech32 text of witness programs

A human-readable part, the separator `1`, the version, the program in groups of five bits, and a
checksum of six groups whose target depends on the version.

## Main definitions

* `JointSpend.Text.Bech32.encode` — the text of a witness program.
* `JointSpend.Text.Bech32.decode?` — human-readable part, version and program of a text.
-/

namespace JointSpend.Text.Bech32

/-- The symbols of the 32 values in order. -/
def alphabet : List Char :=
  "qpzry9x8gf2tvdw0s3jn54khce6mua7l".toList

/-- The value of a small symbol. -/
def value? (c : Char) : Option Nat :=
  alphabet.findIdx? (· == c)

/-- One step of the checksum: multiplies the remainder by the unknown, adds a value and reduces. -/
def step (residue value : Nat) : Nat :=
  let top := residue / 0x2000000
  let shifted := (residue % 0x2000000) * 32 ^^^ value
  let term (bit : Nat) (c : Nat) : Nat := if top / bit % 2 = 1 then c else 0
  shifted ^^^ term 1 0x3b6a57b2 ^^^ term 2 0x26508e6d ^^^ term 4 0x1ea119fa ^^^
    term 8 0x3d4233dd ^^^ term 16 0x2a1462b3

/-- The values that the human-readable part contributes to the checksum. -/
def expand (hrp : List Char) : List Nat :=
  hrp.map (fun c => c.toNat / 32) ++ 0 :: hrp.map fun c => c.toNat % 32

/-- The remainder of a list of values. -/
def residue (values : List Nat) : Nat :=
  values.foldl step 1

/-- The remainder that a text with the given version has. -/
def target (version : Nat) : Nat :=
  if version = 0 then 1 else 0x2bc830a3

/-- The bits of `width`-bit values, most significant first. -/
def bits (width : Nat) (values : List Nat) : List Bool :=
  values.flatMap fun v => (List.range width).reverse.map v.testBit

/-- The number that bits spell, most significant first. -/
def ofBits (bs : List Bool) : Nat :=
  bs.foldl (fun acc b => 2 * acc + (if b then 1 else 0)) 0

/-- The first `count` groups of `width` bits, the last one filled up with zeros. -/
def groups (width : Nat) : Nat → List Bool → List Nat
  | 0, _ => []
  | count + 1, bs =>
    ofBits ((bs ++ List.replicate width false).take width) :: groups width count (bs.drop width)

/-- The text of a witness program. -/
def encode (hrp : String) (version : Nat) (program : Bytes) : String :=
  let bs := bits 8 (program.map UInt8.toNat)
  let values := version :: groups 5 ((bs.length + 4) / 5) bs
  let r := residue (expand hrp.toList ++ values ++ List.replicate 6 0) ^^^ target version
  let check := (List.range 6).map fun i => (r >>> (5 * (5 - i))) % 32
  String.ofList (hrp.toList ++ '1' :: (values ++ check).map fun v => alphabet.getD v 'q')

/-- Whether a character may stand in a text at all. -/
def isPrintable (c : Char) : Bool :=
  33 ≤ c.toNat && c.toNat ≤ 126

/-- Splits a text at its last separator. -/
def splitLast (cs : List Char) : Option (List Char × List Char) :=
  let data := (cs.reverse.takeWhile (· != '1')).reverse
  if data.length < cs.length then some (cs.take (cs.length - data.length - 1), data) else none

/-- The bytes of groups of five bits: at most four bits are left over, all zero. -/
def bytes? (values : List Nat) : Option Bytes :=
  let bs := bits 5 values
  let count := bs.length / 8
  let rest := bs.drop (8 * count)
  if rest.length ≤ 4 ∧ rest.all (! ·) then
    some ((groups 8 count bs).map UInt8.ofNat)
  else none

/-- Human-readable part in small letters, version and program of a text in letters of one case. -/
def decode? (s : String) : Option (String × Nat × Bytes) := do
  let cs := s.toList
  if !cs.all isPrintable || (cs.any Char.isUpper && cs.any Char.isLower) then none
  else
    let (hrp, data) ← splitLast (cs.map Char.toLower)
    let values ← data.mapM value?
    match values with
    | [] => none
    | version :: _ =>
      if hrp.isEmpty ∨ 16 < version ∨ values.length < 7 ∨
          residue (expand hrp ++ values) ≠ target version then none
      else
        let program ← bytes? ((values.take (values.length - 6)).drop 1)
        let n := program.length
        if 2 ≤ n ∧ n ≤ 40 ∧ (version = 0 → n = 20 ∨ n = 32) then
          return (String.ofList hrp, version, program)
        else none

end JointSpend.Text.Bech32
