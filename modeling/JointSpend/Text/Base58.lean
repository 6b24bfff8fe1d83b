import JointSpend.Hash.Derived

set_option autoImplicit false
set_option relaxedAutoImplicit false

/-!
# Base58 text with a checksum

A byte string is a number in base 58; its leading zero bytes are written as leading ones. The first
four bytes of a digest follow the content.

## Main definitions

* `JointSpend.Text.Base58.encode`, `JointSpend.Text.Base58.decode?` — without checksum.
* `JointSpend.Text.Base58.encodeCheck`, `JointSpend.Text.Base58.decodeCheck?` — with checksum.
-/

namespace JointSpend.Text.Base58

/-- The digits in order. -/
def alphabet : List Char :=
  "123456789ABCDEFGHJKLMNPQRSTUVWXYZabcdefghijkmnopqrstuvwxyz".toList

/-- The value of a digit. -/
def value? (c : Char) : Option Nat :=
  alphabet.findIdx? (· == c)

/-- The digits of a number that has at most `count` of them, most significant first, without
leading zeros. -/
def digits (count v : Nat) : List Nat :=
  (go count v []).dropWhile (· == 0)
where
  /-- The recursion is on the number of digits that are left. -/
  go : Nat → Nat → List Nat → List Nat
    | 0, _, acc => acc
    | count + 1, v, acc => go count (v / 58) (v % 58 :: acc)

/-- The text of a byte string. A byte needs less than two digits. -/
def encode (bs : Bytes) : String :=
  let zeros := (bs.takeWhile (· == 0)).length
  let ds := digits (2 * bs.length) (Bytes.ofBigEndian bs)
  String.ofList (List.replicate zeros '1' ++ ds.map fun d => alphabet.getD d '1')

/-- The byte string that a text stands for. A digit holds less than a byte. -/
def decode? (s : String) : Option Bytes := do
  let cs := s.toList
  let ds ← cs.mapM value?
  let zeros := (cs.takeWhile (· == '1')).length
  return List.replicate zeros 0 ++
    Bytes.minimalBigEndian cs.length (ds.foldl (fun acc d => acc * 58 + d) 0)

/-- The checksum of a byte string. -/
def checksum (bs : Bytes) : Bytes :=
  (Hash.hash256 bs).bytes.take 4

/-- The text of a byte string and its checksum. -/
def encodeCheck (bs : Bytes) : String :=
  encode (bs ++ checksum bs)

/-- The byte string that a text stands for, if its checksum is right. -/
def decodeCheck? (s : String) : Option Bytes := do
  let bs ← decode? s
  if bs.length < 4 then none
  else
    let content := bs.take (bs.length - 4)
    if bs.drop (bs.length - 4) = checksum content then some content else none

end JointSpend.Text.Base58
