import JointSpend.Curve.Group
import JointSpend.Curve.Scheme
import JointSpend.Hash.Derived

set_option autoImplicit false
set_option relaxedAutoImplicit false

/-!
# The signature algorithms

ECDSA with a nonce derived from key and digest, and Schnorr signatures under keys that are known by
their first coordinate. Both are deterministic: nothing is drawn at random.

## Main definitions

* `JointSpend.Curve.nonces` — the stream of nonce candidates for a key and a digest.
* `JointSpend.Curve.secp256k1` — the signature scheme of the curve.
-/

namespace JointSpend.Curve

/-! ## Nonces -/

/-- The state of the nonce generator: a key and a block. -/
structure NonceState where
  key : Bytes
  block : Bytes

namespace NonceState

/-- Mixes data into the state behind a separating byte. -/
def absorb (s : NonceState) (separator : UInt8) (data : Bytes) : NonceState :=
  let key := (Hash.hmacSha256 s.key (s.block ++ separator :: data)).bytes
  ⟨key, (Hash.hmacSha256 key s.block).bytes⟩

/-- The state for a seed. -/
def ofSeed (seed : Bytes) : NonceState :=
  ((⟨List.replicate 32 0, List.replicate 32 1⟩ : NonceState).absorb 0 seed).absorb 1 seed

/-- The state after the next block. -/
def next (s : NonceState) : NonceState :=
  ⟨s.key, (Hash.hmacSha256 s.key s.block).bytes⟩

/-- The first `count` candidates. -/
def candidates : Nat → NonceState → List Nat
  | 0, _ => []
  | count + 1, s =>
    let s := s.next
    Bytes.ofBigEndian s.block :: candidates count (s.absorb 0 [])

end NonceState

/-- The candidates for the nonce of a key and a digest. All but the first are needed only when an
earlier one is out of range or gives a zero scalar, so the list is never exhausted in practice. -/
def nonces (d : SecretKey) (digest : Digest) : List Nat :=
  NonceState.candidates 16 (NonceState.ofSeed (Bytes.bigEndian 32 d.value ++ digest.bytes))

/-! ## ECDSA -/

/-- The multiple of the generator by a scalar. -/
def generatorMultiple (k : Nat) : Projective :=
  generator.multiple k

/-- The scalars of the signature with the nonce `k`, if the nonce is usable. The smaller of the two
values that verify is taken for the second scalar. -/
def ecdsaScalars? (d : SecretKey) (digest : Digest) (k : Nat) : Option (Nat × Nat) := do
  if k = 0 ∨ groupOrder ≤ k then none
  else
    let (x, _) ← (generatorMultiple k).coordinates?
    let r := x % groupOrder
    let m := digest.toNat % groupOrder
    let s := inverse groupOrder k * ((m + r * d.value) % groupOrder) % groupOrder
    if r = 0 ∨ s = 0 then none
    else return (r, if groupOrder / 2 < s then groupOrder - s else s)

/-- Signs a digest with the first usable nonce. -/
def ecdsaSign (d : SecretKey) (digest : Digest) : EcdsaSignature :=
  let (r, s) := ((nonces d digest).findSome? (ecdsaScalars? d digest)).getD (0, 0)
  EcdsaSignature.ofNats r s

/-- Checks a signature. A zero scalar or a second scalar in the upper half never verifies. -/
def ecdsaVerify (p : Point) (digest : Digest) (sig : EcdsaSignature) : Bool :=
  if sig.r = 0 ∨ sig.s = 0 ∨ groupOrder / 2 < sig.s then false
  else
    let i := inverse groupOrder sig.s
    let u := digest.toNat % groupOrder * i % groupOrder
    let v := sig.r * i % groupOrder
    match ((generatorMultiple u).add ((Projective.ofPoint p).multiple v)).coordinates? with
    | some (x, _) => x % groupOrder == sig.r
    | none => false

/-! ## Schnorr signatures -/

/-- The multiple of the generator as a point. -/
def pointOf (d : SecretKey) : Point :=
  ((generatorMultiple d.value).point?).getD generatorPoint

/-- The scalar whose multiple of the generator has an even second coordinate. -/
def evenScalar (p : Point) (d : Nat) : Nat :=
  if p.odd then groupOrder - d else d

/-- The challenge of a signature. -/
def challenge (rx : Bytes) (key : XOnly) (digest : Digest) : Nat :=
  (Hash.tagged "BIP0340/challenge" (rx ++ key.bytes ++ digest.bytes)).toNat % groupOrder

/-- Signs a digest. The nonce is derived from the key, masked as with 32 zero bytes of auxiliary
data, and from the digest. -/
def schnorrSign (d : SecretKey) (digest : Digest) : Fixed 64 :=
  let p := pointOf d
  let e := evenScalar p d.value
  let mask := (Hash.tagged "BIP0340/aux" (List.replicate 32 0)).bytes
  let masked := List.zipWith (· ^^^ ·) (Bytes.bigEndian 32 e) mask
  let nonce :=
    (Hash.tagged "BIP0340/nonce" (masked ++ p.xOnly.bytes ++ digest.bytes)).toNat % groupOrder
  let (x, y) := ((generatorMultiple nonce).coordinates?).getD (0, 0)
  let k := if y % 2 = 1 then groupOrder - nonce else nonce
  let rx := Bytes.bigEndian 32 x
  let s := (k + challenge rx p.xOnly digest * e) % groupOrder
  Fixed.ofPrefix 64 (rx ++ Bytes.bigEndian 32 s)

/-- Checks a signature. -/
def schnorrVerify (key : XOnly) (digest : Digest) (sig : Fixed 64) : Bool :=
  let rx := sig.bytes.take 32
  let r := Bytes.ofBigEndian rx
  let s := Bytes.ofBigEndian (sig.bytes.drop 32)
  if fieldPrime ≤ r ∨ groupOrder ≤ s then false
  else
    let e := challenge rx key digest
    let q := (Projective.ofPoint key.point).multiple ((groupOrder - e) % groupOrder)
    match ((generatorMultiple s).add q).coordinates? with
    | some (x, y) => y % 2 == 0 && x == r
    | none => false

/-- The secret key of the output that commits to a key and to a script tree: the even scalar of the
key plus the digest of its first coordinate and the merkle root. -/
def taprootTweak (d : SecretKey) (root : Option (Fixed 32)) : SecretKey :=
  let p := pointOf d
  let t := (Hash.tagged "TapTweak" (p.xOnly.bytes ++ (root.map (·.bytes)).getD [])).toNat
  (SecretKey.ofNat? ((evenScalar p d.value + t) % groupOrder)).getD d

/-- The signature scheme of the curve. -/
def secp256k1 : SignatureScheme where
  point := pointOf
  ecdsaSign := ecdsaSign
  ecdsaVerify := ecdsaVerify
  taprootTweak := taprootTweak
  schnorrSign := schnorrSign
  schnorrVerify := schnorrVerify

end JointSpend.Curve
