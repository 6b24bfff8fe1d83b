import JointSpend.Curve.Point

set_option autoImplicit false
set_option relaxedAutoImplicit false

/-!
# Signature schemes

What spending needs of the signature algorithms, as a record of operations. The rules for signing
and finalizing take the record as an argument: they do not depend on how signatures are computed.

## Main definitions

* `JointSpend.Curve.SecretKey` — a scalar that may serve as a secret key.
* `JointSpend.Curve.EcdsaSignature` — a pair of scalars.
* `JointSpend.SignatureScheme` — the operations.
-/

namespace JointSpend

namespace Curve

/-- A nonzero scalar. -/
structure SecretKey where
  /-- The scalar. -/
  value : Nat
  /-- It is not zero. -/
  positive : 0 < value
  /-- It is below the order of the group. -/
  lt_order : value < groupOrder
  deriving DecidableEq

/-- A number as a secret key, if it is in range. -/
def SecretKey.ofNat? (v : Nat) : Option SecretKey :=
  if h : 0 < v ∧ v < groupOrder then some ⟨v, h.1, h.2⟩ else none

/-- An ECDSA signature: two scalars. Zero scalars are representable, but never verify. -/
structure EcdsaSignature where
  /-- The first scalar. -/
  r : Nat
  /-- The second scalar. -/
  s : Nat
  /-- The first scalar is reduced. -/
  r_lt : r < groupOrder
  /-- The second scalar is reduced. -/
  s_lt : s < groupOrder
  deriving DecidableEq

/-- The signature whose scalars are the remainders of two numbers. -/
def EcdsaSignature.ofNats (r s : Nat) : EcdsaSignature :=
  ⟨r % groupOrder, s % groupOrder, Nat.mod_lt _ groupOrder_pos, Nat.mod_lt _ groupOrder_pos⟩

end Curve

/-- A digest to be signed. -/
abbrev Digest := Fixed 32

/-- The operations on keys and signatures that spending rests on. -/
structure SignatureScheme where
  /-- The point that belongs to a secret key. -/
  point : Curve.SecretKey → Curve.Point
  /-- Signs a digest. -/
  ecdsaSign : Curve.SecretKey → Digest → Curve.EcdsaSignature
  /-- Checks a signature under a point. -/
  ecdsaVerify : Curve.Point → Digest → Curve.EcdsaSignature → Bool
  /-- The secret key of the output that commits to a key and a script tree, by its merkle root. -/
  taprootTweak : Curve.SecretKey → Option (Fixed 32) → Curve.SecretKey
  /-- Signs a digest for a key that is known by its first coordinate. -/
  schnorrSign : Curve.SecretKey → Digest → Fixed 64
  /-- Checks such a signature. -/
  schnorrVerify : Curve.XOnly → Digest → Fixed 64 → Bool

end JointSpend
