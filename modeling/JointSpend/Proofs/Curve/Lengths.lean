import JointSpend.Curve.Secp256k1
import JointSpend.Proofs.Curve.Encodings

set_option autoImplicit false
set_option relaxedAutoImplicit false

/-!
# Lengths of keys and signatures

How many bytes keys and signatures have when they are pushed. An integer has one byte more if its
first bit would be a sign, so an ECDSA signature whose second scalar is in the lower half of its
range is a byte shorter than the longest one.

## Main definitions

* `JointSpend.Curve.EcdsaSignature.IsLow` — the second scalar is in the lower half.
* `JointSpend.SignatureScheme.AcceptsLow` — only such signatures are valid.

## Main results

* `JointSpend.PublicKey.length_bytes_le`, `JointSpend.TypedSignature.length_bytes_le`,
  `JointSpend.TaprootSignature.length_bytes_le` — keys and signatures of any kind.
* `JointSpend.Curve.secp256k1_acceptsLow` — the curve is such a scheme.
* `JointSpend.TypedSignature.length_bytes_le_of_isLow` — ECDSA signatures that are valid.
-/

namespace JointSpend

/-! ## Integers -/

namespace Bytes

/-- The digits after the first one count as often as they can. -/
private theorem ofLittleEndian_append_singleton (bs : Bytes) (b : UInt8) :
    ofLittleEndian (bs ++ [b]) = ofLittleEndian bs + 256 ^ bs.length * b.toNat := by
  induction bs with
  | nil => simp [ofLittleEndian]
  | cons c bs ih =>
    rw [List.cons_append, ofLittleEndian, ofLittleEndian, ih, List.length_cons, Nat.pow_succ]
    ring

/-- The first digit bounds a number from below. -/
private theorem pow_mul_le_ofBigEndian (b : UInt8) (bs : Bytes) :
    256 ^ bs.length * b.toNat ≤ ofBigEndian (b :: bs) := by
  rw [ofBigEndian_eq, List.reverse_cons, ofLittleEndian_append_singleton, List.length_reverse]
  omega

end Bytes

namespace Curve

namespace Der

/-- **The content of an integer below `2 ^ 255`** needs no byte for the sign. -/
theorem length_content_le_of_lt {v : Nat} (h : v < 2 ^ 255) : (content v).length ≤ 32 := by
  have hlen := Bytes.length_minimalBigEndian_le 32 v
  have hvalue : Bytes.ofBigEndian (Bytes.minimalBigEndian 32 v) = v :=
    Bytes.ofBigEndian_minimalBigEndian (h.trans (by decide))
  unfold content
  split
  · simp
  · next b digits heq =>
    rw [heq] at hlen hvalue
    rw [List.length_cons] at hlen
    split
    · next hsign =>
      -- with a sign bit in the first of 32 digits the number would be too large
      have hb : 128 ≤ b.toNat := by
        rw [UInt8.le_iff_toNat_le] at hsign
        exact hsign
      have hdigits : digits.length ≠ 31 := by
        intro hfull
        have hle := Bytes.pow_mul_le_ofBigEndian b digits
        rw [hvalue, hfull] at hle
        have hmul : 256 ^ 31 * 128 ≤ 256 ^ 31 * b.toNat := Nat.mul_le_mul_left _ hb
        have hpow : (256 ^ 31 * 128 : Nat) = 2 ^ 255 := by decide
        omega
      simp only [List.length_cons]
      omega
    · simpa using hlen

end Der

/-- A signature whose second scalar is in the lower half of its range. -/
def EcdsaSignature.IsLow (sig : EcdsaSignature) : Prop :=
  2 * sig.s < groupOrder

/-- The encoding of a signature has at most 72 bytes. -/
private theorem EcdsaSignature.length_toDer_le (sig : EcdsaSignature) : sig.toDer.length ≤ 72 := by
  have hr := Der.length_integer_le sig.r
  have hs := Der.length_integer_le sig.s
  simp only [toDer, List.length_cons, List.length_append]
  omega

/-- If the second scalar is in the lower half, the encoding has at most 71 bytes. -/
private theorem EcdsaSignature.length_toDer_le_of_isLow {sig : EcdsaSignature} (h : sig.IsLow) :
    sig.toDer.length ≤ 71 := by
  have hr := Der.length_integer_le sig.r
  have hs : (Der.integer sig.s).length ≤ 34 := by
    have hlt : sig.s < 2 ^ 255 := by
      have horder : groupOrder < 2 ^ 256 := by decide
      unfold IsLow at h
      omega
    have := Der.length_content_le_of_lt hlt
    rw [Der.integer_eq, List.length_cons, List.length_cons]
    omega
  simp only [toDer, List.length_cons, List.length_append]
  omega

end Curve

/-- Only signatures whose second scalar is in the lower half of its range are valid. -/
def SignatureScheme.AcceptsLow (scheme : SignatureScheme) : Prop :=
  ∀ point digest sig, scheme.ecdsaVerify point digest sig = true → sig.IsLow

/-- The scheme of the curve accepts no signature in the upper half. -/
theorem Curve.secp256k1_acceptsLow : Curve.secp256k1.AcceptsLow := by
  intro point digest sig h
  change ecdsaVerify point digest sig = true at h
  unfold ecdsaVerify at h
  split at h
  · simp at h
  · next hrange =>
    have hodd : groupOrder % 2 = 1 := by decide
    unfold EcdsaSignature.IsLow
    omega

/-! ## What is pushed -/

/-- A key in the short form has 33 bytes. -/
theorem PublicKey.length_bytes_of_compressed {key : PublicKey} (h : key.compressed = true) :
    key.bytes.length = 33 := by
  rw [bytes, if_pos h, Curve.Point.shortBytes, List.length_cons, Bytes.length_bigEndian]

/-- A key has at most 65 bytes. -/
theorem PublicKey.length_bytes_le (key : PublicKey) : key.bytes.length ≤ 65 := by
  cases h : key.compressed with
  | true =>
    rw [length_bytes_of_compressed h]
    omega
  | false =>
    simp only [bytes, h, Bool.false_eq_true, if_false, Curve.Point.longBytes, List.length_cons,
      List.length_append, Bytes.length_bigEndian]
    omega

/-- A pushed ECDSA signature has at most 73 bytes. -/
theorem TypedSignature.length_bytes_le (sig : TypedSignature) : sig.bytes.length ≤ 73 := by
  have := sig.signature.length_toDer_le
  simp only [bytes, List.length_append, List.length_singleton]
  omega

/-- **A pushed ECDSA signature that can be valid** has at most 72 bytes. -/
theorem TypedSignature.length_bytes_le_of_isLow {sig : TypedSignature} (h : sig.signature.IsLow) :
    sig.bytes.length ≤ 72 := by
  have := Curve.EcdsaSignature.length_toDer_le_of_isLow h
  simp only [bytes, List.length_append, List.length_singleton]
  omega

/-- A pushed taproot signature has at most 65 bytes. -/
theorem TaprootSignature.length_bytes_le (sig : TaprootSignature) : sig.bytes.length ≤ 65 := by
  have := sig.signature.length_eq
  unfold bytes
  split
  · omega
  · rw [List.length_append, List.length_singleton]
    omega

/-- A pushed taproot signature of the default type has 64 bytes. -/
theorem TaprootSignature.length_bytes_of_default {sig : TaprootSignature}
    (h : sig.sighash = .default) : sig.bytes.length = 64 := by
  rw [bytes, h]
  exact sig.signature.length_eq

end JointSpend
