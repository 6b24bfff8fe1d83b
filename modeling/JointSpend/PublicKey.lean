import JointSpend.Curve.Scheme
import JointSpend.Text.Hex

set_option autoImplicit false
set_option relaxedAutoImplicit false

/-!
# Keys

A public key is a point together with the form, short or long, in which it is written. Two keys
with one point and different forms are different keys: they have different hashes.

## Main definitions

* `JointSpend.PublicKey` — a point and its written form.
* `JointSpend.PrivateKey` — a secret key, the form of its public key and its kind of network.
* `JointSpend.SignatureScheme.publicKey` — the public key of a private key.
-/

namespace JointSpend

/-- A point and the form in which it is written. -/
structure PublicKey where
  /-- The point. -/
  point : Curve.Point
  /-- Whether the short form is meant. -/
  compressed : Bool
  deriving DecidableEq

namespace PublicKey

/-- The written form. -/
def bytes (k : PublicKey) : Bytes :=
  if k.compressed then k.point.shortBytes else k.point.longBytes

/-- The written form in hexadecimal. -/
def text (k : PublicKey) : String :=
  Text.Hex.encode k.bytes

/-- Reads a written form: 33 bytes, or 65 bytes of which the first is `04`. -/
def ofBytes? : Bytes → Option PublicKey
  | [] => none
  | b :: rest =>
    if rest.length = 32 then (Curve.Point.ofShort? (b :: rest)).map fun p => ⟨p, true⟩
    else if b = 4 then (Curve.Point.ofLong? rest).map fun p => ⟨p, false⟩
    else none

/-- Keys in the long form come first; keys of one form are ordered as points. -/
def ranks (k : PublicKey) : List Nat :=
  (if k.compressed then 1 else 0) :: k.point.ranks

theorem ranks_injective {a b : PublicKey} (h : a.ranks = b.ranks) : a = b := by
  obtain ⟨ap, ac⟩ := a
  obtain ⟨bp, bc⟩ := b
  simp only [ranks, List.cons.injEq] at h
  obtain rfl := Curve.Point.ranks_injective h.2
  cases ac <;> cases bc <;> simp_all

end PublicKey

/-- The two kinds of network that key texts tell apart. -/
inductive NetworkKind where
  | main
  | test
  deriving DecidableEq

/-- A secret key with what its text form says about it. -/
structure PrivateKey where
  /-- The scalar. -/
  secret : Curve.SecretKey
  /-- Whether its public key is written in the short form. -/
  compressed : Bool
  /-- The kind of network it is meant for. -/
  kind : NetworkKind
  deriving DecidableEq

/-- The public key of a private key. -/
def SignatureScheme.publicKey (scheme : SignatureScheme) (k : PrivateKey) : PublicKey :=
  ⟨scheme.point k.secret, k.compressed⟩

end JointSpend
