import JointSpend.CompactSize
import JointSpend.Curve.Point

set_option autoImplicit false
set_option relaxedAutoImplicit false

/-!
# Origins of keys

Where a key comes from: the fingerprint of a master key and the steps of the derivation. Extended
public keys carry what further derivation needs.

## Main definitions

* `JointSpend.KeySource` — fingerprint and derivation path.
* `JointSpend.TaprootKeyOrigin` — the leaves in which a key is used, and its source.
* `JointSpend.ExtendedKey` — an extended public key.
-/

namespace JointSpend

/-- The source of a key. -/
structure KeySource where
  /-- The fingerprint of the master key. -/
  fingerprint : Fixed 4
  /-- The steps of the derivation. -/
  path : List UInt32
  deriving DecidableEq

namespace KeySource

/-- The written form: the fingerprint and four bytes for each step. -/
def bytes (s : KeySource) : Bytes :=
  s.fingerprint.bytes ++ s.path.flatMap Bytes.ofUInt32

/-- Reads a source that fills the byte string. -/
def ofBytes? (bs : Bytes) : Option KeySource := do
  let (fingerprint, rest) ← Fixed.read 4 bs
  if rest.length % 4 = 0 then
    return ⟨fingerprint,
      (Bytes.chunks 4 rest).map fun step => UInt32.ofNat (Bytes.ofLittleEndian step)⟩
  else none

end KeySource

/-- The leaves in which a taproot key is used, and its source. -/
structure TaprootKeyOrigin where
  /-- The digests of the leaves. -/
  leaves : List (Fixed 32)
  /-- The source of the key. -/
  source : KeySource
  deriving DecidableEq

namespace TaprootKeyOrigin

/-- The written form. -/
def bytes (o : TaprootKeyOrigin) : Bytes :=
  CompactSize.writeList (·.bytes) o.leaves ++ o.source.bytes

/-- Reads an origin that fills the byte string. -/
def ofBytes? (bs : Bytes) : Option TaprootKeyOrigin := do
  let (leaves, rest) ← CompactSize.readList (Fixed.read 32) bs
  let source ← KeySource.ofBytes? rest
  return ⟨leaves, source⟩

end TaprootKeyOrigin

/-- An extended public key. -/
structure ExtendedKey where
  /-- Whether it is meant for a test network. -/
  test : Bool
  /-- The number of derivations. -/
  depth : UInt8
  /-- The fingerprint of the parent. -/
  parent : Fixed 4
  /-- The last step of the derivation. -/
  child : UInt32
  /-- The chain code. -/
  chainCode : Fixed 32
  /-- The key. -/
  key : Curve.Point
  deriving DecidableEq

namespace ExtendedKey

/-- The bytes that tell the two kinds of network apart. -/
def versionBytes (test : Bool) : Bytes :=
  if test then [0x04, 0x35, 0x87, 0xcf] else [0x04, 0x88, 0xb2, 0x1e]

/-- The written form of 78 bytes. -/
def bytes (k : ExtendedKey) : Bytes :=
  versionBytes k.test ++ k.depth :: k.parent.bytes ++ Bytes.bigEndian 4 k.child.toNat ++
    k.chainCode.bytes ++ k.key.shortBytes

/-- Reads an extended key that fills the byte string. -/
def ofBytes? (bs : Bytes) : Option ExtendedKey := do
  let (version, bs) ← Bytes.splitExact 4 bs
  let test ←
    if version = versionBytes false then some false
    else if version = versionBytes true then some true
    else none
  let (depth, bs) ← Bytes.readByte bs
  let (parent, bs) ← Fixed.read 4 bs
  let (child, bs) ← Bytes.splitExact 4 bs
  let (chainCode, bs) ← Fixed.read 32 bs
  let key ← Curve.Point.ofShort? bs
  return ⟨test, depth, parent, UInt32.ofNat (Bytes.ofBigEndian child), chainCode, key⟩

/-- Extended keys are ordered by network, depth, parent, child with the hardened ones last, key and
chain code. -/
def ranks (k : ExtendedKey) : List Nat :=
  (if k.test then 1 else 0) :: k.depth.toNat :: k.parent.ranks ++
    k.child.toNat :: k.key.ranks ++ k.chainCode.ranks

theorem ranks_injective {a b : ExtendedKey} (h : a.ranks = b.ranks) : a = b := by
  obtain ⟨atest, ad, ap, ac, acc, ak⟩ := a
  obtain ⟨bt, bd, bp, bc, bcc, bk⟩ := b
  simp only [ranks, List.cons_append, List.cons.injEq, List.append_assoc] at h
  obtain ⟨ht, hd, h⟩ := h
  obtain ⟨hp, h⟩ := List.append_inj h (by rw [Fixed.length_ranks, Fixed.length_ranks])
  simp only [List.cons.injEq] at h
  obtain ⟨hc, h⟩ := h
  obtain ⟨hk, hcc⟩ := List.append_inj h (by simp [Curve.Point.ranks])
  obtain rfl := UInt8.toNat_inj.mp hd
  obtain rfl := Fixed.ranks_injective hp
  obtain rfl := UInt32.toNat_inj.mp hc
  obtain rfl := Curve.Point.ranks_injective hk
  obtain rfl := Fixed.ranks_injective hcc
  cases atest <;> cases bt <;> simp_all

end ExtendedKey

end JointSpend
