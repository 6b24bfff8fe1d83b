import JointSpend.Psbt.ForeignKey
import JointSpend.Psbt.KeySource
import JointSpend.Psbt.TapTree
import JointSpend.Record.Raw

set_option autoImplicit false
set_option relaxedAutoImplicit false

/-!
# Records of an output

## Main definitions

* `JointSpend.OutputKey` — the keys of the records of an output.
* `JointSpend.OutputKey.Value` — the values under them.
* `JointSpend.OutputMap` — the records of an output.
-/

namespace JointSpend

/-- Whether a kind of record has a meaning for outputs. -/
def OutputKey.knownKind (kind : UInt8) : Bool :=
  kind ≤ 0x02 || (0x05 ≤ kind && kind ≤ 0x07) || kind == proprietaryKind

/-- The keys of the records of an output. -/
inductive OutputKey where
  /-- The script behind a script hash. -/
  | redeemScript
  /-- The script behind a witness script hash. -/
  | witnessScript
  /-- The source of the key. -/
  | derivation (key : Curve.Point)
  /-- The key that the output key is derived from. -/
  | tapInternalKey
  /-- The script tree. -/
  | tapTree
  /-- The origin of the key. -/
  | tapKeyOrigin (key : Curve.XOnly)
  /-- A record with a named owner. -/
  | proprietary (key : ProprietaryKey)
  /-- A record of a kind without meaning here. -/
  | foreign (key : ForeignKey OutputKey.knownKind)
  deriving DecidableEq

namespace OutputKey

/-- The type of the value under a key. -/
@[reducible]
def Value : OutputKey → Type
  | redeemScript => Script
  | witnessScript => Script
  | derivation _ => KeySource
  | tapInternalKey => Curve.XOnly
  | tapTree => TapTree
  | tapKeyOrigin _ => TaprootKeyOrigin
  | proprietary _ => Bytes
  | foreign _ => Bytes

instance (k : OutputKey) : DecidableEq (Value k) := by
  cases k <;> exact inferInstance

/-! ## Order -/

/-- The place of a kind of record among all kinds; records without meaning come last. -/
def kindRank : OutputKey → Nat
  | redeemScript => 0x00
  | witnessScript => 0x01
  | derivation _ => 0x02
  | tapInternalKey => 0x05
  | tapTree => 0x06
  | tapKeyOrigin _ => 0x07
  | proprietary _ => 0xfc
  | foreign _ => 0x100

/-- The order of keys of one kind. -/
def dataRanks : OutputKey → List Nat
  | derivation key => key.ranks
  | tapKeyOrigin key => [key.x]
  | proprietary key => key.ranks
  | foreign key => key.ranks
  | _ => []

private theorem rank_injective {a b : OutputKey}
    (h : a.kindRank :: a.dataRanks = b.kindRank :: b.dataRanks) : a = b := by
  simp only [List.cons.injEq] at h
  obtain ⟨hk, hd⟩ := h
  cases a <;> cases b <;> simp [kindRank] at hk ⊢
  case derivation.derivation => exact Curve.Point.ranks_injective hd
  case tapKeyOrigin.tapKeyOrigin =>
    simp only [dataRanks, List.cons.injEq] at hd
    exact Curve.XOnly.ext_x hd.1
  case proprietary.proprietary => exact ProprietaryKey.ranks_injective hd
  case foreign.foreign => exact ForeignKey.ranks_injective hd

instance : Ranked OutputKey where
  ranks k := k.kindRank :: k.dataRanks
  ranks_injective _ _ h := rank_injective h

/-! ## Wire form -/

/-- The rest of the key of a record. -/
def keyData : OutputKey → Bytes
  | derivation key => key.shortBytes
  | tapKeyOrigin key => key.bytes
  | proprietary key => key.bytes
  | foreign key => key.data
  | _ => []

/-- The kind of a record. -/
def kind : OutputKey → UInt8
  | foreign key => key.kind
  | k => UInt8.ofNat k.kindRank

/-- The written form of a value. -/
def valueBytes : (k : OutputKey) → Value k → Bytes
  | redeemScript, v => v.bytes
  | witnessScript, v => v.bytes
  | derivation _, v => v.bytes
  | tapInternalKey, v => v.bytes
  | tapTree, v => v.bytes
  | tapKeyOrigin _, v => v.bytes
  | proprietary _, v => v
  | foreign _, v => v

/-- Reads the value under a key. -/
def value? : (k : OutputKey) → Bytes → Option (Value k)
  | redeemScript, bs => some ⟨bs⟩
  | witnessScript, bs => some ⟨bs⟩
  | derivation _, bs => KeySource.ofBytes? bs
  | tapInternalKey, bs => Curve.XOnly.ofBytes? bs
  | tapTree, bs => TapTree.ofBytes? bs
  | tapKeyOrigin _, bs => TaprootKeyOrigin.ofBytes? bs
  | proprietary _, bs => some bs
  | foreign _, bs => some bs

/-- A key without data. -/
def plain? (k : OutputKey) (data : Bytes) : Option OutputKey :=
  if data = [] then some k else none

/-- Reads the key of a record from its kind and the rest of the key. -/
def ofKind? (kind : UInt8) (data : Bytes) : Option OutputKey :=
  match kind with
  | 0x00 => plain? redeemScript data
  | 0x01 => plain? witnessScript data
  | 0x02 => (Curve.Point.ofBytes? data).map derivation
  | 0x05 => plain? tapInternalKey data
  | 0x06 => plain? tapTree data
  | 0x07 => (Curve.XOnly.ofBytes? data).map tapKeyOrigin
  | 0xfc => (ProprietaryKey.ofBytes? data).map proprietary
  | kind =>
    if h : knownKind kind = false then some (foreign ⟨kind, data, h⟩) else none

instance : Wired OutputKey Value where
  toRecord k v := ⟨k.kind, k.keyData, k.valueBytes v⟩
  ofRecord? r := do
    let k ← ofKind? r.kind r.keyData
    let v ← value? k r.value
    return ⟨k, v⟩

end OutputKey

/-- The records of an output. -/
abbrev OutputMap := RecordMap OutputKey OutputKey.Value

end JointSpend
