import JointSpend.Psbt.ForeignKey
import JointSpend.Psbt.KeySource
import JointSpend.Record.Raw

set_option autoImplicit false
set_option relaxedAutoImplicit false

/-!
# Records of the whole

The records that belong to no single input or output, the unsigned transaction apart.

## Main definitions

* `JointSpend.GlobalKey` — the keys of these records.
* `JointSpend.GlobalKey.Value` — the values under them.
* `JointSpend.GlobalMap` — the records.
-/

namespace JointSpend

/-- The kind of the record that holds the unsigned transaction. -/
def transactionKind : UInt8 := 0x00

/-- The kind of the record that holds the version of the format. -/
def versionKind : UInt8 := 0xfb

/-- Whether a kind of record has a meaning for the whole. -/
def GlobalKey.knownKind (kind : UInt8) : Bool :=
  kind == transactionKind || kind == 0x01 || kind == versionKind || kind == proprietaryKind

/-- The keys of the records of the whole. -/
inductive GlobalKey where
  /-- The source of an extended key. -/
  | extendedKey (key : ExtendedKey)
  /-- A record with a named owner. -/
  | proprietary (key : ProprietaryKey)
  /-- A record of a kind without meaning here. -/
  | foreign (key : ForeignKey GlobalKey.knownKind)
  deriving DecidableEq

namespace GlobalKey

/-- The type of the value under a key. -/
@[reducible]
def Value : GlobalKey → Type
  | extendedKey _ => KeySource
  | proprietary _ => Bytes
  | foreign _ => Bytes

instance (k : GlobalKey) : DecidableEq (Value k) := by
  cases k <;> exact inferInstance

/-! ## Order -/

/-- The place of a kind of record among all kinds; records without meaning come last. -/
def kindRank : GlobalKey → Nat
  | extendedKey _ => 0x01
  | proprietary _ => 0xfc
  | foreign _ => 0x100

/-- The order of keys of one kind. -/
def dataRanks : GlobalKey → List Nat
  | extendedKey key => key.ranks
  | proprietary key => key.ranks
  | foreign key => key.ranks

private theorem rank_injective {a b : GlobalKey}
    (h : a.kindRank :: a.dataRanks = b.kindRank :: b.dataRanks) : a = b := by
  simp only [List.cons.injEq] at h
  obtain ⟨hk, hd⟩ := h
  cases a <;> cases b <;> simp [kindRank] at hk ⊢
  case extendedKey.extendedKey => exact ExtendedKey.ranks_injective hd
  case proprietary.proprietary => exact ProprietaryKey.ranks_injective hd
  case foreign.foreign => exact ForeignKey.ranks_injective hd

instance : Ranked GlobalKey where
  ranks k := k.kindRank :: k.dataRanks
  ranks_injective _ _ h := rank_injective h

/-! ## Wire form -/

/-- The rest of the key of a record. -/
def keyData : GlobalKey → Bytes
  | extendedKey key => key.bytes
  | proprietary key => key.bytes
  | foreign key => key.data

/-- The kind of a record. -/
def kind : GlobalKey → UInt8
  | extendedKey _ => 0x01
  | proprietary _ => proprietaryKind
  | foreign key => key.kind

/-- The written form of a value. -/
def valueBytes : (k : GlobalKey) → Value k → Bytes
  | extendedKey _, v => v.bytes
  | proprietary _, v => v
  | foreign _, v => v

/-- Reads the value under a key. -/
def value? : (k : GlobalKey) → Bytes → Option (Value k)
  | extendedKey _, bs => KeySource.ofBytes? bs
  | proprietary _, bs => some bs
  | foreign _, bs => some bs

/-- Reads the key of a record from its kind and the rest of the key. The kinds of the transaction
and of the version have no key here. -/
def ofKind? (kind : UInt8) (data : Bytes) : Option GlobalKey :=
  match kind with
  | 0x01 => (ExtendedKey.ofBytes? data).map extendedKey
  | 0xfc => (ProprietaryKey.ofBytes? data).map proprietary
  | kind =>
    if h : knownKind kind = false then some (foreign ⟨kind, data, h⟩) else none

instance : Wired GlobalKey Value where
  toRecord k v := ⟨k.kind, k.keyData, k.valueBytes v⟩
  ofRecord? r := do
    let k ← ofKind? r.kind r.keyData
    let v ← value? k r.value
    return ⟨k, v⟩

end GlobalKey

/-- The records of the whole, the unsigned transaction apart. -/
abbrev GlobalMap := RecordMap GlobalKey GlobalKey.Value

end JointSpend
