import JointSpend.Psbt.ForeignKey
import JointSpend.Psbt.KeySource
import JointSpend.Psbt.TapTree
import JointSpend.PublicKey
import JointSpend.Record.Raw
import JointSpend.SighashType
import JointSpend.Transaction.Basic

set_option autoImplicit false
set_option relaxedAutoImplicit false

/-!
# Records of an input

What can be known about an input: the output it spends, the scripts behind that output, signatures
collected so far, origins of keys, and finally the scripts that satisfy it. Each kind of record is a
constructor of the key, and the key determines the type of the value.

## Main definitions

* `JointSpend.InputKey` — the keys of the records of an input.
* `JointSpend.InputKey.Value` — the values under them.
* `JointSpend.InputMap` — the records of an input.
-/

namespace JointSpend

/-- Whether a kind of record has a meaning for inputs. -/
def InputKey.knownKind (kind : UInt8) : Bool :=
  kind ≤ 0x08 || (0x0a ≤ kind && kind ≤ 0x0d) || (0x13 ≤ kind && kind ≤ 0x18) ||
    kind == proprietaryKind

/-- The keys of the records of an input. -/
inductive InputKey where
  /-- The whole transaction that holds the spent output. -/
  | nonWitnessUtxo
  /-- The spent output alone. -/
  | witnessUtxo
  /-- A signature under the key. -/
  | partialSig (key : PublicKey)
  /-- The sighash type that signers are asked for. -/
  | sighashType
  /-- The script behind a script hash. -/
  | redeemScript
  /-- The script behind a witness script hash. -/
  | witnessScript
  /-- The source of the key. -/
  | derivation (key : Curve.Point)
  /-- The final script of the input. -/
  | finalScriptSig
  /-- The final witness of the input. -/
  | finalScriptWitness
  /-- A byte string with the digest. -/
  | ripemd160Preimage (digest : Fixed 20)
  /-- A byte string with the digest. -/
  | sha256Preimage (digest : Fixed 32)
  /-- A byte string with the digest. -/
  | hash160Preimage (digest : Fixed 20)
  /-- A byte string with the digest. -/
  | hash256Preimage (digest : Fixed 32)
  /-- A signature under the output key. -/
  | tapKeySig
  /-- A signature under the key for a leaf. -/
  | tapScriptSig (key : Curve.XOnly) (leaf : Fixed 32)
  /-- A leaf, by the proof that it belongs to the output. -/
  | tapScript (control : ControlBlock)
  /-- The origin of the key. -/
  | tapKeyOrigin (key : Curve.XOnly)
  /-- The key that the output key is derived from. -/
  | tapInternalKey
  /-- The digest of the script tree. -/
  | tapMerkleRoot
  /-- A record with a named owner. -/
  | proprietary (key : ProprietaryKey)
  /-- A record of a kind without meaning here. -/
  | foreign (key : ForeignKey InputKey.knownKind)
  deriving DecidableEq

namespace InputKey

/-- The type of the value under a key. A preimage has the digest that is its key. -/
@[reducible]
def Value : InputKey → Type
  | nonWitnessUtxo => Transaction
  | witnessUtxo => TxOutput
  | partialSig _ => TypedSignature
  | sighashType => UInt32
  | redeemScript => Script
  | witnessScript => Script
  | derivation _ => KeySource
  | finalScriptSig => Script
  | finalScriptWitness => List Bytes
  | ripemd160Preimage digest => { bs : Bytes // Hash.ripemd160 bs = digest }
  | sha256Preimage digest => { bs : Bytes // Hash.sha256 bs = digest }
  | hash160Preimage digest => { bs : Bytes // Hash.hash160 bs = digest }
  | hash256Preimage digest => { bs : Bytes // Hash.hash256 bs = digest }
  | tapKeySig => TaprootSignature
  | tapScriptSig _ _ => TaprootSignature
  | tapScript _ => LeafScript
  | tapKeyOrigin _ => TaprootKeyOrigin
  | tapInternalKey => Curve.XOnly
  | tapMerkleRoot => Fixed 32
  | proprietary _ => Bytes
  | foreign _ => Bytes

instance (k : InputKey) : DecidableEq (Value k) := by
  cases k <;> exact inferInstance

/-! ## Order -/

/-- The place of a kind of record among all kinds; records without meaning come last. -/
def kindRank : InputKey → Nat
  | nonWitnessUtxo => 0x00
  | witnessUtxo => 0x01
  | partialSig _ => 0x02
  | sighashType => 0x03
  | redeemScript => 0x04
  | witnessScript => 0x05
  | derivation _ => 0x06
  | finalScriptSig => 0x07
  | finalScriptWitness => 0x08
  | ripemd160Preimage _ => 0x0a
  | sha256Preimage _ => 0x0b
  | hash160Preimage _ => 0x0c
  | hash256Preimage _ => 0x0d
  | tapKeySig => 0x13
  | tapScriptSig _ _ => 0x14
  | tapScript _ => 0x15
  | tapKeyOrigin _ => 0x16
  | tapInternalKey => 0x17
  | tapMerkleRoot => 0x18
  | proprietary _ => 0xfc
  | foreign _ => 0x100

/-- The order of keys of one kind. -/
def dataRanks : InputKey → List Nat
  | partialSig key => key.ranks
  | derivation key => key.ranks
  | ripemd160Preimage digest => digest.ranks
  | sha256Preimage digest => digest.ranks
  | hash160Preimage digest => digest.ranks
  | hash256Preimage digest => digest.ranks
  | tapScriptSig key leaf => key.x :: leaf.ranks
  | tapScript control => control.ranks
  | tapKeyOrigin key => [key.x]
  | proprietary key => key.ranks
  | foreign key => key.ranks
  | _ => []

private theorem rank_injective {a b : InputKey}
    (h : a.kindRank :: a.dataRanks = b.kindRank :: b.dataRanks) : a = b := by
  simp only [List.cons.injEq] at h
  obtain ⟨hk, hd⟩ := h
  cases a <;> cases b <;> simp [kindRank] at hk ⊢
  case partialSig.partialSig => exact PublicKey.ranks_injective hd
  case derivation.derivation => exact Curve.Point.ranks_injective hd
  case ripemd160Preimage.ripemd160Preimage => exact Fixed.ranks_injective hd
  case sha256Preimage.sha256Preimage => exact Fixed.ranks_injective hd
  case hash160Preimage.hash160Preimage => exact Fixed.ranks_injective hd
  case hash256Preimage.hash256Preimage => exact Fixed.ranks_injective hd
  case tapScriptSig.tapScriptSig =>
    simp only [dataRanks, List.cons.injEq] at hd
    exact ⟨Curve.XOnly.ext_x hd.1, Fixed.ranks_injective hd.2⟩
  case tapScript.tapScript => exact ControlBlock.ranks_injective hd
  case tapKeyOrigin.tapKeyOrigin =>
    simp only [dataRanks, List.cons.injEq] at hd
    exact Curve.XOnly.ext_x hd.1
  case proprietary.proprietary => exact ProprietaryKey.ranks_injective hd
  case foreign.foreign => exact ForeignKey.ranks_injective hd

instance : Ranked InputKey where
  ranks k := k.kindRank :: k.dataRanks
  ranks_injective _ _ h := rank_injective h

/-! ## Wire form -/

/-- The rest of the key of a record. -/
def keyData : InputKey → Bytes
  | partialSig key => key.bytes
  | derivation key => key.shortBytes
  | ripemd160Preimage digest => digest.bytes
  | sha256Preimage digest => digest.bytes
  | hash160Preimage digest => digest.bytes
  | hash256Preimage digest => digest.bytes
  | tapScriptSig key leaf => key.bytes ++ leaf.bytes
  | tapScript control => control.bytes
  | tapKeyOrigin key => key.bytes
  | proprietary key => key.bytes
  | foreign key => key.data
  | _ => []

/-- The kind of a record. -/
def kind : InputKey → UInt8
  | foreign key => key.kind
  | k => UInt8.ofNat k.kindRank

/-- The written form of a value. -/
def valueBytes : (k : InputKey) → Value k → Bytes
  | nonWitnessUtxo, v => v.bytes
  | witnessUtxo, v => v.bytes
  | partialSig _, v => v.bytes
  | sighashType, v => Bytes.ofUInt32 v
  | redeemScript, v => v.bytes
  | witnessScript, v => v.bytes
  | derivation _, v => v.bytes
  | finalScriptSig, v => v.bytes
  | finalScriptWitness, v => Witness.bytes v
  | ripemd160Preimage _, v => v.1
  | sha256Preimage _, v => v.1
  | hash160Preimage _, v => v.1
  | hash256Preimage _, v => v.1
  | tapKeySig, v => v.bytes
  | tapScriptSig _ _, v => v.bytes
  | tapScript _, v => v.bytes
  | tapKeyOrigin _, v => v.bytes
  | tapInternalKey, v => v.bytes
  | tapMerkleRoot, v => v.bytes
  | proprietary _, v => v
  | foreign _, v => v

/-- A byte string as one with the given digest. -/
def preimage? {n : Nat} (hash : Bytes → Fixed n) (digest : Fixed n) (bs : Bytes) :
    Option { bs : Bytes // hash bs = digest } :=
  if h : hash bs = digest then some ⟨bs, h⟩ else none

/-- Reads the value under a key. -/
def value? : (k : InputKey) → Bytes → Option (Value k)
  | nonWitnessUtxo, bs => Transaction.ofBytes? bs
  | witnessUtxo, bs => Bytes.readAll TxOutput.read bs
  | partialSig _, bs => TypedSignature.ofBytes? bs
  | sighashType, bs => Bytes.readAll Bytes.readUInt32 bs
  | redeemScript, bs => some ⟨bs⟩
  | witnessScript, bs => some ⟨bs⟩
  | derivation _, bs => KeySource.ofBytes? bs
  | finalScriptSig, bs => some ⟨bs⟩
  | finalScriptWitness, bs => Bytes.readAll Witness.read bs
  | ripemd160Preimage digest, bs => preimage? Hash.ripemd160 digest bs
  | sha256Preimage digest, bs => preimage? Hash.sha256 digest bs
  | hash160Preimage digest, bs => preimage? Hash.hash160 digest bs
  | hash256Preimage digest, bs => preimage? Hash.hash256 digest bs
  | tapKeySig, bs => TaprootSignature.ofBytes? bs
  | tapScriptSig _ _, bs => TaprootSignature.ofBytes? bs
  | tapScript _, bs => LeafScript.ofBytes? bs
  | tapKeyOrigin _, bs => TaprootKeyOrigin.ofBytes? bs
  | tapInternalKey, bs => Curve.XOnly.ofBytes? bs
  | tapMerkleRoot, bs => Fixed.ofBytes? 32 bs
  | proprietary _, bs => some bs
  | foreign _, bs => some bs

/-- A key without data. -/
def plain? (k : InputKey) (data : Bytes) : Option InputKey :=
  if data = [] then some k else none

/-- Reads the key of a record from its kind and the rest of the key. -/
def ofKind? (kind : UInt8) (data : Bytes) : Option InputKey :=
  match kind with
  | 0x00 => plain? nonWitnessUtxo data
  | 0x01 => plain? witnessUtxo data
  | 0x02 => (PublicKey.ofBytes? data).map partialSig
  | 0x03 => plain? sighashType data
  | 0x04 => plain? redeemScript data
  | 0x05 => plain? witnessScript data
  | 0x06 => (Curve.Point.ofBytes? data).map derivation
  | 0x07 => plain? finalScriptSig data
  | 0x08 => plain? finalScriptWitness data
  | 0x0a => (Fixed.ofBytes? 20 data).map ripemd160Preimage
  | 0x0b => (Fixed.ofBytes? 32 data).map sha256Preimage
  | 0x0c => (Fixed.ofBytes? 20 data).map hash160Preimage
  | 0x0d => (Fixed.ofBytes? 32 data).map hash256Preimage
  | 0x13 => plain? tapKeySig data
  | 0x14 => do
    let key ← Curve.XOnly.ofBytes? (data.take 32)
    let leaf ← Fixed.ofBytes? 32 (data.drop 32)
    return tapScriptSig key leaf
  | 0x15 => (ControlBlock.ofBytes? data).map tapScript
  | 0x16 => (Curve.XOnly.ofBytes? data).map tapKeyOrigin
  | 0x17 => plain? tapInternalKey data
  | 0x18 => plain? tapMerkleRoot data
  | 0xfc => (ProprietaryKey.ofBytes? data).map proprietary
  | kind =>
    if h : knownKind kind = false then some (foreign ⟨kind, data, h⟩) else none

instance : Wired InputKey Value where
  toRecord k v := ⟨k.kind, k.keyData, k.valueBytes v⟩
  ofRecord? r := do
    let k ← ofKind? r.kind r.keyData
    let v ← value? k r.value
    return ⟨k, v⟩

end InputKey

/-- The records of an input. -/
abbrev InputMap := RecordMap InputKey InputKey.Value

end JointSpend
