import JointSpend.Spend.Path

set_option autoImplicit false
set_option relaxedAutoImplicit false

/-!
# Digests that are signed

Three generations of rules say what a signature covers: the first hashes a reduced transaction, the
second hashes the parts once and adds the amount, the third adds the amounts and scripts of all
spent outputs.

## Main definitions

* `JointSpend.Transaction.legacyDigest`, `JointSpend.Transaction.witnessDigest`,
  `JointSpend.Transaction.taprootDigest?` — the digests of the three generations.
* `JointSpend.Psbt.ecdsaDigest`, `JointSpend.Psbt.taprootDigest` — the digest for an input.
* `JointSpend.DigestFault` — why there is none.
-/

namespace JointSpend

/-- Why there is no digest. -/
inductive DigestFault where
  /-- Taproot inputs are not signed with ECDSA. -/
  | taprootInput
  /-- The output that an input spends is not known. -/
  | noUtxo (index : Nat)
  /-- The signature should cover the output at the index of the input, which there is not. -/
  | noOutput
  /-- There is no such input. -/
  | noInput
  /-- The number of spent outputs is not that of the inputs. -/
  | spentCount
  deriving DecidableEq

/-- The wording of a fault. -/
def DigestFault.message : DigestFault → String
  | taprootInput => "taproot入力にECDSA署名は使えません"
  | noUtxo index => "入力 " ++ toString index ++ " のUTXOがありません"
  | noOutput => "sighash single"
  | noInput => "inputs index"
  | spentCount => "prevouts size"

namespace Transaction

/-! ## The first generation -/

/-- The number one as a digest, its lowest byte first: the digest where the output is missing that
a signature should cover. -/
def missingOutputDigest : Digest :=
  Fixed.ofPrefix 32 [1]

/-- The inputs that are hashed: the script code stands in the signed input, and the sequence
numbers of the others count only when all outputs are covered. -/
def legacyInputs (tx : Transaction) (index : Nat) (code : Script) (type : SighashType) :
    List TxInput :=
  if type.anyoneCanPay then
    (tx.inputs[index]?).toList.map fun i => ⟨i.previous, code, i.sequence, []⟩
  else
    tx.inputs.mapIdx fun n i =>
      if n = index then ⟨i.previous, code, i.sequence, []⟩
      else ⟨i.previous, .empty, if type.outputs = .all then i.sequence else 0, []⟩

/-- The outputs that are hashed. Before a single one stand blanks. -/
def legacyOutputs (tx : Transaction) (index : Nat) (type : SighashType) : List TxOutput :=
  match type.outputs with
  | .all => tx.outputs
  | .none => []
  | .single =>
    (tx.outputs.take (index + 1)).mapIdx fun n o =>
      if n = index then o else ⟨0xffffffffffffffff, .empty⟩

/-- The digest of the reduced transaction and the sighash type. -/
def legacyDigest (tx : Transaction) (index : Nat) (code : Script) (type : SighashType) : Digest :=
  if type.outputs = .single ∧ tx.outputs.length ≤ index then missingOutputDigest
  else
    let reduced : Transaction :=
      ⟨tx.version, tx.lockTime, tx.legacyInputs index code type, tx.legacyOutputs index type⟩
    Hash.hash256 (reduced.baseBytes ++ Bytes.littleEndian 4 type.byte.toNat)

/-! ## The second generation -/

/-- The digest of a part that is hashed only under a condition. -/
def partDigest (hash : Bytes → Fixed 32) (covered : Bool) (part : Bytes) : Bytes :=
  if covered then (hash part).bytes else List.replicate 32 0

/-- The outputs that a signature for the input covers. -/
def coveredOutputs (tx : Transaction) (index : Nat) (scope : OutputScope) : Option Bytes :=
  match scope with
  | .all => some (tx.outputs.flatMap TxOutput.bytes)
  | .none => none
  | .single => (tx.outputs[index]?).map TxOutput.bytes

/-- The digest for an input that spends the given amount with the given script code. -/
def witnessDigest (tx : Transaction) (index : Nat) (input : TxInput) (code : Script)
    (value : UInt64) (type : SighashType) : Digest :=
  let others := !type.anyoneCanPay
  let outputs := tx.coveredOutputs index type.outputs
  Hash.hash256
    (Bytes.ofUInt32 tx.version ++
      partDigest Hash.hash256 others (tx.inputs.flatMap fun i => i.previous.bytes) ++
      partDigest Hash.hash256 (others && type.outputs == .all)
        (tx.inputs.flatMap fun i => Bytes.ofUInt32 i.sequence) ++
      input.previous.bytes ++ CompactSize.writeBytes code.bytes ++ Bytes.ofUInt64 value ++
      Bytes.ofUInt32 input.sequence ++
      partDigest Hash.hash256 outputs.isSome (outputs.getD []) ++
      Bytes.ofUInt32 tx.lockTime ++ Bytes.littleEndian 4 type.byte.toNat)

/-! ## The third generation -/

/-- The digest for spending with the output key, given the outputs that the inputs spend. -/
def taprootDigest? (tx : Transaction) (index : Nat) (spent : List TxOutput)
    (type : TaprootSighashType) : Except DigestFault Digest := do
  if spent.length ≠ tx.inputs.length then throw .spentCount
  let amounts := spent.flatMap fun o => Bytes.ofUInt64 o.value
  let scripts := spent.flatMap fun o => CompactSize.writeBytes o.script.bytes
  let all :=
    if type.anyoneCanPay then []
    else
      (Hash.sha256 (tx.inputs.flatMap fun i => i.previous.bytes)).bytes ++
        (Hash.sha256 amounts).bytes ++ (Hash.sha256 scripts).bytes ++
        (Hash.sha256 (tx.inputs.flatMap fun i => Bytes.ofUInt32 i.sequence)).bytes
  let outputs :=
    if type.outputs = .all then (Hash.sha256 (tx.outputs.flatMap TxOutput.bytes)).bytes else []
  let own ←
    if type.anyoneCanPay then
      match tx.inputs[index]?, spent[index]? with
      | some i, some o =>
        pure (i.previous.bytes ++ o.bytes ++ Bytes.ofUInt32 i.sequence)
      | _, _ => throw .noInput
    else pure (Bytes.littleEndian 4 index)
  let single ←
    if type.outputs = .single then
      match tx.outputs[index]? with
      | some o => pure (Hash.sha256 o.bytes).bytes
      | none => throw .noOutput
    else pure []
  return Hash.tagged "TapSighash"
    (0 :: type.byte :: Bytes.ofUInt32 tx.version ++ Bytes.ofUInt32 tx.lockTime ++ all ++ outputs ++
      0 :: own ++ single)

end Transaction

/-! ## The digest for an input -/

namespace Psbt

/-- The digest that an ECDSA signature for an input signs. -/
def ecdsaDigest (p : Psbt) (index : Nat) (path : SpendPath) (type : SighashType) :
    Except DigestFault Digest :=
  let tx := p.transaction
  match tx.inputs[index]? with
  | none => .error .noInput
  | some input =>
    match path.version with
    | .base => .ok (tx.legacyDigest index path.script type)
    | .witnessV0 =>
      let code :=
        match Script.p2wpkh.payload? path.script with
        | some hash => Script.p2pkh.script hash
        | none => path.script
      .ok (tx.witnessDigest index input code path.output.value type)
    | .taproot => .error .taprootInput

/-- The outputs that the inputs spend, from the given index on. -/
def spentOutputsFrom (p : Psbt) : Nat → Nat → Except DigestFault (List TxOutput)
  | 0, _ => .ok []
  | count + 1, index => do
    match p.spentOutput? index with
    | none => throw (.noUtxo index)
    | some o =>
      let os ← p.spentOutputsFrom count (index + 1)
      return o :: os

/-- The digest that a taproot signature for an input signs. It covers the outputs that all inputs
spend, so all have to be known. -/
def taprootDigest (p : Psbt) (index : Nat) (type : TaprootSighashType) :
    Except DigestFault Digest := do
  let spent ← p.spentOutputsFrom p.inputs.length 0
  p.transaction.taprootDigest? index spent type

end Psbt

end JointSpend
