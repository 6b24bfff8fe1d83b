import JointSpend.Script.Basic
import JointSpend.CompactSize

set_option autoImplicit false
set_option relaxedAutoImplicit false

/-!
# Transactions

A transaction has two serialized forms, without and with witnesses. Its identifier is the digest of
the form without; the virtual size weighs both.

## Main definitions

* `JointSpend.OutPoint`, `JointSpend.TxInput`, `JointSpend.TxOutput`, `JointSpend.Transaction`.
* `JointSpend.Transaction.baseBytes`, `JointSpend.Transaction.bytes` — the form without witnesses,
  and the form in which the transaction is passed on.
* `JointSpend.Transaction.readBase`, `JointSpend.Transaction.read` — reading the two forms.
* `JointSpend.Transaction.id`, `JointSpend.Transaction.virtualSize`.
-/

namespace JointSpend

/-- The identifier of a transaction. -/
structure TxId where
  /-- The digest, in the order in which it is serialized. -/
  digest : Fixed 32
  deriving DecidableEq

namespace TxId

/-- The text of an identifier: the bytes of the digest in reverse order. -/
def text (id : TxId) : String :=
  Text.Hex.encode id.digest.bytes.reverse

/-- Reads the text of an identifier: exactly 64 digits of either case. -/
def ofText? (s : String) : Option TxId :=
  match Text.Hex.decode s with
  | .ok bs => (Fixed.ofBytes? 32 bs.reverse).map TxId.mk
  | .error _ => none

end TxId

/-- A reference to an output of a transaction. -/
structure OutPoint where
  /-- The transaction. -/
  txid : TxId
  /-- The index of the output. -/
  vout : UInt32
  deriving DecidableEq

/-- The text of a reference: identifier and index. -/
def OutPoint.text (o : OutPoint) : String :=
  o.txid.text ++ ":" ++ toString o.vout.toNat

/-- An input of a transaction. -/
structure TxInput where
  /-- The output that is spent. -/
  previous : OutPoint
  /-- The script that satisfies it. -/
  scriptSig : Script
  /-- The sequence number. -/
  sequence : UInt32
  /-- The stack that satisfies a witness output. -/
  witness : List Bytes
  deriving DecidableEq

/-- An output of a transaction. -/
structure TxOutput where
  /-- The amount in satoshis. -/
  value : UInt64
  /-- The condition for spending it. -/
  script : Script
  deriving DecidableEq

/-- A transaction. -/
structure Transaction where
  version : UInt32
  lockTime : UInt32
  inputs : List TxInput
  outputs : List TxOutput
  deriving DecidableEq

/-! ## Writing -/

namespace OutPoint

/-- The serialized form. -/
def bytes (o : OutPoint) : Bytes :=
  o.txid.digest.bytes ++ Bytes.ofUInt32 o.vout

/-- Reads a reference. -/
def read : Reader OutPoint := fun bs => do
  let (digest, bs) ← Fixed.read 32 bs
  let (vout, bs) ← Bytes.readUInt32 bs
  return (⟨⟨digest⟩, vout⟩, bs)

end OutPoint

namespace TxInput

/-- The serialized form, without the witness. -/
def bytes (i : TxInput) : Bytes :=
  i.previous.bytes ++ CompactSize.writeBytes i.scriptSig.bytes ++ Bytes.ofUInt32 i.sequence

/-- Reads an input; its witness is empty. -/
def read : Reader TxInput := fun bs => do
  let (previous, bs) ← OutPoint.read bs
  let (script, bs) ← CompactSize.readBytes bs
  let (sequence, bs) ← Bytes.readUInt32 bs
  return (⟨previous, ⟨script⟩, sequence, []⟩, bs)

end TxInput

namespace TxOutput

/-- The serialized form. -/
def bytes (o : TxOutput) : Bytes :=
  Bytes.ofUInt64 o.value ++ CompactSize.writeBytes o.script.bytes

/-- Reads an output. -/
def read : Reader TxOutput := fun bs => do
  let (value, bs) ← Bytes.readUInt64 bs
  let (script, bs) ← CompactSize.readBytes bs
  return (⟨value, ⟨script⟩⟩, bs)

end TxOutput

/-- The serialized form of a witness stack. -/
def Witness.bytes (stack : List Bytes) : Bytes :=
  CompactSize.writeList CompactSize.writeBytes stack

/-- Reads a witness stack. -/
def Witness.read : Reader (List Bytes) :=
  CompactSize.readList CompactSize.readBytes

namespace Transaction

/-- The form without witnesses. -/
def baseBytes (tx : Transaction) : Bytes :=
  Bytes.ofUInt32 tx.version ++ CompactSize.writeList TxInput.bytes tx.inputs ++
    CompactSize.writeList TxOutput.bytes tx.outputs ++ Bytes.ofUInt32 tx.lockTime

/-- The form with witnesses, behind the marker `00 01`. -/
def witnessBytes (tx : Transaction) : Bytes :=
  Bytes.ofUInt32 tx.version ++ [0, 1] ++ CompactSize.writeList TxInput.bytes tx.inputs ++
    CompactSize.writeList TxOutput.bytes tx.outputs ++
    tx.inputs.flatMap (fun i => Witness.bytes i.witness) ++ Bytes.ofUInt32 tx.lockTime

/-- Whether the form with witnesses is used: when there is a witness, and when there are no inputs,
because no inputs would be read as the marker. -/
def usesWitnessForm (tx : Transaction) : Bool :=
  tx.inputs.isEmpty || tx.inputs.any fun i => !i.witness.isEmpty

/-- The form in which the transaction is passed on. -/
def bytes (tx : Transaction) : Bytes :=
  if tx.usesWitnessForm then tx.witnessBytes else tx.baseBytes

/-- The identifier. -/
def id (tx : Transaction) : TxId :=
  ⟨Hash.hash256 tx.baseBytes⟩

/-- The identifier that covers the witnesses. -/
def witnessId (tx : Transaction) : TxId :=
  ⟨Hash.hash256 tx.bytes⟩

/-- A quarter of the weight, rounded up: witness bytes count once and all others four times. -/
def virtualSize (tx : Transaction) : Nat :=
  (3 * tx.baseBytes.length + tx.bytes.length + 3) / 4

/-! ## Reading -/

/-- Reads the form without witnesses, also of a transaction without inputs. -/
def readBase : Reader Transaction := fun bs => do
  let (version, bs) ← Bytes.readUInt32 bs
  let (inputs, bs) ← CompactSize.readList TxInput.read bs
  let (outputs, bs) ← CompactSize.readList TxOutput.read bs
  let (lockTime, bs) ← Bytes.readUInt32 bs
  return (⟨version, lockTime, inputs, outputs⟩, bs)

/-- Reads one witness for each input. -/
def readWitnesses : List TxInput → Reader (List TxInput)
  | [], bs => some ([], bs)
  | i :: is, bs => do
    let (witness, bs) ← Witness.read bs
    let (is, bs) ← readWitnesses is bs
    return (⟨i.previous, i.scriptSig, i.sequence, witness⟩ :: is, bs)

/-- Reads the part of the form with witnesses behind the marker. A form without any witness is
refused unless there are no inputs. -/
def readWitnessForm (version : UInt32) : Reader Transaction := fun bs => do
  let (inputs, bs) ← CompactSize.readList TxInput.read bs
  let (outputs, bs) ← CompactSize.readList TxOutput.read bs
  let (inputs, bs) ← readWitnesses inputs bs
  if !inputs.isEmpty && inputs.all fun i => i.witness.isEmpty then none
  else
    let (lockTime, bs) ← Bytes.readUInt32 bs
    return (⟨version, lockTime, inputs, outputs⟩, bs)

/-- Reads either form. No inputs are taken for the marker of the form with witnesses, which one
byte `01` has to follow. -/
def read : Reader Transaction := fun bs => do
  let (version, bs) ← Bytes.readUInt32 bs
  let (inputs, bs) ← CompactSize.readList TxInput.read bs
  if inputs.isEmpty then
    let (flag, bs) ← Bytes.readByte bs
    if flag = 1 then readWitnessForm version bs else none
  else
    let (outputs, bs) ← CompactSize.readList TxOutput.read bs
    let (lockTime, bs) ← Bytes.readUInt32 bs
    return (⟨version, lockTime, inputs, outputs⟩, bs)

/-- The transaction that a byte string spells in either form. -/
def ofBytes? (bs : Bytes) : Option Transaction :=
  Bytes.readAll read bs

end Transaction

end JointSpend
