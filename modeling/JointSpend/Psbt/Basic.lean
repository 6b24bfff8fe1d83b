import JointSpend.Psbt.GlobalKey
import JointSpend.Psbt.InputKey
import JointSpend.Psbt.OutputKey

set_option autoImplicit false
set_option relaxedAutoImplicit false

/-!
# Partially signed transactions

An unsigned transaction with what is known about the whole, about each input and about each output.

## Main definitions

* `JointSpend.Psbt` — a partially signed transaction.
* `JointSpend.Psbt.ofTransaction?` — the one that knows nothing beyond its transaction.
* `JointSpend.Psbt.bytes`, `JointSpend.Psbt.ofBytes?` — the binary form.
* `JointSpend.InputMap.isFinal`, `JointSpend.Psbt.allFinal` — whether inputs are satisfied.
* `JointSpend.Psbt.spentOutput?` — the output that an input spends.
-/

namespace JointSpend

/-- A partially signed transaction. Only version 0 of the format exists here, so no version is
kept. -/
structure Psbt where
  /-- The transaction without scripts and witnesses. -/
  transaction : Transaction
  /-- The records of the whole. -/
  globals : GlobalMap
  /-- The records of each input. -/
  inputs : List InputMap
  /-- The records of each output. -/
  outputs : List OutputMap
  deriving DecidableEq

/-- Whether no input has a script or a witness. -/
def Transaction.isUnsigned (tx : Transaction) : Bool :=
  tx.inputs.all fun i => i.scriptSig.isEmpty && i.witness.isEmpty

namespace Psbt

/-- The partially signed transaction that knows nothing beyond its transaction, which has to be
unsigned. -/
def ofTransaction? (tx : Transaction) : Option Psbt :=
  if tx.isUnsigned then
    some ⟨tx, ∅, tx.inputs.map fun _ => ∅, tx.outputs.map fun _ => ∅⟩
  else none

/-! ## Binary form -/

/-- The bytes in front of the maps. -/
def magic : Bytes := [0x70, 0x73, 0x62, 0x74, 0xff]

/-- The record that holds the unsigned transaction, always in the form without witnesses. -/
def transactionRecord (tx : Transaction) : RawRecord :=
  ⟨transactionKind, [], tx.baseBytes⟩

/-- The binary form: the map of the whole, a map for each input, a map for each output. -/
def bytes (p : Psbt) : Bytes :=
  magic ++ RawRecord.writeAll (transactionRecord p.transaction :: p.globals.records) ++
    p.inputs.flatMap RecordMap.write ++ p.outputs.flatMap RecordMap.write

/-- The unsigned transaction among the records of the whole: it occurs once, under a key without
data, and no input has a script. -/
def transaction? (rs : List RawRecord) : Option Transaction :=
  match rs.filter fun r => r.kind == transactionKind with
  | [r] =>
    if r.keyData = [] then
      (Bytes.readAll Transaction.readBase r.value).filter Transaction.isUnsigned
    else none
  | _ => none

/-- Whether the records say, at most once, that the version is 0. -/
def versionIsZero (rs : List RawRecord) : Bool :=
  match rs.filter fun r => r.kind == versionKind with
  | [] => true
  | [r] => r == ⟨versionKind, [], [0, 0, 0, 0]⟩
  | _ => false

/-- Reads the map of the whole, all of which is taken at once. -/
def readGlobals : Reader (Transaction × GlobalMap) := fun bs => do
  let (rs, rest) ← RawRecord.readAll bs
  let tx ← transaction? rs
  let globals ← RecordMap.ofRecords?
    (rs.filter fun r => r.kind != transactionKind && r.kind != versionKind)
  if versionIsZero rs && bs.length ≤ rest.length + CompactSize.maxLength then
    return ((tx, globals), rest)
  else none

/-- Reads a partially signed transaction from the beginning of a byte string. -/
def read : Reader Psbt := fun bs => do
  let (front, bs) ← Bytes.splitExact magic.length bs
  if front = magic then
    let ((tx, globals), bs) ← readGlobals bs
    let (inputs, bs) ← Bytes.readMany RecordMap.read tx.inputs.length bs
    let (outputs, bs) ← Bytes.readMany RecordMap.read tx.outputs.length bs
    return (⟨tx, globals, inputs, outputs⟩, bs)
  else none

/-- The partially signed transaction at the beginning of a byte string. What follows the last map
is not looked at. -/
def ofBytes? (bs : Bytes) : Option Psbt :=
  (read bs).map (·.1)

end Psbt

/-! ## State of the inputs -/

namespace InputMap

/-- Whether the input has a final script or a final witness that is not empty. -/
def isFinal (input : InputMap) : Bool :=
  (input.get? .finalScriptSig).any (fun s => !s.isEmpty) ||
    (input.get? .finalScriptWitness).any (fun w => !w.isEmpty)

/-- The signatures under keys, in the order of the keys. -/
def partialSigs (input : InputMap) : List (PublicKey × TypedSignature) :=
  input.entries.filterMap fun
    | ⟨.partialSig key, sig⟩ => some (key, sig)
    | _ => none

/-- The keys whose source is known, in order. -/
def derivationKeys (input : InputMap) : List Curve.Point :=
  input.entries.filterMap fun
    | ⟨.derivation key, _⟩ => some key
    | _ => none

end InputMap

namespace Psbt

/-- Whether every input is final. -/
def allFinal (p : Psbt) : Bool :=
  p.inputs.all InputMap.isFinal

/-- The output that an input spends. The whole transaction is preferred to the output alone, where
it has an output at the index. -/
def spentOutput? (p : Psbt) (index : Nat) : Option TxOutput := do
  let input ← p.inputs[index]?
  let txInput ← p.transaction.inputs[index]?
  match input.get? .nonWitnessUtxo with
  | some tx => (tx.outputs[txInput.previous.vout.toNat]?).or (input.get? .witnessUtxo)
  | none => input.get? .witnessUtxo

end Psbt

end JointSpend
