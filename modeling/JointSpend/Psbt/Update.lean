import JointSpend.Fault

set_option autoImplicit false
set_option relaxedAutoImplicit false

/-!
# Adding what is known

Whoever knows more about an input records it there. An input that is final is not touched any more.

## Main definitions

* `JointSpend.Psbt.create` — the beginning of a joint spend.
* `JointSpend.Psbt.record`, `JointSpend.Psbt.recordOption` — sets a record of an open input.
* `JointSpend.Psbt.setWitnessUtxo`, `JointSpend.Psbt.setNonWitnessUtxo`,
  `JointSpend.Psbt.setRedeemScript`, `JointSpend.Psbt.setWitnessScript`,
  `JointSpend.Psbt.addDerivation` — the records that are set in this way.
-/

namespace JointSpend.Psbt

/-- The partially signed transaction for an unsigned transaction. -/
def create (tx : Transaction) : Except Fault Psbt :=
  match ofTransaction? tx with
  | some p => .ok p
  | none => .error (.input .notUnsigned)

/-- Sets a record of an input that exists and is not final. -/
def record (p : Psbt) (index : Nat) (key : InputKey) (value : key.Value) : Except Fault Psbt :=
  match p.inputs[index]? with
  | none => .error (.noSuchInput index p.inputs.length)
  | some input =>
    if InputMap.isFinal input then .error (.inputFinal index)
    else .ok { p with inputs := p.inputs.set index (input.insert key value) }

/-- Sets a record of an input that exists and is not final, if there is a value for it. -/
def recordOption (p : Psbt) (index : Nat) (key : InputKey) :
    Option key.Value → Except Fault Psbt
  | none => .ok p
  | some value => p.record index key value

/-- Records the output that an input spends. -/
def setWitnessUtxo (p : Psbt) (index : Nat) (output : TxOutput) : Except Fault Psbt :=
  p.record index .witnessUtxo output

/-- Records the whole transaction whose output an input spends. It has to be the transaction that
the input refers to, and to have the output. -/
def setNonWitnessUtxo (p : Psbt) (index : Nat) (tx : Transaction) : Except Fault Psbt :=
  match p.transaction.inputs[index]? with
  | none => .error (.noSuchInput index p.inputs.length)
  | some txInput =>
    let previous := txInput.previous
    if tx.id ≠ previous.txid then
      .error (.input (.wrongPreviousTransaction tx.id index previous.txid))
    else if tx.outputs.length ≤ previous.vout.toNat then
      .error (.input (.noPreviousOutput previous.vout tx.outputs.length))
    else p.record index .nonWitnessUtxo tx

/-- Records the script behind a script hash. -/
def setRedeemScript (p : Psbt) (index : Nat) (script : Script) : Except Fault Psbt :=
  p.record index .redeemScript script

/-- Records the script behind a witness script hash. -/
def setWitnessScript (p : Psbt) (index : Nat) (script : Script) : Except Fault Psbt :=
  p.record index .witnessScript script

/-- Records the source of a key. -/
def addDerivation (p : Psbt) (index : Nat) (key : Curve.Point) (source : KeySource) :
    Except Fault Psbt :=
  p.record index (.derivation key) source

end JointSpend.Psbt
