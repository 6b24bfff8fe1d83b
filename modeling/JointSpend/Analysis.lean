import JointSpend.Address
import JointSpend.Spend.Finalize

set_option autoImplicit false
set_option relaxedAutoImplicit false

/-!
# Analysis

What the state of a partially signed transaction means to the people who work on it: what each input
lacks, whose turn it is, and what the transaction costs. Amounts are exact or absent.

## Main definitions

* `JointSpend.Analysis` — the result.
* `JointSpend.Psbt.inputStatus` — the state of an input.
* `JointSpend.Psbt.inputTotal`, `JointSpend.Psbt.outputTotal`, `JointSpend.Psbt.fee` — the amounts.
* `JointSpend.Psbt.analyze` — the analysis.
-/

namespace JointSpend

/-- The state of an input. -/
structure InputStatus where
  /-- Its place among the inputs. -/
  index : Nat
  /-- Whether the output is known that it spends. -/
  hasUtxo : Bool
  /-- Whether it is final. -/
  isFinal : Bool
  /-- Whose turn it is, unless it is final. -/
  next : Option Role
  /-- What it lacks. -/
  missing : Option Missing
  deriving DecidableEq

/-- What is shown of an output. -/
structure OutputSummary where
  /-- Its place among the outputs. -/
  index : Nat
  /-- The amount in satoshis. -/
  amount : UInt64
  /-- The script. -/
  script : Script
  /-- The address, if the script has one on the network. -/
  address : Option String
  deriving DecidableEq

/-- What the state of a partially signed transaction means. -/
structure Analysis where
  inputs : List InputStatus
  /-- Whether all inputs are final. -/
  allFinal : Bool
  /-- Whether all inputs are final or can be made so. -/
  allSigned : Bool
  /-- Whose turn it is. -/
  nextRole : Role
  /-- What the inputs have over the outputs, in satoshis. -/
  fee : Option Int
  inputTotal : Option Nat
  outputTotal : Option Nat
  outputs : List OutputSummary
  /-- The virtual size after all inputs are made final. -/
  estimatedSize : Option Nat
  /-- The fee for each unit of virtual size. -/
  estimatedFeeRate : Option Float

namespace Psbt

/-! ## Amounts -/

/-- The sum of amounts, if all are known and the sum fits 64 bits. -/
def exactTotal : List (Option UInt64) → Option Nat :=
  List.foldlM (fun total amount => do
    let amount ← amount
    let total := total + amount.toNat
    if total < UInt64.size then some total else none) 0

/-- The sum of the amounts that the inputs spend. -/
def inputTotal (p : Psbt) : Option Nat :=
  exactTotal ((List.range p.inputs.length).map fun i => (p.spentOutput? i).map (·.value))

/-- The sum of the amounts of the outputs. -/
def outputTotal (p : Psbt) : Option Nat :=
  exactTotal (p.transaction.outputs.map fun o => some o.value)

/-- The least number that is too large for a signed number of 64 bits. -/
def signedLimit : Nat := 0x8000000000000000

/-- What the inputs have over the outputs, which may be negative. Sums of 63 bits are too large to
be compared. -/
def fee (p : Psbt) : Option Int := do
  let inputs ← p.inputTotal
  let outputs ← p.outputTotal
  if inputs < signedLimit ∧ outputs < signedLimit then some (inputs - outputs) else none

/-- A fee divided by a virtual size, in floating point. -/
def feeRate (fee : Int) (size : Nat) : Float :=
  (Int64.ofInt fee).toFloat / (UInt64.ofNat size).toFloat

/-! ## State -/

variable (scheme : SignatureScheme)

/-- The final scripts of an open input, or what it lacks. -/
def outcome (p : Psbt) (index : Nat) (input : InputMap) :
    Option (Except Missing FinalScripts) :=
  if InputMap.isFinal input then none else some (p.finalizeInput scheme index)

/-- The state of an input, given what comes of making it final. -/
def inputStatus (p : Psbt) (index : Nat) :
    Option (Except Missing FinalScripts) → InputStatus
  | none => ⟨index, (p.spentOutput? index).isSome, true, none, none⟩
  | some (.ok _) => ⟨index, (p.spentOutput? index).isSome, false, some .finalizer, none⟩
  | some (.error missing) =>
    ⟨index, (p.spentOutput? index).isSome, false, some missing.role, some missing⟩

/-- The input as it would be after it is made final. -/
def dryRunInput (input : InputMap) : Option (Except Missing FinalScripts) → InputMap
  | some (.ok scripts) => InputMap.applyFinal input scripts
  | _ => input

/-- What is shown of an output. -/
def outputSummary (network : Network) (index : Nat) (output : TxOutput) : OutputSummary :=
  ⟨index, output.value, output.script, Address.ofScript? network output.script⟩

/-- Whose turn it is, given the states of the inputs. -/
def nextRole (statuses : List InputStatus) (allFinal allSigned : Bool) : Role :=
  if statuses.any fun s => !s.hasUtxo then .updater
  else if allFinal then .extractor
  else if allSigned then .finalizer
  else .signer

/-- What the state of a partially signed transaction means. -/
def analyze (p : Psbt) (network : Network) : Analysis :=
  let outcomes := p.inputs.mapIdx fun index input => (input, p.outcome scheme index input)
  let statuses := outcomes.mapIdx fun index o => p.inputStatus index o.2
  let allFinal := statuses.all (·.isFinal)
  let allSigned := statuses.all fun s => s.isFinal || s.next == some .finalizer
  let dryRun : Psbt := { p with inputs := outcomes.map fun o => dryRunInput o.1 o.2 }
  let fee := p.fee
  let size :=
    if fee.isSome && allSigned then dryRun.extract.toOption.map Transaction.virtualSize else none
  { inputs := statuses
    allFinal
    allSigned
    nextRole := nextRole statuses allFinal allSigned
    fee
    inputTotal := p.inputTotal
    outputTotal := p.outputTotal
    outputs := p.transaction.outputs.mapIdx (outputSummary network)
    estimatedSize := size
    estimatedFeeRate := do
      let fee ← fee
      let size ← size
      if 0 < size then some (feeRate fee size) else none }

end Psbt

end JointSpend
