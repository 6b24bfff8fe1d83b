import JointSpend.Address
import JointSpend.Funding.Coin

set_option autoImplicit false
set_option relaxedAutoImplicit false

/-!
# Carrying out a plan

From a plan follow the inputs, the recipients' outputs, the fee for the estimated size, and the
change. Sums are exact: a sum that does not fit 64 bits is refused.

## Main definitions

* `JointSpend.SpendPlan.coins` — the checked outputs to spend and their total.
* `JointSpend.SpendPlan.recipients` — the recipients' outputs and their total.
* `JointSpend.SpendPlan.create` — the partially signed transaction of a plan.
* `JointSpend.dustThreshold` — the least change that is worth an output.
-/

namespace JointSpend

/-- The least change that is worth an output. -/
def dustThreshold : Nat := 546

namespace SpendPlan

/-- Checks items one by one and adds their amounts to a total that has to fit 64 bits. -/
def collect {α β : Type} (check : α → Except Fault β) (amount : α → UInt64)
    (tooLarge : InputFault) : List α → Nat → Except Fault (List β × Nat)
  | [], total => .ok ([], total)
  | a :: as, total => do
    let b ← check a
    let total := total + (amount a).toNat
    if UInt64.size ≤ total then throw (.input tooLarge)
    let (bs, total) ← collect check amount tooLarge as total
    return (b :: bs, total)

/-- The checked outputs to spend and their total. -/
def coins (plan : SpendPlan) : Except Fault (List Coin × Nat) :=
  collect (Coin.ofPlanned plan.defaultSequence) (·.valueSats) .inputTotalTooLarge plan.utxos 0

/-- The output for a recipient. -/
def recipient (network : Network) (o : PlannedOutput) : Except Fault TxOutput :=
  match Address.script? network o.address with
  | some script => .ok ⟨o.valueSats, script⟩
  | none => .error (.input (.badRecipient o.address))

/-- The recipients' outputs and their total. -/
def recipients (plan : SpendPlan) (network : Network) : Except Fault (List TxOutput × Nat) :=
  collect (recipient network) (·.valueSats) .outputTotalTooLarge plan.outputs 0

/-- The inputs that spend coins, with scripts as large as they will be. -/
def sizedInputs (coins : List Coin) : Except Fault (List TxInput) :=
  coins.mapM fun coin => do return coin.txInput (← coin.placeholder)

/-- A transaction of the version that is used here, without a lock time. -/
def transaction (inputs : List TxInput) (outputs : List TxOutput) : Transaction :=
  ⟨2, 0, inputs, outputs⟩

/-- The virtual size of the signed transaction with a change output, estimated with placeholders for
keys and signatures. -/
def estimatedSize (coins : List Coin) (recipients : List TxOutput) (change : Script) :
    Except Fault Nat := do
  let inputs ← sizedInputs coins
  return (transaction inputs (recipients ++ [⟨0, change⟩])).virtualSize

/-- The change output for what is left over, unless it is not worth one. -/
def changeOutputs (change : Script) (rest : Nat) : List TxOutput :=
  if dustThreshold ≤ rest then [⟨UInt64.ofNat rest, change⟩] else []

/-- The unsigned transaction that spends coins. -/
def unsigned (coins : List Coin) (outputs : List TxOutput) : Transaction :=
  transaction (coins.map fun coin => coin.txInput ⟨.empty, []⟩) outputs

/-- Records for one input after another, from the given index on, what is known of its coin. -/
def attachFrom : Nat → List Coin → Psbt → Except Fault Psbt
  | _, [], p => .ok p
  | index, coin :: coins, p => do
    let p ← coin.attach index p
    attachFrom (index + 1) coins p

/-- The partially signed transaction that spends coins. -/
def assemble (coins : List Coin) (outputs : List TxOutput) : Except Fault Psbt := do
  let p ← Psbt.create (unsigned coins outputs)
  attachFrom 0 coins p

/-- The partially signed transaction of a plan for the chosen network. -/
def create (plan : SpendPlan) (network : Network) : Except Fault Psbt := do
  let planned ← Network.parse plan.network
  if planned ≠ network then throw (.wrongNetwork network planned.title)
  let (coins, available) ← plan.coins
  if coins.isEmpty then throw (.input .noUtxos)
  let (recipients, paid) ← plan.recipients network
  let change ←
    match Address.script? network plan.changeAddress with
    | some script => pure script
    | none => throw (.badChangeAddress plan.changeAddress)
  let size ← estimatedSize coins recipients change
  let fee := size * plan.feeRateSatsPerVb.toNat
  if UInt64.size ≤ fee then throw (.input .feeTooLarge)
  let required := paid + fee
  if UInt64.size ≤ required then throw (.input .requiredTooLarge)
  if available < required then throw (.insufficientFunds available required fee)
  assemble coins (recipients ++ changeOutputs change (available - required))

end SpendPlan

end JointSpend
