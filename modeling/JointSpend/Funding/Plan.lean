set_option autoImplicit false
set_option relaxedAutoImplicit false

/-!
# Plans of a joint spend

What somebody who starts a joint spend writes down: the outputs to spend, the recipients, the fee
rate and where the change goes. Texts are kept as they were written; they are checked when the plan
is carried out.

## Main definitions

* `JointSpend.PlannedUtxo`, `JointSpend.PlannedOutput`, `JointSpend.SpendPlan`.
* `JointSpend.KeyFile` — the private keys of a signer.
-/

namespace JointSpend

/-- An output to spend. -/
structure PlannedUtxo where
  /-- The identifier of its transaction. -/
  txid : String
  /-- Its index in the transaction. -/
  vout : UInt32
  /-- Its script in hexadecimal. -/
  scriptPubKeyHex : String
  /-- Its amount. -/
  valueSats : UInt64
  /-- Its transaction in hexadecimal. -/
  previousTxHex : Option String
  /-- The script behind its script hash in hexadecimal. -/
  redeemScriptHex : Option String
  /-- The script behind its witness script hash in hexadecimal. -/
  witnessScriptHex : Option String
  /-- The sequence number of the input. -/
  sequence : Option UInt32
  deriving DecidableEq

/-- A recipient. -/
structure PlannedOutput where
  /-- The address that is paid. -/
  address : String
  /-- The amount. -/
  valueSats : UInt64
  deriving DecidableEq

/-- A plan of a joint spend. -/
structure SpendPlan where
  /-- The name of the network. -/
  network : String
  /-- The outputs to spend. -/
  utxos : List PlannedUtxo
  /-- The recipients. -/
  outputs : List PlannedOutput
  /-- The fee for each unit of virtual size. -/
  feeRateSatsPerVb : UInt64
  /-- The address that the change goes to. -/
  changeAddress : String
  /-- The sequence number of inputs that say none. -/
  defaultSequence : Option UInt32
  deriving DecidableEq

/-- The private keys of a signer. -/
structure KeyFile where
  /-- The name of the network. -/
  network : String
  /-- The texts of the private keys. -/
  privateKeys : List String
  deriving DecidableEq

end JointSpend
