import JointSpend.Funding.Plan
import JointSpend.Json.Record
import JointSpend.Text.Quoted

set_option autoImplicit false
set_option relaxedAutoImplicit false

/-!
# Plans and key files in JSON

## Main definitions

* `JointSpend.SpendPlan.ofJson?` — the plan that a JSON value describes.
* `JointSpend.KeyFile.ofJson?` — the key file that a JSON value describes.
* `JointSpend.KeyFile.redacted` — a key file as it is shown, without the keys.
-/

namespace JointSpend

open Json (required optional)

/-- The output to spend that a JSON value describes. -/
def PlannedUtxo.ofJson? (v : Json) : Option PlannedUtxo := do
  match ← v.fields? ["txid", "vout", "scriptPubKeyHex", "valueSats", "previousTxHex",
    "redeemScriptHex", "witnessScriptHex", "sequence"] with
  | [txid, vout, script, value, previousTx, redeemScript, witnessScript, sequence] =>
    return {
      txid := ← required Json.text? txid
      vout := ← required Json.uint32? vout
      scriptPubKeyHex := ← required Json.text? script
      valueSats := ← required Json.uint64? value
      previousTxHex := ← optional Json.text? previousTx
      redeemScriptHex := ← optional Json.text? redeemScript
      witnessScriptHex := ← optional Json.text? witnessScript
      sequence := ← optional Json.uint32? sequence }
  | _ => none

/-- The recipient that a JSON value describes. -/
def PlannedOutput.ofJson? (v : Json) : Option PlannedOutput := do
  match ← v.fields? ["address", "valueSats"] with
  | [address, value] =>
    return {
      address := ← required Json.text? address
      valueSats := ← required Json.uint64? value }
  | _ => none

/-- The plan that a JSON value describes. -/
def SpendPlan.ofJson? (v : Json) : Option SpendPlan := do
  match ← v.fields? ["network", "utxos", "outputs", "feeRateSatsPerVb", "changeAddress",
    "defaultSequence"] with
  | [network, utxos, outputs, feeRate, changeAddress, defaultSequence] =>
    return {
      network := ← required Json.text? network
      utxos := ← required (Json.list? PlannedUtxo.ofJson?) utxos
      outputs := ← required (Json.list? PlannedOutput.ofJson?) outputs
      feeRateSatsPerVb := ← required Json.uint64? feeRate
      changeAddress := ← required Json.text? changeAddress
      defaultSequence := ← optional Json.uint32? defaultSequence }
  | _ => none

/-- The key file that a JSON value describes. -/
def KeyFile.ofJson? (v : Json) : Option KeyFile := do
  match ← v.fields? ["network", "privateKeysWif"] with
  | [network, privateKeys] =>
    return {
      network := ← required Json.text? network
      privateKeys := ← required (Json.list? Json.text?) privateKeys }
  | _ => none

/-- A key file as it is shown: the number of keys stands for the keys. -/
def KeyFile.redacted (file : KeyFile) : String :=
  "KeyStoreConfig \x7b network: " ++ Text.Quoted.string file.network ++ ", private_keys_wif: <" ++
    toString file.privateKeys.length ++ " 件> \x7d"

end JointSpend
