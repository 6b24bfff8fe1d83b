import JointSpend.Psbt.Basic
import JointSpend.Script.Template

set_option autoImplicit false
set_option relaxedAutoImplicit false

/-!
# Spending paths

How an input can be spent follows from the output it spends and the scripts that are recorded for
it. Where something is missing, the answer says what, and whose task it is to supply it.

## Main definitions

* `JointSpend.Role` — the tasks in a joint spend.
* `JointSpend.Missing` — what an input lacks.
* `JointSpend.SpendPath` — how an input is spent.
* `JointSpend.Psbt.spendPath` — the spending path of an input.
* `JointSpend.SpendPath.template?`, `JointSpend.SpendPath.accepts` — what the path asks for.
-/

namespace JointSpend

/-- The tasks in a joint spend. -/
inductive Role where
  | updater
  | signer
  | finalizer
  | extractor
  deriving DecidableEq

/-- What an input lacks. -/
inductive Missing where
  /-- The output that it spends. -/
  | utxo
  /-- The script behind the script hash. -/
  | redeemScript
  /-- The script behind the witness script hash. -/
  | witnessScript
  /-- Signatures: the keys that have not signed, as far as they are known, and how many more are
  needed. -/
  | signatures (keys : List PublicKey) (needed : Nat)
  /-- A form of script that can be signed for. -/
  | unsupportedScript (script : Script)
  /-- Everything: there is no such input. -/
  | noSuchInput (count : Nat)
  deriving DecidableEq

/-- Whose task it is to supply what is missing. -/
def Missing.role : Missing → Role
  | signatures _ _ => .signer
  | _ => .updater

/-- The rules for the digest that is signed. -/
inductive SigVersion where
  | base
  | witnessV0
  | taproot
  deriving DecidableEq

/-- How an input is spent. -/
structure SpendPath where
  /-- The output that is spent. -/
  output : TxOutput
  /-- The rules for the digest. -/
  version : SigVersion
  /-- The script that is satisfied and signed. -/
  script : Script
  /-- The script behind the script hash, which is pushed last in the input script. -/
  redeemScript : Option Script
  /-- The script behind the witness script hash, which ends the witness. -/
  witnessScript : Option Script
  deriving DecidableEq

namespace SpendPath

/-- The path below an output script or a redeem script, which is called `inner`. -/
def below (input : InputMap) (output : TxOutput) (inner : Script) (redeem : Option Script) :
    Except Missing SpendPath :=
  if inner.matchesPattern Script.p2wpkh then .ok ⟨output, .witnessV0, inner, redeem, none⟩
  else if inner.matchesPattern Script.p2wsh then
    match input.get? .witnessScript with
    | some witnessScript =>
      if witnessScript.witnessOutput = inner then
        .ok ⟨output, .witnessV0, witnessScript, redeem, some witnessScript⟩
      else .error .witnessScript
    | none => .error .witnessScript
  else if inner.matchesPattern Script.p2tr then
    if redeem.isSome then .error (.unsupportedScript output.script)
    else .ok ⟨output, .taproot, inner, none, none⟩
  else .ok ⟨output, .base, inner, redeem, none⟩

/-- What the path asks for, if its script has a known form. -/
def template? (path : SpendPath) : Option Template :=
  match path.version with
  | .taproot => (Curve.XOnly.ofBytes? ((path.script.bytes.drop 2).take 32)).map .taprootKey
  | _ => path.script.template?

/-- Whether a key can be used on the path: the witness takes keys in the short form only. -/
def accepts (path : SpendPath) (key : PublicKey) : Bool :=
  path.version != .witnessV0 || key.compressed

end SpendPath

/-- The spending path of an input. Scripts that do not have the hash they should are treated as
missing. -/
def Psbt.spendPath (p : Psbt) (index : Nat) : Except Missing SpendPath :=
  match p.inputs[index]? with
  | none => .error (.noSuchInput p.inputs.length)
  | some input =>
    match p.spentOutput? index with
    | none => .error .utxo
    | some output =>
      if output.script.matchesPattern Script.p2sh then
        match input.get? .redeemScript with
        | some redeem =>
          if redeem.hashOutput = output.script then
            SpendPath.below input output redeem (some redeem)
          else .error .redeemScript
        | none => .error .redeemScript
      else SpendPath.below input output output.script none

end JointSpend
