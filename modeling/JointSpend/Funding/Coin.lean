import JointSpend.Funding.Plan
import JointSpend.Psbt.Update
import JointSpend.Spend.Finalize

set_option autoImplicit false
set_option relaxedAutoImplicit false

/-!
# Coins

A coin is an output to spend whose description has been checked: the scripts behind hashes are
given and have the hashes, and the previous transaction, if given, holds the output.

## Main definitions

* `JointSpend.Script.outputType` — the standard outputs that can be spent.
* `JointSpend.Coin` — a checked output to spend.
* `JointSpend.Coin.ofPlanned` — checks the description of an output.
* `JointSpend.Coin.attach` — records what is known for the input that spends the coin.
* `JointSpend.Coin.placeholder` — scripts as large as those that will satisfy the input.
-/

namespace JointSpend

/-- The standard outputs that can be spent. -/
inductive OutputType where
  | p2pkh
  | p2wpkh
  | p2sh
  | p2wsh
  | p2tr
  deriving DecidableEq

/-- The name of a standard output. -/
def OutputType.title : OutputType → String
  | p2pkh => "P2PKH"
  | p2wpkh => "P2WPKH"
  | p2sh => "P2SH"
  | p2wsh => "P2WSH"
  | p2tr => "P2TR"

/-- The standard output that a script is. -/
def Script.outputType (s : Script) : Except Fault OutputType :=
  if s.matchesPattern p2pkh then .ok .p2pkh
  else if s.matchesPattern p2wpkh then .ok .p2wpkh
  else if s.matchesPattern p2sh then .ok .p2sh
  else if s.matchesPattern p2wsh then .ok .p2wsh
  else if s.matchesPattern p2tr then .ok .p2tr
  else .error (.unknownScript s)

/-- A checked output to spend. -/
structure Coin where
  /-- Where the output is. -/
  outPoint : OutPoint
  /-- The output itself. -/
  output : TxOutput
  /-- Which standard output it is. -/
  type : OutputType
  /-- The sequence number of the input. -/
  sequence : UInt32
  /-- The transaction that holds the output. -/
  previous : Option Transaction
  /-- The script behind the script hash, if one is given. -/
  redeemScript : Option Script
  /-- The script behind the witness script hash, if one is given. -/
  witnessScript : Option Script
  deriving DecidableEq

namespace Coin

/-! ## Checking a description -/

/-- The bytes of a field in hexadecimal. -/
def decodeHex (field : HexField) (text : String) : Except Fault Bytes :=
  match Text.Hex.decode text with
  | .ok bs => .ok bs
  | .error fault => .error (.input (.badHex field fault))

/-- The script of a field in hexadecimal. -/
def decodeScript (field : HexField) (text : String) : Except Fault Script := do
  return ⟨← decodeHex field text⟩

/-- The script of a field that may be left out. -/
def decodeOptional (field : HexField) : Option String → Except Fault (Option Script)
  | none => .ok none
  | some text => do return some (← decodeScript field text)

/-- The script that may name a witness script: the output's own if it pays to a witness script hash,
the redeem script if it pays to a script hash. A redeem script has to be given there and to have the
hash. -/
def program? (outPoint : OutPoint) (output : TxOutput) (redeem : Option Script) :
    OutputType → Except Fault (Option Script)
  | .p2sh =>
    match redeem with
    | none => .error (.input (.noRedeemScript outPoint))
    | some redeem =>
      if redeem.hashOutput ≠ output.script then .error (.input (.wrongRedeemScript outPoint))
      else .ok (some redeem)
  | .p2wsh => .ok (some output.script)
  | _ => .ok none

/-- Behind a witness script hash, a witness script has to be given and to have the hash. -/
def checkWitnessScript (outPoint : OutPoint) (program given : Option Script) : Except Fault Unit :=
  match program.filter (·.matchesPattern Script.p2wsh) with
  | none => .ok ()
  | some program =>
    match given with
    | none => .error (.input (.noWitnessScript outPoint))
    | some script =>
      if script.witnessOutput ≠ program then .error (.input (.wrongWitnessScript outPoint))
      else .ok ()

/-- The previous transaction, which has to have the identifier and to hold the output. -/
def checkedPrevious (outPoint : OutPoint) (output : TxOutput) :
    Option String → Except Fault (Option Transaction)
  | none => .ok none
  | some text => do
    let bs ← decodeHex .previousTransaction text
    match Transaction.ofBytes? bs with
    | none => throw .malformedTransaction
    | some tx =>
      if tx.id ≠ outPoint.txid then throw (.input (.previousIdDiffers tx.id outPoint.txid))
      else if tx.outputs[outPoint.vout.toNat]? ≠ some output then
        throw (.input (.previousOutputDiffers outPoint.vout))
      else return some tx

/-- The sequence number that leaves an input as it is. -/
def finalSequence : UInt32 := 0xffffffff

/-- Checks the description of an output to spend. -/
def ofPlanned (defaultSequence : Option UInt32) (utxo : PlannedUtxo) : Except Fault Coin := do
  let txid ←
    match TxId.ofText? utxo.txid with
    | some txid => pure txid
    | none => throw (.input (.badTxId utxo.txid))
  let outPoint : OutPoint := ⟨txid, utxo.vout⟩
  let script ← decodeScript .scriptPubKey utxo.scriptPubKeyHex
  let type ← script.outputType
  let output : TxOutput := ⟨utxo.valueSats, script⟩
  let redeem ← decodeOptional .redeemScript utxo.redeemScriptHex
  let witnessScript ← decodeOptional .witnessScript utxo.witnessScriptHex
  let program ← program? outPoint output redeem type
  checkWitnessScript outPoint program witnessScript
  let previous ← checkedPrevious outPoint output utxo.previousTxHex
  let sequence := (utxo.sequence.or defaultSequence).getD finalSequence
  return ⟨outPoint, output, type, sequence, previous, redeem, witnessScript⟩

/-! ## Inputs -/

/-- Whether the output alone is recorded even though its whole transaction is: it is when the input
is spent in the witness. -/
def isWitnessSpend (coin : Coin) : Bool :=
  match coin.type with
  | .p2pkh => false
  | .p2sh => coin.redeemScript.any fun redeem => redeem.witnessProgram?.isSome
  | _ => true

/-- Records what the input at an index spends. -/
def attachOutput (coin : Coin) (index : Nat) (p : Psbt) : Except Fault Psbt :=
  match coin.previous with
  | none => p.setWitnessUtxo index coin.output
  | some tx => do
    let p ← p.setNonWitnessUtxo index tx
    if coin.isWitnessSpend then p.setWitnessUtxo index coin.output else return p

/-- Records what is known for the input at an index, which spends the coin. -/
def attach (coin : Coin) (index : Nat) (p : Psbt) : Except Fault Psbt := do
  let p ← coin.attachOutput index p
  let p ← p.recordOption index .redeemScript coin.redeemScript
  p.recordOption index .witnessScript coin.witnessScript

/-- The input that spends the coin, with the given scripts. -/
def txInput (coin : Coin) (scripts : FinalScripts) : TxInput :=
  ⟨coin.outPoint, scripts.scriptSig, coin.sequence, scripts.witness⟩

/-! ## Sizes -/

/-- A byte string as long as an ECDSA signature gets with its sighash type. -/
def signaturePlaceholder : Bytes := List.replicate 72 0

/-- A byte string as long as a public key in the short form. -/
def keyPlaceholder : Bytes := List.replicate 33 0

/-- A byte string as long as a taproot signature with the default sighash type. -/
def taprootPlaceholder : Bytes := List.replicate 64 0

/-- A stack as large as the one that satisfies a script. For a script of unknown form one signature
is assumed. -/
def placeholderStack (script : Script) : List Bytes :=
  match script.template? with
  | some (.pubkey _) => [signaturePlaceholder]
  | some (.multisig threshold _) => [] :: List.replicate threshold signaturePlaceholder
  | some _ => [signaturePlaceholder, keyPlaceholder]
  | none => [signaturePlaceholder]

/-- The script that pushes the items of a stack. -/
def pushItems (items : List Bytes) : Except Fault Script :=
  match Script.pushAll? items with
  | some script => .ok script
  | none => .error (.internal .unpushableScript)

/-- The script behind the witness script hash, which was checked. -/
def requiredWitnessScript (coin : Coin) : Except Fault Script :=
  match coin.witnessScript with
  | some script => .ok script
  | none => .error (.internal (.witnessScriptLost coin.outPoint))

/-- The script behind the script hash, which was checked. -/
def requiredRedeemScript (coin : Coin) : Except Fault Script :=
  match coin.redeemScript with
  | some redeem => .ok redeem
  | none => .error (.internal (.redeemScriptLost coin.outPoint))

/-- Scripts as large as those that will satisfy the input. -/
def placeholder (coin : Coin) : Except Fault FinalScripts :=
  match coin.type with
  | .p2pkh => do return ⟨← pushItems (placeholderStack coin.output.script), []⟩
  | .p2wpkh => return ⟨.empty, placeholderStack coin.output.script⟩
  | .p2tr => return ⟨.empty, [taprootPlaceholder]⟩
  | .p2wsh => do
    let script ← coin.requiredWitnessScript
    return ⟨.empty, placeholderStack script ++ [script.bytes]⟩
  | .p2sh => do
    let redeem ← coin.requiredRedeemScript
    if redeem.matchesPattern Script.p2wpkh then
      return ⟨← pushItems [redeem.bytes], placeholderStack redeem⟩
    else if redeem.matchesPattern Script.p2wsh then do
      let script ← coin.requiredWitnessScript
      return ⟨← pushItems [redeem.bytes], placeholderStack script ++ [script.bytes]⟩
    else return ⟨← pushItems (placeholderStack redeem ++ [redeem.bytes]), []⟩

end Coin

end JointSpend
