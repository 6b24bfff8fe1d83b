import JointSpend.Fault
import JointSpend.Spend.Sighash

set_option autoImplicit false
set_option relaxedAutoImplicit false

/-!
# Final scripts

From the signatures that were collected for an input follow the script and the witness that satisfy
it. Every signature is checked before it is used. Once an input is final, what was needed for
signing is dropped and the input does not change any more.

## Main definitions

* `JointSpend.FinalScripts` — what satisfies an input.
* `JointSpend.Psbt.finalizeInput` — the final scripts of an input, or what is missing.
* `JointSpend.Psbt.finalize` — makes all inputs final that can be.
* `JointSpend.Psbt.isComplete` — whether all inputs are final or can be made so.
* `JointSpend.Psbt.extract` — the transaction with its final scripts.
-/

namespace JointSpend

/-- What satisfies an input. -/
structure FinalScripts where
  scriptSig : Script
  witness : List Bytes
  deriving DecidableEq

namespace FinalScripts

/-- The scripts that hand the given stack to the script of a path. The scripts behind hashes come
last. -/
def ofStack? (path : SpendPath) (stack : List Bytes) : Option FinalScripts :=
  let redeem := path.redeemScript.toList.map (·.bytes)
  match path.version with
  | .base => (Script.pushAll? (stack ++ redeem)).map fun scriptSig => ⟨scriptSig, []⟩
  | _ =>
    (Script.pushAll? redeem).map fun scriptSig =>
      ⟨scriptSig, stack ++ path.witnessScript.toList.map (·.bytes)⟩

end FinalScripts

/-- Whether a record stays with an input that becomes final, and is united whether inputs are final
or not: what is known about the spent output, and records of other applications. -/
def InputKey.isRetained : InputKey → Bool
  | nonWitnessUtxo => true
  | witnessUtxo => true
  | proprietary _ => true
  | foreign _ => true
  | _ => false

/-- The input with final scripts, an empty one left off. Only retained records stay. -/
def InputMap.applyFinal (input : InputMap) (scripts : FinalScripts) : InputMap :=
  ((input.filter InputKey.isRetained).set .finalScriptSig
      (if scripts.scriptSig.isEmpty then none else some scripts.scriptSig)).set
    .finalScriptWitness (if scripts.witness.isEmpty then none else some scripts.witness)

namespace Psbt

variable (scheme : SignatureScheme)

/-! ## Checking signatures -/

/-- Whether an ECDSA signature under a key is valid for an input. -/
def verifies (p : Psbt) (index : Nat) (path : SpendPath) (key : PublicKey)
    (sig : TypedSignature) : Bool :=
  match p.ecdsaDigest index path sig.sighash with
  | .ok digest => scheme.ecdsaVerify key.point digest sig.signature
  | .error _ => false

/-- Whether a taproot signature is valid for an input with the output key. -/
def verifiesTaproot (p : Psbt) (index : Nat) (outputKey : Curve.XOnly)
    (sig : TaprootSignature) : Bool :=
  match p.taprootDigest index sig.sighash with
  | .ok digest => scheme.schnorrVerify outputKey digest sig.signature
  | .error _ => false

/-- The signature that is recorded under a key, if it is valid. -/
def validSignature? (p : Psbt) (index : Nat) (input : InputMap) (path : SpendPath)
    (key : PublicKey) : Option TypedSignature :=
  (input.get? (.partialSig key)).filter fun sig => p.verifies scheme index path key sig

/-! ## Satisfying a template -/

/-- The stack for a key hash: the first recorded key, in the order of keys, that has the hash, is
accepted on the path and has a valid signature. -/
def pubkeyHashStack (p : Psbt) (index : Nat) (input : InputMap) (path : SpendPath)
    (hash : Fixed 20) : Except Missing (List Bytes) :=
  let found := input.partialSigs.find? fun (key, sig) =>
    Script.hashMatches hash key && path.accepts key && p.verifies scheme index path key sig
  match found with
  | some (key, sig) => .ok [sig.bytes, key.bytes]
  | none =>
    let keys := (input.derivationKeys.map fun point => (⟨point, true⟩ : PublicKey)).filter
      (Script.hashMatches hash)
    .error (.signatures keys 1)

/-- The stack for a single key. -/
def pubkeyStack (p : Psbt) (index : Nat) (input : InputMap) (path : SpendPath)
    (key : PublicKey) : Except Missing (List Bytes) :=
  match p.validSignature? scheme index input path key with
  | some sig => .ok [sig.bytes]
  | none => .error (.signatures [key] 1)

/-- The stack for a threshold of keys: an empty element, then valid signatures in the order of the
keys, no more than the threshold asks for. -/
def multisigStack (p : Psbt) (index : Nat) (input : InputMap) (path : SpendPath)
    (threshold : Nat) (keys : List PublicKey) : Except Missing (List Bytes) :=
  let checked := keys.map fun key => (key, p.validSignature? scheme index input path key)
  let sigs := (checked.filterMap (·.2)).take threshold
  if sigs.length < threshold then
    let unsigned := (checked.filter (·.2.isNone)).map (·.1)
    .error (.signatures unsigned (threshold - sigs.length))
  else .ok ([] :: sigs.map (·.bytes))

/-- The stack for an output key. -/
def taprootStack (p : Psbt) (index : Nat) (input : InputMap) (outputKey : Curve.XOnly) :
    Except Missing (List Bytes) :=
  match (input.get? .tapKeySig).filter (p.verifiesTaproot scheme index outputKey) with
  | some sig => .ok [sig.bytes]
  | none => .error (.signatures [] 1)

/-- The stack that satisfies a template. -/
def templateStack (p : Psbt) (index : Nat) (input : InputMap) (path : SpendPath) :
    Template → Except Missing (List Bytes)
  | .pubkeyHash hash => p.pubkeyHashStack scheme index input path hash
  | .pubkey key => p.pubkeyStack scheme index input path key
  | .multisig threshold keys => p.multisigStack scheme index input path threshold keys
  | .taprootKey outputKey => p.taprootStack scheme index input outputKey

/-! ## Final inputs -/

/-- The final scripts of an input, or what is missing. -/
def finalizeInput (p : Psbt) (index : Nat) : Except Missing FinalScripts := do
  let path ← p.spendPath index
  match path.template?, p.inputs[index]? with
  | some template, some input =>
    let stack ← p.templateStack scheme index input path template
    match FinalScripts.ofStack? path stack with
    | some scripts => return scripts
    | none => throw (.unsupportedScript path.script)
  | _, _ => throw (.unsupportedScript path.script)

/-- Makes an input final if it is open and can be. -/
def finalizeStep (p : Psbt) (index : Nat) : Psbt :=
  match p.inputs[index]? with
  | none => p
  | some input =>
    if InputMap.isFinal input then p
    else
      match p.finalizeInput scheme index with
      | .ok scripts => { p with inputs := p.inputs.set index (InputMap.applyFinal input scripts) }
      | .error _ => p

/-- Makes all inputs final that can be. Inputs that are final are left alone. -/
def finalize (p : Psbt) : Psbt :=
  (List.range p.inputs.length).foldl (finalizeStep scheme) p

/-- Whether an input is final or can be made so. -/
def inputComplete (p : Psbt) (index : Nat) : Bool :=
  (p.inputs[index]?).any InputMap.isFinal || (p.finalizeInput scheme index).toBool

/-- Whether all inputs are final or can be made so. -/
def isComplete (p : Psbt) : Bool :=
  (List.range p.inputs.length).all (p.inputComplete scheme)

/-! ## The transaction -/

/-- The inputs of the transaction with their final scripts, from the given index on. -/
def extractInputs : Nat → List TxInput → List InputMap → Except Fault (List TxInput)
  | _, [], _ => .ok []
  | _, txInputs, [] => .ok txInputs
  | index, txInput :: txInputs, input :: inputs => do
    if InputMap.isFinal input then
      let rest ← extractInputs (index + 1) txInputs inputs
      return ⟨txInput.previous, (input.get? .finalScriptSig).getD .empty, txInput.sequence,
        (input.get? .finalScriptWitness).getD []⟩ :: rest
    else throw (.inputNotFinal index)

/-- The transaction with its final scripts. Every input has to be final. -/
def extract (p : Psbt) : Except Fault Transaction := do
  let inputs ← extractInputs 0 p.transaction.inputs p.inputs
  return { p.transaction with inputs := inputs }

end Psbt

end JointSpend
