import JointSpend.InPlace
import JointSpend.Psbt.Merge

set_option autoImplicit false
set_option relaxedAutoImplicit false

/-!
# Signing through a signer

A signer is a function that adds signatures to a working copy. It is not trusted: only what it put
at free places of open inputs is taken over from its copy. It is taken over to a staged copy, which
takes the place of the copy that was to be signed when nothing can fail any more.

## Main definitions

* `JointSpend.SignOptions`, `JointSpend.SignScope` — what is to be signed, and how.
* `JointSpend.Signer` — a signer.
* `JointSpend.Signing` — the copy that is being signed, and what the signer was asked.
* `JointSpend.Psbt.signInPlace` — has a partially signed transaction signed in place.
* `JointSpend.Psbt.sign` — the signed copy.
-/

namespace JointSpend

/-- The inputs that are to be signed. -/
inductive SignScope where
  /-- All inputs. -/
  | all
  /-- The inputs at the given indexes. -/
  | only (indexes : List Nat)
  deriving DecidableEq

namespace SignScope

/-- Whether an input is to be signed. -/
def contains : SignScope → Nat → Bool
  | all, _ => true
  | only indexes, index => indexes.contains index

/-- The least index that is not below the number of inputs. -/
def firstBeyond? (count : Nat) : SignScope → Option Nat
  | all => none
  | only indexes => (indexes.filter fun i => count ≤ i).min?

end SignScope

/-- What is to be signed, and how. -/
structure SignOptions where
  /-- The sighash type for inputs that ask for none. -/
  sighash : SighashType
  /-- Whether inputs are made final afterwards. -/
  finalize : Bool
  /-- Whether signatures are kept that do not suffice to make their input final. -/
  allowPartial : Bool
  /-- The inputs that are to be signed. -/
  scope : SignScope
  deriving DecidableEq

/-- All inputs, with signatures for everything, all of which are kept. -/
def SignOptions.default : SignOptions := ⟨.all, false, true, .all⟩

/-- A signer hands back the working copy with signatures added, or fails. -/
abbrev Signer := Psbt → SignOptions → Except Fault Psbt

/-- Whether a record says where a key comes from. -/
def InputKey.isOrigin : InputKey → Bool
  | derivation _ => true
  | tapKeyOrigin _ => true
  | _ => false

/-- Whether a record holds a signature. -/
def InputKey.isSignature : InputKey → Bool
  | partialSig _ => true
  | tapKeySig => true
  | tapScriptSig _ _ => true
  | _ => false

namespace InputMap

/-- The number of signatures of the signer's copy that are at free places. -/
def countNewSignatures (input filled : InputMap) : Nat :=
  (filled.filter InputKey.isSignature).entries.countP fun e => !input.contains e.1

/-- The input with the new signatures of the signer's copy, and whether there are any. A copy that
the signer made final is taken over with its final scripts. -/
def commitSignatures (input filled : InputMap) : InputMap × Bool :=
  if isFinal filled then
    (applyFinal input ⟨(filled.get? .finalScriptSig).getD .empty,
      (filled.get? .finalScriptWitness).getD []⟩, true)
  else (input.fill InputKey.isSignature filled, countNewSignatures input filled != 0)

end InputMap

namespace Psbt

variable (scheme : SignatureScheme)

/-- The copy with other records for an input. -/
def setInput (p : Psbt) (index : Nat) (input : InputMap) : Psbt :=
  { p with inputs := p.inputs.set index input }

/-- Takes over what a signer added to an input: origins of keys, and signatures. Where partial
signatures are not allowed, signatures that do not suffice are left out again. -/
def commitInput (options : SignOptions) (p : Psbt) (index : Nat) (filled : InputMap) :
    Except Fault Psbt :=
  match p.inputs[index]? with
  | none => .ok p
  | some input =>
    if InputMap.isFinal input || !options.scope.contains index then .ok p
    else do
      let known ← InputMap.unite InputKey.isOrigin index input filled
      let (signed, added) := InputMap.commitSignatures known filled
      let candidate := p.setInput index signed
      let enough := options.allowPartial || InputMap.isFinal signed ||
        (candidate.finalizeInput scheme index).toBool
      return if added && enough then candidate else p.setInput index known

/-- Takes over what a signer added to the inputs from the given index on. -/
def commitFrom (options : SignOptions) : Nat → List InputMap → Psbt → Except Fault Psbt
  | _, [], p => .ok p
  | index, filled :: rest, p => do
    let p ← p.commitInput scheme options index filled
    commitFrom options (index + 1) rest p

end Psbt

/-! ## Signing in place -/

/-- How far signing has come: the copy that is to be signed, which belongs to whoever has it signed,
and what the signer has been asked. -/
structure Signing where
  /-- The copy that is to be signed. -/
  copy : Psbt
  /-- The working copies that the signer got, in order, and how it was to sign them. -/
  asked : List (Psbt × SignOptions)

/-- Asks a signer to sign a working copy. -/
def Signing.ask (signer : Signer) (working : Psbt) (options : SignOptions) :
    InPlace Signing Psbt := do
  modify fun s => { s with asked := s.asked ++ [(working, options)] }
  signer working options

namespace Psbt

variable (scheme : SignatureScheme)

/-- Has a partially signed transaction signed in place. The answer is whether all its inputs are
final or can be made so. -/
def signInPlace (signer : Signer) (options : SignOptions) : InPlace Signing Bool := do
  let p := (← get).copy
  if let some index := options.scope.firstBeyond? p.inputs.length then
    throw (.noSuchInput index p.inputs.length)
  let working ← Signing.ask signer p options
  if working.transaction ≠ p.transaction ∨ working.inputs.length ≠ p.inputs.length then
    throw (.internal .transactionChanged)
  let staged ← commitFrom scheme options 0 working.inputs p
  let staged := if options.finalize then staged.finalize scheme else staged
  modify fun s => { s with copy := staged }
  return staged.isComplete scheme

/-- Has a partially signed transaction signed. The answer is the signed copy and whether all its
inputs are final or can be made so. -/
def sign (p : Psbt) (signer : Signer) (options : SignOptions) : Except Fault (Psbt × Bool) :=
  match (signInPlace scheme signer options).exec ⟨p, []⟩ with
  | (.ok complete, s) => .ok (s.copy, complete)
  | (.error fault, _) => .error fault

end Psbt

end JointSpend
