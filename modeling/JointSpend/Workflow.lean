import JointSpend.Broadcast
import JointSpend.Psbt.Exchange
import JointSpend.Sign.Commit

set_option autoImplicit false
set_option relaxedAutoImplicit false

/-!
# The workflow of one machine

A machine holds at most one copy for each stage. It works on its copies in place, step by step, and
asks a signer or a node on the way. Signing is refused online, and sending is refused offline.

## Main definitions

* `JointSpend.Workflow` — the state of a machine.
* `JointSpend.Workflow.Session` — the state while a machine works, and what it asked of others.
* `JointSpend.Workflow.start`, `JointSpend.Workflow.load`, `JointSpend.Workflow.exportAs`,
  `JointSpend.Workflow.sign`, `JointSpend.Workflow.send` — what a machine does.
* `JointSpend.Workflow.canSend` — whether sending can succeed.
* `JointSpend.Workflow.after` — what comes of it.
-/

namespace JointSpend

/-- The state of a machine. -/
structure Workflow where
  /-- The stage that is looked at. -/
  stage : Stage
  /-- Whether the machine is online. -/
  online : Bool
  /-- The copy that was created. -/
  created : Option Psbt
  /-- The copy that is to be signed. -/
  signing : Option Psbt
  /-- What has been assembled. -/
  assembled : Option Psbt
  /-- Whether the copy that is to be signed was signed here since it was loaded. -/
  didSign : Bool
  deriving DecidableEq

namespace Workflow

/-- A machine that holds nothing. -/
def new (online : Bool) : Workflow :=
  ⟨.create, online, none, none, none, false⟩

/-- Goes to the next stage. -/
def nextStage (w : Workflow) : Workflow :=
  { w with stage := w.stage.next }

/-- Goes to the stage before. -/
def prevStage (w : Workflow) : Workflow :=
  { w with stage := w.stage.prev }

/-- Goes online or offline. -/
def setOnline (w : Workflow) (online : Bool) : Workflow :=
  { w with online := online }

/-- Begins with a copy that was just created. -/
def start (w : Workflow) (p : Psbt) : Workflow :=
  { w with created := some p, stage := .create }

/-- The copy that a stage holds. -/
def psbt? (w : Workflow) : Stage → Option Psbt
  | .create => w.created
  | .sign => w.signing
  | .assemble => w.assembled

/-- Forgets what is assembled. -/
def resetAssembly (w : Workflow) : Workflow :=
  { w with assembled := none }

/-! ## Working in place -/

/-- How far a machine has come: its state, what it asked signers, and what it handed to nodes. -/
structure Session where
  /-- The state of the machine. -/
  machine : Workflow
  /-- The working copies that signers got, in order, and how they were to sign them. -/
  asked : List (Psbt × SignOptions)
  /-- The transactions that were handed to nodes, in order. -/
  handedOver : List Transaction

/-- The state that the machine is in. -/
def current : InPlace Session Workflow :=
  return (← get).machine

/-- Changes the state of the machine. -/
def change (f : Workflow → Workflow) : InPlace Session Unit :=
  modify fun s => { s with machine := f s.machine }

/-- Takes a copy into a stage. What is assembled already is united with it. -/
def take (p : Psbt) : Stage → InPlace Session Unit
  | .create => change fun w => { w with created := some p }
  | .sign => change fun w => { w with signing := some p, didSign := false }
  | .assemble => do
    match (← current).assembled with
    | none => change fun w => { w with assembled := some p }
    | some existing =>
      let merged ← existing.merge p
      change fun w => { w with assembled := some merged }

/-- Takes a copy in either exchange form into a stage, and looks at that stage. -/
def load (stage : Stage) (data : Bytes) : InPlace Session Unit := do
  take (← Psbt.decodeAny data) stage
  change fun w => { w with stage := stage }

/-- The copy of a stage in an exchange form. -/
def exportAs (stage : Stage) (form : ExchangeForm) : InPlace Session Bytes := do
  match (← current).psbt? stage with
  | some p => return p.exportAs form
  | none => throw (.workflow (.nothingAt stage))

/-- Works on the copy that is to be signed. However that ends, the machine holds what has become of
the copy. -/
def onSigning {α : Type} (p : Psbt) (x : InPlace Signing α) : InPlace Session α := do
  let (result, signing) := x.exec ⟨p, []⟩
  change fun w => { w with signing := some signing.copy }
  modify fun s => { s with asked := s.asked ++ signing.asked }
  result

variable (scheme : SignatureScheme)

/-- Has the loaded copy signed. The answer is whether all inputs are final or can be made so. -/
def sign (signer : Signer) (options : SignOptions) : InPlace Session Bool := do
  if (← current).online then throw (.workflow .signOnline)
  match (← current).signing with
  | none => throw (.workflow .nothingToSign)
  | some p =>
    let complete ← onSigning p (Psbt.signInPlace scheme signer options)
    change fun w => { w with didSign := true }
    return complete

/-- Whether all inputs of what is assembled are final or can be made so. -/
def canSend (w : Workflow) : Bool :=
  w.assembled.any (Psbt.isComplete scheme)

/-- Sends what is assembled. After success it is forgotten; after a failure it stays for another
attempt. -/
def send (broadcaster : Broadcaster) : InPlace Session TxId := do
  if !(← current).online then throw (.workflow .sendOffline)
  match (← current).assembled with
  | none => throw (.workflow .nothingAssembled)
  | some p =>
    let sending := p.send scheme broadcaster
    modify fun s => { s with handedOver := s.handedOver ++ sending.handedOver }
    let txid ← sending.result
    change resetAssembly
    return txid

/-- What comes of what a machine does: the next state, what signers were asked, what was handed to
nodes, and the answer. -/
structure Outcome (α : Type) where
  next : Workflow
  asked : List (Psbt × SignOptions)
  handedOver : List Transaction
  answer : Except Fault α

/-- What comes of working from a state on. -/
def after {α : Type} (w : Workflow) (x : InPlace Session α) : Outcome α :=
  let (answer, s) := x.exec ⟨w, [], []⟩
  ⟨s.machine, s.asked, s.handedOver, answer⟩

end Workflow

end JointSpend
