import JointSpend.Analysis.Report
import JointSpend.Broadcast
import JointSpend.CommandLine.Arguments
import JointSpend.CommandLine.Directory
import JointSpend.Funding.Create
import JointSpend.Funding.PlanJson
import JointSpend.Psbt.Merge
import JointSpend.Psbt.Update
import JointSpend.Sign.KeyStore

set_option autoImplicit false
set_option relaxedAutoImplicit false

/-!
# Running commands

A command computes what it does from the files that it reads, and only then does it: it shows lines
and writes at most one file. So a command that fails while it computes has done nothing, and one
that cannot write has written nothing.

## Main definitions

* `JointSpend.CommandLine.Effect` — what a command does.
* `JointSpend.CommandLine.Command.effects` — what a command does, given the files.
* `JointSpend.CommandLine.Outcome` — what came of a command.
* `JointSpend.CommandLine.run` — runs a command line in a directory.
-/

namespace JointSpend.CommandLine

/-- What a command does to the world. -/
inductive Effect where
  /-- Shows a line. -/
  | print (line : String)
  /-- Writes a file. -/
  | write (path : String) (bytes : Bytes)
  deriving DecidableEq

/-- What a command needs from the world. -/
structure World where
  /-- Reads a file. -/
  read : String → Except Fault Bytes
  /-- Reaches the node at an address, which may take some seconds. -/
  node : String → Nat → Broadcaster

namespace World

/-- Reads a copy in either exchange form. -/
def readPsbt (world : World) (path : String) : Except Fault Psbt := do
  Psbt.decodeAny (← world.read path)

/-- Reads a file of JSON text. -/
def readJson {α : Type} (world : World) (ofJson? : Json → Option α) (path : String) :
    Except Fault α := do
  match Text.ofUtf8? (← world.read path) with
  | none => throw FileFault.notUtf8.fault
  | some text =>
    match Json.parse? text >>= ofJson? with
    | some a => return a
    | none => throw (.badJson path)

/-- Reads the private keys of a file that is meant for the network. -/
def readKeys (world : World) (path : String) (network : Network) : Except Fault KeyStore := do
  let file ← world.readJson KeyFile.ofJson? path
  let meant ← Network.parse file.network
  if meant ≠ network then throw (.wrongNetwork network meant.title)
  KeyStore.ofTexts file.privateKeys network

end World

/-- Writes a copy. -/
def save (p : Psbt) (path : String) (form : ExchangeForm) : Effect :=
  .write path (p.exportAs form)

/-- Says whether the work is complete. -/
def showComplete (complete : Bool) : Effect :=
  .print ("complete: " ++ toString complete)

/-- The inputs that are meant by indexes; none stand for all. -/
def scopeOf (indexes : List Nat) : SignScope :=
  if indexes.isEmpty then .all else .only indexes

namespace Command

variable (scheme : SignatureScheme)

/-- The files that a command reads. -/
def sources : Command → List String
  | create plan _ _ => [plan]
  | analyze psbt => [psbt]
  | update psbt _ _ _ _ _ => [psbt]
  | merge psbts _ _ => psbts
  | sign psbt keys _ _ _ _ _ => [keys, psbt]
  | finalize psbt _ _ => [psbt]
  | extract psbt _ => [psbt]
  | broadcast psbt _ _ => [psbt]
  | convert psbt _ _ => [psbt]

/-- What a command does. -/
def effects (world : World) (network : Network) : Command → Except Fault (List Effect)
  | create plan output form => do
    let plan ← world.readJson SpendPlan.ofJson? plan
    let p ← plan.create network
    return [save p output form, .print (Text.Base64.encode p.bytes)]
  | analyze psbt => do
    let p ← world.readPsbt psbt
    return [.print (p.analyze scheme network).report]
  | update psbt index value script output form => do
    let p ← world.readPsbt psbt
    let script ←
      match Text.Hex.decode script with
      | .ok bytes => pure (Script.mk bytes)
      | .error fault => throw (.input (.badHex .scriptPubKey fault))
    let p ← p.setWitnessUtxo index ⟨UInt64.ofNat value, script⟩
    return [save p output form]
  | merge psbts output form => do
    let p ← Psbt.mergeAll (← psbts.mapM world.readPsbt)
    return [save p output form]
  | sign psbt keys final noPartial inputs output form => do
    let store ← world.readKeys keys network
    let p ← world.readPsbt psbt
    let options : SignOptions := ⟨.all, final, !noPartial, scopeOf inputs⟩
    let (p, complete) ← p.sign scheme (store.signer scheme) options
    return [save p output form, showComplete complete]
  | finalize psbt output form => do
    let p := (← world.readPsbt psbt).finalize scheme
    return [save p output form, showComplete p.allFinal]
  | extract psbt output => do
    let tx ← (← world.readPsbt psbt).extract
    let text := Text.Hex.encode tx.bytes
    return .print text :: (output.map fun path => Effect.write path (Text.utf8 text)).toList
  | broadcast psbt url seconds => do
    let p ← world.readPsbt psbt
    let node := world.node (Node.baseUrl (url.getD (Node.defaultUrl network))) seconds
    let txid ← (p.send scheme node).result
    return [.print txid.text]
  | convert psbt output form => do
    let p ← world.readPsbt psbt
    return [save p output form]

end Command

/-- What came of a command. -/
structure Outcome where
  /-- Whether it succeeded. -/
  result : Except Fault Unit
  /-- What it has shown. -/
  shown : String
  /-- The files afterwards. -/
  files : Directory

namespace Outcome

/-- Nothing has been shown or written yet. -/
def begin (files : Directory) : Outcome :=
  ⟨.ok (), "", files⟩

/-- Does one thing, unless something failed before. -/
def step (outcome : Outcome) (effect : Effect) : Outcome :=
  match outcome.result, effect with
  | .error _, _ => outcome
  | .ok _, .print line => { outcome with shown := outcome.shown ++ line ++ "\n" }
  | .ok _, .write path bytes =>
    match outcome.files.write path bytes with
    | .ok files => { outcome with files }
    | .error fault => { outcome with result := .error fault }

end Outcome

variable (scheme : SignatureScheme)

/-- Runs a command in a directory. -/
def Command.run (node : String → Nat → Broadcaster) (network : Network) (files : Directory)
    (command : Command) : Outcome :=
  match command.effects scheme ⟨files.read, node⟩ network with
  | .error fault => { Outcome.begin files with result := .error fault }
  | .ok effects => effects.foldl Outcome.step (.begin files)

/-- Runs a command for the network with a name. -/
def Invocation.run (node : String → Nat → Broadcaster) (files : Directory)
    (invocation : Invocation) : Outcome :=
  match Network.parse invocation.network with
  | .error fault => { Outcome.begin files with result := .error fault }
  | .ok network => invocation.command.run scheme node network files

/-- Runs a command line in a directory. -/
def run (node : String → Nat → Broadcaster) (files : Directory) (words : List String) :
    Except UsageFault Outcome :=
  (Invocation.run scheme node files ·) <$> parse words

end JointSpend.CommandLine
