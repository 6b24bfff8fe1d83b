import JointSpend.Proofs.CommandLine.Disks
import JointSpend.Proofs.CommandLine.Transparency

set_option autoImplicit false
set_option relaxedAutoImplicit false

/-!
# All or nothing

A command can be carried out step by step on a disk: it reads, computes, shows and writes in this
order or that, and stops at the first step that fails. However the disk behaves, no half result is
left. A command that fails leaves every file as it was, and one that succeeds has written a whole
result to its output file, if it has one, and has changed no other. It does not matter whether the
output file is also one of the files that the command reads.

In a directory, where a step can fail only for what the directory holds, a command that goes step by
step comes to the same as one that computes everything first.

## Main definitions

* `JointSpend.CommandLine.Command.output?` — the file that a command names as its output.
* `JointSpend.CommandLine.Command.IsResult` — the whole results of a command.
* `JointSpend.CommandLine.Command.execute` — a command, step by step on a disk.

## Main results

* `JointSpend.CommandLine.Command.rewrites_execute` — the file that a command rewrites.
* `JointSpend.CommandLine.Command.exec_execute` — in a directory, a command step by step is the
  command that runs.
* `JointSpend.CommandLine.Command.all_or_nothing` — no command leaves a half result.
-/

namespace JointSpend

open CommandLine

variable {disk : Disk}

/-! ## Step by step -/

namespace Work

/-- Reads a copy in either exchange form. -/
def readPsbt (path : String) : Work disk Psbt := do
  Psbt.decodeAny (← read path)

/-- Reads a file of JSON text. -/
def readJson {α : Type} (ofJson? : Json → Option α) (path : String) : Work disk α := do
  match Text.ofUtf8? (← read path) with
  | none => throw FileFault.notUtf8.fault
  | some text =>
    match Json.parse? text >>= ofJson? with
    | some a => return a
    | none => throw (.badJson path)

/-- Reads the private keys of a file that is meant for the network. -/
def readKeys (path : String) (network : Network) : Work disk KeyStore := do
  let file ← readJson KeyFile.ofJson? path
  let meant ← Network.parse file.network
  if meant ≠ network then throw (.wrongNetwork network meant.title)
  KeyStore.ofTexts file.privateKeys network

/-- Writes a copy. -/
def savePsbt (p : Psbt) (path : String) (form : ExchangeForm) : Work disk Unit :=
  write path (p.exportAs form)

end Work

namespace CommandLine.Command

open InPlace Work

/-- The file that a command names as its output. -/
def output? : Command → Option String
  | create _ output _ => some output
  | analyze _ => none
  | update _ _ _ _ output _ => some output
  | merge _ output _ => some output
  | sign _ _ _ _ _ output _ => some output
  | finalize _ output _ => some output
  | extract _ output => output
  | broadcast _ _ _ => none
  | convert _ output _ => some output

/-- Whether bytes are a whole result of a command: a copy in the form that is asked for, or the text
of a final transaction. -/
def IsResult (command : Command) (bytes : Bytes) : Prop :=
  match command.target? with
  | some (_, form) => ∃ p : Psbt, bytes = p.exportAs form
  | none => ∃ tx : Transaction, bytes = Text.utf8 (Text.Hex.encode tx.bytes)

/-- Reads the script that a hexadecimal text stands for. -/
def readScript (text : String) : Except Fault Script :=
  match Text.Hex.decode text with
  | .ok bytes => .ok ⟨bytes⟩
  | .error fault => .error (.input (.badHex .scriptPubKey fault))

/-- Carries a command out, step by step. -/
def execute (disk : Disk) (scheme : SignatureScheme) (node : String → Nat → Broadcaster)
    (network : Network) : Command → Work disk Unit
  | create plan output form => do
    let plan ← readJson SpendPlan.ofJson? plan
    let p ← plan.create network
    savePsbt p output form
    print (Text.Base64.encode p.bytes)
  | analyze psbt => do
    let p ← readPsbt psbt
    print (p.analyze scheme network).report
  | update psbt index value script output form => do
    let p ← readPsbt psbt
    let script ← readScript script
    let p ← p.setWitnessUtxo index ⟨UInt64.ofNat value, script⟩
    savePsbt p output form
  | merge psbts output form => do
    let loaded ← psbts.mapM readPsbt
    let p ← Psbt.mergeAll loaded
    savePsbt p output form
  | sign psbt keys final noPartial inputs output form => do
    let store ← readKeys keys network
    let p ← readPsbt psbt
    let options : SignOptions := ⟨.all, final, !noPartial, scopeOf inputs⟩
    let (p, complete) ← p.sign scheme (store.signer scheme) options
    savePsbt p output form
    print ("complete: " ++ toString complete)
  | finalize psbt output form => do
    let p ← readPsbt psbt
    let p := p.finalize scheme
    savePsbt p output form
    print ("complete: " ++ toString p.allFinal)
  | extract psbt output => do
    let p ← readPsbt psbt
    let tx ← p.extract
    let text := Text.Hex.encode tx.bytes
    -- Here the line comes first: it is shown even if the file cannot be written.
    print text
    match output with
    | some path => write path (Text.utf8 text)
    | none => pure ()
  | broadcast psbt url seconds => do
    let p ← readPsbt psbt
    let url := Node.baseUrl (url.getD (Node.defaultUrl network))
    let txid ← (p.send scheme (node url seconds)).result
    print txid.text
  | convert psbt output form => do
    let p ← readPsbt psbt
    savePsbt p output form

end CommandLine.Command

/-! ## What is rewritten -/

namespace Work

open InPlace

/-- Reading a copy changes no file. -/
private theorem spares_readPsbt (hdisk : disk.Lawful) (path : String) :
    Spares (readPsbt path : Work disk Psbt) :=
  (spares_read hdisk path).bind fun _ => spares_lift _

/-- Reading a file of JSON text changes no file. -/
private theorem spares_readJson (hdisk : disk.Lawful) {α : Type} (ofJson? : Json → Option α)
    (path : String) : Spares (readJson ofJson? path : Work disk α) := by
  refine (spares_read hdisk path).bind fun bytes => ?_
  split
  · exact spares_lift (.error _)
  · split
    · exact spares_lift (.ok _)
    · exact spares_lift (.error _)

/-- Reading private keys changes no file. -/
private theorem spares_readKeys (hdisk : disk.Lawful) (path : String) (network : Network) :
    Spares (readKeys path network : Work disk KeyStore) := by
  refine (spares_readJson hdisk _ path).bind fun file => (spares_lift _).bind fun meant => ?_
  split
  · exact (spares_lift (.error _)).bind fun _ => spares_lift _
  · exact (spares_lift (.ok ())).bind fun _ => spares_lift _

end Work

namespace CommandLine.Command

open InPlace Work

variable {scheme : SignatureScheme} {node : String → Nat → Broadcaster} {network : Network}

/-- **The file that a command rewrites** is its output file, if it has one and succeeds. -/
theorem rewrites_execute (hdisk : disk.Lawful) (command : Command) :
    (command.execute disk scheme node network).Rewrites command.output? command.IsResult := by
  -- Each command is a row of sparing steps, then the step that writes, and after it at most a line.
  cases command with
  | create plan output form =>
    refine (spares_readJson hdisk _ plan).bind_rewrites fun plan => ?_
    refine (spares_lift _).bind_rewrites fun p => ?_
    exact (rewrites_write hdisk output ⟨_, rfl⟩).bind_print _
  | analyze psbt =>
    exact Spares.rewrites ((spares_readPsbt hdisk psbt).bind fun p => spares_print _)
  | update psbt index value script output form =>
    refine (spares_readPsbt hdisk psbt).bind_rewrites fun p => ?_
    refine (spares_lift _).bind_rewrites fun script => ?_
    exact (spares_lift _).bind_rewrites fun p => rewrites_write hdisk output ⟨_, rfl⟩
  | merge psbts output form =>
    refine Spares.bind_rewrites (.mapM (spares_readPsbt hdisk) psbts) fun loaded => ?_
    exact (spares_lift _).bind_rewrites fun p => rewrites_write hdisk output ⟨_, rfl⟩
  | sign psbt keys final noPartial inputs output form =>
    refine (spares_readKeys hdisk keys network).bind_rewrites fun store => ?_
    refine (spares_readPsbt hdisk psbt).bind_rewrites fun p => ?_
    refine (spares_lift _).bind_rewrites fun signed => ?_
    exact (rewrites_write hdisk output ⟨_, rfl⟩).bind_print _
  | finalize psbt output form =>
    refine (spares_readPsbt hdisk psbt).bind_rewrites fun p => ?_
    exact (rewrites_write hdisk output ⟨_, rfl⟩).bind_print _
  | extract psbt output =>
    refine (spares_readPsbt hdisk psbt).bind_rewrites fun p => ?_
    refine (spares_lift _).bind_rewrites fun tx => ?_
    refine (spares_print _).bind_rewrites fun _ => ?_
    cases output with
    | none => exact (spares_lift (.ok ())).rewrites
    | some path => exact rewrites_write hdisk path ⟨_, rfl⟩
  | broadcast psbt url seconds =>
    refine Spares.rewrites ((spares_readPsbt hdisk psbt).bind fun p => ?_)
    exact (spares_lift _).bind fun txid => spares_print _
  | convert psbt output form =>
    exact (spares_readPsbt hdisk psbt).bind_rewrites fun p => rewrites_write hdisk output ⟨_, rfl⟩

end CommandLine.Command

/-! ## In a directory -/

namespace Work

open InPlace

/-- Does what has been computed, one thing after another. -/
def follow : List Effect → Work disk Unit
  | [] => pure ()
  | .print line :: rest => do
    print line
    follow rest
  | .write path bytes :: rest => do
    write path bytes
    follow rest

variable {α β : Type} {p : Progress disk}

/-- Two steps that change nothing, and end as two computations end, do so together. -/
private theorem exec_bind_eq {x : Work disk α} {f : α → Work disk β} {result : Except Fault α}
    {g : α → Except Fault β} (hx : x.exec p = (result, p)) (hf : ∀ a, (f a).exec p = (g a, p)) :
    (x >>= f).exec p = (result >>= g, p) := by
  rw [exec_bind, hx]
  cases result with
  | error fault => rfl
  | ok a => exact hf a

/-- Steps that change nothing, one for each element of a list. -/
private theorem exec_mapM_eq {f : α → Work disk β} {g : α → Except Fault β}
    (hf : ∀ a, (f a).exec p = (g a, p)) (as : List α) :
    (as.mapM f).exec p = (as.mapM g, p) := by
  induction as with
  | nil => rfl
  | cons a as ih =>
    rw [List.mapM_cons, List.mapM_cons]
    exact exec_bind_eq (hf a) fun b => exec_bind_eq ih fun bs => rfl

/-- After a step that changes nothing, it makes no difference whether the rest is carried out step
by step or computed before anything is done. -/
private theorem exec_bind_eq_follow {x : Work disk α} {result : Except Fault α}
    {f : α → Work disk Unit} {g : α → Except Fault (List Effect)} (hx : x.exec p = (result, p))
    (hf : ∀ a, (f a).exec p = ((liftM (g a) : Work disk _) >>= follow).exec p) :
    (x >>= f).exec p = ((liftM (result >>= g) : Work disk _) >>= follow).exec p := by
  rw [exec_bind, hx]
  cases result with
  | error fault => rfl
  | ok a => exact hf a

/-- Writing as the last thing to do. -/
private theorem exec_write_eq_follow (path : String) (bytes : Bytes) :
    (write path bytes : Work disk Unit).exec p = (follow [.write path bytes]).exec p := by
  rw [follow, follow, bind_pure_unit]

variable {files : Directory} {shown : String} (node : String → Nat → Broadcaster)

/-- Reading a copy. -/
private theorem exec_readPsbt (path : String) :
    (readPsbt path).exec (⟨files, shown⟩ : Progress Directory.disk) =
      ((World.mk files.read node).readPsbt path, ⟨files, shown⟩) :=
  exec_bind_eq rfl fun _ => rfl

/-- Reading a file of JSON text. -/
private theorem exec_readJson {α : Type} (ofJson? : Json → Option α) (path : String) :
    (readJson ofJson? path).exec (⟨files, shown⟩ : Progress Directory.disk) =
      ((World.mk files.read node).readJson ofJson? path, ⟨files, shown⟩) := by
  refine exec_bind_eq rfl fun bytes => ?_
  cases Text.ofUtf8? bytes with
  | none => rfl
  | some text =>
    dsimp only
    cases Json.parse? text >>= ofJson? <;> rfl

/-- Reading private keys. -/
private theorem exec_readKeys (path : String) (network : Network) :
    (readKeys path network).exec (⟨files, shown⟩ : Progress Directory.disk) =
      ((World.mk files.read node).readKeys path network, ⟨files, shown⟩) := by
  refine exec_bind_eq (exec_readJson node _ path) fun file => exec_bind_eq rfl fun meant => ?_
  split <;> rfl

end Work

namespace CommandLine

open InPlace Work

namespace Outcome

/-- What came of a command, as steps in the directory come to it. -/
def ended (outcome : Outcome) : Except Fault Unit × Progress Directory.disk :=
  (outcome.result, ⟨outcome.files, outcome.shown⟩)

/-- Nothing is done after something has failed. -/
private theorem foldl_step_of_error {outcome : Outcome} {fault : Fault}
    (h : outcome.result = .error fault) (effects : List Effect) :
    effects.foldl step outcome = outcome := by
  induction effects with
  | nil => rfl
  | cons effect effects ih =>
    have hstep : outcome.step effect = outcome := by simp [step, h]
    rw [List.foldl_cons, hstep, ih]

/-- Doing one thing after another in a directory. -/
private theorem exec_follow (effects : List Effect) (files : Directory) (shown : String) :
    (follow effects).exec (⟨files, shown⟩ : Progress Directory.disk) =
      (effects.foldl step ⟨.ok (), shown, files⟩).ended := by
  induction effects generalizing files shown with
  | nil => rfl
  | cons effect effects ih =>
    cases effect with
    | print line => exact ih files (shown ++ line ++ "\n")
    | write path bytes =>
      have hexec : (write path bytes).exec (⟨files, shown⟩ : Progress Directory.disk) =
          ((Directory.disk.write files path bytes).1,
            ⟨(Directory.disk.write files path bytes).2, shown⟩) := rfl
      rw [follow, exec_bind, hexec, List.foldl_cons]
      cases hwrite : files.write path bytes with
      | error fault =>
        -- Steps that fail stop the rest; in an outcome the rest goes on, and does nothing.
        have hstep : step ⟨.ok (), shown, files⟩ (.write path bytes) =
            ⟨.error fault, shown, files⟩ := by simp [step, hwrite]
        rw [hstep, foldl_step_of_error rfl]
        simp [Directory.disk, hwrite, ended]
      | ok after =>
        have hstep : step ⟨.ok (), shown, files⟩ (.write path bytes) =
            ⟨.ok (), shown, after⟩ := by simp [step, hwrite]
        rw [hstep, ← ih after shown]
        simp [Directory.disk, hwrite]

end Outcome

namespace Command

variable {scheme : SignatureScheme} {node : String → Nat → Broadcaster} {network : Network}

/-- In a directory, it makes no difference whether a command computes everything before it shows or
writes anything.

**Proof sketch.** Nothing is written before the last step that reads, so what is read on the way is
what the files held in the beginning. -/
theorem exec_execute_eq_follow (command : Command) (files : Directory) (shown : String) :
    (command.execute Directory.disk scheme node network).exec ⟨files, shown⟩ =
      ((liftM (command.effects scheme ⟨files.read, node⟩ network) : Work Directory.disk _) >>=
        follow).exec ⟨files, shown⟩ := by
  cases command with
  | create plan output form =>
    refine exec_bind_eq_follow (exec_readJson node _ plan) fun plan => ?_
    exact exec_bind_eq_follow rfl fun p => rfl
  | analyze psbt =>
    exact exec_bind_eq_follow (exec_readPsbt node psbt) fun p => rfl
  | update psbt index value script output form =>
    refine exec_bind_eq_follow (exec_readPsbt node psbt) fun p => ?_
    simp only [readScript]
    cases Text.Hex.decode script with
    | error fault => rfl
    | ok bytes =>
      refine exec_bind_eq_follow rfl fun script => ?_
      exact exec_bind_eq_follow rfl fun p => exec_write_eq_follow _ _
  | merge psbts output form =>
    refine exec_bind_eq_follow (exec_mapM_eq (exec_readPsbt node) psbts) fun loaded => ?_
    exact exec_bind_eq_follow rfl fun p => exec_write_eq_follow _ _
  | sign psbt keys final noPartial inputs output form =>
    refine exec_bind_eq_follow (exec_readKeys node keys network) fun store => ?_
    refine exec_bind_eq_follow (exec_readPsbt node psbt) fun p => ?_
    exact exec_bind_eq_follow rfl fun signed => rfl
  | finalize psbt output form =>
    exact exec_bind_eq_follow (exec_readPsbt node psbt) fun p => rfl
  | extract psbt output =>
    refine exec_bind_eq_follow (exec_readPsbt node psbt) fun p => ?_
    refine exec_bind_eq_follow rfl fun tx => ?_
    cases output with
    | none => rfl
    | some path => exact exec_write_eq_follow _ _
  | broadcast psbt url seconds =>
    refine exec_bind_eq_follow (exec_readPsbt node psbt) fun p => ?_
    exact exec_bind_eq_follow rfl fun txid => rfl
  | convert psbt output form =>
    exact exec_bind_eq_follow (exec_readPsbt node psbt) fun p => exec_write_eq_follow _ _

/-- **In a directory, a command step by step is the command that runs.** -/
theorem exec_execute (command : Command) (files : Directory) :
    (command.execute Directory.disk scheme node network).exec ⟨files, ""⟩ =
      (command.run scheme node network files).ended := by
  rw [exec_execute_eq_follow, run, exec_bind, exec_lift]
  cases command.effects scheme ⟨files.read, node⟩ network with
  | error fault => rfl
  | ok effects => exact Outcome.exec_follow effects files ""

/-- **All or nothing.** However a lawful disk behaves, and whatever paths lead to its files, a
command that fails leaves every file as it was, and one that succeeds has written a whole result to
its output file, if it has one, and has changed no other file. Nothing is said of the paths: the
output file may be one of those that are read. In a directory, this is the command that runs. -/
theorem all_or_nothing (scheme : SignatureScheme) (node : String → Nat → Broadcaster)
    (network : Network) (command : Command) :
    (∀ disk : Disk, disk.Lawful → ∀ before after : Progress disk,
      (∀ fault, (command.execute disk scheme node network).exec before = (.error fault, after) →
        disk.content after.state = disk.content before.state) ∧
      ((command.execute disk scheme node network).exec before = (.ok (), after) →
        (∀ path ∈ command.output?,
          ∃ bytes, command.IsResult bytes ∧
            disk.content after.state (disk.locate path) = some bytes) ∧
        ∀ file, (∀ path ∈ command.output?, file ≠ disk.locate path) →
          disk.content after.state file = disk.content before.state file)) ∧
    ∀ files : Directory, (command.execute Directory.disk scheme node network).exec ⟨files, ""⟩ =
      (command.run scheme node network files).ended := by
  refine ⟨fun disk hdisk before after => ?_, exec_execute command⟩
  have hrewrites : (command.execute disk scheme node network).Rewrites command.output?
      command.IsResult := rewrites_execute hdisk command
  refine ⟨fun fault h => hrewrites.atomic.part_eq h, fun h => ?_⟩
  obtain ⟨hwhole, hothers⟩ := hrewrites.of_ok h
  exact ⟨hwhole, hothers⟩

end Command

/-- Two files whose copies can be merged. -/
def mergeableFiles : Directory :=
  sampleFiles Psbt.finalAlone openFunded

/-- A merge whose output file is one of the merged copies succeeds. -/
private theorem result_mergeBoth :
    (Command.run Curve.secp256k1 sampleNode .regtest mergeableFiles
      (.merge ["a", "b"] "b" .base64)).result = .ok () := by
  have hopen : openFunded.Decoded := @Psbt.Decoded.of_ofBytes? _ openFunded.bytes rfl
  have hmerge : _ = some finalFunded := compute?_sampleFiles Psbt.decoded_finalAlone hopen rfl
  have hrun : (Invocation.run Curve.secp256k1 sampleNode mergeableFiles
      ⟨"regtest", .merge ["a", "b"] "b" .base64⟩).result = .ok () :=
    ((Invocation.run_eq_ok_iff rfl).mpr ⟨finalFunded, hmerge, (write_sampleFiles _ _ _).2⟩).1
  exact hrun

/-- A merge fails at a copy that is not there, after it has read the others. -/
private theorem result_mergeAbsent :
    (Command.run Curve.secp256k1 sampleNode .regtest mergeableFiles
      (.merge ["a", "b", "c"] "b" .base64)).result = .error FileFault.notFound.fault := by
  have hopen : openFunded.Decoded := @Psbt.Decoded.of_ofBytes? _ openFunded.bytes rfl
  have ha : FilePath.ofText "a" = ["a"] := by cbv
  have hb : FilePath.ofText "b" = ["b"] := by cbv
  have hc : FilePath.ofText "c" = ["c"] := by cbv
  obtain ⟨hcopyA, hcopyB⟩ := copy?_sampleFiles Psbt.decoded_finalAlone hopen
  have hreadA : (World.mk mergeableFiles.read sampleNode).readPsbt "a" = .ok Psbt.finalAlone :=
    World.readPsbt_eq_ok_iff.mpr (ha ▸ hcopyA)
  have hreadB : (World.mk mergeableFiles.read sampleNode).readPsbt "b" = .ok openFunded :=
    World.readPsbt_eq_ok_iff.mpr (hb ▸ hcopyB)
  have habsent : mergeableFiles.read "c" = .error FileFault.notFound.fault := by
    rw [Directory.read, hc]
    rfl
  have hreadC : (World.mk mergeableFiles.read sampleNode).readPsbt "c" =
      .error FileFault.notFound.fault := by
    simp only [World.readPsbt, habsent]
    rfl
  simp only [Command.run, Command.effects, List.mapM_cons, hreadA, hreadB, hreadC]
  rfl

/-- The merge that rewrites one of the merged copies leaves the other one as it was, and the merge
that fails leaves both. -/
theorem Command.all_or_nothing_sample :
    Directory.disk.Lawful ∧
      (Command.run Curve.secp256k1 sampleNode .regtest mergeableFiles
        (.merge ["a", "b"] "b" .base64)).result = .ok () ∧
      (Command.run Curve.secp256k1 sampleNode .regtest mergeableFiles
        (.merge ["a", "b"] "b" .base64)).files.find? ["a"] =
          mergeableFiles.find? ["a"] ∧
      (Command.run Curve.secp256k1 sampleNode .regtest mergeableFiles
        (.merge ["a", "b", "c"] "b" .base64)).result = .error FileFault.notFound.fault ∧
      (Command.run Curve.secp256k1 sampleNode .regtest mergeableFiles
        (.merge ["a", "b", "c"] "b" .base64)).files.find? =
          mergeableFiles.find? := by
  refine ⟨Directory.lawful_disk, result_mergeBoth, ?_, result_mergeAbsent, ?_⟩
  · obtain ⟨hdisks, hruns⟩ := Command.all_or_nothing Curve.secp256k1 sampleNode .regtest
      (.merge ["a", "b"] "b" .base64)
    have hexec := hruns mergeableFiles
    rw [Outcome.ended, result_mergeBoth] at hexec
    obtain ⟨-, hothers⟩ := (hdisks _ Directory.lawful_disk _ _).2 hexec
    refine hothers ["a"] fun path hpath => ?_
    obtain rfl := Option.some.inj hpath
    have hb : FilePath.ofText "b" = ["b"] := by cbv
    show ["a"] ≠ FilePath.ofText "b"
    rw [hb]
    decide
  · obtain ⟨hdisks, hruns⟩ := Command.all_or_nothing Curve.secp256k1 sampleNode .regtest
      (.merge ["a", "b", "c"] "b" .base64)
    have hexec := hruns mergeableFiles
    rw [Outcome.ended, result_mergeAbsent] at hexec
    exact (hdisks _ Directory.lawful_disk _ _).1 _ hexec

end CommandLine

end JointSpend
