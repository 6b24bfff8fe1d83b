import JointSpend.CommandLine.Run
import JointSpend.Proofs.Codec.Closure
import JointSpend.Proofs.CommandLine.Directories

set_option autoImplicit false
set_option relaxedAutoImplicit false

/-!
# What commands compute

A command that writes a copy computes it from the copies and the JSON texts that are found behind
its paths, and from nothing else. Where these are found, in files or in memory, does not matter.

## Main definitions

* `JointSpend.CommandLine.Memory` — what is held under the names of files.
* `JointSpend.CommandLine.Command.target?` — the file that a command writes a copy to.
* `JointSpend.CommandLine.Command.compute?` — the copy that it computes.

## Main results

* `JointSpend.CommandLine.Command.effects_eq_ok_iff` — a command writes what it computes.
* `JointSpend.CommandLine.Command.compute?_mono` — with more in memory, no less is computed.
* `JointSpend.CommandLine.Command.obtained_of_compute?`,
  `JointSpend.CommandLine.Command.fits_of_compute?` — what copies are computed.
-/

namespace JointSpend.CommandLine

/-! ## What is held -/

/-- What is held under the names of files: copies, and the values of JSON texts. -/
structure Memory where
  /-- The copy that is held under a name. -/
  copy? : FilePath → Option Psbt
  /-- The JSON value that is held under a name. -/
  json? : FilePath → Option Json

namespace Memory

/-- What the files of a directory hold: each copy in either exchange form, each JSON text. -/
def ofFiles (files : Directory) : Memory where
  copy? names := do (Psbt.decodeAny (← files.find? names)).toOption
  json? names := do Json.parse? (← Text.ofUtf8? (← files.find? names))

/-- The private keys that are held under a name for a network. -/
def keys? (m : Memory) (names : FilePath) (network : Network) : Option KeyStore := do
  let file ← KeyFile.ofJson? (← m.json? names)
  guard (Network.parse file.network = .ok network)
  (KeyStore.ofTexts file.privateKeys network).toOption

/-- What is held when a copy is put under a name. -/
def hold (m : Memory) (names : FilePath) (p : Psbt) : Memory where
  copy? other := if other = names then some p else m.copy? other
  json? other := if other = names then none else m.json? other

@[simp]
theorem copy?_hold (m : Memory) (names : FilePath) (p : Psbt) (other : FilePath) :
    (m.hold names p).copy? other = if other = names then some p else m.copy? other :=
  rfl

@[simp]
theorem json?_hold (m : Memory) (names : FilePath) (p : Psbt) (other : FilePath) :
    (m.hold names p).json? other = if other = names then none else m.json? other :=
  rfl

/-- One memory holds what another one holds, and maybe more. -/
structure Within (m n : Memory) : Prop where
  copies : ∀ names p, m.copy? names = some p → n.copy? names = some p
  texts : ∀ names v, m.json? names = some v → n.json? names = some v

/-- A memory that holds more holds the same keys. -/
theorem Within.keys {m n : Memory} (h : m.Within n) {names : FilePath} {network : Network}
    {store : KeyStore} (hstore : m.keys? names network = some store) :
    n.keys? names network = some store := by
  simp only [keys?, Option.bind_eq_bind, Option.bind_eq_some_iff] at hstore ⊢
  obtain ⟨v, hv, hrest⟩ := hstore
  exact ⟨v, h.texts names v hv, hrest⟩

end Memory

variable {files : Directory} {node : String → Nat → Broadcaster}

/-- Reading a copy gives what the files hold. -/
theorem World.readPsbt_eq_ok_iff {path : String} {p : Psbt} :
    (World.mk files.read node).readPsbt path = .ok p ↔
      (Memory.ofFiles files).copy? (FilePath.ofText path) = some p := by
  simp only [World.readPsbt, Memory.ofFiles, Steps.bind_eq_ok_iff, Directory.read_eq_ok_iff,
    Option.bind_eq_bind, Option.bind_eq_some_iff, Steps.toOption_eq_some_iff]

/-- Reading a file of JSON text gives what the files hold. -/
private theorem World.readJson_eq_ok_iff {α : Type} {ofJson? : Json → Option α} {path : String}
    {a : α} :
    (World.mk files.read node).readJson ofJson? path = .ok a ↔
      ((Memory.ofFiles files).json? (FilePath.ofText path) >>= ofJson?) = some a := by
  simp only [World.readJson, Memory.ofFiles, Steps.bind_eq_ok_iff, Directory.read_eq_ok_iff,
    Option.bind_eq_bind, Option.bind_eq_some_iff]
  constructor
  · rintro ⟨bytes, hbytes, h⟩
    split at h
    · exact absurd h Steps.throw_ne_ok
    · next text htext =>
      split at h
      · next b hb =>
        rw [Steps.pure_eq_ok_iff] at h
        rw [Option.bind_eq_some_iff] at hb
        obtain ⟨v, hv, hb⟩ := hb
        exact ⟨v, ⟨bytes, hbytes, text, htext, hv⟩, h ▸ hb⟩
      · exact absurd h Steps.throw_ne_ok
  · rintro ⟨v, ⟨bytes, hbytes, text, htext, hv⟩, ha⟩
    refine ⟨bytes, hbytes, ?_⟩
    simp [htext, hv, ha, Steps.pure_eq_ok_iff]

/-- Reading private keys gives what the files hold. -/
private theorem World.readKeys_eq_ok_iff {path : String} {network : Network} {store : KeyStore} :
    (World.mk files.read node).readKeys path network = .ok store ↔
      (Memory.ofFiles files).keys? (FilePath.ofText path) network = some store := by
  have hguard : ∀ file : KeyFile, (guard (Network.parse file.network = .ok network) : Option Unit) =
      some () ↔ Network.parse file.network = .ok network := by
    intro file
    simp [guard]
  simp only [World.readKeys, Memory.keys?, Steps.bind_eq_ok_iff, World.readJson_eq_ok_iff,
    Option.bind_eq_bind, Option.bind_eq_some_iff, Steps.toOption_eq_some_iff,
    Steps.guard_eq_ok_iff, ne_eq, not_not]
  constructor
  · rintro ⟨file, ⟨v, hv, hfile⟩, _, hmeant, rfl, hstore⟩
    exact ⟨v, hv, file, hfile, (), (hguard file).mpr hmeant, hstore⟩
  · rintro ⟨v, hv, file, hfile, _, hmeant, hstore⟩
    exact ⟨file, ⟨v, hv, hfile⟩, network, (hguard file).mp hmeant, rfl, hstore⟩

/-! ## What is computed -/

namespace Command

/-- The file that a command writes a copy to, and the form. -/
def target? : Command → Option (String × ExchangeForm)
  | create _ output form => some (output, form)
  | update _ _ _ _ output form => some (output, form)
  | merge _ output form => some (output, form)
  | sign _ _ _ _ _ output form => some (output, form)
  | finalize _ output form => some (output, form)
  | convert _ output form => some (output, form)
  | analyze _ => none
  | extract _ _ => none
  | broadcast _ _ _ => none

variable (scheme : SignatureScheme) (network : Network)

/-- The copy that a command computes from what is held. -/
def compute? (m : Memory) : Command → Option Psbt
  | create plan _ _ => do
    let plan ← SpendPlan.ofJson? (← m.json? (FilePath.ofText plan))
    (plan.create network).toOption
  | update psbt index value script _ _ => do
    let p ← m.copy? (FilePath.ofText psbt)
    let script ← (Text.Hex.decode script).toOption
    (p.setWitnessUtxo index ⟨UInt64.ofNat value, ⟨script⟩⟩).toOption
  | merge psbts _ _ => do
    let ps ← psbts.mapM fun path => m.copy? (FilePath.ofText path)
    (Psbt.mergeAll ps).toOption
  | sign psbt keys final noPartial inputs _ _ => do
    let store ← m.keys? (FilePath.ofText keys) network
    let p ← m.copy? (FilePath.ofText psbt)
    let options : SignOptions := ⟨.all, final, !noPartial, scopeOf inputs⟩
    let (q, _) ← (p.sign scheme (store.signer scheme) options).toOption
    return q
  | finalize psbt _ _ => do
    return (← m.copy? (FilePath.ofText psbt)).finalize scheme
  | convert psbt _ _ => m.copy? (FilePath.ofText psbt)
  | analyze _ => none
  | extract _ _ => none
  | broadcast _ _ _ => none

/-- What a command shows when it has written a copy. -/
def remarks (p : Psbt) : Command → List Effect
  | create _ _ _ => [.print (Text.Base64.encode p.bytes)]
  | sign _ _ _ _ _ _ _ => [showComplete (p.isComplete scheme)]
  | finalize _ _ _ => [showComplete p.allFinal]
  | _ => []

variable {scheme : SignatureScheme} {network : Network} {m n : Memory} {command : Command}
  {output : String} {form : ExchangeForm} {p : Psbt}

/-! ### Each command -/

private theorem compute?_create {path : String} :
    (create path output form).compute? scheme network m = some p ↔
      ∃ v plan, m.json? (FilePath.ofText path) = some v ∧ SpendPlan.ofJson? v = some plan ∧
        plan.create network = .ok p := by
  simp only [compute?, Option.bind_eq_bind, Option.bind_eq_some_iff, Steps.toOption_eq_some_iff,
    exists_and_left]

private theorem compute?_update {psbt script : String} {index value : Nat} :
    (update psbt index value script output form).compute? scheme network m = some p ↔
      ∃ q bytes, m.copy? (FilePath.ofText psbt) = some q ∧ Text.Hex.decode script = .ok bytes ∧
        q.setWitnessUtxo index ⟨UInt64.ofNat value, ⟨bytes⟩⟩ = .ok p := by
  simp only [compute?, Option.bind_eq_bind, Option.bind_eq_some_iff, Steps.toOption_eq_some_iff,
    exists_and_left]

private theorem compute?_merge {psbts : List String} :
    (merge psbts output form).compute? scheme network m = some p ↔
      ∃ qs, List.Forall₂ (fun path q => m.copy? (FilePath.ofText path) = some q) psbts qs ∧
        Psbt.mergeAll qs = .ok p := by
  simp only [compute?, Option.bind_eq_bind, Option.bind_eq_some_iff, Steps.toOption_eq_some_iff,
    Steps.mapM_eq_some_iff]

private theorem compute?_sign {psbt keys : String} {final noPartial : Bool} {inputs : List Nat} :
    (sign psbt keys final noPartial inputs output form).compute? scheme network m = some p ↔
      ∃ store q complete, m.keys? (FilePath.ofText keys) network = some store ∧
        m.copy? (FilePath.ofText psbt) = some q ∧
        q.sign scheme (store.signer scheme) ⟨.all, final, !noPartial, scopeOf inputs⟩ =
          .ok (p, complete) := by
  simp only [compute?, Option.bind_eq_bind, Option.bind_eq_some_iff, Steps.toOption_eq_some_iff,
    Option.pure_def, Option.some.injEq]
  constructor
  · rintro ⟨store, hstore, q, hq, ⟨_, complete⟩, hp, rfl⟩
    exact ⟨store, q, complete, hstore, hq, hp⟩
  · rintro ⟨store, q, complete, hstore, hq, hp⟩
    exact ⟨store, hstore, q, hq, _, hp, rfl⟩

private theorem compute?_finalize {psbt : String} :
    (finalize psbt output form).compute? scheme network m = some p ↔
      ∃ q, m.copy? (FilePath.ofText psbt) = some q ∧ q.finalize scheme = p := by
  simp only [compute?, Option.bind_eq_bind, Option.bind_eq_some_iff, Option.pure_def,
    Option.some.injEq]

/-! ### All commands -/

/-- **A command writes what it computes**, and shows something afterwards. -/
theorem effects_eq_ok_iff (htarget : command.target? = some (output, form))
    {effects : List Effect} :
    command.effects scheme (World.mk files.read node) network = .ok effects ↔
      ∃ p, command.compute? scheme network (.ofFiles files) = some p ∧
        effects = save p output form :: command.remarks scheme p := by
  cases command with
  | create path output form =>
    cases htarget
    simp only [Command.effects, compute?_create, remarks, Steps.bind_eq_ok_iff,
      Steps.pure_eq_ok_iff, World.readJson_eq_ok_iff, Option.bind_eq_bind, Option.bind_eq_some_iff]
    constructor
    · rintro ⟨plan, ⟨v, hv, hplan⟩, p, hp, rfl⟩
      exact ⟨p, ⟨v, plan, hv, hplan, hp⟩, rfl⟩
    · rintro ⟨p, ⟨v, plan, hv, hplan, hp⟩, rfl⟩
      exact ⟨plan, ⟨v, hv, hplan⟩, p, hp, rfl⟩
  | update psbt index value script output form =>
    cases htarget
    simp only [Command.effects, compute?_update, remarks, Steps.bind_eq_ok_iff,
      World.readPsbt_eq_ok_iff]
    cases hscript : Text.Hex.decode script with
    | error fault => simp [Steps.bind_eq_ok_iff, Steps.throw_ne_ok]
    | ok bytes =>
      simp only [Steps.bind_eq_ok_iff, Steps.pure_eq_ok_iff, Except.ok.injEq]
      constructor
      · rintro ⟨q, hq, _, rfl, p, hp, rfl⟩
        exact ⟨p, ⟨q, bytes, hq, rfl, hp⟩, rfl⟩
      · rintro ⟨p, ⟨q, _, hq, rfl, hp⟩, rfl⟩
        exact ⟨q, hq, _, rfl, p, hp, rfl⟩
  | merge psbts output form =>
    cases htarget
    simp only [Command.effects, compute?_merge, remarks, Steps.bind_eq_ok_iff,
      Steps.pure_eq_ok_iff, Steps.mapM_eq_ok_iff, World.readPsbt_eq_ok_iff]
    constructor
    · rintro ⟨qs, hqs, p, hp, rfl⟩
      exact ⟨p, ⟨qs, hqs, hp⟩, rfl⟩
    · rintro ⟨p, ⟨qs, hqs, hp⟩, rfl⟩
      exact ⟨qs, hqs, p, hp, rfl⟩
  | sign psbt keys final noPartial inputs output form =>
    cases htarget
    simp only [Command.effects, compute?_sign, remarks, Steps.bind_eq_ok_iff,
      Steps.pure_eq_ok_iff, World.readPsbt_eq_ok_iff, World.readKeys_eq_ok_iff]
    constructor
    · rintro ⟨store, hstore, q, hq, ⟨p, complete⟩, hp, rfl⟩
      obtain ⟨-, -, -, -, -, -, -, -, rfl⟩ := Psbt.sign_eq_ok_iff.mp hp
      exact ⟨p, ⟨store, q, _, hstore, hq, hp⟩, rfl⟩
    · rintro ⟨p, ⟨store, q, complete, hstore, hq, hp⟩, rfl⟩
      obtain ⟨-, -, -, -, -, -, -, -, rfl⟩ := Psbt.sign_eq_ok_iff.mp hp
      exact ⟨store, hstore, q, hq, _, hp, rfl⟩
  | finalize psbt output form =>
    cases htarget
    simp only [Command.effects, compute?_finalize, remarks, Steps.bind_eq_ok_iff,
      Steps.pure_eq_ok_iff, World.readPsbt_eq_ok_iff]
    constructor
    · rintro ⟨q, hq, rfl⟩
      exact ⟨_, ⟨q, hq, rfl⟩, rfl⟩
    · rintro ⟨_, ⟨q, hq, rfl⟩, rfl⟩
      exact ⟨q, hq, rfl⟩
  | convert psbt output form =>
    cases htarget
    simp only [Command.effects, compute?, remarks, Steps.bind_eq_ok_iff, Steps.pure_eq_ok_iff,
      World.readPsbt_eq_ok_iff]
    constructor
    · rintro ⟨p, hp, rfl⟩
      exact ⟨p, hp, rfl⟩
    · rintro ⟨p, hp, rfl⟩
      exact ⟨p, hp, rfl⟩
  | analyze psbt => cases htarget
  | extract psbt output => cases htarget
  | broadcast psbt url seconds => cases htarget

/-- **With more in memory, no less is computed.** -/
theorem compute?_mono (hmn : m.Within n) (h : command.compute? scheme network m = some p) :
    command.compute? scheme network n = some p := by
  cases command with
  | create path output form =>
    obtain ⟨v, plan, hv, hrest⟩ := compute?_create.mp h
    exact compute?_create.mpr ⟨v, plan, hmn.texts _ v hv, hrest⟩
  | update psbt index value script output form =>
    obtain ⟨q, bytes, hq, hrest⟩ := compute?_update.mp h
    exact compute?_update.mpr ⟨q, bytes, hmn.copies _ q hq, hrest⟩
  | merge psbts output form =>
    obtain ⟨qs, hqs, hrest⟩ := compute?_merge.mp h
    exact compute?_merge.mpr ⟨qs, hqs.imp fun path q => hmn.copies _ q, hrest⟩
  | sign psbt keys final noPartial inputs output form =>
    obtain ⟨store, q, complete, hstore, hq, hrest⟩ := compute?_sign.mp h
    exact compute?_sign.mpr ⟨store, q, complete, hmn.keys hstore, hmn.copies _ q hq, hrest⟩
  | finalize psbt output form =>
    obtain ⟨q, hq, hrest⟩ := compute?_finalize.mp h
    exact compute?_finalize.mpr ⟨q, hmn.copies _ q hq, hrest⟩
  | convert psbt output form => exact hmn.copies _ p h
  | analyze psbt => cases h
  | extract psbt output => cases h
  | broadcast psbt url seconds => cases h

/-- What is computed from copies that were read or created is one of those copies. -/
theorem obtained_of_compute?
    (hm : ∀ names q, m.copy? names = some q → Psbt.Obtained scheme false q)
    (h : command.compute? scheme network m = some p) : Psbt.Obtained scheme false p := by
  cases command with
  | create path output form =>
    obtain ⟨v, plan, -, -, hp⟩ := compute?_create.mp h
    exact .createPlan hp (by simp)
  | update psbt index value script output form =>
    obtain ⟨q, bytes, hq, -, hp⟩ := compute?_update.mp h
    have hattempt : (Operation.setWitnessUtxo index ⟨UInt64.ofNat value, ⟨bytes⟩⟩).attempt
        scheme q = .ok p := hp
    exact .update (hm _ q hq) rfl hattempt (by simp)
  | merge psbts output form =>
    obtain ⟨qs, hqs, hp⟩ := compute?_merge.mp h
    refine .mergeAll ?_ hp
    clear h hp
    induction hqs with
    | nil => simp
    | cons hq _ ih => exact List.forall_mem_cons.mpr ⟨hm _ _ hq, ih⟩
  | sign psbt keys final noPartial inputs output form =>
    obtain ⟨store, q, complete, -, hq, hp⟩ := compute?_sign.mp h
    exact .sign (hm _ q hq) hp
  | finalize psbt output form =>
    obtain ⟨q, hq, rfl⟩ := compute?_finalize.mp h
    exact .finalize (hm _ q hq)
  | convert psbt output form => exact hm _ p h
  | analyze psbt => cases h
  | extract psbt output => cases h
  | broadcast psbt url seconds => cases h

/-- Whether a command brings nothing in that could be too long. -/
def keepsLimits : Command → Bool
  | sign _ _ _ _ _ _ _ => true
  | finalize _ _ _ => true
  | convert _ _ _ => true
  | _ => false

/-- **Signing, making inputs final and changing the form** keep copies within the limits. -/
theorem fits_of_compute? (hkeeps : command.keepsLimits = true)
    (hm : ∀ names q, m.copy? names = some q → q.Shaped ∧ q.Fits)
    (h : command.compute? scheme network m = some p) : p.Fits := by
  cases command <;> simp only [keepsLimits, Bool.false_eq_true] at hkeeps
  case sign psbt keys final noPartial inputs output form =>
    obtain ⟨store, q, complete, -, hq, hp⟩ := compute?_sign.mp h
    obtain ⟨hshaped, hfits⟩ := hm _ q hq
    exact hfits.sign hshaped hp
  case finalize psbt output form =>
    obtain ⟨q, hq, rfl⟩ := compute?_finalize.mp h
    exact (hm _ q hq).2.finalize
  case convert psbt output form => exact (hm _ p h).2

end Command

end JointSpend.CommandLine
