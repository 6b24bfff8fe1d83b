import JointSpend.Proofs.CommandLine.Computing

set_option autoImplicit false
set_option relaxedAutoImplicit false

/-!
# Running commands

A command that writes a copy succeeds when it computes one and its file can be written. Then this
file has the exchange form of the copy, and every other file is as it was. The final transaction
that is shown is that of the copy behind the path.

## Main results

* `JointSpend.CommandLine.Invocation.run_eq_ok_iff` — when a copy is written, and what is changed.
* `JointSpend.CommandLine.Invocation.shown_of_extract`,
  `JointSpend.CommandLine.Invocation.exists_of_extract` — what is shown of a copy.
-/

namespace JointSpend.CommandLine

variable {scheme : SignatureScheme} {node : String → Nat → Broadcaster} {network : Network}
  {files after : Directory} {command : Command} {output : String} {form : ExchangeForm}

/-- Showing lines changes neither the files nor the result. -/
private theorem Outcome.foldl_step_of_prints {effects : List Effect}
    (h : ∀ effect ∈ effects, ∃ line, effect = .print line) (outcome : Outcome) :
    (effects.foldl step outcome).result = outcome.result ∧
      (effects.foldl step outcome).files = outcome.files := by
  induction effects generalizing outcome with
  | nil => exact ⟨rfl, rfl⟩
  | cons effect effects ih =>
    obtain ⟨⟨line, rfl⟩, hrest⟩ := List.forall_mem_cons.mp h
    obtain ⟨hresult, hfiles⟩ := ih hrest (outcome.step (.print line))
    rw [List.foldl_cons, hresult, hfiles]
    cases hbefore : outcome.result <;> simp [step, hbefore]

/-! ## Commands that write a copy -/

namespace Command

/-- What is done after writing is showing lines. -/
private theorem remarks_prints (scheme : SignatureScheme) (command : Command) (p : Psbt) :
    ∀ effect ∈ command.remarks scheme p, ∃ line, effect = .print line := by
  intro effect h
  cases command <;> simp only [remarks, List.mem_singleton, List.not_mem_nil] at h
  all_goals exact ⟨_, h⟩

/-- **A command that writes a copy succeeds** when it computes one and its file can be written;
what is changed is that file. -/
theorem run_eq_ok_iff (htarget : command.target? = some (output, form)) :
    (command.run scheme node network files).result = .ok () ∧
        (command.run scheme node network files).files = after ↔
      ∃ p, command.compute? scheme network (.ofFiles files) = some p ∧
        files.write output (p.exportAs form) = .ok after := by
  unfold run
  cases heffects : command.effects scheme ⟨files.read, node⟩ network with
  | error fault =>
    simp only [reduceCtorEq, false_and, false_iff, not_exists, not_and]
    intro p hp
    have hok := heffects.symm.trans ((effects_eq_ok_iff htarget).mpr ⟨p, hp, rfl⟩)
    cases hok
  | ok effects =>
    obtain ⟨p, hp, rfl⟩ := (effects_eq_ok_iff htarget).mp heffects
    obtain ⟨hresult, hfiles⟩ := Outcome.foldl_step_of_prints
      (remarks_prints scheme command p)
      ((Outcome.begin files).step (save p output form))
    simp only [List.foldl_cons, hresult, hfiles, hp, Option.some.injEq, exists_eq_left']
    cases hwrite : files.write output (p.exportAs form) <;>
      simp [Outcome.step, Outcome.begin, save, hwrite]

/-! ## The final transaction -/

/-- Showing the final transaction takes a copy that is complete. -/
private theorem effects_extract_eq_ok_iff {psbt : String} {output : Option String}
    {effects : List Effect} :
    (extract psbt output).effects scheme (World.mk files.read node) network = .ok effects ↔
      ∃ p tx, (Memory.ofFiles files).copy? (FilePath.ofText psbt) = some p ∧ p.extract = .ok tx ∧
        effects = .print (Text.Hex.encode tx.bytes) :: (output.map fun path =>
          Effect.write path (Text.utf8 (Text.Hex.encode tx.bytes))).toList := by
  simp only [Command.effects, Steps.bind_eq_ok_iff, Steps.pure_eq_ok_iff,
    World.readPsbt_eq_ok_iff]
  constructor
  · rintro ⟨p, hp, tx, htx, rfl⟩
    exact ⟨p, tx, hp, htx, rfl⟩
  · rintro ⟨p, tx, hp, htx, rfl⟩
    exact ⟨p, hp, tx, htx, rfl⟩

end Command

/-- What has been shown is not changed by writing. -/
private theorem Outcome.shown_foldl_step_print (line : String) (output : Option String)
    (bytes : Bytes) :
    ((Effect.print line :: (output.map fun path => Effect.write path bytes).toList).foldl step
      (.begin files)).shown = line ++ "\n" := by
  cases output with
  | none => simp [step, begin]
  | some path =>
    simp only [Option.map_some, Option.toList_some, List.foldl_cons, List.foldl_nil, step, begin]
    cases files.write path bytes <;> simp

namespace Invocation

variable {i : Invocation}

/-- The copy that a command line computes from what is held. -/
def compute? (scheme : SignatureScheme) (m : Memory) (i : Invocation) : Option Psbt := do
  let network ← (Network.parse i.network).toOption
  i.command.compute? scheme network m

/-- With more in memory, no less is computed. -/
theorem compute?_mono {m n : Memory} {p : Psbt} (hmn : m.Within n)
    (h : i.compute? scheme m = some p) : i.compute? scheme n = some p := by
  obtain ⟨network, hnetwork, hp⟩ := Option.bind_eq_some_iff.mp h
  exact Option.bind_eq_some_iff.mpr ⟨network, hnetwork, Command.compute?_mono hmn hp⟩

/-- What is computed from copies that were read or created is one of those copies. -/
theorem obtained_of_compute? {m : Memory} {p : Psbt}
    (hm : ∀ names q, m.copy? names = some q → Psbt.Obtained scheme false q)
    (h : i.compute? scheme m = some p) : Psbt.Obtained scheme false p := by
  obtain ⟨network, -, hp⟩ := Option.bind_eq_some_iff.mp h
  exact Command.obtained_of_compute? hm hp

/-- Signing, making inputs final and changing the form keep copies within the limits. -/
theorem fits_of_compute? {m : Memory} {p : Psbt} (hkeeps : i.command.keepsLimits = true)
    (hm : ∀ names q, m.copy? names = some q → q.Shaped ∧ q.Fits)
    (h : i.compute? scheme m = some p) : p.Fits := by
  obtain ⟨network, -, hp⟩ := Option.bind_eq_some_iff.mp h
  exact Command.fits_of_compute? hkeeps hm hp

/-- **A command line that writes a copy succeeds** when it computes one and its file can be
written; what is changed is that file. -/
theorem run_eq_ok_iff (htarget : i.command.target? = some (output, form)) :
    (i.run scheme node files).result = .ok () ∧ (i.run scheme node files).files = after ↔
      ∃ p, i.compute? scheme (.ofFiles files) = some p ∧
        files.write output (p.exportAs form) = .ok after := by
  unfold run compute?
  cases Network.parse i.network with
  | error fault => simp [Except.toOption]
  | ok network => exact Command.run_eq_ok_iff htarget

/-- **What is shown of a copy that is complete** is its final transaction. -/
theorem shown_of_extract {psbt : String} {output : Option String} {p : Psbt} {tx : Transaction}
    (hcommand : i.command = .extract psbt output) (hnetwork : Network.parse i.network = .ok network)
    (hp : (Memory.ofFiles files).copy? (FilePath.ofText psbt) = some p) (htx : p.extract = .ok tx) :
    (i.run scheme node files).shown = Text.Hex.encode tx.bytes ++ "\n" := by
  have heffects : (Command.extract psbt output).effects scheme ⟨files.read, node⟩ network = .ok _ :=
    Command.effects_extract_eq_ok_iff.mpr ⟨p, tx, hp, htx, rfl⟩
  simp only [run, hnetwork, Command.run, hcommand, heffects]
  exact Outcome.shown_foldl_step_print _ _ _

/-- **The final transaction is shown** of the copy behind the path, which is complete. -/
theorem exists_of_extract {psbt : String} {output : Option String}
    (hcommand : i.command = .extract psbt output) (h : (i.run scheme node files).result = .ok ()) :
    ∃ p tx, (Memory.ofFiles files).copy? (FilePath.ofText psbt) = some p ∧ p.extract = .ok tx ∧
      (i.run scheme node files).shown = Text.Hex.encode tx.bytes ++ "\n" := by
  cases hnetwork : Network.parse i.network with
  | error fault => simp [run, hnetwork] at h
  | ok network =>
    cases heffects : i.command.effects scheme ⟨files.read, node⟩ network with
    | error fault => simp [run, hnetwork, Command.run, heffects] at h
    | ok effects =>
      rw [hcommand] at heffects
      obtain ⟨p, tx, hp, htx, -⟩ := Command.effects_extract_eq_ok_iff.mp heffects
      exact ⟨p, tx, hp, htx, shown_of_extract hcommand hnetwork hp htx⟩

end Invocation

end JointSpend.CommandLine
