import JointSpend.Proofs.Spend.Completeness
import Mathlib.Order.Bounds.Basic

set_option autoImplicit false
set_option relaxedAutoImplicit false

/-!
# Inputs become final independently

Inputs are made final one after another, in a copy that changes on the way. What becomes of an input
can nevertheless be told from the copy as it was, without regard to the other inputs: whether it is
made final, with which scripts, and what is left of its records. The same holds of its place in the
transaction that is extracted in the end.

## Main definitions

* `JointSpend.InputMap.MadeFinal` — an input that got its final scripts.
* `JointSpend.Psbt.Settles` — what becomes of an input, judged by the copy as it was.
* `JointSpend.Psbt.Lacks` — an input is open and cannot be made final.
* `JointSpend.Psbt.SentAs` — the transaction that is extracted from a complete copy.

## Main results

* `JointSpend.Psbt.finalize_at_once` — inputs become final as if all were tried at once.
* `JointSpend.Psbt.sentAs_of_finalTransaction`, `JointSpend.Psbt.toBool_finalTransaction`,
  `JointSpend.Psbt.isLeast_of_finalTransaction` — the transaction in the end, when there is one, and
  what is reported otherwise.
-/

namespace JointSpend

/-! ## Records that are left -/

namespace InputMap

/-- An input that got final scripts: it has them, an empty one left off, and of its other records
those that every input retains. -/
structure MadeFinal (scripts : FinalScripts) (x y : InputMap) : Prop where
  isFinal : InputMap.isFinal y = true
  scriptSig : y.get? .finalScriptSig =
    if scripts.scriptSig.isEmpty then none else some scripts.scriptSig
  witness : y.get? .finalScriptWitness =
    if scripts.witness.isEmpty then none else some scripts.witness
  others : ∀ k, InputKey.isUnited k = true → y.get? k = if k.isRetained then x.get? k else none

/-- The scripts of a final input, an absent one being empty. -/
def recordedScripts (x : InputMap) : FinalScripts :=
  ⟨(x.get? .finalScriptSig).getD .empty, (x.get? .finalScriptWitness).getD []⟩

/-- An input that got final scripts has them, whether or not one was left off. -/
theorem MadeFinal.recordedScripts_eq {scripts : FinalScripts} {x y : InputMap}
    (h : MadeFinal scripts x y) : y.recordedScripts = scripts := by
  obtain ⟨⟨script⟩, witness⟩ := scripts
  rw [recordedScripts, h.scriptSig, h.witness]
  cases script <;> cases witness <;> rfl

end InputMap

namespace Psbt

variable {scheme : SignatureScheme} {p : Psbt} {index : Nat} {tx : Transaction}

/-! ## What becomes of an input -/

variable (scheme p index) in
/-- What becomes of an input when all are made final, judged by the copy as it was. -/
inductive Settles (x : InputMap) : InputMap → Prop where
  /-- A final input stays as it is. -/
  | final (hx : InputMap.isFinal x = true) : Settles x x
  /-- An open input for which there are final scripts gets them. -/
  | satisfied {scripts : FinalScripts} {y : InputMap} (hx : InputMap.isFinal x = false)
      (hscripts : p.finalizeInput scheme index = .ok scripts)
      (hy : InputMap.MadeFinal scripts x y) : Settles x y
  /-- An open input that lacks something stays as it is. -/
  | lacking {missing : Missing} (hx : InputMap.isFinal x = false)
      (hmissing : p.finalizeInput scheme index = .error missing) : Settles x x

/-- Scripts that an input can be given make it final. -/
private theorem madeFinal_applyFinal {scripts : FinalScripts}
    (h : p.finalizeInput scheme index = .ok scripts) (x : InputMap) :
    InputMap.MadeFinal scripts x (InputMap.applyFinal x scripts) where
  isFinal := isFinal_applyFinal_of_finalizeInput h x
  scriptSig := InputMap.get?_applyFinal_scriptSig x scripts
  witness := InputMap.get?_applyFinal_witness x scripts
  others _ hk := InputMap.get?_applyFinal hk x scripts

/-- What the dry run makes of an input. -/
private theorem settles_dryRunInput (scheme : SignatureScheme) (p : Psbt) (index : Nat)
    (x : InputMap) : Settles scheme p index x (dryRunInput x (p.outcome scheme index x)) := by
  cases hx : InputMap.isFinal x with
  | true =>
    rw [dryRunInput_of_isFinal hx]
    exact .final hx
  | false =>
    rw [outcome, if_neg (by simp [hx])]
    cases hinput : p.finalizeInput scheme index with
    | ok scripts => exact .satisfied hx hinput (madeFinal_applyFinal hinput x)
    | error missing => exact .lacking hx hinput

variable (scheme p) in
/-- The inputs after all were made final. -/
theorem getElem?_inputs_finalize (i : Nat) : (p.finalize scheme).inputs[i]? =
    (p.inputs[i]?).map fun x => dryRunInput x (p.outcome scheme i x) := by
  rw [finalize_eq_dryRun, getElem?_inputs_dryRun]

/-- **Inputs become final as if all were tried at once.** What becomes of an input is judged by the
copy as it was: a final input stays as it is, and so does one that lacks something; any other gets
the final scripts that it can be given there, and keeps the retained records only. Nothing else in
the copy changes. Doing it again changes nothing, and gives the same judgment of whether all inputs
are final.

**Proof sketch.** The outcome is the dry run, which by definition tries all inputs on the first
copy. That the copy changes on the way does not matter, as the copies spend alike: final scripts
depend on an input's own records and on the outputs that the inputs spend, and those records are
retained. -/
theorem finalize_at_once (scheme : SignatureScheme) (p : Psbt) :
    (p.finalize scheme).transaction = p.transaction ∧
      (p.finalize scheme).globals = p.globals ∧
      (p.finalize scheme).outputs = p.outputs ∧
      (p.finalize scheme).inputs.length = p.inputs.length ∧
      (∀ (i : Nat) (x y : InputMap), p.inputs[i]? = some x →
        (p.finalize scheme).inputs[i]? = some y → Settles scheme p i x y) ∧
      (p.finalize scheme).finalize scheme = p.finalize scheme ∧
      ((p.finalize scheme).finalize scheme).allFinal = (p.finalize scheme).allFinal := by
  have hagain : (p.finalize scheme).finalize scheme = p.finalize scheme := finalize_finalize
  have hdry : p.finalize scheme = p.dryRun scheme := finalize_eq_dryRun scheme p
  refine ⟨?_, ?_, ?_, ?_, fun i x y hx hy => ?_, hagain, congrArg allFinal hagain⟩
  · rw [hdry]
    rfl
  · rw [hdry]
    rfl
  · rw [hdry]
    rfl
  · simp [hdry, dryRun]
  · rw [getElem?_inputs_finalize, hx, Option.map_some, Option.some.injEq] at hy
    rw [← hy]
    exact settles_dryRunInput scheme p i x

/-! ## The transaction in the end -/

variable (scheme p) in
/-- The scripts that an input has in the transaction in the end: those that are recorded, if it is
final, and otherwise those that it can be given. -/
def scriptsFor (i : Nat) (x : InputMap) : Option FinalScripts :=
  if InputMap.isFinal x then some x.recordedScripts else (p.finalizeInput scheme i).toOption

variable (scheme p) in
/-- An input is open and lacks something. -/
def Lacks (i : Nat) : Prop :=
  ∃ x missing, p.inputs[i]? = some x ∧ InputMap.isFinal x = false ∧
    p.finalizeInput scheme i = .error missing

variable (scheme p tx) in
/-- The transaction of a copy with final scripts for every input. -/
structure SentAs : Prop where
  version : tx.version = p.transaction.version
  lockTime : tx.lockTime = p.transaction.lockTime
  outputs : tx.outputs = p.transaction.outputs
  length : tx.inputs.length = p.transaction.inputs.length
  /-- Each input spends what it spent before, with its final scripts. -/
  inputs : ∀ (i : Nat) (txInput : TxInput) (x : InputMap),
    p.transaction.inputs[i]? = some txInput → p.inputs[i]? = some x →
      ∃ scripts, p.scriptsFor scheme i x = some scripts ∧ tx.inputs[i]? =
        some ⟨txInput.previous, scripts.scriptSig, txInput.sequence, scripts.witness⟩

/-- An open input has the scripts that it can be given. -/
theorem scriptsFor_of_open {x : InputMap} {scripts : FinalScripts}
    (hx : InputMap.isFinal x = false) (h : p.finalizeInput scheme index = .ok scripts) :
    p.scriptsFor scheme index x = some scripts := by
  rw [scriptsFor, if_neg (by simp [hx]), h]
  rfl

/-- A final input has the scripts that it has in the transaction in the end. -/
theorem Settles.scriptsFor_eq {x y : InputMap} (h : Settles scheme p index x y)
    (hy : InputMap.isFinal y = true) : p.scriptsFor scheme index x = some y.recordedScripts := by
  cases h with
  | final hx => rw [scriptsFor, if_pos hx]
  | satisfied hx hscripts hmade => rw [scriptsFor_of_open hx hscripts, hmade.recordedScripts_eq]
  | lacking hx => simp [hx] at hy

/-- An input stays open exactly when it lacks something. -/
private theorem lacks_iff : p.Lacks scheme index ↔
    ∃ y, (p.finalize scheme).inputs[index]? = some y ∧ InputMap.isFinal y = false := by
  rw [getElem?_inputs_finalize]
  constructor
  · rintro ⟨x, missing, hx, hopen, hmissing⟩
    refine ⟨_, by rw [hx, Option.map_some], ?_⟩
    rw [isFinal_dryRunInput, hopen, hmissing]
    rfl
  · rintro ⟨y, hy, hopen⟩
    obtain ⟨x, hx, rfl⟩ := Option.map_eq_some_iff.mp hy
    rw [isFinal_dryRunInput, Bool.or_eq_false_iff] at hopen
    cases hinput : p.finalizeInput scheme index with
    | ok scripts => simp [hinput, Except.toBool] at hopen
    | error missing => exact ⟨x, missing, hx, hopen.1, hinput⟩

/-- What keeps inputs from being extracted is the first open one among them. -/
private theorem isLeast_of_extractInputs {start : Nat} {txInputs : List TxInput}
    {inputs : List InputMap} {fault : Fault} (hlen : inputs.length = txInputs.length)
    (h : extractInputs start txInputs inputs = .error fault) :
    ∃ i, IsLeast {i | ∃ y, inputs[i]? = some y ∧ InputMap.isFinal y = false} i ∧
      fault = .inputNotFinal (start + i) := by
  induction txInputs generalizing start inputs with
  | nil => simp [extractInputs] at h
  | cons txInput txInputs ih =>
    cases inputs with
    | nil => simp at hlen
    | cons input inputs =>
      rw [extractInputs] at h
      cases hfinal : InputMap.isFinal input with
      | false =>
        rw [hfinal, if_neg (by simp)] at h
        exact ⟨0, ⟨⟨input, rfl, hfinal⟩, fun _ _ => Nat.zero_le _⟩, (Except.error.inj h).symm⟩
      | true =>
        rw [if_pos hfinal] at h
        obtain ⟨i, ⟨hi, hleast⟩, rfl⟩ :=
          ih (by simpa using hlen) (Steps.bind_pure_eq_error_iff.mp h)
        refine ⟨i + 1, ⟨hi, ?_⟩, by rw [Nat.add_assoc, Nat.add_comm 1]⟩
        rintro (_ | j) ⟨y, hy, hopen⟩
        · rw [List.getElem?_cons_zero, Option.some.injEq] at hy
          simp [← hy, hfinal] at hopen
        · exact Nat.succ_le_succ (hleast ⟨y, hy, hopen⟩)

/-- **The transaction in the end** is that of the copy, with final scripts for every input. -/
theorem sentAs_of_finalTransaction (hp : p.Shaped) (h : p.finalTransaction scheme = .ok tx) :
    SentAs scheme p tx := by
  have halike : SpendsAlike p (p.finalize scheme) := spendsAlike_finalize
  have hsame : (p.finalize scheme).transaction = p.transaction := halike.transaction.symm
  obtain ⟨hall, htx⟩ := (extract_eq_ok_iff hp.finalize).mp h
  rw [hsame] at htx
  have hlength : (p.finalize scheme).inputs.length = p.transaction.inputs.length :=
    hsame ▸ hp.finalize.length_inputs
  refine ⟨by rw [htx], by rw [htx], by rw [htx], by simp [htx, hlength],
    fun i txInput x htxInput hx => ?_⟩
  have hy := getElem?_inputs_finalize scheme p i
  rw [hx, Option.map_some] at hy
  have hsettles := settles_dryRunInput scheme p i x
  refine ⟨_, hsettles.scriptsFor_eq (allFinal_iff.mp hall i _ hy), ?_⟩
  rw [htx]
  simp only [List.getElem?_zipWith, htxInput, hy]
  rfl

/-- There is a transaction in the end exactly when the copy is complete. -/
theorem toBool_finalTransaction (hp : p.Shaped) :
    (p.finalTransaction scheme).toBool = p.isComplete scheme := by
  rw [finalTransaction, toBool_extract hp.finalize, allFinal_finalize]

/-- **What is reported** when there is no transaction in the end is the first input that lacks
something. -/
theorem isLeast_of_finalTransaction {fault : Fault} (hp : p.Shaped)
    (h : p.finalTransaction scheme = .error fault) :
    ∃ i, IsLeast {i | p.Lacks scheme i} i ∧ fault = .inputNotFinal i := by
  have hinputs : extractInputs 0 (p.finalize scheme).transaction.inputs
      (p.finalize scheme).inputs = .error fault :=
    Steps.bind_pure_eq_error_iff.mp h
  obtain ⟨i, hleast, hfault⟩ := isLeast_of_extractInputs hp.finalize.length_inputs hinputs
  simp only [lacks_iff]
  exact ⟨i, hleast, by rwa [Nat.zero_add] at hfault⟩

end Psbt

end JointSpend
