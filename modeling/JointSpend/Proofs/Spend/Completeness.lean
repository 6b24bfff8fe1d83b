import JointSpend.Proofs.Spend.Finalizing
import JointSpend.Workflow

set_option autoImplicit false
set_option relaxedAutoImplicit false

/-!
# Completeness

Whether all that is needed has been collected is asked in several places: before inputs are made
final and afterwards, by an analysis, when the transaction is extracted, and before it is sent. All
of them give one answer. Making all inputs final changes nothing that an analysis says but that the
inputs are final.

## Main definitions

* `JointSpend.TxInput.withFinal` — an input of a transaction with its final scripts.
* `JointSpend.Analysis.FinalizesTo` — what is left of an analysis when all inputs are made final.

## Main results

* `JointSpend.Psbt.extract_eq_ok_iff` — the transaction is extracted exactly when all inputs are
  final.
* `JointSpend.Psbt.allFinal_finalize` — all inputs become final exactly when the copy is complete.
* `JointSpend.Psbt.analyze_allSigned`, `JointSpend.Psbt.analyze_estimatedSize` — what an analysis
  says of completeness.
* `JointSpend.Psbt.completeness_agrees` — all judgments agree.
-/

namespace JointSpend

/-! ## Extraction -/

/-- The input of a transaction with its final scripts. -/
def TxInput.withFinal (txInput : TxInput) (input : InputMap) : TxInput :=
  ⟨txInput.previous, (input.get? .finalScriptSig).getD .empty, txInput.sequence,
    (input.get? .finalScriptWitness).getD []⟩

/-- It is never the turn of the one who makes inputs final to supply what is missing. -/
private theorem Missing.role_ne_finalizer (missing : Missing) : missing.role ≠ .finalizer := by
  cases missing <;> simp [role]

namespace Psbt

variable {scheme : SignatureScheme} {p q : Psbt} {network : Network}

/-- Inputs are extracted exactly when all are final. -/
private theorem extractInputs_eq_ok_iff {index : Nat} {txInputs result : List TxInput}
    {inputs : List InputMap} (hlen : inputs.length = txInputs.length) :
    extractInputs index txInputs inputs = .ok result ↔
      inputs.all InputMap.isFinal = true ∧
        result = List.zipWith TxInput.withFinal txInputs inputs := by
  induction txInputs generalizing index inputs result with
  | nil =>
    obtain rfl := List.length_eq_zero_iff.mp hlen
    simp [extractInputs, eq_comm]
  | cons txInput txInputs ih =>
    cases inputs with
    | nil => simp at hlen
    | cons input inputs =>
      have hlen' : inputs.length = txInputs.length := by simpa using hlen
      rw [extractInputs, List.all_cons, List.zipWith_cons_cons]
      cases hfinal : InputMap.isFinal input with
      | false => simp [Steps.throw_ne_ok]
      | true =>
        rw [if_pos rfl, Bool.true_and]
        simp only [Steps.bind_eq_ok_iff, Steps.pure_eq_ok_iff, ih hlen']
        constructor
        · rintro ⟨rest, ⟨hall, rfl⟩, rfl⟩
          exact ⟨hall, rfl⟩
        · rintro ⟨hall, rfl⟩
          exact ⟨_, ⟨hall, rfl⟩, rfl⟩

/-- **The transaction is extracted exactly when all inputs are final.** -/
theorem extract_eq_ok_iff (hp : p.Shaped) {tx : Transaction} :
    p.extract = .ok tx ↔ p.allFinal = true ∧
      tx = { p.transaction with
        inputs := List.zipWith TxInput.withFinal p.transaction.inputs p.inputs } := by
  simp only [extract, allFinal, Steps.bind_eq_ok_iff, Steps.pure_eq_ok_iff,
    extractInputs_eq_ok_iff hp.length_inputs]
  constructor
  · rintro ⟨inputs, ⟨hall, rfl⟩, rfl⟩
    exact ⟨hall, rfl⟩
  · rintro ⟨hall, rfl⟩
    exact ⟨_, ⟨hall, rfl⟩, rfl⟩

/-- Whether the transaction can be extracted. -/
theorem toBool_extract (hp : p.Shaped) : p.extract.toBool = p.allFinal := by
  cases hextract : p.extract with
  | ok tx => exact ((extract_eq_ok_iff hp).mp hextract).1.symm
  | error fault =>
    cases hall : p.allFinal with
    | false => rfl
    | true => simp [(extract_eq_ok_iff hp).mpr ⟨hall, rfl⟩] at hextract

/-! ## Complete copies -/

/-- All inputs are final when each of them is. -/
theorem allFinal_iff : p.allFinal = true ↔
    ∀ (i : Nat) (x : InputMap), p.inputs[i]? = some x → InputMap.isFinal x = true := by
  simp only [allFinal, List.all_eq_true, List.mem_iff_getElem?, forall_exists_index]
  exact forall_comm

/-- A copy is complete when each of its inputs is final or can be made so. -/
theorem isComplete_iff : p.isComplete scheme = true ↔
    ∀ (i : Nat) (x : InputMap), p.inputs[i]? = some x →
      (InputMap.isFinal x || (p.finalizeInput scheme i).toBool) = true := by
  simp only [isComplete, inputComplete, List.all_eq_true, List.mem_range]
  constructor
  · intro h i x hx
    have hi := h i (List.getElem?_eq_some_iff.mp hx).1
    rwa [hx, Option.any_some] at hi
  · intro h i hi
    have hx := List.getElem?_eq_getElem hi
    rw [hx, Option.any_some]
    exact h i _ hx

/-- **All inputs become final exactly when the copy is complete.** -/
theorem allFinal_finalize : (p.finalize scheme).allFinal = p.isComplete scheme := by
  rw [Bool.eq_iff_iff, allFinal_iff, isComplete_iff, finalize_eq_dryRun]
  simp only [getElem?_inputs_dryRun, Option.map_eq_some_iff]
  constructor
  · intro h i x hx
    rw [← isFinal_dryRunInput]
    exact h i _ ⟨x, hx, rfl⟩
  · rintro h i _ ⟨x, hx, rfl⟩
    rw [isFinal_dryRunInput]
    exact h i x hx

/-- A copy is as complete as before when all inputs are made final. -/
private theorem isComplete_finalize :
    (p.finalize scheme).isComplete scheme = p.isComplete scheme := by
  rw [← allFinal_finalize, finalize_finalize, allFinal_finalize]

/-! ## Analyses -/

/-- Whether the output is known that an input spends does not depend on what comes of the input. -/
private theorem inputStatus_hasUtxo (i : Nat) (o : Option (Except Missing FinalScripts)) :
    (p.inputStatus i o).hasUtxo = (p.spentOutput? i).isSome := by
  rcases o with _ | _ | _ <;> rfl

/-- An input is stated to be final when it is. -/
private theorem inputStatus_isFinal (i : Nat) (x : InputMap) :
    (p.inputStatus i (p.outcome scheme i x)).isFinal = InputMap.isFinal x := by
  unfold outcome
  cases InputMap.isFinal x with
  | true => rfl
  | false => cases p.finalizeInput scheme i <;> rfl

/-- An input is stated to be signed when it is final or can be made so. -/
private theorem inputStatus_isSigned (i : Nat) (x : InputMap) :
    ((p.inputStatus i (p.outcome scheme i x)).isFinal ||
        (p.inputStatus i (p.outcome scheme i x)).next == some .finalizer) =
      (InputMap.isFinal x || (p.finalizeInput scheme i).toBool) := by
  rw [inputStatus_isFinal]
  cases hx : InputMap.isFinal x with
  | true => rfl
  | false =>
    rw [outcome, if_neg (by simp [hx])]
    cases p.finalizeInput scheme i with
    | ok scripts => rfl
    | error missing => simp [inputStatus, missing.role_ne_finalizer, Except.toBool]

variable (scheme p network)

/-- The states of the inputs. -/
theorem analyze_inputs : (p.analyze scheme network).inputs =
    p.inputs.mapIdx fun i x => p.inputStatus i (p.outcome scheme i x) := by
  simp only [analyze, List.mapIdx_mapIdx, Function.comp_def]

/-- What an analysis says of the inputs, it says of each. -/
private theorem all_analyze_inputs (f : InputStatus → Bool) :
    (p.analyze scheme network).inputs.all f = true ↔
      ∀ (i : Nat) (x : InputMap), p.inputs[i]? = some x →
        f (p.inputStatus i (p.outcome scheme i x)) = true := by
  simp only [analyze_inputs, List.all_eq_true, List.mem_iff_getElem?, List.getElem?_mapIdx,
    Option.map_eq_some_iff]
  constructor
  · intro h i x hx
    exact h _ ⟨i, x, hx, rfl⟩
  · rintro h _ ⟨i, x, hx, rfl⟩
    exact h i x hx

/-- An analysis says that all inputs are final when they are. -/
theorem analyze_allFinal : (p.analyze scheme network).allFinal = p.allFinal := by
  have hall := all_analyze_inputs scheme p network (·.isFinal)
  simp only [inputStatus_isFinal, ← allFinal_iff] at hall
  exact Bool.eq_iff_iff.mpr hall

/-- **An analysis says that all is signed when the copy is complete.** -/
theorem analyze_allSigned : (p.analyze scheme network).allSigned = p.isComplete scheme := by
  have hall := all_analyze_inputs scheme p network fun s =>
    s.isFinal || s.next == some .finalizer
  simp only [inputStatus_isSigned, ← isComplete_iff] at hall
  exact Bool.eq_iff_iff.mpr hall

/-- **The estimated size** is that of the transaction to come, when the fee is known and the copy is
complete. -/
theorem analyze_estimatedSize : (p.analyze scheme network).estimatedSize =
    if p.fee.isSome && p.isComplete scheme then
      (p.finalize scheme).extract.toOption.map Transaction.virtualSize
    else none := by
  rw [← analyze_allSigned scheme p network, finalize_eq_dryRun, dryRun_eq_map]
  rfl

/-- The estimated rate of the fee follows from the fee and the estimated size. -/
theorem analyze_estimatedFeeRate : (p.analyze scheme network).estimatedFeeRate =
    (do
      let fee ← p.fee
      let size ← (p.analyze scheme network).estimatedSize
      if 0 < size then some (feeRate fee size) else none) :=
  rfl

/-- Whose turn it is follows from the states of the inputs. -/
theorem analyze_nextRole : (p.analyze scheme network).nextRole =
    nextRole (p.analyze scheme network).inputs (p.analyze scheme network).allFinal
      (p.analyze scheme network).allSigned :=
  rfl

/-- For which inputs the output is known that they spend. -/
theorem map_hasUtxo_analyze_inputs : (p.analyze scheme network).inputs.map (·.hasUtxo) =
    (List.range p.inputs.length).map fun i => (p.spentOutput? i).isSome := by
  refine List.ext_getElem? fun i => ?_
  rw [analyze_inputs, List.getElem?_map, List.getElem?_map, List.getElem?_mapIdx]
  by_cases hi : i < p.inputs.length
  · simp [hi, inputStatus_hasUtxo]
  · simp [hi]

variable {scheme p network}

/-- Some spent output is unknown unless all are known. -/
theorem any_not_hasUtxo (statuses : List InputStatus) :
    (statuses.any fun s => !s.hasUtxo) = !(statuses.map (·.hasUtxo)).all id := by
  simp [List.all_map, List.any_eq_not_all_not]

/-- Inputs can be made final when every spent output is known and all is signed, but not final. -/
private theorem nextRole_eq_finalizer_iff {statuses : List InputStatus}
    {allFinal allSigned : Bool} :
    nextRole statuses allFinal allSigned = .finalizer ↔
      (statuses.map (·.hasUtxo)).all id = true ∧ allFinal = false ∧ allSigned = true := by
  rw [nextRole, any_not_hasUtxo]
  cases (statuses.map (·.hasUtxo)).all id <;> cases allFinal <;> cases allSigned <;> simp

/-- The transaction can be extracted when every spent output is known and all is final. -/
private theorem nextRole_eq_extractor_iff {statuses : List InputStatus}
    {allFinal allSigned : Bool} :
    nextRole statuses allFinal allSigned = .extractor ↔
      (statuses.map (·.hasUtxo)).all id = true ∧ allFinal = true := by
  rw [nextRole, any_not_hasUtxo]
  cases (statuses.map (·.hasUtxo)).all id <;> cases allFinal <;> cases allSigned <;> simp

namespace SpendsAlike

/-- Copies that spend alike spend the same amount. -/
theorem inputTotal_eq (h : SpendsAlike p q) : p.inputTotal = q.inputTotal := by
  simp only [inputTotal, h.length, h.spent]

/-- Copies that spend alike pay the same amount. -/
theorem outputTotal_eq (h : SpendsAlike p q) : p.outputTotal = q.outputTotal := by
  rw [outputTotal, outputTotal, h.transaction]

/-- Copies that spend alike pay the same fee. -/
theorem fee_eq (h : SpendsAlike p q) : p.fee = q.fee := by
  rw [fee, fee, h.inputTotal_eq, h.outputTotal_eq]

end SpendsAlike

end Psbt

/-! ## The analysis of the finalized copy -/

/-- What is left of an analysis when all inputs are made final: nothing changes but that the inputs
are final, as far as all is signed. -/
structure Analysis.FinalizesTo (a b : Analysis) : Prop where
  fee : b.fee = a.fee
  inputTotal : b.inputTotal = a.inputTotal
  outputTotal : b.outputTotal = a.outputTotal
  outputs : b.outputs = a.outputs
  allSigned : b.allSigned = a.allSigned
  estimatedSize : b.estimatedSize = a.estimatedSize
  estimatedFeeRate : b.estimatedFeeRate = a.estimatedFeeRate
  hasUtxo : b.inputs.map (·.hasUtxo) = a.inputs.map (·.hasUtxo)
  /-- All is final that was signed. -/
  allFinal : b.allFinal = a.allSigned
  /-- The transaction can be extracted once inputs could be made final. -/
  nextRole : a.nextRole = .finalizer → b.nextRole = .extractor

namespace Psbt

variable {scheme : SignatureScheme} {p : Psbt}

/-- **Making all inputs final** changes nothing that an analysis says but that they are final. -/
theorem analyze_finalizesTo (p : Psbt) (network : Network) :
    (p.analyze scheme network).FinalizesTo ((p.finalize scheme).analyze scheme network) := by
  have halike : SpendsAlike p (p.finalize scheme) := spendsAlike_finalize
  have hsigned : ((p.finalize scheme).analyze scheme network).allSigned =
      (p.analyze scheme network).allSigned := by
    rw [analyze_allSigned, analyze_allSigned, isComplete_finalize]
  have hsize : ((p.finalize scheme).analyze scheme network).estimatedSize =
      (p.analyze scheme network).estimatedSize := by
    rw [analyze_estimatedSize, analyze_estimatedSize, isComplete_finalize, finalize_finalize,
      halike.fee_eq]
  have hutxo : ((p.finalize scheme).analyze scheme network).inputs.map (·.hasUtxo) =
      (p.analyze scheme network).inputs.map (·.hasUtxo) := by
    simp only [map_hasUtxo_analyze_inputs, halike.length, halike.spent]
  have hfinal : ((p.finalize scheme).analyze scheme network).allFinal =
      (p.analyze scheme network).allSigned := by
    rw [analyze_allFinal, allFinal_finalize, analyze_allSigned]
  exact
    { fee := halike.fee_eq.symm
      inputTotal := halike.inputTotal_eq.symm
      outputTotal := halike.outputTotal_eq.symm
      outputs := by simp only [analyze, ← halike.transaction]
      allSigned := hsigned
      estimatedSize := hsize
      estimatedFeeRate := by
        rw [analyze_estimatedFeeRate, analyze_estimatedFeeRate, hsize, halike.fee_eq]
      hasUtxo := hutxo
      allFinal := hfinal
      nextRole := fun h => by
        rw [analyze_nextRole, nextRole_eq_finalizer_iff] at h
        rw [analyze_nextRole, nextRole_eq_extractor_iff, hutxo, hfinal]
        exact ⟨h.1, h.2.2⟩ }

/-- **All judgments of completeness agree** on a copy that was read: that all inputs are final or
can be made so, that they are final once it was tried, that an analysis takes all for signed, that
the transaction can be extracted from the finalized copy, and that a workflow with the copy can send
it. What an analysis says of the finalized copy is what it says of the copy, and the size that it
estimates is that of the transaction.

**Proof sketch.** The finalized copy is the dry run, on which the inputs are final that are final or
can be made so. It spends alike, so that its analysis has the same amounts, and it is finalized
already. -/
theorem completeness_agrees (scheme : SignatureScheme) (hp : p.Decoded) {w : Workflow}
    (hw : w.assembled = some p) (network : Network) :
    (p.finalize scheme).allFinal = p.isComplete scheme ∧
      (p.analyze scheme network).allSigned = p.isComplete scheme ∧
      (p.finalize scheme).extract.toBool = p.isComplete scheme ∧
      w.canSend scheme = p.isComplete scheme ∧
      (p.analyze scheme network).FinalizesTo ((p.finalize scheme).analyze scheme network) ∧
      ∀ size, (p.analyze scheme network).estimatedSize = some size →
        ∃ tx, (p.finalize scheme).extract = .ok tx ∧ tx.virtualSize = size := by
  have hshaped : (p.finalize scheme).Shaped := hp.shaped.finalize
  refine ⟨allFinal_finalize, analyze_allSigned scheme p network, ?_, ?_,
    analyze_finalizesTo p network, fun size hsize => ?_⟩
  · rw [toBool_extract hshaped, allFinal_finalize]
  · rw [Workflow.canSend, hw, Option.any_some]
  · rw [analyze_estimatedSize] at hsize
    split at hsize
    · cases hextract : (p.finalize scheme).extract with
      | ok tx => exact ⟨tx, rfl, by simpa [hextract, Except.toOption] using hsize⟩
      | error fault => simp [hextract, Except.toOption] at hsize
    · simp at hsize

/-- A signed copy that was assembled: its input can be made final, after which the transaction can
be extracted, with the estimated size. -/
theorem completeness_agrees_sampleKeyScript :
    (sampleSigned sampleKeyScript).Decoded ∧
      ((sampleSigned sampleKeyScript).analyze Curve.secp256k1 .bitcoin).nextRole = .finalizer ∧
      (((sampleSigned sampleKeyScript).finalize Curve.secp256k1).analyze Curve.secp256k1
        .bitcoin).nextRole = .extractor ∧
      ∃ tx, ((sampleSigned sampleKeyScript).finalize Curve.secp256k1).extract = .ok tx ∧
        tx.virtualSize = 89 := by
  have hdecoded : (sampleSigned sampleKeyScript).Decoded :=
    @Decoded.of_ofBytes? _ (sampleSigned sampleKeyScript).bytes (by decide +kernel)
  have hanalysis : ((sampleSigned sampleKeyScript).analyze Curve.secp256k1 .bitcoin).nextRole =
      .finalizer ∧ ((sampleSigned sampleKeyScript).analyze Curve.secp256k1
        .bitcoin).estimatedSize = some 89 := by
    decide +kernel
  obtain ⟨-, -, -, -, hfinal, hsize⟩ := completeness_agrees Curve.secp256k1 hdecoded
    (w := { Workflow.new true with assembled := some (sampleSigned sampleKeyScript) }) rfl .bitcoin
  exact ⟨hdecoded, hanalysis.1, hfinal.nextRole hanalysis.1, hsize _ hanalysis.2⟩

end Psbt

end JointSpend
