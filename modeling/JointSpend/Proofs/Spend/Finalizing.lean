import JointSpend.Analysis
import JointSpend.Proofs.Merge.Outcome
import JointSpend.Proofs.Spend.Validity

set_option autoImplicit false
set_option relaxedAutoImplicit false

/-!
# Making all inputs final

Inputs are made final one after another, each on the copy that the inputs before it have left. What
comes of an input depends only on its own records, on the transaction and on the outputs that all
inputs spend, and an input that becomes final keeps what is known about its output. So the order
does not matter: all inputs can be tried on the first copy, which is what the dry run of an analysis
does.

## Main definitions

* `JointSpend.Psbt.SpendsAlike` — two copies of one transaction that know the same spent outputs.
* `JointSpend.Psbt.dryRun` — every input made final that can be, each on the given copy.

## Main results

* `JointSpend.Psbt.SpendsAlike.finalizeInput_eq` — what the final scripts of an input depend on.
* `JointSpend.Psbt.isFinal_applyFinal_of_finalizeInput` — with them an input is final.
* `JointSpend.Psbt.finalize_eq_dryRun` — making all inputs final is the dry run.
* `JointSpend.Psbt.finalize_finalize` — doing so once is enough.
-/

namespace JointSpend.Psbt

variable {scheme : SignatureScheme} {p q : Psbt} {index : Nat}

/-- Copies are equal when everything but the inputs is, and the inputs are, one by one. -/
theorem ext_inputs (htx : p.transaction = q.transaction) (hglobals : p.globals = q.globals)
    (houtputs : p.outputs = q.outputs) (h : ∀ i : Nat, p.inputs[i]? = q.inputs[i]?) : p = q := by
  have hinputs : p.inputs = q.inputs := List.ext_getElem? h
  obtain ⟨tx, globals, inputs, outputs⟩ := p
  obtain ⟨tx', globals', inputs', outputs'⟩ := q
  simp only at htx hglobals houtputs hinputs
  rw [htx, hglobals, houtputs, hinputs]

/-! ## Copies that spend alike -/

/-- Two copies are for one transaction, and their inputs spend the same outputs, as far as these are
known. -/
structure SpendsAlike (p q : Psbt) : Prop where
  transaction : p.transaction = q.transaction
  length : p.inputs.length = q.inputs.length
  spent : ∀ i, p.spentOutput? i = q.spentOutput? i

namespace SpendsAlike

/-- Copies spend alike when their inputs have the same retained records. -/
theorem of_retained (htx : p.transaction = q.transaction)
    (hlen : p.inputs.length = q.inputs.length)
    (h : Pointwise (fun x y => ∀ k, InputKey.isRetained k = true → y.get? k = x.get? k)
      p.inputs q.inputs) : SpendsAlike p q := by
  refine ⟨htx, hlen, fun i => ?_⟩
  unfold spentOutput?
  cases hx : p.inputs[i]? with
  | none =>
    have hy : q.inputs[i]? = none := by
      rw [List.getElem?_eq_none_iff] at hx ⊢
      omega
    rw [hy]
    rfl
  | some x =>
    obtain ⟨hlt, -⟩ := List.getElem?_eq_some_iff.mp hx
    have hy := List.getElem?_eq_getElem (hlen ▸ hlt)
    have hget := h i x _ hx hy
    simp only [hy, htx, Option.bind_eq_bind, Option.bind_some, hget .nonWitnessUtxo rfl,
      hget .witnessUtxo rfl]

/-- A copy spends like one with an input that has the same retained records. -/
theorem setInput_retained {x y : InputMap} (hx : p.inputs[index]? = some x)
    (h : ∀ k, InputKey.isRetained k = true → y.get? k = x.get? k) :
    SpendsAlike p (p.setInput index y) := by
  refine .of_retained rfl (by simp [setInput]) fun i a b ha hb k hk => ?_
  rw [getElem?_inputs_setInput] at hb
  split at hb
  · next hi =>
    rw [hi, hx] at ha
    obtain rfl := Option.some.inj ha
    rw [hi, hx] at hb
    rw [← Option.some.inj hb, h k hk]
  · rw [Option.some.inj (ha.symm.trans hb)]

/-- Spending alike goes both ways. -/
theorem symm (h : SpendsAlike p q) : SpendsAlike q p :=
  ⟨h.transaction.symm, h.length.symm, fun i => (h.spent i).symm⟩

/-- Spending alike goes on. -/
theorem trans {r : Psbt} (h : SpendsAlike p q) (h' : SpendsAlike q r) : SpendsAlike p r :=
  ⟨h.transaction.trans h'.transaction, h.length.trans h'.length,
    fun i => (h.spent i).trans (h'.spent i)⟩

/-- Copies that spend alike do so with the same records for an input. -/
theorem setInput (h : SpendsAlike p q) (index : Nat) (x : InputMap) :
    SpendsAlike (p.setInput index x) (q.setInput index x) := by
  have hlength : (p.setInput index x).inputs.length = (q.setInput index x).inputs.length := by
    simp [Psbt.setInput, h.length]
  have htx : (p.setInput index x).transaction = (q.setInput index x).transaction := h.transaction
  refine ⟨htx, hlength, fun i => ?_⟩
  by_cases hi : i = index
  · subst hi
    have hsame : (p.setInput i x).inputs[i]? = (q.setInput i x).inputs[i]? := by
      simp [Psbt.setInput, List.getElem?_set, h.length]
    unfold spentOutput?
    rw [hsame, htx]
  · have hother : ∀ r : Psbt, (r.setInput index x).spentOutput? i = r.spentOutput? i := fun r => by
      unfold spentOutput?
      rw [getElem?_inputs_setInput, if_neg hi]
      rfl
    rw [hother, hother, h.spent]

/-- Copies that spend alike have the same ECDSA digests. -/
theorem ecdsaDigest_eq (h : SpendsAlike p q) (path : SpendPath) (type : SighashType) :
    p.ecdsaDigest index path type = q.ecdsaDigest index path type := by
  unfold ecdsaDigest
  rw [h.transaction]

/-- Copies that spend alike have the same taproot digests. -/
theorem taprootDigest_eq (h : SpendsAlike p q) (type : TaprootSighashType) :
    p.taprootDigest index type = q.taprootDigest index type := by
  have hspent : ∀ count start, p.spentOutputsFrom count start = q.spentOutputsFrom count start := by
    intro count
    induction count with
    | zero => exact fun _ => rfl
    | succ count ih =>
      intro start
      simp only [spentOutputsFrom, h.spent, ih]
  unfold taprootDigest
  rw [hspent, h.length, h.transaction]

/-- Copies that spend alike accept the same ECDSA signatures. -/
theorem verifies_eq (h : SpendsAlike p q) (path : SpendPath) (key : PublicKey)
    (sig : TypedSignature) :
    p.verifies scheme index path key sig = q.verifies scheme index path key sig := by
  unfold verifies
  rw [h.ecdsaDigest_eq]

/-- Copies that spend alike accept the same taproot signatures. -/
theorem verifiesTaproot_eq (h : SpendsAlike p q) (outputKey : Curve.XOnly) :
    p.verifiesTaproot scheme index outputKey = q.verifiesTaproot scheme index outputKey := by
  funext sig
  unfold verifiesTaproot
  rw [h.taprootDigest_eq]

/-- An input with the same records in copies that spend alike is spent in the same way. -/
theorem spendPath_eq (h : SpendsAlike p q) (hinput : p.inputs[index]? = q.inputs[index]?) :
    p.spendPath index = q.spendPath index := by
  unfold spendPath
  rw [hinput, h.spent, h.length]

/-- An input with the same records in copies that spend alike is satisfied by the same stack. -/
theorem templateStack_eq (h : SpendsAlike p q) (input : InputMap) (path : SpendPath)
    (template : Template) : p.templateStack scheme index input path template =
      q.templateStack scheme index input path template := by
  have hvalid : p.validSignature? scheme index input path =
      q.validSignature? scheme index input path := by
    funext key
    simp only [validSignature?, h.verifies_eq]
  cases template with
  | pubkeyHash hash => simp only [templateStack, pubkeyHashStack, h.verifies_eq]
  | pubkey key => simp only [templateStack, pubkeyStack, hvalid]
  | multisig threshold keys => simp only [templateStack, multisigStack, hvalid]
  | taprootKey outputKey => simp only [templateStack, taprootStack, h.verifiesTaproot_eq]

/-- **What the final scripts of an input depend on**: its records, and what makes copies spend
alike. -/
theorem finalizeInput_eq (h : SpendsAlike p q) (hinput : p.inputs[index]? = q.inputs[index]?) :
    p.finalizeInput scheme index = q.finalizeInput scheme index := by
  simp only [finalizeInput, h.spendPath_eq hinput, hinput, h.templateStack_eq]

/-- An input with the same records in copies that spend alike has the same outcome. -/
theorem outcome_eq (h : SpendsAlike p q) (hinput : p.inputs[index]? = q.inputs[index]?)
    (x : InputMap) : p.outcome scheme index x = q.outcome scheme index x := by
  rw [outcome, outcome, h.finalizeInput_eq hinput]

end SpendsAlike

/-! ## Becoming final -/

/-- No template is satisfied by an empty stack. -/
private theorem templateStack_ne_nil {input : InputMap} {path : SpendPath} {template : Template}
    {stack : List Bytes} (h : p.templateStack scheme index input path template = .ok stack) :
    stack ≠ [] := by
  cases template with
  | pubkeyHash hash =>
    obtain ⟨key, sig, rfl, -⟩ := pubkeyHashStack_eq_ok h
    simp
  | pubkey key =>
    obtain ⟨sig, rfl, -⟩ := pubkeyStack_eq_ok_iff.mp h
    simp
  | multisig threshold keys =>
    obtain ⟨-, rfl⟩ := multisigStack_eq_ok_iff.mp h
    simp
  | taprootKey outputKey =>
    obtain ⟨sig, rfl, -⟩ := taprootStack_eq_ok_iff.mp h
    simp

/-- **With its final scripts an input is final**: they are never both empty. -/
theorem isFinal_applyFinal_of_finalizeInput {scripts : FinalScripts}
    (h : p.finalizeInput scheme index = .ok scripts) (x : InputMap) :
    InputMap.isFinal (InputMap.applyFinal x scripts) = true := by
  obtain ⟨path, template, input, stack, -, -, -, hstack, hscripts⟩ := finalizeInput_eq_ok_iff.mp h
  have hne := templateStack_ne_nil hstack
  rw [InputMap.isFinal_applyFinal]
  by_cases hversion : path.version = .base
  · have hpush := (FinalScripts.ofStack?_base hversion hscripts).1
    simp [Evaluation.Context.isEmpty_pushAll? hpush, hne]
  · have hwitness := (FinalScripts.ofStack?_witness hversion hscripts).2
    simp [hwitness, hne]

/-! ## The dry run -/

/-- The records that an input retains are those it had before the dry run. -/
theorem get?_dryRunInput (x : InputMap) (o : Option (Except Missing FinalScripts)) {k : InputKey}
    (hk : k.isRetained = true) : (dryRunInput x o).get? k = x.get? k := by
  unfold dryRunInput
  split
  · rw [InputMap.get?_applyFinal (InputKey.isUnited_of_isRetained hk), if_pos hk]
  · rfl

/-- After the dry run, the inputs are final that were final or could be made so. -/
theorem isFinal_dryRunInput (scheme : SignatureScheme) (p : Psbt) (index : Nat) (x : InputMap) :
    InputMap.isFinal (dryRunInput x (p.outcome scheme index x)) =
      (InputMap.isFinal x || (p.finalizeInput scheme index).toBool) := by
  unfold outcome
  cases hx : InputMap.isFinal x with
  | true => exact hx
  | false =>
    cases hfinal : p.finalizeInput scheme index with
    | error missing => exact hx
    | ok scripts => exact isFinal_applyFinal_of_finalizeInput hfinal x

/-- An input that is final stays as it is. -/
theorem dryRunInput_of_isFinal {x : InputMap} (hx : InputMap.isFinal x = true) :
    dryRunInput x (p.outcome scheme index x) = x := by
  rw [outcome, if_pos hx]
  rfl

/-- An input that is open afterwards stayed as it was. -/
theorem dryRunInput_of_open {x : InputMap}
    (h : InputMap.isFinal (dryRunInput x (p.outcome scheme index x)) = false) :
    dryRunInput x (p.outcome scheme index x) = x := by
  rw [isFinal_dryRunInput, Bool.or_eq_false_iff] at h
  unfold outcome
  cases hfinal : p.finalizeInput scheme index with
  | error missing => split <;> rfl
  | ok scripts => simp [hfinal, Except.toBool] at h

variable (scheme p)

/-- The copy with every input made final that can be, each on the copy as it is. -/
def dryRun : Psbt :=
  { p with inputs := p.inputs.mapIdx fun i x => dryRunInput x (p.outcome scheme i x) }

/-- The dry run of the inputs below an index. -/
def dryRunBelow (bound : Nat) : Psbt :=
  { p with inputs := p.inputs.mapIdx fun i x =>
      if i < bound then dryRunInput x (p.outcome scheme i x) else x }

@[simp]
theorem getElem?_inputs_dryRun (i : Nat) :
    (p.dryRun scheme).inputs[i]? =
      (p.inputs[i]?).map fun x => dryRunInput x (p.outcome scheme i x) := by
  simp [dryRun]

/-- The dry run in two steps, as an analysis makes it: what comes of the inputs, and the inputs
after it. -/
theorem dryRun_eq_map : p.dryRun scheme =
    { p with
      inputs := (p.inputs.mapIdx fun i x => (x, p.outcome scheme i x)).map fun o =>
        dryRunInput o.1 o.2 } :=
  ext_inputs rfl rfl rfl fun i => by simp [Function.comp_def]

@[simp]
theorem getElem?_inputs_dryRunBelow (bound i : Nat) :
    (p.dryRunBelow scheme bound).inputs[i]? =
      (p.inputs[i]?).map fun x =>
        if i < bound then dryRunInput x (p.outcome scheme i x) else x := by
  simp [dryRunBelow]

/-- A dry run changes nothing about what the inputs spend. -/
private theorem spendsAlike_dryRunBelow (bound : Nat) :
    SpendsAlike p (p.dryRunBelow scheme bound) := by
  refine .of_retained rfl (by simp [dryRunBelow]) (pointwise_mapIdx fun i x hx k hk => ?_)
  split
  · exact get?_dryRunInput x _ hk
  · rfl

/-- Making one input final is the dry run of that input. -/
private theorem finalizeStep_eq {x : InputMap} (hx : p.inputs[index]? = some x) :
    p.finalizeStep scheme index =
      p.setInput index (dryRunInput x (p.outcome scheme index x)) := by
  unfold finalizeStep outcome
  simp only [hx]
  split
  · exact (setInput_self hx).symm
  · split
    · next scripts hscripts => rw [hscripts]; rfl
    · next missing hmissing => rw [hmissing]; exact (setInput_self hx).symm

/-- The next input after those below an index. -/
private theorem finalizeStep_dryRunBelow {bound : Nat} (hbound : bound < p.inputs.length) :
    (p.dryRunBelow scheme bound).finalizeStep scheme bound =
      p.dryRunBelow scheme (bound + 1) := by
  have hx := List.getElem?_eq_getElem hbound
  have hsame : (p.dryRunBelow scheme bound).inputs[bound]? = p.inputs[bound]? := by
    simp [hx]
  rw [finalizeStep_eq scheme _ (hsame.trans hx),
    ← (spendsAlike_dryRunBelow scheme p bound).outcome_eq hsame.symm]
  refine ext_inputs rfl rfl rfl fun i => ?_
  rw [getElem?_inputs_setInput, getElem?_inputs_dryRunBelow, getElem?_inputs_dryRunBelow]
  by_cases hi : i = bound
  · subst hi
    simp [hx]
  · have hlt : i < bound + 1 ↔ i < bound := by omega
    simp only [if_neg hi, hlt]

/-- **Making all inputs final is the dry run.**

**Proof sketch.** The copy after the inputs below an index were tried is the dry run of these
inputs: the next one is final or lacks the same as on the first copy, because the two copies spend
alike. -/
theorem finalize_eq_dryRun : p.finalize scheme = p.dryRun scheme := by
  have hbelow : ∀ bound ≤ p.inputs.length,
      (List.range bound).foldl (finalizeStep scheme) p = p.dryRunBelow scheme bound := by
    intro bound hbound
    induction bound with
    | zero => exact ext_inputs rfl rfl rfl fun i => by simp
    | succ bound ih =>
      rw [List.range_succ, List.foldl_append, ih (by omega), List.foldl_cons, List.foldl_nil]
      exact finalizeStep_dryRunBelow scheme p (by omega)
  rw [finalize, hbelow _ le_rfl]
  refine ext_inputs rfl rfl rfl fun i => ?_
  rw [getElem?_inputs_dryRunBelow, getElem?_inputs_dryRun]
  cases hx : p.inputs[i]? with
  | none => rfl
  | some x =>
    have hlt : i < p.inputs.length := (List.getElem?_eq_some_iff.mp hx).1
    simp [hlt]

variable {scheme p}

/-- Making all inputs final keeps the shape of a copy. -/
theorem Shaped.finalize (h : p.Shaped) : (p.finalize scheme).Shaped := by
  rw [finalize_eq_dryRun]
  exact ⟨by simpa [dryRun] using h.length_inputs, h.length_outputs⟩

/-- Making all inputs final changes nothing about what they spend. -/
theorem spendsAlike_finalize : SpendsAlike p (p.finalize scheme) := by
  rw [finalize_eq_dryRun]
  exact .of_retained rfl (by simp [dryRun])
    (pointwise_mapIdx fun i x hx k hk => get?_dryRunInput x _ hk)

/-- **Making all inputs final** once is enough. -/
theorem finalize_finalize : (p.finalize scheme).finalize scheme = p.finalize scheme := by
  have halike : SpendsAlike p (p.finalize scheme) := spendsAlike_finalize
  rw [finalize_eq_dryRun] at halike
  rw [finalize_eq_dryRun, finalize_eq_dryRun]
  refine ext_inputs rfl rfl rfl fun i => ?_
  rw [getElem?_inputs_dryRun scheme (p.dryRun scheme)]
  cases hy : (p.dryRun scheme).inputs[i]? with
  | none => rfl
  | some y =>
    rw [Option.map_some, Option.some.injEq]
    cases hfinal : InputMap.isFinal y with
    | true => exact dryRunInput_of_isFinal hfinal
    | false =>
      -- an input that is still open was not touched, and nothing has changed for it
      have hdry := hy
      rw [getElem?_inputs_dryRun, Option.map_eq_some_iff] at hdry
      obtain ⟨x, hx, rfl⟩ := hdry
      have hsame := dryRunInput_of_open hfinal
      rw [hsame] at hy ⊢
      rw [← halike.outcome_eq (hx.trans hy.symm), hsame]

end JointSpend.Psbt
