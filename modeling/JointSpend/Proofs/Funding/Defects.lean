import JointSpend.Proofs.Funding.Paths

set_option autoImplicit false
set_option relaxedAutoImplicit false

/-!
# Plans that cannot be carried out

When a plan cannot be carried out, something is wrong with the plan: it never happens that a check
comes too late and the program runs into a state that it takes for impossible. This is shown step by
step, for each check of a plan.

## Main definitions

* `JointSpend.Fault.IsDefect` — the faults that no plan should bring about.
* `JointSpend.Blameless` — a computation that does not fail with such a fault.

## Main results

* `JointSpend.Coin.blameless_ofPlanned` — the checks of an output to spend.
* `JointSpend.SpendPlan.exists_estimatedSize` — the size can always be estimated.
* `JointSpend.SpendPlan.blameless_create` — carrying out a plan.
-/

namespace JointSpend

/-- A fault that only a defect of the program brings about: something that should have been
impossible, an input that is final too early, or an input that is not there. -/
def Fault.IsDefect : Fault → Prop
  | internal _ => True
  | inputFinal _ => True
  | noSuchInput _ _ => True
  | _ => False

/-- A computation does not fail by a defect. -/
def Blameless {α : Type} (x : Except Fault α) : Prop :=
  ∀ fault, x = .error fault → ¬ fault.IsDefect

namespace Blameless

variable {α β : Type}

/-- A computation that succeeds. -/
theorem ok (a : α) : Blameless (.ok a : Except Fault α) := by
  intro fault h
  simp at h

/-- A computation that fails for another reason. -/
theorem error {fault : Fault} (h : ¬ fault.IsDefect) :
    Blameless (.error fault : Except Fault α) := by
  intro other heq
  rwa [← Except.error.inj heq]

/-- One computation after another. -/
theorem bind {x : Except Fault α} {f : α → Except Fault β} (hx : Blameless x)
    (hf : ∀ a, x = .ok a → Blameless (f a)) : Blameless (x >>= f) := by
  intro fault h
  cases x with
  | error other =>
    change Except.error other = Except.error fault at h
    exact hx fault (congrArg _ (Except.error.inj h))
  | ok a => exact hf a rfl fault h

/-- A computation behind a step that always fails. -/
theorem throw_bind {fault : Fault} {f : α → Except Fault β} (hfault : ¬ fault.IsDefect) :
    Blameless (throw fault >>= f) :=
  bind (error hfault) fun _ h => absurd h Steps.throw_ne_ok

/-- A computation behind a check. -/
theorem guard {c : Prop} [Decidable c] {fault : Fault} {f : α → Except Fault β}
    {x : Except Fault β} (hfault : ¬ fault.IsDefect) (hx : ¬ c → Blameless x) :
    Blameless (if c then throw fault >>= f else x) := by
  split
  · exact throw_bind hfault
  · next h => exact hx h

end Blameless

/-! ## Outputs to spend -/

namespace Coin

private theorem blameless_decodeHex (field : HexField) (text : String) :
    Blameless (decodeHex field text) := by
  unfold decodeHex
  split
  · exact .ok _
  · exact .error id

private theorem blameless_decodeScript (field : HexField) (text : String) :
    Blameless (decodeScript field text) :=
  (blameless_decodeHex field text).bind fun _ _ => .ok _

private theorem blameless_decodeOptional (field : HexField) (text : Option String) :
    Blameless (decodeOptional field text) := by
  cases text with
  | none => exact .ok _
  | some text => exact (blameless_decodeScript field text).bind fun _ _ => .ok _

private theorem blameless_outputType (s : Script) : Blameless s.outputType := by
  unfold Script.outputType
  split_ifs
  · exact .ok _
  · exact .ok _
  · exact .ok _
  · exact .ok _
  · exact .ok _
  · exact .error id

private theorem blameless_program? (outPoint : OutPoint) (output : TxOutput)
    (redeem : Option Script) (type : OutputType) :
    Blameless (program? outPoint output redeem type) := by
  unfold program?
  split
  · split
    · exact .error id
    · split
      · exact .error id
      · exact .ok _
  · exact .ok _
  · exact .ok _

private theorem blameless_checkWitnessScript (outPoint : OutPoint) (program given : Option Script) :
    Blameless (checkWitnessScript outPoint program given) := by
  unfold checkWitnessScript
  split
  · exact .ok _
  · split
    · exact .error id
    · split
      · exact .error id
      · exact .ok _

private theorem blameless_checkedPrevious (outPoint : OutPoint) (output : TxOutput)
    (text : Option String) : Blameless (checkedPrevious outPoint output text) := by
  unfold checkedPrevious
  split
  · exact .ok _
  · refine (blameless_decodeHex _ _).bind fun bs _ => ?_
    split
    · exact .error id
    · split
      · exact .error id
      · split
        · exact .error id
        · exact .ok _

/-- **The checks of an output to spend** fail only because of what is described. -/
theorem blameless_ofPlanned (sequence : Option UInt32) (utxo : PlannedUtxo) :
    Blameless (ofPlanned sequence utxo) := by
  unfold ofPlanned
  cases TxId.ofText? utxo.txid with
  | none => exact .throw_bind id
  | some txid =>
    refine (Blameless.ok txid).bind fun _ _ => ?_
    refine (blameless_decodeScript _ _).bind fun script _ => ?_
    refine (blameless_outputType script).bind fun _ _ => ?_
    refine (blameless_decodeOptional _ _).bind fun _ _ => ?_
    refine (blameless_decodeOptional _ _).bind fun _ _ => ?_
    refine (blameless_program? _ _ _ _).bind fun _ _ => ?_
    refine (blameless_checkWitnessScript _ _ _).bind fun _ _ => ?_
    exact (blameless_checkedPrevious _ _ _).bind fun _ _ => .ok _

end Coin

/-! ## The whole plan -/

namespace SpendPlan

/-- Collecting items fails only if one of them does, or because the total is too large. -/
private theorem blameless_collect {α β : Type} {check : α → Except Fault β} {amount : α → UInt64}
    {tooLarge : InputFault} (hcheck : ∀ a, Blameless (check a)) (as : List α) (total : Nat) :
    Blameless (collect check amount tooLarge as total) := by
  induction as generalizing total with
  | nil => exact .ok _
  | cons a as ih =>
    refine (hcheck a).bind fun b _ => ?_
    refine .guard id fun _ => ?_
    exact (ih _).bind fun _ _ => .ok _

/-- The redeem scripts that a plan gives can be pushed. -/
def Pushable (plan : SpendPlan) : Prop :=
  ∀ utxo ∈ plan.utxos, ∀ text bs, utxo.redeemScriptHex = some text →
    Text.Hex.decode text = .ok bs → bs.length < 2 ^ 32

/-- The redeem scripts of the coins are those that the plan gives. -/
theorem Pushable.length_redeemScript {plan : SpendPlan} (h : plan.Pushable) {coins : List Coin}
    (hcoins : List.Forall₂ (fun utxo coin => utxo.Describes coin ∧ coin.Checked)
      plan.utxos coins) :
    ∀ coin ∈ coins, ∀ redeem, coin.redeemScript = some redeem →
      redeem.bytes.length < 0x100000000 := by
  have hall : List.Forall₂ (fun coin utxo => (∀ redeem, coin.redeemScript = some redeem →
      redeem.bytes.length < 0x100000000) ∧ True) coins plan.utxos := by
    refine List.Forall₂.flip ?_
    refine ((List.forall₂_and_left _ _).mpr ⟨h, hcoins⟩).imp ?_
    rintro utxo coin ⟨hutxo, hdescribes, -⟩
    refine ⟨fun redeem hredeem => ?_, trivial⟩
    have hgiven := hdescribes.redeemScript
    cases htext : utxo.redeemScriptHex with
    | none =>
      rw [htext, hredeem] at hgiven
      simp [Coin.decodeOptional] at hgiven
    | some text =>
      rw [htext, hredeem] at hgiven
      obtain ⟨script, hscript, heq⟩ := Steps.bind_eq_ok_iff.mp hgiven
      obtain rfl := Option.some.inj (Steps.pure_eq_ok_iff.mp heq)
      have := hutxo text _ htext (Coin.decodeScript_eq_ok_iff.mp hscript)
      omega
  exact ((List.forall₂_and_left _ _).mp hall).1

/-- **The size can always be estimated.** -/
theorem exists_estimatedSize {coins : List Coin} (hcoins : ∀ coin ∈ coins, coin.Checked)
    (hredeem : ∀ coin ∈ coins, ∀ redeem, coin.redeemScript = some redeem →
      redeem.bytes.length < 0x100000000) (recipients : List TxOutput) (change : Script) :
    ∃ size, estimatedSize coins recipients change = .ok size := by
  have hinputs : ∃ inputs, sizedInputs coins = .ok inputs := by
    unfold sizedInputs
    induction coins with
    | nil => exact ⟨[], rfl⟩
    | cons coin coins ih =>
      obtain ⟨hcoin, hcoins⟩ := List.forall_mem_cons.mp hcoins
      obtain ⟨hfirst, hredeem⟩ := List.forall_mem_cons.mp hredeem
      obtain ⟨scripts, hscripts⟩ := hcoin.exists_placeholder hfirst
      obtain ⟨inputs, hinputs⟩ := ih hcoins hredeem
      refine ⟨coin.txInput scripts :: inputs, ?_⟩
      rw [List.mapM_cons, hscripts, hinputs]
      rfl
  obtain ⟨inputs, hinputs⟩ := hinputs
  exact ⟨_, Steps.bind_eq_ok_iff.mpr ⟨inputs, hinputs, rfl⟩⟩

/-- **Carrying out a plan** fails only because of the plan. -/
theorem blameless_create {plan : SpendPlan} (h : plan.Pushable) (network : Network) :
    Blameless (plan.create network) := by
  have hparse : Blameless (Network.parse plan.network) := by
    unfold Network.parse
    split
    · exact .ok _
    · exact .error id
  have hrecipient : ∀ o, Blameless (recipient network o) := by
    intro o
    unfold recipient
    split
    · exact .ok _
    · exact .error id
  refine hparse.bind fun planned _ => ?_
  refine .guard id fun _ => ?_
  refine (blameless_collect (Coin.blameless_ofPlanned _) _ _).bind fun ⟨coins, available⟩ hcoins =>
    ?_
  have hchecked := checked_of_coins hcoins
  refine .guard id fun _ => ?_
  refine (blameless_collect hrecipient _ _).bind fun ⟨recipients, paid⟩ _ => ?_
  dsimp only
  cases Address.script? network plan.changeAddress with
  | none => exact .throw_bind id
  | some change =>
    refine (Blameless.ok change).bind fun change _ => ?_
    obtain ⟨size, hsize⟩ := exists_estimatedSize hchecked
      (h.length_redeemScript (coins_eq_ok hcoins).1) recipients change
    refine .bind (by rw [hsize]; exact .ok _) fun size _ => ?_
    refine .guard id fun _ => ?_
    refine .guard id fun _ => ?_
    refine .guard id fun _ => ?_
    rw [assemble_eq hchecked]
    exact .ok _

end SpendPlan

end JointSpend
