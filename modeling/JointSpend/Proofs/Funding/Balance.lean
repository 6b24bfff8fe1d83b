import JointSpend.Proofs.Funding.Preparation

set_option autoImplicit false
set_option relaxedAutoImplicit false

/-!
# The arithmetic of a plan

Sums in a plan have 64 bits; a sum that has more is refused. Here the outcome of a plan whose texts
are in order is compared with what the exact totals say, without any bound: which plans can be
carried out, how the others fail, and where every unit of value goes.

## Main definitions

* `JointSpend.SpendPlan.paidTotal` — what the recipients get, exactly.
* `JointSpend.SpendPlan.Reading`, `JointSpend.SpendPlan.Reads` — what is read off a plan whose texts
  are in order.
* `JointSpend.SpendPlan.Conserves` — where the value of the coins goes.

## Main results

* `JointSpend.SpendPlan.collect_eq` — items that pass their checks fail by their total alone.
* `JointSpend.SpendPlan.Reads.create_eq` — the outcome, decided by the exact totals.
* `JointSpend.SpendPlan.create_exact` — when a plan can be carried out, how it fails otherwise, and
  what it conserves.
-/

namespace JointSpend.SpendPlan

/-! ## Totals -/

/-- Items that pass their checks fail by their total alone.

**Proof sketch.** Induction on the items, with the total so far. If a running total does not fit,
neither does the whole one. -/
theorem collect_eq {α β : Type} {check : α → Except Fault β} {amount : α → UInt64}
    {tooLarge : InputFault} {as : List α} {bs : List β} {total : Nat}
    (h : List.Forall₂ (fun a b => check a = .ok b) as bs) (htotal : total < UInt64.size) :
    collect check amount tooLarge as total =
      if total + (as.map fun a => (amount a).toNat).sum < UInt64.size then
        .ok (bs, total + (as.map fun a => (amount a).toNat).sum)
      else .error (.input tooLarge) := by
  induction h generalizing total with
  | nil => simp [collect, htotal]
  | @cons a b as bs hab _ ih =>
    rw [List.map_cons, List.sum_cons, ← Nat.add_assoc, collect, hab]
    change (if UInt64.size ≤ total + (amount a).toNat then _ else _) = _
    split
    · next hlarge =>
      rw [if_neg (by omega)]
      rfl
    · next hfits =>
      rw [ih (by omega)]
      split <;> rfl

/-- What the recipients of a plan get. -/
def paidTotal (plan : SpendPlan) : Nat :=
  (plan.outputs.map fun o => o.valueSats.toNat).sum

/-! ## Plans in order -/

/-- What is read off a plan. -/
structure Reading where
  /-- The outputs to spend. -/
  coins : List Coin
  /-- The outputs for the recipients. -/
  recipients : List TxOutput
  /-- The script that the change goes to. -/
  change : Script

/-- The texts of a plan are in order: it is for the chosen network, it spends something, every
output to spend passes its checks, and every address is one. Nothing is said of amounts. -/
structure Reads (plan : SpendPlan) (network : Network) (r : Reading) : Prop where
  chosen : Network.parse plan.network = .ok network
  nonempty : plan.utxos ≠ []
  coins : List.Forall₂ (fun utxo coin => Coin.ofPlanned plan.defaultSequence utxo = .ok coin)
    plan.utxos r.coins
  recipients : List.Forall₂ (fun o output => recipient network o = .ok output)
    plan.outputs r.recipients
  change : Address.script? network plan.changeAddress = some r.change

namespace Reads

variable {plan : SpendPlan} {network : Network} {r : Reading} {size : Nat}

/-- The coins of a plan in order. -/
theorem coins_eq (h : plan.Reads network r) :
    plan.coins = if plan.total < UInt64.size then .ok (r.coins, plan.total)
      else .error (.input .inputTotalTooLarge) := by
  unfold SpendPlan.coins total
  rw [collect_eq h.coins (by decide), Nat.zero_add]

/-- The recipients of a plan in order. -/
theorem recipients_eq (h : plan.Reads network r) :
    plan.recipients network = if plan.paidTotal < UInt64.size then .ok (r.recipients, plan.paidTotal)
      else .error (.input .outputTotalTooLarge) := by
  unfold SpendPlan.recipients paidTotal
  rw [collect_eq h.recipients (by decide), Nat.zero_add]

/-- The outputs for the recipients have the planned amounts. -/
theorem total_recipients (h : plan.Reads network r) :
    TxOutput.total r.recipients = plan.paidTotal := by
  refine (sum_eq_of_forall₂ (h.recipients.imp fun o output houtput => ?_)).symm
  unfold recipient at houtput
  split at houtput
  · rw [← Except.ok.inj houtput]
  · simp at houtput

/-- The coins of a plan in order passed the checks. -/
theorem checked (h : plan.Reads network r) : ∀ coin ∈ r.coins, coin.Checked := by
  have hall : List.Forall₂ (fun coin (_ : PlannedUtxo) => coin.Checked ∧ True) r.coins
      plan.utxos :=
    (h.coins.imp fun _ _ hcoin => ⟨(Coin.checked_of_ofPlanned hcoin).2, trivial⟩).flip
  exact (List.forall₂_and_left _ _).mp hall |>.1

/-- A plan that spends something has a coin. -/
theorem coins_ne_nil (h : plan.Reads network r) : r.coins ≠ [] := by
  intro hnil
  have hcoins := h.coins
  rw [hnil, List.forall₂_nil_right_iff] at hcoins
  exact h.nonempty hcoins

/-- **The outcome of a plan in order** is decided by the exact totals and the fee. -/
theorem create_eq (h : plan.Reads network r)
    (hsize : estimatedSize r.coins r.recipients r.change = .ok size) :
    plan.create network =
      let fee := size * plan.feeRateSatsPerVb.toNat
      if UInt64.size ≤ plan.total then .error (.input .inputTotalTooLarge)
      else if UInt64.size ≤ plan.paidTotal then .error (.input .outputTotalTooLarge)
      else if UInt64.size ≤ fee then .error (.input .feeTooLarge)
      else if UInt64.size ≤ plan.paidTotal + fee then .error (.input .requiredTooLarge)
      else if plan.total < plan.paidTotal + fee then
        .error (.insufficientFunds plan.total (plan.paidTotal + fee) fee)
      else .ok (assembled r.coins
        (r.recipients ++ changeOutputs r.change (plan.total - (plan.paidTotal + fee)))) := by
  have hnonempty : r.coins.isEmpty = false := by simpa using h.coins_ne_nil
  unfold create
  rw [h.chosen, h.coins_eq, h.recipients_eq, h.change]
  simp only [bind, Except.bind, pure, Except.pure, throw, throwThe, MonadExceptOf.throw, ne_eq,
    not_true_eq_false, if_false]
  by_cases hin : UInt64.size ≤ plan.total
  · rw [if_pos hin, if_neg (by omega)]
  rw [if_neg hin, if_pos (by omega)]
  simp only [hnonempty, Bool.false_eq_true, if_false]
  by_cases hout : UInt64.size ≤ plan.paidTotal
  · rw [if_pos hout, if_neg (by omega)]
  rw [if_neg hout, if_pos (by omega)]
  simp only [hsize, assemble_eq h.checked]

/-- The size can be estimated if the redeem scripts can be pushed. -/
theorem exists_size (h : plan.Reads network r) (hpush : plan.Pushable) :
    ∃ size, estimatedSize r.coins r.recipients r.change = .ok size :=
  exists_estimatedSize h.checked
    (hpush.length_redeemScript (h.coins.imp fun _ _ hcoin => Coin.checked_of_ofPlanned hcoin)) _ _

end Reads

/-! ## Exact amounts -/

/-- The available amount covers what is paid and the fee, and fits 64 bits. -/
def Affords (available paid fee : Nat) : Prop :=
  available < 2 ^ 64 ∧ paid + fee ≤ available

/-- All amounts fit 64 bits, but the available amount does not cover what is paid and the fee. -/
def FallsShort (available paid fee : Nat) : Prop :=
  available < 2 ^ 64 ∧ paid < 2 ^ 64 ∧ fee < 2 ^ 64 ∧ paid + fee < 2 ^ 64 ∧
    available < paid + fee

/-- What is left over and worth it gets an output. -/
private theorem changeOutputs_of_worth {change : Script} {rest : Nat} (h : 546 ≤ rest) :
    changeOutputs change rest = [⟨UInt64.ofNat rest, change⟩] :=
  if_pos h

/-- What is left over and not worth it gets no output. -/
private theorem changeOutputs_of_dust {change : Script} {rest : Nat} (h : rest < 546) :
    changeOutputs change rest = [] :=
  if_neg (Nat.not_le_of_lt h)

/-- Where the available amount goes. -/
structure Conserves (available fee : Nat) (r : Reading) (outputs : List TxOutput) : Prop where
  /-- The recipients and the fee are covered. -/
  covered : TxOutput.total r.recipients + fee ≤ available
  /-- If what is left over is worth it, it goes to one change output behind the recipients. -/
  change : 546 ≤ available - (TxOutput.total r.recipients + fee) →
    ∃ change : TxOutput, outputs = r.recipients ++ [change] ∧ change.script = r.change ∧
      change.value.toNat = available - (TxOutput.total r.recipients + fee) ∧
      TxOutput.total outputs + fee = available
  /-- Otherwise the recipients are the only outputs, and what is left over goes to the fee. -/
  noChange : available - (TxOutput.total r.recipients + fee) < 546 →
    outputs = r.recipients ∧ ∃ rest < 546, TxOutput.total outputs + (fee + rest) = available

/-- The change output takes what is left over, if that is worth an output and fits 64 bits. -/
private theorem conserves_changeOutputs {available fee : Nat} {r : Reading}
    (h : Affords available (TxOutput.total r.recipients) fee) :
    Conserves available fee r (r.recipients ++
      changeOutputs r.change (available - (TxOutput.total r.recipients + fee))) := by
  obtain ⟨hfits, hcovered⟩ := h
  refine ⟨hcovered, fun hworth => ?_, fun hdust => ?_⟩
  · have hvalue : (UInt64.ofNat (available - (TxOutput.total r.recipients + fee))).toNat =
        available - (TxOutput.total r.recipients + fee) :=
      UInt64.toNat_ofNat_of_lt' (lt_of_le_of_lt (Nat.sub_le _ _) hfits)
    rw [changeOutputs_of_worth hworth]
    refine ⟨_, rfl, rfl, hvalue, ?_⟩
    rw [TxOutput.total, List.map_append, List.sum_append, List.map_singleton, List.sum_singleton,
      hvalue, ← TxOutput.total]
    omega
  · rw [changeOutputs_of_dust hdust, List.append_nil]
    exact ⟨rfl, _, hdust, by omega⟩

/-- What comes of a plan is what the exact amounts say. -/
structure DecidedBy (available paid fee : Nat) (r : Reading) (outcome : Except Fault Psbt) :
    Prop where
  /-- It can be carried out exactly when the coins cover the recipients and the fee. -/
  success : (∃ p, outcome = .ok p) ↔ Affords available paid fee
  /-- Funds are insufficient exactly when all amounts fit and are not covered. The amounts are
  named. -/
  short : ∀ named required namedFee,
    outcome = .error (.insufficientFunds named required namedFee) ↔
      FallsShort available paid fee ∧ named = available ∧ required = paid + fee ∧ namedFee = fee
  /-- In all other cases the input is to blame. -/
  blame : ¬ Affords available paid fee → ¬ FallsShort available paid fee →
    ∃ cause, outcome = .error (.input cause)
  /-- All of the coins are spent, and their value is conserved. -/
  conserves : ∀ p, outcome = .ok p →
    p.transaction.inputs = r.coins.map (fun coin => coin.txInput ⟨.empty, []⟩) ∧
      TxOutput.total r.recipients = paid ∧ Conserves available fee r p.transaction.outputs

namespace DecidedBy

variable {available paid fee : Nat} {r : Reading}

/-- The input is to blame. -/
theorem of_input {cause : InputFault} (hafford : ¬ Affords available paid fee)
    (hshort : ¬ FallsShort available paid fee) :
    DecidedBy available paid fee r (.error (.input cause)) where
  success := by simp [hafford]
  short := by simp [hshort]
  blame _ _ := ⟨cause, rfl⟩
  conserves := by simp

/-- Funds are insufficient. -/
theorem of_short (h : FallsShort available paid fee) :
    DecidedBy available paid fee r
      (.error (.insufficientFunds available (paid + fee) fee)) where
  success := by
    have hafford : ¬ Affords available paid fee := fun ⟨_, hcovered⟩ =>
      absurd h.2.2.2.2 (not_lt.mpr hcovered)
    simp [hafford]
  short named required namedFee := by simp [h, eq_comm]
  blame _ hnot := absurd h hnot
  conserves := by simp

/-- The plan is carried out. -/
theorem of_affords (h : Affords available paid fee) (hpaid : TxOutput.total r.recipients = paid) :
    DecidedBy available paid fee r (.ok (assembled r.coins
      (r.recipients ++ changeOutputs r.change (available - (paid + fee))))) where
  success := by simp [h]
  short := by
    have hnot : ¬ FallsShort available paid fee := fun hshort =>
      absurd hshort.2.2.2.2 (not_lt.mpr h.2)
    simp [hnot]
  blame hnot := absurd h hnot
  conserves p hp := by
    obtain rfl := Except.ok.inj hp
    subst hpaid
    exact ⟨rfl, rfl, conserves_changeOutputs h⟩

end DecidedBy

/-- **The arithmetic of a plan is exact.** The outcome of a plan whose texts are in order is decided
by the totals of the coins and of the recipients, summed without any bound, and by the fee for the
estimated size. The size can be estimated as long as the redeem scripts can be pushed.

**Proof sketch.** Each of the four bounds that are checked one after another is a bound on an exact
amount. Where one of them fails, the coins either do not fit 64 bits themselves or cannot cover what
does not fit. -/
theorem create_exact {plan : SpendPlan} {network : Network} {r : Reading}
    (h : plan.Reads network r) :
    (plan.Pushable → ∃ size, estimatedSize r.coins r.recipients r.change = .ok size) ∧
      ∀ size, estimatedSize r.coins r.recipients r.change = .ok size →
        DecidedBy plan.total plan.paidTotal (size * plan.feeRateSatsPerVb.toNat) r
          (plan.create network) := by
  refine ⟨h.exists_size, fun size hsize => ?_⟩
  have hbits : UInt64.size = 2 ^ 64 := rfl
  rw [h.create_eq hsize]
  generalize size * plan.feeRateSatsPerVb.toNat = fee
  dsimp only
  split_ifs with hin hout hfee hrequired hshort
  · exact .of_input (fun ha => by have := ha.1; omega) fun hs => by have := hs.1; omega
  · exact .of_input (fun ha => by obtain ⟨_, _⟩ := ha; omega) fun hs => by have := hs.2.1; omega
  · exact .of_input (fun ha => by obtain ⟨_, _⟩ := ha; omega) fun hs => by have := hs.2.2.1; omega
  · exact .of_input (fun ha => by obtain ⟨_, _⟩ := ha; omega)
      fun hs => by have := hs.2.2.2.1; omega
  · exact .of_short ⟨by omega, by omega, by omega, by omega, hshort⟩
  · exact .of_affords ⟨by omega, by omega⟩ h.total_recipients

/-- The texts of a plan that can be carried out are in order. -/
theorem Budgeted.reads {plan : SpendPlan} {network : Network} {b : Budget}
    (hb : plan.Budgeted network b) : plan.Reads network ⟨b.coins, b.recipients, b.change⟩ where
  chosen := hb.chosen
  nonempty hnil := by
    have hcoins := (collect_eq_ok (by decide) hb.coins).1
    rw [hnil, List.forall₂_nil_left_iff] at hcoins
    exact hb.nonempty hcoins
  coins := (collect_eq_ok (by decide) hb.coins).1
  recipients := (collect_eq_ok (by decide) hb.recipients).1
  change := hb.change

/-- Whether a plan can be carried out does not depend on its texts alone: at a low rate the sample
is carried out and its value conserved, at a high rate funds are insufficient. -/
theorem create_exact_samplePlan : ∃ r size, (samplePlan 2).Reads .regtest r ∧
    (samplePlan 1000).Reads .regtest r ∧
    estimatedSize r.coins r.recipients r.change = .ok size ∧
    (∃ p, (samplePlan 2).create .regtest = .ok p ∧ Affords 100000 50000 (size * 2) ∧
      Conserves 100000 (size * 2) r p.transaction.outputs) ∧
    (samplePlan 1000).create .regtest =
      .error (.insufficientFunds 100000 (50000 + size * 1000) (size * 1000)) := by
  have hcreated : ((samplePlan 2).create .regtest).toBool = true := by decide +kernel
  obtain ⟨p, hp⟩ := Steps.toBool_eq_true_iff.mp hcreated
  obtain ⟨b, hb, -⟩ := create_eq_ok_iff.mp hp
  have hlow := hb.reads
  have hhigh : (samplePlan 1000).Reads .regtest ⟨b.coins, b.recipients, b.change⟩ :=
    ⟨hlow.chosen, hlow.nonempty, hlow.coins, hlow.recipients, hlow.change⟩
  have hexact := (create_exact hlow).2 b.size hb.size
  have hfails := (create_exact hhigh).2 b.size hb.size
  have hshort : (match (samplePlan 1000).create .regtest with
      | .error (.insufficientFunds _ _ _) => true
      | _ => false) = true := by decide +kernel
  refine ⟨_, b.size, hlow, hhigh, hb.size, ⟨p, hp, hexact.success.mp ⟨p, hp⟩,
    (hexact.conserves p hp).2.2⟩, ?_⟩
  split at hshort
  · next named required namedFee h =>
    obtain ⟨-, rfl, rfl, rfl⟩ := (hfails.short named required namedFee).mp h
    exact h
  · simp at hshort

end JointSpend.SpendPlan
