import JointSpend.Funding.Create
import JointSpend.Proofs.Funding.Coins
import Mathlib.Data.List.Forall2

set_option autoImplicit false
set_option relaxedAutoImplicit false

/-!
# What a plan comes to

A plan is carried out in two parts. First it is worked out what it comes to: the coins and their
total, the recipients and theirs, the size and the fee. Then the partially signed transaction is put
together, input by input. The second part never fails on coins that were checked.

## Main definitions

* `JointSpend.SpendPlan.total`, `JointSpend.TxOutput.total` — the amounts that are spent and paid.
* `JointSpend.SpendPlan.Budget`, `JointSpend.SpendPlan.Budgeted` — what a plan comes to.
* `JointSpend.SpendPlan.assembled` — the partially signed transaction that spends coins.

## Main results

* `JointSpend.SpendPlan.collect_eq_ok` — items that passed their checks, and their total.
* `JointSpend.SpendPlan.assemble_eq` — putting together the inputs of checked coins succeeds.
* `JointSpend.SpendPlan.create_eq_ok_iff` — what carrying out a plan gives.
-/

namespace JointSpend

/-- The total of outputs. -/
def TxOutput.total (outputs : List TxOutput) : Nat :=
  (outputs.map fun o => o.value.toNat).sum

namespace SpendPlan

/-! ## Items and their total -/

/-- **Items that passed their checks**, one for each, and their total, which fits 64 bits. -/
theorem collect_eq_ok {α β : Type} {check : α → Except Fault β} {amount : α → UInt64}
    {tooLarge : InputFault} {as : List α} {total sum : Nat} {bs : List β}
    (htotal : total < UInt64.size)
    (h : collect check amount tooLarge as total = .ok (bs, sum)) :
    List.Forall₂ (fun a b => check a = .ok b) as bs ∧
      sum = total + (as.map fun a => (amount a).toNat).sum ∧ sum < UInt64.size := by
  induction as generalizing total bs with
  | nil =>
    obtain ⟨rfl, rfl⟩ := Prod.mk.inj (Except.ok.inj h)
    exact ⟨.nil, by simp, htotal⟩
  | cons a as ih =>
    rw [collect] at h
    obtain ⟨b, hb, h⟩ := Steps.bind_eq_ok_iff.mp h
    obtain ⟨hfits, h⟩ := Steps.guard_eq_ok_iff.mp h
    obtain ⟨⟨rest, sum'⟩, hrest, h⟩ := Steps.bind_eq_ok_iff.mp h
    obtain ⟨rfl, rfl⟩ := Prod.mk.inj (Steps.pure_eq_ok_iff.mp h)
    obtain ⟨hall, hsum, hlt⟩ := ih (by omega) hrest
    refine ⟨.cons hb hall, ?_, hlt⟩
    rw [hsum, List.map_cons, List.sum_cons, Nat.add_assoc]

/-- The total of the outputs that a plan spends. -/
def total (plan : SpendPlan) : Nat :=
  (plan.utxos.map fun utxo => utxo.valueSats.toNat).sum

/-- The coins of a plan are its described outputs, which passed the checks, and their total. -/
theorem coins_eq_ok {plan : SpendPlan} {coins : List Coin} {available : Nat}
    (h : plan.coins = .ok (coins, available)) :
    List.Forall₂ (fun utxo coin => utxo.Describes coin ∧ coin.Checked) plan.utxos coins ∧
      available = plan.total ∧ available < UInt64.size := by
  obtain ⟨hall, hsum, hlt⟩ := collect_eq_ok (by decide) h
  exact ⟨hall.imp fun _ _ hcoin => Coin.checked_of_ofPlanned hcoin,
    by rw [hsum, Nat.zero_add, total], hlt⟩

/-- The coins of a plan passed the checks. -/
theorem checked_of_coins {plan : SpendPlan} {coins : List Coin} {available : Nat}
    (h : plan.coins = .ok (coins, available)) : ∀ coin ∈ coins, coin.Checked := by
  have hall : List.Forall₂ (fun coin (_ : PlannedUtxo) => coin.Checked ∧ True) coins plan.utxos :=
    ((coins_eq_ok h).1.imp fun _ _ hcoin => ⟨hcoin.2, trivial⟩).flip
  exact (List.forall₂_and_left _ _).mp hall |>.1

/-- Lists that have the same numbers one by one have the same sum. -/
theorem sum_eq_of_forall₂ {α β : Type} {f : α → Nat} {g : β → Nat} {as : List α} {bs : List β}
    (h : List.Forall₂ (fun a b => f a = g b) as bs) : (as.map f).sum = (bs.map g).sum := by
  have hmap : List.Forall₂ (· = ·) (as.map f) (bs.map g) :=
    List.forall₂_map_left_iff.mpr (List.forall₂_map_right_iff.mpr h)
  rw [List.forall₂_eq_eq_eq] at hmap
  rw [hmap]

/-- The outputs for the recipients have the planned amounts. -/
theorem recipients_eq_ok {plan : SpendPlan} {network : Network} {recipients : List TxOutput}
    {paid : Nat} (h : plan.recipients network = .ok (recipients, paid)) :
    TxOutput.total recipients = paid ∧ paid < UInt64.size := by
  obtain ⟨hall, hsum, hlt⟩ := collect_eq_ok (by decide) h
  refine ⟨?_, hlt⟩
  rw [hsum, Nat.zero_add, TxOutput.total]
  refine (sum_eq_of_forall₂ (hall.imp fun o output houtput => ?_)).symm
  unfold recipient at houtput
  split at houtput
  · rw [← Except.ok.inj houtput]
  · simp at houtput

/-! ## Putting the inputs together -/

/-- The partially signed transaction that spends coins. -/
def assembled (coins : List Coin) (outputs : List TxOutput) : Psbt :=
  ⟨unsigned coins outputs, ∅, coins.map Coin.records, outputs.map fun _ => ∅⟩

/-- **Recording what is known of one coin after another.** The inputs before an index hold their
records, those from there on hold none.

**Proof sketch.** Induction on the coins. Each coin finds its input without records; with its
records set, the inputs before the next index hold theirs. -/
theorem attachFrom_eq {coins : List Coin} (hcoins : ∀ coin ∈ coins, coin.Checked)
    {done : List InputMap} {p : Psbt} (hinputs : p.inputs = done ++ coins.map fun _ => ∅)
    (htx : ∀ (i : Nat) (coin : Coin), coins[i]? = some coin →
      ∃ txInput, p.transaction.inputs[done.length + i]? = some txInput ∧
        txInput.previous = coin.outPoint) :
    attachFrom done.length coins p =
      .ok { p with inputs := done ++ coins.map Coin.records } := by
  induction coins generalizing done p with
  | nil =>
    rw [List.map_nil] at hinputs ⊢
    rw [attachFrom, ← hinputs]
  | cons coin coins ih =>
    obtain ⟨hcoin, hrest⟩ := List.forall_mem_cons.mp hcoins
    obtain ⟨txInput, htxInput, hout⟩ := htx 0 coin rfl
    have hfree : p.inputs[done.length]? = some ∅ := by
      rw [hinputs]
      simp
    have hattach := hcoin.attach_eq hfree htxInput hout
    have hset : (p.setInput done.length coin.records).inputs =
        (done ++ [coin.records]) ++ coins.map fun _ => ∅ := by
      rw [Psbt.setInput, hinputs]
      simp
    have hnext := ih hrest hset fun i c hc => by
      obtain ⟨txInput, htxInput, hout⟩ := htx (i + 1) c hc
      refine ⟨txInput, ?_, hout⟩
      rw [List.length_append, List.length_singleton, Nat.add_assoc, Nat.add_comm 1 i]
      exact htxInput
    rw [attachFrom, hattach]
    rw [List.length_append, List.length_singleton] at hnext
    refine hnext.trans ?_
    rw [List.append_assoc]
    rfl

/-- **Putting together the inputs of checked coins succeeds.** -/
theorem assemble_eq {coins : List Coin} (hcoins : ∀ coin ∈ coins, coin.Checked)
    (outputs : List TxOutput) : assemble coins outputs = .ok (assembled coins outputs) := by
  have hunsigned : (unsigned coins outputs).isUnsigned = true := by
    simp [unsigned, transaction, Transaction.isUnsigned, Coin.txInput, Script.isEmpty, Script.empty]
  have hcreate : Psbt.create (unsigned coins outputs) =
      .ok ⟨unsigned coins outputs, ∅, coins.map fun _ => ∅, outputs.map fun _ => ∅⟩ := by
    unfold Psbt.create Psbt.ofTransaction?
    rw [if_pos hunsigned]
    simp only [unsigned, transaction, List.map_map]
    rfl
  unfold assemble
  rw [hcreate]
  refine @attachFrom_eq coins hcoins [] _ rfl fun i coin hcoin => ?_
  refine ⟨coin.txInput ⟨.empty, []⟩, ?_, rfl⟩
  simp [unsigned, transaction, hcoin]

/-! ## The budget of a plan -/

/-- What a plan comes to. -/
structure Budget where
  /-- The coins that are spent. -/
  coins : List Coin
  /-- Their total. -/
  available : Nat
  /-- The outputs for the recipients. -/
  recipients : List TxOutput
  /-- Their total. -/
  paid : Nat
  /-- The script that the change goes to. -/
  change : Script
  /-- The estimated virtual size of the signed transaction. -/
  size : Nat

/-- What has to be available: the amounts for the recipients and the fee. -/
def Budget.required (b : Budget) (rate : UInt64) : Nat :=
  b.paid + b.size * rate.toNat

/-- The outputs for the recipients and for the change. -/
def Budget.outputs (b : Budget) (rate : UInt64) : List TxOutput :=
  b.recipients ++ changeOutputs b.change (b.available - b.required rate)

/-- A plan for the chosen network comes to a budget that covers what is required. -/
structure Budgeted (plan : SpendPlan) (network : Network) (b : Budget) : Prop where
  chosen : Network.parse plan.network = .ok network
  coins : plan.coins = .ok (b.coins, b.available)
  /-- Something is spent. -/
  nonempty : b.coins ≠ []
  recipients : plan.recipients network = .ok (b.recipients, b.paid)
  change : Address.script? network plan.changeAddress = some b.change
  size : estimatedSize b.coins b.recipients b.change = .ok b.size
  /-- What is required fits 64 bits. -/
  fits : b.required plan.feeRateSatsPerVb < UInt64.size
  covered : b.required plan.feeRateSatsPerVb ≤ b.available

/-- **What carrying out a plan gives**: the partially signed transaction that spends the coins of
its budget. -/
theorem create_eq_ok_iff {plan : SpendPlan} {network : Network} {p : Psbt} :
    plan.create network = .ok p ↔ ∃ b, plan.Budgeted network b ∧
      p = assembled b.coins (b.outputs plan.feeRateSatsPerVb) := by
  unfold create
  constructor
  · intro h
    obtain ⟨planned, hnetwork, h⟩ := Steps.bind_eq_ok_iff.mp h
    obtain ⟨hsame, h⟩ := Steps.guard_eq_ok_iff.mp h
    obtain rfl := not_not.mp hsame
    obtain ⟨⟨coins, available⟩, hcoins, h⟩ := Steps.bind_eq_ok_iff.mp h
    obtain ⟨hne, h⟩ := Steps.guard_eq_ok_iff.mp h
    obtain ⟨⟨recipients, paid⟩, hrecipients, h⟩ := Steps.bind_eq_ok_iff.mp h
    cases hchange : Address.script? planned plan.changeAddress with
    | none =>
      simp only [hchange] at h
      obtain ⟨_, hthrow, -⟩ := Steps.bind_eq_ok_iff.mp h
      exact absurd hthrow Steps.throw_ne_ok
    | some change =>
      simp only [hchange] at h
      obtain ⟨_, hpure, h⟩ := Steps.bind_eq_ok_iff.mp h
      obtain rfl := Steps.pure_eq_ok_iff.mp hpure
      obtain ⟨size, hsize, h⟩ := Steps.bind_eq_ok_iff.mp h
      obtain ⟨-, h⟩ := Steps.guard_eq_ok_iff.mp h
      obtain ⟨hfits, h⟩ := Steps.guard_eq_ok_iff.mp h
      obtain ⟨hcovered, h⟩ := Steps.guard_eq_ok_iff.mp h
      rw [assemble_eq (checked_of_coins hcoins)] at h
      exact ⟨⟨coins, available, recipients, paid, change, size⟩,
        ⟨hnetwork, hcoins, by simpa using hne, hrecipients, hchange, hsize, not_le.mp hfits,
          not_lt.mp hcovered⟩, (Except.ok.inj h).symm⟩
  · rintro ⟨b, hb, rfl⟩
    have hfits := hb.fits
    have hcovered := hb.covered
    unfold Budget.required at hfits hcovered
    refine Steps.bind_eq_ok_iff.mpr ⟨network, hb.chosen, ?_⟩
    refine Steps.guard_eq_ok_iff.mpr ⟨not_not.mpr rfl, ?_⟩
    refine Steps.bind_eq_ok_iff.mpr ⟨_, hb.coins, ?_⟩
    refine Steps.guard_eq_ok_iff.mpr ⟨by simpa using hb.nonempty, ?_⟩
    refine Steps.bind_eq_ok_iff.mpr ⟨_, hb.recipients, ?_⟩
    simp only [hb.change]
    refine Steps.bind_eq_ok_iff.mpr ⟨_, rfl, ?_⟩
    refine Steps.bind_eq_ok_iff.mpr ⟨_, hb.size, ?_⟩
    refine Steps.guard_eq_ok_iff.mpr ⟨by omega, ?_⟩
    refine Steps.guard_eq_ok_iff.mpr ⟨by omega, ?_⟩
    refine Steps.guard_eq_ok_iff.mpr ⟨by omega, ?_⟩
    exact assemble_eq (checked_of_coins hb.coins) _

end SpendPlan

end JointSpend
