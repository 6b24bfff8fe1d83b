import JointSpend.Proofs.Funding.Preparation

set_option autoImplicit false
set_option relaxedAutoImplicit false

/-!
# Coins that are listed again

A plan adds up the amounts that it lists, whether they are those of different coins or not. The
transaction that comes of it spends each place once for each line. Here the lines are compared with
the coins: one that is listed again adds to what is available, but not to what can be spent.

## Main definitions

* `JointSpend.Coin.total` — the total of coins.
* `JointSpend.Coin.CountedOnce` — lines of which one is counted for each place, and the others.

## Main results

* `JointSpend.Coin.exists_countedOnce` — coins can be counted once.
* `JointSpend.SpendPlan.covered_once_iff` — when the coins cover what the lines cover.
* `JointSpend.SpendPlan.not_covered_once` — they need not.
-/

namespace JointSpend

namespace Coin

/-- The total of coins. -/
def total (coins : List Coin) : Nat :=
  TxOutput.total (coins.map (·.output))

private theorem total_append (coins others : List Coin) :
    total (coins ++ others) = total coins + total others := by
  simp [total, TxOutput.total]

/-- The total does not depend on the order. -/
private theorem total_eq_of_perm {coins others : List Coin} (h : coins.Perm others) :
    total coins = total others :=
  ((h.map _).map _).sum_nat

/-- The lines that are counted, one for each place, and those that list a coin again. Where the
lines for a place say different things of it, any of them can be the one that is counted. -/
structure CountedOnce (coins once again : List Coin) : Prop where
  /-- Every line is counted or lists a coin again. -/
  perm : coins.Perm (once ++ again)
  /-- No place is counted twice. -/
  distinct : (once.map (·.outPoint)).Nodup
  /-- What is not counted is at a place that is. -/
  repeated : ∀ coin ∈ again, coin.outPoint ∈ once.map (·.outPoint)

/-- **Coins can be counted once.** -/
theorem exists_countedOnce (coins : List Coin) : ∃ once again, CountedOnce coins once again := by
  induction coins with
  | nil => exact ⟨[], [], .nil, .nil, by simp⟩
  | cons coin coins ih =>
    obtain ⟨once, again, hperm, hdistinct, hrepeated⟩ := ih
    by_cases hlisted : coin.outPoint ∈ once.map (·.outPoint)
    · refine ⟨once, coin :: again, ?_, hdistinct, List.forall_mem_cons.mpr ⟨hlisted, hrepeated⟩⟩
      exact (hperm.cons coin).trans List.perm_middle.symm
    · refine ⟨coin :: once, again, hperm.cons coin, List.nodup_cons.mpr ⟨hlisted, hdistinct⟩, ?_⟩
      exact fun other hother => List.mem_cons_of_mem _ (hrepeated other hother)

namespace CountedOnce

variable {coins once again : List Coin}

/-- The places that are counted are those that are listed. -/
theorem mem_outPoints_iff (h : CountedOnce coins once again) (place : OutPoint) :
    place ∈ once.map (·.outPoint) ↔ place ∈ coins.map (·.outPoint) := by
  rw [(h.perm.map _).mem_iff, List.map_append, List.mem_append]
  refine ⟨.inl, fun hmem => hmem.elim id fun hagain => ?_⟩
  obtain ⟨coin, hcoin, rfl⟩ := List.mem_map.mp hagain
  exact h.repeated coin hcoin

/-- What is counted and what is listed again make up the total. -/
theorem total_eq (h : CountedOnce coins once again) : total coins = total once + total again := by
  rw [total_eq_of_perm h.perm, total_append]

/-- No coin is listed again if the places differ. -/
theorem again_eq_nil (h : CountedOnce coins once again)
    (hdistinct : (coins.map (·.outPoint)).Nodup) : again = [] := by
  rw [(h.perm.map _).nodup_iff, List.map_append, List.nodup_append] at hdistinct
  rw [List.eq_nil_iff_forall_not_mem]
  intro coin hcoin
  exact hdistinct.2.2 _ (h.repeated coin hcoin) _ (List.mem_map_of_mem hcoin) rfl

end CountedOnce

end Coin

namespace SpendPlan

variable {plan : SpendPlan} {network : Network} {b : Budget}

/-- The transaction spends the places that are listed. -/
private theorem previous_assembled (coins : List Coin) (outputs : List TxOutput) :
    (assembled coins outputs).transaction.inputs.map (·.previous) =
      coins.map (·.outPoint) := by
  simp only [assembled, unsigned, transaction, List.map_map]
  rfl

/-- **When the coins cover what the lines cover.** A plan that can be carried out has lines that
cover what the recipients get and the fee. Its coins, each counted once, cover this exactly when the
lines that list a coin again amount to no more than what is left over; in particular if the
transaction spends no place twice. -/
theorem covered_once_iff {p : Psbt} (h : plan.create network = .ok p) :
    ∃ b, plan.Budgeted network b ∧
      p.transaction.inputs.map (·.previous) = b.coins.map (·.outPoint) ∧
      TxOutput.total b.recipients = b.paid ∧
      (∃ once again, Coin.CountedOnce b.coins once again) ∧
      ∀ once again, Coin.CountedOnce b.coins once again →
        (∀ place, place ∈ once.map (·.outPoint) ↔
          place ∈ p.transaction.inputs.map (·.previous)) ∧
        (b.required plan.feeRateSatsPerVb ≤ Coin.total once ↔
          Coin.total again ≤ b.available - b.required plan.feeRateSatsPerVb) ∧
        ((p.transaction.inputs.map (·.previous)).Nodup →
          b.required plan.feeRateSatsPerVb ≤ Coin.total once) := by
  obtain ⟨b, hb, rfl⟩ := create_eq_ok_iff.mp h
  have hcovered := hb.covered
  refine ⟨b, hb, previous_assembled _ _, (recipients_eq_ok hb.recipients).1,
    Coin.exists_countedOnce b.coins, fun once again honce => ?_⟩
  rw [previous_assembled]
  have htotal : b.available = Coin.total once + Coin.total again := by
    rw [(coins_eq_ok hb.coins).2.1, ← hb.total_spent, ← honce.total_eq]
    rfl
  refine ⟨honce.mem_outPoints_iff, by omega, fun hdistinct => ?_⟩
  rw [honce.again_eq_nil hdistinct] at htotal
  have hnone : Coin.total [] = 0 := rfl
  omega

/-- The sample spends no place twice, so that its coin covers what is required. -/
theorem covered_once_iff_samplePlan :
    ∃ p b once again, (samplePlan 2).create .regtest = .ok p ∧
      (samplePlan 2).Budgeted .regtest b ∧ Coin.CountedOnce b.coins once again ∧
        b.required 2 ≤ Coin.total once := by
  have hcreated : ((samplePlan 2).create .regtest).toBool = true := by decide +kernel
  obtain ⟨p, hp⟩ := Steps.toBool_eq_true_iff.mp hcreated
  obtain ⟨b, hb, hprevious, -, ⟨once, again, honce⟩, hcovered⟩ := covered_once_iff hp
  have hlength : b.coins.length = 1 := (collect_eq_ok (by decide) hb.coins).1.length_eq.symm
  obtain ⟨coin, hcoin⟩ := List.length_eq_one_iff.mp hlength
  refine ⟨p, b, once, again, hp, hb, honce, (hcovered once again honce).2.2 ?_⟩
  rw [hprevious, hcoin]
  simp

/-- The line of the sample given twice, and more for the recipient than the coin has. -/
def doubledPlan : SpendPlan :=
  { samplePlan 2 with
    utxos := (samplePlan 2).utxos ++ (samplePlan 2).utxos
    outputs := [⟨"bcrt1qw508d6qejxtdg4y5r3zarvary0c5xw7kygt080", 150000⟩] }

/-- The coins of that plan are one coin twice. -/
theorem Budgeted.coins_doubledPlan (hb : doubledPlan.Budgeted network b) :
    ∃ coin : Coin, b.coins = [coin, coin] ∧ coin.output.value = 100000 := by
  have hall := (collect_eq_ok (by decide) hb.coins).1
  obtain ⟨coin, rest, hcoin, hrest, hcoins⟩ := List.forall₂_cons_left_iff.mp hall
  obtain ⟨coin', rest', hcoin', hrest', rfl⟩ := List.forall₂_cons_left_iff.mp hrest
  obtain rfl := List.forall₂_nil_left_iff.mp hrest'
  obtain rfl := Except.ok.inj (hcoin.symm.trans hcoin')
  exact ⟨coin, hcoins, (Coin.checked_of_ofPlanned hcoin).1.value⟩

/-- **The coins need not cover what the lines cover**: what one coin has is paid out twice over. -/
theorem not_covered_once :
    ¬ ∀ (plan : SpendPlan) (network : Network) (p : Psbt) (b : Budget),
      plan.create network = .ok p → plan.Budgeted network b →
        ∀ once again, Coin.CountedOnce b.coins once again →
          b.required plan.feeRateSatsPerVb ≤ Coin.total once := by
  intro hall
  have hcreated : (doubledPlan.create .regtest).toBool = true := by decide +kernel
  obtain ⟨p, hp⟩ := Steps.toBool_eq_true_iff.mp hcreated
  obtain ⟨b, hb, -⟩ := create_eq_ok_iff.mp hp
  obtain ⟨coin, hcoins, hvalue⟩ := hb.coins_doubledPlan
  have honce : Coin.CountedOnce b.coins [coin] [coin] :=
    ⟨by rw [hcoins]; exact .refl _, by simp, by simp⟩
  have hpaid : b.paid = 150000 := (collect_eq_ok (by decide) hb.recipients).2.1
  have hcovered := hall _ _ p b hp hb _ _ honce
  have htotal : Coin.total [coin] = 100000 := by
    simp [Coin.total, TxOutput.total, hvalue]
  unfold Budget.required at hcovered
  omega

end SpendPlan

end JointSpend
