import JointSpend.Proofs.Funding.Creation
import JointSpend.Proofs.Spend.Completeness

set_option autoImplicit false
set_option relaxedAutoImplicit false

/-!
# The amounts of an analysis

What an analysis says of amounts is exact, or it says nothing: no total leaves out an amount that is
not known, and none is wrapped around.

## Main definitions

* `JointSpend.Psbt.extendTotal` — a total with one more amount.
* `JointSpend.Psbt.Spends` — the outputs that a copy spends.

## Main results

* `JointSpend.Psbt.foldlM_extendTotal_eq_some_iff` — totals that are known.
* `JointSpend.Psbt.inputTotal_eq_some_iff`, `JointSpend.Psbt.outputTotal_eq_some_iff`,
  `JointSpend.Psbt.fee_eq_some_iff` — the amounts that are known.
* `JointSpend.Psbt.amounts_exact` — what an analysis says of amounts.
-/

namespace JointSpend

namespace Psbt

variable {scheme : SignatureScheme} {p : Psbt}

/-! ## Totals -/

/-- The total with one more amount, if that is known and the sum fits 64 bits. -/
def extendTotal (total : Nat) (amount : Option UInt64) : Option Nat := do
  let amount ← amount
  let total := total + amount.toNat
  if total < UInt64.size then some total else none

/-- A total is extended by one amount after another. -/
private theorem exactTotal_eq_foldlM (amounts : List (Option UInt64)) :
    exactTotal amounts = amounts.foldlM extendTotal 0 :=
  rfl

/-- A total grows by an amount that is known, and keeps to 64 bits. -/
private theorem extendTotal_eq_some_iff {total n : Nat} {amount : Option UInt64} :
    extendTotal total amount = some n ↔
      ∃ value, amount = some value ∧ n = total + value.toNat ∧ n < 2 ^ 64 := by
  have hsize : UInt64.size = 2 ^ 64 := rfl
  cases amount with
  | none => simp [extendTotal]
  | some value =>
    simp only [extendTotal, Option.bind_eq_bind, Option.bind_some, Option.some.injEq,
      exists_eq_left', hsize]
    split
    · next hfits =>
      constructor
      · intro h
        obtain rfl := Option.some.inj h
        exact ⟨rfl, hfits⟩
      · rintro ⟨rfl, -⟩
        rfl
    · next hlarge =>
      constructor
      · intro h
        simp at h
      · rintro ⟨rfl, hfits⟩
        exact absurd hfits hlarge

/-- **A total that has been continued** is known exactly when all further amounts are known and the
sum fits 64 bits, and is then that sum.

**Proof sketch.** Induction on the amounts. Sums only grow, so that none of them is too large on the
way if the last one is not. -/
theorem foldlM_extendTotal_eq_some_iff {amounts : List (Option UInt64)} {total n : Nat}
    (htotal : total < 2 ^ 64) :
    amounts.foldlM extendTotal total = some n ↔
      ∃ values : List UInt64, amounts = values.map some ∧
        n = total + (values.map UInt64.toNat).sum ∧ n < 2 ^ 64 := by
  induction amounts generalizing total with
  | nil =>
    simp only [List.foldlM_nil, Option.pure_def, Option.some.injEq, List.nil_eq,
      List.map_eq_nil_iff, exists_eq_left, List.map_nil, List.sum_nil, Nat.add_zero]
    constructor
    · rintro rfl
      exact ⟨rfl, htotal⟩
    · rintro ⟨rfl, -⟩
      rfl
  | cons amount amounts ih =>
    simp only [List.foldlM_cons, Option.bind_eq_bind, Option.bind_eq_some_iff,
      extendTotal_eq_some_iff]
    constructor
    · rintro ⟨_, ⟨value, rfl, rfl, hfits⟩, hrest⟩
      obtain ⟨values, rfl, rfl, hn⟩ := (ih hfits).mp hrest
      refine ⟨value :: values, rfl, ?_, hn⟩
      rw [List.map_cons, List.sum_cons, Nat.add_assoc]
    · rintro ⟨values, hvalues, hsum, hn⟩
      cases values with
      | nil => simp at hvalues
      | cons value values =>
        obtain ⟨rfl, rfl⟩ := List.cons.inj hvalues
        rw [List.map_cons, List.sum_cons, ← Nat.add_assoc] at hsum
        have hfits : total + value.toNat < 2 ^ 64 := by omega
        exact ⟨_, ⟨value, rfl, rfl, hfits⟩, (ih hfits).mpr ⟨values, rfl, hsum, hn⟩⟩

/-- **A total** is known exactly when all amounts are known and their sum fits 64 bits, and is then
that sum. -/
theorem exactTotal_eq_some_iff {amounts : List (Option UInt64)} {n : Nat} :
    exactTotal amounts = some n ↔
      ∃ values : List UInt64, amounts = values.map some ∧ n = (values.map UInt64.toNat).sum ∧
        n < 2 ^ 64 := by
  rw [exactTotal_eq_foldlM, foldlM_extendTotal_eq_some_iff (by decide)]
  simp only [Nat.zero_add]

/-! ## Amounts -/

/-- The outputs that a copy spends, one for each of its inputs. -/
def Spends (p : Psbt) (spent : List TxOutput) : Prop :=
  List.Forall₂ (fun i output => p.spentOutput? i = some output) (List.range p.inputs.length) spent

/-- A copy spends no other outputs. -/
theorem Spends.unique {spent other : List TxOutput} (h : p.Spends spent) (h' : p.Spends other) :
    spent = other := by
  refine List.right_unique_forall₂' ?_ h h'
  intro i output output' houtput houtput'
  exact Option.some.inj (houtput.symm.trans houtput')

/-- Spent amounts are known when the spent outputs are. -/
private theorem map_spentOutput?_eq_iff {indices : List Nat} {values : List UInt64} :
    (indices.map fun i => (p.spentOutput? i).map (·.value)) = values.map some ↔
      ∃ spent, List.Forall₂ (fun i output => p.spentOutput? i = some output) indices spent ∧
        values = spent.map (·.value) := by
  induction indices generalizing values with
  | nil =>
    simp only [List.map_nil, List.nil_eq, List.map_eq_nil_iff, List.forall₂_nil_left_iff,
      exists_eq_left]
  | cons i indices ih =>
    simp only [List.map_cons, List.forall₂_cons_left_iff]
    constructor
    · intro h
      cases values with
      | nil => simp at h
      | cons value values =>
        obtain ⟨hvalue, hvalues⟩ := List.cons.inj h
        obtain ⟨output, houtput, rfl⟩ := Option.map_eq_some_iff.mp hvalue
        obtain ⟨spent, hspent, rfl⟩ := ih.mp hvalues
        exact ⟨output :: spent, ⟨output, spent, houtput, hspent, rfl⟩, rfl⟩
    · rintro ⟨_, ⟨output, spent, houtput, hspent, rfl⟩, rfl⟩
      rw [houtput, ih.mpr ⟨spent, hspent, rfl⟩]
      rfl

/-- The total of outputs is the sum of their amounts. -/
private theorem sum_values (outputs : List TxOutput) :
    ((outputs.map (·.value)).map UInt64.toNat).sum = TxOutput.total outputs := by
  rw [List.map_map]
  rfl

/-- **The total of the inputs** is known exactly when all spent outputs are known and their total
fits 64 bits. -/
theorem inputTotal_eq_some_iff {n : Nat} :
    p.inputTotal = some n ↔
      ∃ spent, p.Spends spent ∧ n = TxOutput.total spent ∧ n < 2 ^ 64 := by
  rw [inputTotal, exactTotal_eq_some_iff]
  constructor
  · rintro ⟨values, hvalues, rfl, hn⟩
    obtain ⟨spent, hspent, rfl⟩ := map_spentOutput?_eq_iff.mp hvalues
    exact ⟨spent, hspent, sum_values spent, hn⟩
  · rintro ⟨spent, hspent, rfl, hn⟩
    exact ⟨_, map_spentOutput?_eq_iff.mpr ⟨spent, hspent, rfl⟩, (sum_values spent).symm, hn⟩

/-- **The total of the outputs** is known exactly when it fits 64 bits. -/
theorem outputTotal_eq_some_iff {n : Nat} :
    p.outputTotal = some n ↔ n = TxOutput.total p.transaction.outputs ∧ n < 2 ^ 64 := by
  have hmap : (p.transaction.outputs.map fun o => some o.value) =
      (p.transaction.outputs.map (·.value)).map some := by
    rw [List.map_map]
    rfl
  rw [outputTotal, hmap, exactTotal_eq_some_iff, ← sum_values]
  constructor
  · rintro ⟨values, hvalues, h⟩
    obtain rfl := List.map_injective_iff.mpr (Option.some_injective _) hvalues
    exact h
  · intro h
    exact ⟨_, rfl, h⟩

/-- **The fee** is known exactly when both totals are known and have less than 64 bits. -/
theorem fee_eq_some_iff {fee : Int} :
    p.fee = some fee ↔
      ∃ inputs outputs, p.inputTotal = some inputs ∧ p.outputTotal = some outputs ∧
        inputs < 2 ^ 63 ∧ outputs < 2 ^ 63 ∧ fee = (inputs : Int) - (outputs : Int) := by
  have hlimit : signedLimit = 2 ^ 63 := rfl
  simp only [Psbt.fee, Option.bind_eq_bind, Option.bind_eq_some_iff, hlimit]
  constructor
  · rintro ⟨inputs, hinputs, outputs, houtputs, h⟩
    split at h
    · next hlt =>
      exact ⟨inputs, outputs, hinputs, houtputs, hlt.1, hlt.2, (Option.some.inj h).symm⟩
    · simp at h
  · rintro ⟨inputs, outputs, hinputs, houtputs, hin, hout, rfl⟩
    exact ⟨inputs, hinputs, outputs, houtputs, if_pos ⟨hin, hout⟩⟩

/-- The size is estimated exactly when the fee is known and the copy is complete. -/
private theorem isSome_estimatedSize (hp : p.Shaped) (network : Network) :
    (p.analyze scheme network).estimatedSize.isSome = true ↔
      p.fee.isSome = true ∧ p.isComplete scheme = true := by
  rw [analyze_estimatedSize]
  split
  · next hknown =>
    obtain ⟨hfee, hcomplete⟩ := Bool.and_eq_true_iff.mp hknown
    have hfinal : (p.finalize scheme).allFinal = true := by
      rw [allFinal_finalize, hcomplete]
    simp [(extract_eq_ok_iff hp.finalize).mpr ⟨hfinal, rfl⟩, Except.toOption, hfee, hcomplete]
  · next hunknown =>
    simpa using hunknown

end Psbt

/-- **The amounts of an analysis are exact or absent.** -/
structure Analysis.ExactFor (a : Analysis) (scheme : SignatureScheme) (p : Psbt) : Prop where
  /-- The total of the inputs is known exactly when all spent outputs are known and their total fits
  64 bits. -/
  inputTotal (n : Nat) : a.inputTotal = some n ↔
    ∃ spent, p.Spends spent ∧ n = TxOutput.total spent ∧ n < 2 ^ 64
  /-- The total of the outputs is known exactly when it fits 64 bits. -/
  outputTotal (n : Nat) : a.outputTotal = some n ↔
    n = TxOutput.total p.transaction.outputs ∧ n < 2 ^ 64
  /-- The fee is known exactly when both totals are and have less than 64 bits. -/
  fee (fee : Int) : a.fee = some fee ↔
    ∃ inputs outputs, a.inputTotal = some inputs ∧ a.outputTotal = some outputs ∧
      inputs < 2 ^ 63 ∧ outputs < 2 ^ 63 ∧ fee = (inputs : Int) - (outputs : Int)
  /-- The size is estimated exactly when the fee is known and each input is final or can be made
  so. -/
  estimatedSize : a.estimatedSize.isSome = true ↔ a.fee.isSome = true ∧
    ∀ (i : Nat) (input : InputMap), p.inputs[i]? = some input →
      InputMap.isFinal input = true ∨ ∃ scripts, p.finalizeInput scheme i = .ok scripts
  /-- Nothing is computed from a part of the inputs. -/
  unknown (i : Nat) : i < p.inputs.length → p.spentOutput? i = none →
    a.inputTotal = none ∧ a.fee = none ∧ a.estimatedSize = none ∧ a.estimatedFeeRate = none

namespace Psbt

variable {scheme : SignatureScheme} {p : Psbt}

/-- Nothing is known of amounts if some spent output is not known. -/
private theorem inputTotal_eq_none {i : Nat} (hi : i < p.inputs.length)
    (h : p.spentOutput? i = none) : p.inputTotal = none := by
  rw [Option.eq_none_iff_forall_ne_some]
  intro n hn
  obtain ⟨spent, hspent, -, -⟩ := inputTotal_eq_some_iff.mp hn
  have hlen : i < (List.range p.inputs.length).length := by simpa using hi
  have houtput := hspent.get hlen (hspent.length_eq ▸ hlen)
  simp [h] at houtput

/-- **What an analysis says of amounts is exact**, for every copy that was read. -/
theorem amounts_exact (scheme : SignatureScheme) (hp : p.Decoded) (network : Network) :
    (p.analyze scheme network).ExactFor scheme p where
  inputTotal n := inputTotal_eq_some_iff
  outputTotal n := outputTotal_eq_some_iff
  fee fee := fee_eq_some_iff
  estimatedSize := by
    refine (isSome_estimatedSize hp.shaped network).trans (and_congr_right fun _ => ?_)
    rw [isComplete_iff]
    simp only [Bool.or_eq_true, Steps.toBool_eq_true_iff]
  unknown i hi h := by
    have hinputs : p.inputTotal = none := inputTotal_eq_none hi h
    have hfee : p.fee = none := by
      rw [Psbt.fee, hinputs]
      rfl
    have hsize : (p.analyze scheme network).estimatedSize = none := by
      rw [analyze_estimatedSize, hfee]
      rfl
    refine ⟨hinputs, hfee, hsize, ?_⟩
    rw [analyze_estimatedFeeRate, hfee]
    rfl

/-- A copy with two inputs that spend these amounts. -/
def sampleSpends (first second : UInt64) : Psbt :=
  ⟨⟨2, 0, [⟨⟨⟨Fixed.zero 32⟩, 0⟩, .empty, 0xffffffff, []⟩,
      ⟨⟨⟨Fixed.zero 32⟩, 1⟩, .empty, 0xffffffff, []⟩], [⟨1000, ⟨[0x51]⟩⟩]⟩, ∅,
    [(∅ : InputMap).insert .witnessUtxo ⟨first, ⟨[0x51]⟩⟩,
      (∅ : InputMap).insert .witnessUtxo ⟨second, ⟨[0x51]⟩⟩], [∅]⟩

/-- Amounts at the limits: a total of 64 bits is shown, but no fee is, and nothing that would be
wrapped around. -/
theorem amounts_exact_limits :
    ((sampleSpends 0x7fffffffffffffff 1).analyze Curve.secp256k1 .bitcoin).inputTotal =
        some (2 ^ 63) ∧
      ((sampleSpends 0x7fffffffffffffff 1).analyze Curve.secp256k1 .bitcoin).fee = none ∧
      ((sampleSpends 0xffffffffffffffff 1).analyze Curve.secp256k1 .bitcoin).inputTotal = none := by
  have hlarge : (sampleSpends 0x7fffffffffffffff 1).Decoded :=
    @Decoded.of_ofBytes? _ (sampleSpends 0x7fffffffffffffff 1).bytes (by decide +kernel)
  have hover : (sampleSpends 0xffffffffffffffff 1).Decoded :=
    @Decoded.of_ofBytes? _ (sampleSpends 0xffffffffffffffff 1).bytes (by decide +kernel)
  have hexact := amounts_exact Curve.secp256k1 hlarge .bitcoin
  have htotal := (hexact.inputTotal (2 ^ 63)).mpr
    ⟨[⟨0x7fffffffffffffff, ⟨[0x51]⟩⟩, ⟨1, ⟨[0x51]⟩⟩], .cons rfl (.cons rfl .nil), rfl, by decide⟩
  refine ⟨htotal, ?_, ?_⟩
  · rw [Option.eq_none_iff_forall_ne_some]
    intro fee hfee
    obtain ⟨inputs, outputs, hinputs, -, hlt, -, -⟩ := (hexact.fee fee).mp hfee
    obtain rfl := Option.some.inj (htotal.symm.trans hinputs)
    exact absurd hlt (by decide)
  · rw [Option.eq_none_iff_forall_ne_some]
    intro n hn
    obtain ⟨spent, hspent, rfl, hlt⟩ :=
      ((amounts_exact Curve.secp256k1 hover .bitcoin).inputTotal n).mp hn
    have hknown : (sampleSpends 0xffffffffffffffff 1).Spends
        [⟨0xffffffffffffffff, ⟨[0x51]⟩⟩, ⟨1, ⟨[0x51]⟩⟩] := .cons rfl (.cons rfl .nil)
    obtain rfl := hspent.unique hknown
    exact absurd hlt (by decide)

end Psbt

end JointSpend
