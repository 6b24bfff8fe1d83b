import JointSpend.Proofs.Funding.Preparation
import JointSpend.Proofs.Sign.Offers
import JointSpend.Proofs.Spend.Independence
import JointSpend.Proofs.Transaction.Size

set_option autoImplicit false
set_option relaxedAutoImplicit false

/-!
# The fee of a plan is enough

The fee of a plan is set for a virtual size that is estimated with placeholders for keys and
signatures, before anybody has signed. The scripts that satisfy the inputs later on are put together
elsewhere. They are never larger than the placeholders, as long as keys and signatures are of the
kinds that the placeholders stand for, so the transaction in the end pays the rate of the plan.

## Main definitions

* `JointSpend.Psbt.FitsPlaceholders` — keys and signatures are of the kinds that the placeholders
  stand for.

## Main results

* `JointSpend.Psbt.noLonger_templateStack` — what satisfies a path is no longer than the
  placeholders.
* `JointSpend.FinalScripts.noLonger_ofStack?` — final scripts grow with the stack.
* `JointSpend.SpendPlan.noLarger_finalize` — the inputs of the signed transaction are no larger than
  those with placeholders.
* `JointSpend.SpendPlan.fee_suffices` — the signed transaction is no larger than estimated, and its
  fee is enough.
-/

namespace JointSpend

/-! ## Stacks -/

namespace Psbt

variable {scheme : SignatureScheme} {p : Psbt} {index : Nat} {input : InputMap}
  {path : SpendPath} {template : Template} {stack : List Bytes}

/-- A valid ECDSA signature is no longer than its placeholder. -/
private theorem length_bytes_le_of_verifies (hlow : scheme.AcceptsLow) {key : PublicKey}
    {sig : TypedSignature} (h : p.verifies scheme index path key sig = true) :
    sig.bytes.length ≤ Coin.signaturePlaceholder.length := by
  have hplaceholder : Coin.signaturePlaceholder.length = 72 := rfl
  unfold verifies at h
  split at h
  · have := TypedSignature.length_bytes_le_of_isLow (hlow _ _ _ h)
    omega
  · simp at h

/-- Keys and signatures are of the kinds that the placeholders stand for: keys that answer a key
hash outside the witness are in the short form, and taproot signatures are of the default type. -/
structure FitsPlaceholders (scheme : SignatureScheme) (p : Psbt) : Prop where
  compressed : ∀ (i : Nat) (path : SpendPath) (hash : Fixed 20) (x : InputMap) (key : PublicKey),
    p.spendPath i = .ok path → path.version = .base → path.template? = some (.pubkeyHash hash) →
      p.inputs[i]? = some x → Script.hashMatches hash key = true →
        SignedBy scheme p i x path key → key.compressed = true
  default : ∀ (i : Nat) (x : InputMap) (sig : TaprootSignature), p.inputs[i]? = some x →
    x.get? .tapKeySig = some sig → sig.sighash = .default

/-- What satisfies a script is no longer than the placeholders for it, if the keys are in the short
form.

**Proof sketch.** One case for each form. Valid ECDSA signatures have their second scalar in the
lower half, so they fit their placeholder, and there are exactly as many as the threshold says. -/
theorem noLonger_scriptStack (hlow : scheme.AcceptsLow)
    (hscript : path.script.template? = some template)
    (hstack : p.templateStack scheme index input path template = .ok stack)
    (hshort : ∀ hash key, template = .pubkeyHash hash → Script.hashMatches hash key = true →
      path.accepts key = true → SignedBy scheme p index input path key → key.compressed = true) :
    Bytes.NoLonger stack (Coin.placeholderStack path.script) := by
  rw [Coin.placeholderStack, hscript]
  cases template with
  | pubkeyHash hash =>
    obtain ⟨key, sig, rfl, hhash, haccepts, hsig, hvalid⟩ := pubkeyHashStack_eq_ok hstack
    have hcompressed := hshort hash key rfl hhash haccepts ⟨sig, hsig, hvalid⟩
    refine .cons (length_bytes_le_of_verifies hlow hvalid) (.cons ?_ .nil)
    rw [PublicKey.length_bytes_of_compressed hcompressed]
    rfl
  | pubkey key =>
    obtain ⟨sig, rfl, -, hvalid⟩ := pubkeyStack_eq_ok_iff.mp hstack
    exact .cons (length_bytes_le_of_verifies hlow hvalid) .nil
  | multisig threshold keys =>
    obtain ⟨henough, rfl⟩ := multisigStack_eq_ok_iff.mp hstack
    have hreplicate : List.replicate threshold Coin.signaturePlaceholder =
        ((keys.filterMap (p.validSignature? scheme index input path)).take threshold).map
          fun _ => Coin.signaturePlaceholder := by
      rw [List.map_const', List.length_take_of_le henough]
    refine .cons le_rfl ?_
    rw [hreplicate, List.forall₂_map_left_iff, List.forall₂_map_right_iff, List.forall₂_same]
    intro sig hsig
    obtain ⟨key, -, hkey⟩ := List.mem_filterMap.mp (List.mem_of_mem_take hsig)
    exact length_bytes_le_of_verifies hlow (verifies_of_validSignature? hkey)
  | taprootKey outputKey => cases Script.hasForm_of_template? hscript

/-- **What satisfies a path is no longer than the placeholders**, element by element, if keys and
signatures are of the kinds that the placeholders stand for. -/
theorem noLonger_templateStack (hlow : scheme.AcceptsLow) (hfits : p.FitsPlaceholders scheme)
    (hpath : p.spendPath index = .ok path) (hinput : p.inputs[index]? = some input)
    (htemplate : path.template? = some template)
    (hstack : p.templateStack scheme index input path template = .ok stack) :
    Bytes.NoLonger stack path.placeholderStack := by
  have hform := htemplate
  rw [SpendPath.template?] at hform
  rw [SpendPath.placeholderStack]
  cases hversion : path.version with
  | taproot =>
    rw [hversion] at hform
    obtain ⟨outputKey, -, rfl⟩ := Option.map_eq_some_iff.mp hform
    obtain ⟨sig, rfl, hsig, -⟩ := taprootStack_eq_ok_iff.mp hstack
    refine .cons ?_ .nil
    rw [TaprootSignature.length_bytes_of_default (hfits.default index input sig hinput hsig)]
    rfl
  | base =>
    rw [hversion] at hform
    refine noLonger_scriptStack hlow hform hstack fun hash key heq hhash _ hsigned => ?_
    subst heq
    exact hfits.compressed index path hash input key hpath hversion htemplate hinput hhash hsigned
  | witnessV0 =>
    rw [hversion] at hform
    refine noLonger_scriptStack hlow hform hstack fun _ key _ _ haccepts _ => ?_
    -- in the witness other keys are not accepted
    simpa [SpendPath.accepts, hversion] using haccepts

end Psbt

/-! ## Final scripts -/

/-- Scripts that push no longer elements are no longer. -/
private theorem Script.length_pushAll?_le {items others : List Bytes} {s t : Script}
    (h : Bytes.NoLonger items others) (hs : pushAll? items = some s)
    (ht : pushAll? others = some t) : s.bytes.length ≤ t.bytes.length := by
  obtain ⟨-, rfl⟩ := pushAll?_eq_some_iff.mp hs
  obtain ⟨-, rfl⟩ := pushAll?_eq_some_iff.mp ht
  exact Bytes.length_flatMap_le (h.imp fun _ _ => length_pushBytes_mono)

/-- **Final scripts grow with the stack** that they are made from. -/
theorem FinalScripts.noLonger_ofStack? {path : SpendPath} {stack other : List Bytes}
    {s t : FinalScripts} (h : Bytes.NoLonger stack other) (hs : ofStack? path stack = some s)
    (ht : ofStack? path other = some t) :
    s.scriptSig.bytes.length ≤ t.scriptSig.bytes.length ∧
      Bytes.NoLonger s.witness t.witness := by
  by_cases hversion : path.version = .base
  · obtain ⟨hpush, hwitness⟩ := ofStack?_base hversion hs
    obtain ⟨hpush', hwitness'⟩ := ofStack?_base hversion ht
    refine ⟨Script.length_pushAll?_le (h.append (.refl _)) hpush hpush', ?_⟩
    rw [hwitness, hwitness']
    exact .refl _
  · obtain ⟨hpush, hwitness⟩ := ofStack?_witness hversion hs
    obtain ⟨hpush', hwitness'⟩ := ofStack?_witness hversion ht
    refine ⟨Script.length_pushAll?_le (.refl _) hpush hpush', ?_⟩
    rw [hwitness, hwitness']
    exact h.append (.refl _)

/-! ## The signed transaction -/

namespace SpendPlan

variable {scheme : SignatureScheme} {plan : SpendPlan} {network : Network} {p : Psbt}
  {b : Budget} {coins : List Coin} {outputs : List TxOutput}

/-- The inputs with placeholders, one for each coin. -/
private theorem sizedInputs_eq_ok_iff {inputs : List TxInput} :
    sizedInputs coins = .ok inputs ↔
      List.Forall₂ (fun coin input => ∃ scripts, coin.placeholder = .ok scripts ∧
        coin.txInput scripts = input) coins inputs := by
  unfold sizedInputs
  simp only [Steps.mapM_eq_ok_iff, Steps.bind_eq_ok_iff, Steps.pure_eq_ok_iff]

/-- The final scripts of a coin's input are no larger than its placeholders. -/
private theorem noLarger_finalizeInput {index : Nat} {coin : Coin} {offers : Nat → List Offer}
    (hlow : scheme.AcceptsLow)
    (hfits : ((assembled coins outputs).withOffers offers).FitsPlaceholders scheme)
    (hcoin : coins[index]? = some coin) (hchecked : coin.Checked)
    {scripts placeholders : FinalScripts}
    (hscripts : ((assembled coins outputs).withOffers offers).finalizeInput scheme index =
      .ok scripts)
    (hplaceholders : coin.placeholder = .ok placeholders) :
    TxInput.NoLarger (coin.txInput scripts) (coin.txInput placeholders) := by
  obtain ⟨path, template, x, stack, hpath, htemplate, hx, hstack, hfinal⟩ :=
    Psbt.finalizeInput_eq_ok_iff.mp hscripts
  have hstacks := Psbt.noLonger_templateStack hlow hfits hpath hx htemplate hstack
  rw [Psbt.spendPath_withOffers] at hpath
  obtain ⟨outcome, hspent⟩ := hchecked.exists_spentBy
  obtain rfl : outcome = .ok path := (spendPath_assembled hcoin hchecked hspent).symm.trans hpath
  obtain ⟨hsig, hwitness⟩ := FinalScripts.noLonger_ofStack? hstacks hfinal
    (hspent.placeholder_eq_ok_iff.mp hplaceholders)
  exact ⟨hsig, hwitness⟩

/-- **The signed transaction of a plan**: it can be extracted if all inputs can be made final, and
its inputs are no larger than those with placeholders. -/
theorem noLarger_finalize {offers : Nat → List Offer} {sized : List TxInput}
    (hlow : scheme.AcceptsLow)
    (hfits : ((assembled coins outputs).withOffers offers).FitsPlaceholders scheme)
    (hchecked : ∀ coin ∈ coins, coin.Checked) (hsized : sizedInputs coins = .ok sized)
    (hfinal : ∀ i < coins.length, ∃ scripts,
      ((assembled coins outputs).withOffers offers).finalizeInput scheme i = .ok scripts) :
    ∃ inputs, (((assembled coins outputs).withOffers offers).finalize scheme).extract =
        .ok (transaction inputs outputs) ∧ List.Forall₂ TxInput.NoLarger inputs sized := by
  have hshaped : ((assembled coins outputs).withOffers offers).Shaped :=
    .withOffers offers ⟨by simp [assembled, unsigned, transaction],
      by simp [assembled, unsigned, transaction]⟩
  have hcomplete : ((assembled coins outputs).withOffers offers).isComplete scheme = true := by
    refine Psbt.isComplete_iff.mpr fun i x hx => ?_
    have hi := (List.getElem?_eq_some_iff.mp hx).1
    rw [Steps.toBool_eq_true_iff.mpr (hfinal i (by simpa [assembled] using hi)), Bool.or_true]
  have hextract := (Psbt.extract_eq_ok_iff hshaped.finalize).mpr
    ⟨Psbt.allFinal_finalize.trans hcomplete, rfl⟩
  rw [← Psbt.spendsAlike_finalize.transaction] at hextract
  refine ⟨_, hextract, ?_⟩
  obtain ⟨hlength, hplaceholder⟩ := List.forall₂_iff_get.mp (sizedInputs_eq_ok_iff.mp hsized)
  refine List.forall₂_iff_get.mpr ⟨?_, fun i hi hi' => ?_⟩
  · rw [List.length_zipWith, ← Psbt.spendsAlike_finalize.length, ← hlength]
    simp [assembled, unsigned, transaction]
  · have hlt : i < coins.length := by omega
    have hcoin : coins[i]? = some coins[i] := List.getElem?_eq_getElem hlt
    obtain ⟨scripts, hscripts⟩ := hfinal i hlt
    obtain ⟨placeholders, hplaceholders, hinput⟩ := hplaceholder i hlt hi'
    have hopen : InputMap.isFinal (InputMap.withOffers (offers i) coins[i].records) = false := by
      rw [InputMap.isFinal_withOffers, Coin.isFinal_records]
    obtain ⟨_, hsent, hget⟩ := (Psbt.sentAs_of_finalTransaction hshaped hextract).inputs i _ _
      (getElem?_txInputs_assembled hcoin)
      (by rw [Psbt.getElem?_inputs_withOffers, getElem?_inputs_assembled hcoin, Option.map_some])
    obtain rfl := Option.some.inj ((Psbt.scriptsFor_of_open hopen hscripts).symm.trans hsent)
    have hsame := Option.some.inj ((List.getElem?_eq_getElem hi).symm.trans hget)
    rw [← hinput, List.get_eq_getElem, hsame]
    exact noLarger_finalizeInput hlow hfits hcoin (hchecked _ (List.getElem_mem hlt)) hscripts
      hplaceholders

/-- The outputs of a budget are paid from what is left besides the fee. -/
theorem Budgeted.total_outputs_le (hb : plan.Budgeted network b) :
    b.size * plan.feeRateSatsPerVb.toNat + TxOutput.total (b.outputs plan.feeRateSatsPerVb) ≤
      plan.total := by
  obtain ⟨-, havailable, hlt⟩ := coins_eq_ok hb.coins
  have hpaid := (recipients_eq_ok hb.recipients).1
  have hcovered := hb.covered
  unfold Budget.required at hcovered
  have hchange : TxOutput.total (changeOutputs b.change
      (b.available - b.required plan.feeRateSatsPerVb)) ≤
        b.available - b.required plan.feeRateSatsPerVb := by
    unfold changeOutputs
    split
    · have hfits : b.available - b.required plan.feeRateSatsPerVb < UInt64.size := by omega
      simp [TxOutput.total, UInt64.toNat_ofNat_of_lt' hfits]
    · exact Nat.zero_le _
  have htotal : TxOutput.total (b.outputs plan.feeRateSatsPerVb) = b.paid +
      TxOutput.total (changeOutputs b.change
        (b.available - b.required plan.feeRateSatsPerVb)) := by
    rw [Budget.outputs, TxOutput.total, List.map_append, List.sum_append, ← hpaid]
    rfl
  unfold Budget.required at hchange htotal
  omega

/-- The outputs of a budget are written in no more bytes than those of the estimate, which have a
change output in any case. -/
private theorem Budget.length_outputs_le (b : Budget) (rate : UInt64) :
    (CompactSize.writeList TxOutput.bytes (b.outputs rate)).length ≤
      (CompactSize.writeList TxOutput.bytes (b.recipients ++ [⟨0, b.change⟩])).length := by
  unfold outputs changeOutputs
  split
  · refine CompactSize.length_writeList_mono (List.rel_append ?_ (.cons ?_ .nil))
    · exact List.forall₂_same.mpr fun _ _ => le_rfl
    · rw [TxOutput.length_bytes, TxOutput.length_bytes]
  · refine CompactSize.length_writeList_le (by simp) ?_
    simp

/-- **The fee of a plan is enough for the signed transaction.** When a plan is carried out and
signatures are added with which all inputs can be made final, the transaction is extracted. It is no
larger than estimated, and the described amounts cover its outputs and the rate of the plan for its
size, if the scheme accepts ECDSA signatures in the lower half only, and keys and signatures are of
the kinds that the placeholders stand for.

**Proof sketch.** The scripts behind hashes that are checked when the plan is carried out are those
that the inputs are spent with, so each input is satisfied along the path for which its placeholders
were made. What satisfies it is no longer, element by element, and sizes grow with lengths. -/
theorem fee_suffices {offers : Nat → List Offer} (hlow : scheme.AcceptsLow)
    (hcreate : plan.create network = .ok p)
    (hfinal : ∀ i < p.inputs.length, ∃ scripts,
      (p.withOffers offers).finalizeInput scheme i = .ok scripts)
    (hfits : (p.withOffers offers).FitsPlaceholders scheme) :
    ∃ b tx, plan.Budgeted network b ∧ p = assembled b.coins (b.outputs plan.feeRateSatsPerVb) ∧
      ((p.withOffers offers).finalize scheme).extract = .ok tx ∧ tx.virtualSize ≤ b.size ∧
        plan.feeRateSatsPerVb.toNat * tx.virtualSize + TxOutput.total tx.outputs ≤
          plan.total := by
  obtain ⟨b, hb, rfl⟩ := create_eq_ok_iff.mp hcreate
  obtain ⟨sized, hsized, hsize⟩ := Steps.bind_eq_ok_iff.mp hb.size
  obtain ⟨inputs, hextract, hinputs⟩ := noLarger_finalize hlow hfits (checked_of_coins hb.coins)
    hsized fun i hi => hfinal i (by simpa [assembled] using hi)
  have hle : (transaction inputs (b.outputs plan.feeRateSatsPerVb)).virtualSize ≤ b.size := by
    rw [← Steps.pure_eq_ok_iff.mp hsize]
    exact Transaction.virtualSize_mono hinputs (b.length_outputs_le _)
  refine ⟨b, _, hb, rfl, hextract, hle, ?_⟩
  have hmul := Nat.mul_le_mul_left plan.feeRateSatsPerVb.toNat hle
  have htotal := hb.total_outputs_le
  rw [Nat.mul_comm b.size] at htotal
  exact (Nat.add_le_add_right hmul _).trans htotal

/-- The signature of the key of the sample plan, at a low rate. -/
def sampleOffers (_ : Nat) : List Offer :=
  [.partialSig Psbt.sampleKey
    ⟨.ofNats 0x6ea45c801302bfebf5e7ea2ce532d20369a3f0d90c873a65d0b0bcf2b02ae6ad
      0x2505ac1d9ec5a7de0c5118acbe73d1b999655b43f21d8699429e385209a88a55, ⟨.all, false⟩⟩]

/-- The sample plan is signed, and its fee is enough. -/
theorem fee_suffices_samplePlan :
    ∃ p b tx, (samplePlan 2).create .regtest = .ok p ∧ (samplePlan 2).Budgeted .regtest b ∧
      ((p.withOffers sampleOffers).finalize Curve.secp256k1).extract = .ok tx ∧
        tx.virtualSize ≤ b.size ∧ 2 * tx.virtualSize + TxOutput.total tx.outputs ≤ 100000 := by
  -- the copy is computed once: it has one input, spent in the witness, which can be made final
  have hcomputed : ((samplePlan 2).create .regtest).toOption.any (fun p =>
      p.inputs.length = 1 ∧ (p.spendPath 0).toOption.any (fun path => path.version != .base) ∧
        (∀ x ∈ p.inputs, x.get? .tapKeySig = none) ∧
          ((p.withOffers sampleOffers).finalizeInput Curve.secp256k1 0).toBool) = true := by
    decide +kernel
  cases hcreate : (samplePlan 2).create .regtest with
  | error fault =>
    rw [hcreate] at hcomputed
    simp [Except.toOption] at hcomputed
  | ok p =>
    rw [hcreate] at hcomputed
    obtain ⟨hlength, hwitness, hunsigned, hfinal⟩ := of_decide_eq_true hcomputed
    have hfirst : ∀ i < p.inputs.length, i = 0 := fun i hi => by omega
    have hfits : (p.withOffers sampleOffers).FitsPlaceholders Curve.secp256k1 := by
      refine ⟨fun i path hash x key hpath hbase _ hx _ _ => ?_, fun i x sig hx hsig => ?_⟩
      · have hi := (List.getElem?_eq_some_iff.mp hx).1
        obtain rfl := hfirst i (by simpa using hi)
        rw [Psbt.spendPath_withOffers] at hpath
        simp [hpath, Except.toOption, hbase] at hwitness
      · rw [Psbt.getElem?_inputs_withOffers, Option.map_eq_some_iff] at hx
        obtain ⟨y, hy, rfl⟩ := hx
        rw [InputMap.get?_withOffers, hunsigned y (List.mem_of_getElem? hy), Option.none_or] at hsig
        have hnone : Offer.lookup .tapKeySig (sampleOffers i) = none := rfl
        simp [hnone] at hsig
    obtain ⟨b, tx, hb, -, hextract, hle, hfee⟩ :=
      fee_suffices Curve.secp256k1_acceptsLow hcreate
        (fun i hi => hfirst i hi ▸ Steps.toBool_eq_true_iff.mp hfinal) hfits
    exact ⟨p, b, tx, rfl, hb, hextract, hle, hfee⟩

end SpendPlan

end JointSpend
