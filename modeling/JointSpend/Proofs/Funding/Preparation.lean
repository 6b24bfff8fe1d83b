import JointSpend.Proofs.Analysis.Amounts
import JointSpend.Proofs.Funding.Defects

set_option autoImplicit false
set_option relaxedAutoImplicit false

/-!
# What a plan prepares

The partially signed transaction of a plan is ready to be signed: every spent output is known, every
path is known but for outputs that cannot be spent, nothing is signed yet, and the fee is known. Who
works on it next does not need the plan.

## Main definitions

* `JointSpend.PlannedUtxo.NestsTaproot` — an output that cannot be spent: a taproot output behind a
  script hash.

## Main results

* `JointSpend.Psbt.not_signed` — no template is signed for without signatures.
* `JointSpend.Psbt.nextRole_eq_signer` — whose turn it is while inputs lack signatures.
* `JointSpend.SpendPlan.create_prepares` — what the next stages find.
-/

namespace JointSpend

/-! ## Copies without signatures -/

namespace Psbt

variable {scheme : SignatureScheme} {p : Psbt} {index : Nat} {input : InputMap}
  {path : SpendPath} {template : Template}

/-- **No template is signed for without signatures**: every threshold is positive. -/
theorem not_signed (hfree : ∀ k, InputKey.isSignature k = true → input.get? k = none)
    (htemplate : path.template? = some template) :
    ¬ Signed scheme p index input path template := by
  have hkey : ∀ key, ¬ SignedBy scheme p index input path key := by
    rintro key ⟨sig, hsig, -⟩
    rw [hfree _ rfl] at hsig
    simp at hsig
  cases template with
  | pubkeyHash hash =>
    rintro ⟨key, -, -, hsigned⟩
    exact hkey key hsigned
  | pubkey key => exact hkey key
  | multisig threshold keys =>
    intro hsigned
    have hcount : (keys.countP fun key =>
        decide (SignedBy scheme p index input path key)) = 0 := by
      rw [List.countP_eq_zero]
      intro key _ hsigned
      exact hkey key (of_decide_eq_true hsigned)
    have hscript : path.script.template? = some (.multisig threshold keys) := by
      unfold SpendPath.template? at htemplate
      split at htemplate
      · simp at htemplate
      · exact htemplate
    cases Script.hasForm_of_template? hscript with
    | multisig hpos =>
      have hle : threshold ≤ _ := hsigned
      omega
  | taprootKey outputKey =>
    rintro ⟨sig, hsig, -⟩
    rw [hfree _ rfl] at hsig
    simp at hsig

/-- An input without signatures cannot be made final. -/
private theorem finalizeInput_ne_ok (hinput : p.inputs[index]? = some input)
    (hfree : ∀ k, InputKey.isSignature k = true → input.get? k = none) :
    ¬ ∃ scripts, p.finalizeInput scheme index = .ok scripts := by
  intro h
  obtain ⟨path, template, input', -, htemplate, hinput', hsigned, -⟩ :=
    exists_finalizeInput_iff.mp h
  obtain rfl := Option.some.inj (hinput.symm.trans hinput')
  exact not_signed hfree htemplate hsigned

/-- **It is the signers' turn** while all spent outputs are known and an open input cannot be made
final. -/
theorem nextRole_eq_signer (network : Network)
    (hspent : ∀ i < p.inputs.length, (p.spentOutput? i).isSome = true)
    (hinput : p.inputs[index]? = some input) (hopen : InputMap.isFinal input = false)
    (hfails : ¬ ∃ scripts, p.finalizeInput scheme index = .ok scripts) :
    (p.analyze scheme network).nextRole = .signer := by
  have hknown : ((p.analyze scheme network).inputs.map (·.hasUtxo)).all id = true := by
    rw [map_hasUtxo_analyze_inputs, List.all_map, List.all_eq_true]
    intro i hi
    exact hspent i (List.mem_range.mp hi)
  have hfinal : p.allFinal = false := by
    by_contra hall
    rw [Bool.not_eq_false, allFinal_iff] at hall
    rw [hall index input hinput] at hopen
    simp at hopen
  have hcomplete : p.isComplete scheme = false := by
    by_contra hall
    rw [Bool.not_eq_false, isComplete_iff] at hall
    have hready := hall index input hinput
    rw [hopen, Bool.false_or, Steps.toBool_eq_true_iff] at hready
    exact hfails hready
  rw [analyze_nextRole, analyze_allFinal, analyze_allSigned, hfinal, hcomplete, nextRole,
    any_not_hasUtxo, hknown]
  rfl

end Psbt

/-! ## Prepared copies -/

/-- An output that cannot be spent: it pays to a script hash, and the redeem script that is given is
a taproot output. -/
def PlannedUtxo.NestsTaproot (utxo : PlannedUtxo) : Prop :=
  ∃ script redeem : Script, Text.Hex.decode utxo.scriptPubKeyHex = .ok script.bytes ∧
    script.matchesPattern Script.p2sh = true ∧
      (∃ text, utxo.redeemScriptHex = some text ∧
        Text.Hex.decode text = .ok redeem.bytes) ∧
        redeem.matchesPattern Script.p2tr = true

/-- The script of a field that is given. -/
private theorem Coin.decodeOptional_eq_some_iff {field : HexField} {given : Option String}
    {script : Script} : Coin.decodeOptional field given = .ok (some script) ↔
      ∃ text, given = some text ∧ Text.Hex.decode text = .ok script.bytes := by
  cases given with
  | none => simp [decodeOptional]
  | some text =>
    simp only [decodeOptional, Steps.bind_eq_ok_iff, Steps.pure_eq_ok_iff, Option.some.injEq,
      exists_eq_right, exists_eq_left', decodeScript_eq_ok_iff]

/-- **What a description nests, its coin nests**: the coin pays to a script hash, and its redeem
script is a taproot output. -/
theorem PlannedUtxo.Describes.nestsTaproot_iff {utxo : PlannedUtxo} {coin : Coin}
    (hdescribes : utxo.Describes coin) (hchecked : coin.Checked) :
    utxo.NestsTaproot ↔ coin.type = .p2sh ∧
      ∃ redeem, coin.redeemScript = some redeem ∧ redeem.matchesPattern Script.p2tr = true := by
  have hform := Script.matchesPattern_of_outputType hchecked.type
  constructor
  · rintro ⟨script, redeem, hscript, hsh, hgiven, htaproot⟩
    have hsame : coin.output.script.bytes = script.bytes :=
      Except.ok.inj (hdescribes.script.symm.trans hscript)
    have hsh' : coin.output.script.matchesPattern (Script.typePattern .p2sh) = true := by
      rw [show coin.output.script = script from congrArg Script.mk hsame]
      exact hsh
    have hdecoded : Coin.decodeOptional .redeemScript utxo.redeemScriptHex = .ok (some redeem) :=
      Coin.decodeOptional_eq_some_iff.mpr hgiven
    refine ⟨?_, redeem, Except.ok.inj (hdescribes.redeemScript.symm.trans hdecoded), htaproot⟩
    -- a script that matches one pattern is of no other type
    by_contra hne
    have hno := Script.matchesPattern_typePattern_eq_false hsh' (Ne.symm hne)
    rw [hform] at hno
    simp at hno
  · rintro ⟨htype, redeem, hredeem, htaproot⟩
    rw [htype] at hform
    exact ⟨coin.output.script, redeem, hdescribes.script, hform,
      Coin.decodeOptional_eq_some_iff.mp (hdescribes.redeemScript.trans (by rw [hredeem])),
      htaproot⟩

/-- **A coin can be spent** unless it is a taproot output behind a script hash. -/
theorem Coin.SpentBy.outcome_of_describes {utxo : PlannedUtxo} {coin : Coin}
    (hdescribes : utxo.Describes coin) (hchecked : coin.Checked)
    {outcome : Except Missing SpendPath} (h : coin.SpentBy outcome) :
    (utxo.NestsTaproot → outcome = .error (.unsupportedScript coin.output.script)) ∧
      (¬ utxo.NestsTaproot → ∃ path, outcome = .ok path) := by
  rw [hdescribes.nestsTaproot_iff hchecked]
  cases h with
  | keyHash htype => simp [htype]
  | witnessKeyHash htype => simp [htype]
  | taproot htype => simp [htype]
  | witnessScript htype => simp [htype]
  | nestedKeyHash htype hredeem hhash hinner =>
    have hno := Script.matchesPattern_eq_false hinner Script.p2tr (by decide) (by decide)
      (by decide)
    simp [hredeem, hno]
  | nestedScript htype hredeem hhash hinner =>
    have hno := Script.matchesPattern_eq_false hinner Script.p2tr (by decide) (by decide)
      (by decide)
    simp [hredeem, hno]
  | script htype hredeem hhash hkey hscript htaproot => simp [hredeem, htaproot]
  | nestedTaproot htype hredeem hhash hinner => simp [htype, hredeem, hinner]

namespace SpendPlan

variable {plan : SpendPlan} {network : Network} {p : Psbt} {b : Budget}

/-- The coin for a described output. -/
theorem Budgeted.exists_coin (hb : plan.Budgeted network b) {index : Nat} {utxo : PlannedUtxo}
    (hutxo : plan.utxos[index]? = some utxo) :
    ∃ coin, b.coins[index]? = some coin ∧ utxo.Describes coin ∧ coin.Checked := by
  obtain ⟨hlen, hall⟩ := List.forall₂_iff_get.mp (coins_eq_ok hb.coins).1
  obtain ⟨hlt, rfl⟩ := List.getElem?_eq_some_iff.mp hutxo
  have hlt' : index < b.coins.length := by omega
  exact ⟨b.coins[index], List.getElem?_eq_getElem hlt', hall index hlt hlt'⟩

/-- The spent outputs are those of the coins. -/
theorem Budgeted.spends (hb : plan.Budgeted network b) (outputs : List TxOutput) :
    (assembled b.coins outputs).Spends (b.coins.map (·.output)) := by
  have hchecked := checked_of_coins hb.coins
  refine List.forall₂_iff_get.mpr ⟨by simp [assembled], fun i hi hi' => ?_⟩
  have hlt : i < b.coins.length := by simpa using hi'
  have hspent : (assembled b.coins outputs).spentOutput? i = some b.coins[i].output :=
    spentOutput?_assembled (List.getElem?_eq_getElem hlt) (hchecked _ (List.getElem_mem hlt))
  simpa using hspent

/-- The outputs of the coins have the described amounts. -/
theorem Budgeted.total_spent (hb : plan.Budgeted network b) :
    TxOutput.total (b.coins.map (·.output)) = plan.total := by
  rw [TxOutput.total, List.map_map]
  refine (sum_eq_of_forall₂ ((coins_eq_ok hb.coins).1.imp fun utxo coin hcoin => ?_)).symm
  rw [Function.comp_apply, hcoin.1.value]

/-- The total of the spent outputs. -/
theorem Budgeted.inputTotal_eq (hb : plan.Budgeted network b) (outputs : List TxOutput) :
    (assembled b.coins outputs).inputTotal = some plan.total := by
  obtain ⟨-, havailable, hlt⟩ := coins_eq_ok hb.coins
  exact Psbt.inputTotal_eq_some_iff.mpr
    ⟨_, hb.spends outputs, hb.total_spent.symm, havailable ▸ hlt⟩

/-- **It is the signers' turn** when a plan was carried out. -/
theorem Budgeted.nextRole_eq (hb : plan.Budgeted network b) (outputs : List TxOutput)
    (scheme : SignatureScheme) (other : Network) :
    ((assembled b.coins outputs).analyze scheme other).nextRole = .signer := by
  obtain ⟨coin, coins, hcoins⟩ := List.exists_cons_of_ne_nil hb.nonempty
  have hchecked := checked_of_coins hb.coins
  have hfirst : b.coins[0]? = some coin := by
    rw [hcoins]
    rfl
  have hinput : (assembled b.coins outputs).inputs[0]? = some coin.records :=
    getElem?_inputs_assembled hfirst
  have hfree : ∀ k, InputKey.isSignature k = true → coin.records.get? k = none := by
    intro k hk
    apply Coin.get?_records_eq_none
    all_goals
      rintro rfl
      simp [InputKey.isSignature] at hk
  refine Psbt.nextRole_eq_signer other (fun i hi => ?_) hinput coin.isFinal_records
    (Psbt.finalizeInput_ne_ok hinput hfree)
  have hlt : i < b.coins.length := by simpa [assembled] using hi
  rw [spentOutput?_assembled (List.getElem?_eq_getElem hlt)
    (hchecked _ (List.getElem_mem hlt)), Option.isSome_some]

/-- **The fee** is the difference of the totals, where both have less than 64 bits. -/
theorem Budgeted.fee_eq (hb : plan.Budgeted network b) {outputs : List TxOutput}
    (hinputs : plan.total < 2 ^ 63) (houtputs : TxOutput.total outputs < 2 ^ 63) :
    (assembled b.coins outputs).fee =
      some ((plan.total : Int) - (TxOutput.total outputs : Int)) := by
  have htotal : (assembled b.coins outputs).outputTotal = some (TxOutput.total outputs) :=
    Psbt.outputTotal_eq_some_iff.mpr ⟨rfl, lt_trans houtputs (by decide)⟩
  exact Psbt.fee_eq_some_iff.mpr
    ⟨_, _, hb.inputTotal_eq outputs, htotal, hinputs, houtputs, rfl⟩

/-- **What a plan prepares for the next stages.** If it can be carried out, then for every described
output the input at its place spends an output with the amount and the script that were described,
and the path is known, except for a taproot output behind a script hash, which is not supported. It
is the signers' turn, and the fee is the difference between the described amounts and the outputs,
where both totals have less than 64 bits. If it cannot be carried out, the plan is to blame, as long
as its redeem scripts can be pushed. -/
theorem create_prepares (plan : SpendPlan) (network : Network) :
    (∀ p, plan.create network = .ok p →
      p.inputs.length = plan.utxos.length ∧
      (∀ (i : Nat) (utxo : PlannedUtxo), plan.utxos[i]? = some utxo →
        ∃ script : Script, Text.Hex.decode utxo.scriptPubKeyHex = .ok script.bytes ∧
          p.spentOutput? i = some ⟨utxo.valueSats, script⟩ ∧
            (utxo.NestsTaproot → p.spendPath i = .error (.unsupportedScript script)) ∧
              (¬ utxo.NestsTaproot → ∃ path, p.spendPath i = .ok path)) ∧
      ∀ (scheme : SignatureScheme) (other : Network),
        (p.analyze scheme other).nextRole = .signer ∧
          (plan.total < 2 ^ 63 → TxOutput.total p.transaction.outputs < 2 ^ 63 →
            (p.analyze scheme other).fee =
              some ((plan.total : Int) - (TxOutput.total p.transaction.outputs : Int)))) ∧
    (plan.Pushable → ∀ fault, plan.create network = .error fault → ¬ fault.IsDefect) := by
  refine ⟨fun p hcreate => ?_, fun hpush => blameless_create hpush network⟩
  obtain ⟨b, hb, rfl⟩ := create_eq_ok_iff.mp hcreate
  generalize b.outputs plan.feeRateSatsPerVb = outputs
  have hlen := (coins_eq_ok hb.coins).1.length_eq
  refine ⟨by simp [assembled, hlen], fun i utxo hutxo => ?_, fun scheme other => ?_⟩
  · obtain ⟨coin, hcoin, hdescribes, hchecked⟩ := hb.exists_coin hutxo
    obtain ⟨outcome, hspent⟩ := hchecked.exists_spentBy
    refine ⟨coin.output.script, hdescribes.script, ?_, ?_⟩
    · rw [spentOutput?_assembled hcoin hchecked, ← hdescribes.value]
    · rw [spendPath_assembled hcoin hchecked hspent]
      exact hspent.outcome_of_describes hdescribes hchecked
  · exact ⟨hb.nextRole_eq outputs scheme other, hb.fee_eq⟩

/-- A plan that spends an output that pays to a key hash in the witness, half of it to the same
address again. -/
def samplePlan (rate : UInt64) : SpendPlan :=
  ⟨"regtest",
    [⟨"0707070707070707070707070707070707070707070707070707070707070707", 1,
      "0014751e76e8199196d454941c45d1b3a323f1433bd6", 100000, none, none, none, none⟩],
    [⟨"bcrt1qw508d6qejxtdg4y5r3zarvary0c5xw7kygt080", 50000⟩], rate,
    "bcrt1qw508d6qejxtdg4y5r3zarvary0c5xw7kygt080", none⟩

/-- The plan can be carried out at a low rate, and its input is ready to be signed. At a high rate
it cannot be carried out, and is to blame. -/
theorem create_prepares_samplePlan :
    (∃ p, (samplePlan 2).create .regtest = .ok p ∧
      (∃ script, p.spentOutput? 0 = some ⟨100000, script⟩) ∧
      (∃ path, p.spendPath 0 = .ok path) ∧
      ∀ scheme, (p.analyze scheme .regtest).nextRole = .signer ∧
        (p.analyze scheme .regtest).fee =
          some (100000 - (TxOutput.total p.transaction.outputs : Int))) ∧
      ∃ fault, (samplePlan 1000).create .regtest = .error fault ∧ ¬ fault.IsDefect := by
  constructor
  · obtain ⟨p, hp, htotal⟩ : ∃ p, (samplePlan 2).create .regtest = .ok p ∧
        TxOutput.total p.transaction.outputs < 2 ^ 63 := by
      have hsmall : ((samplePlan 2).create .regtest).toOption.any (fun p =>
          TxOutput.total p.transaction.outputs < 2 ^ 63) = true := by
        decide +kernel
      cases hp : (samplePlan 2).create .regtest with
      | error fault =>
        rw [hp] at hsmall
        simp [Except.toOption] at hsmall
      | ok p =>
        rw [hp] at hsmall
        exact ⟨p, rfl, by simpa [Except.toOption] using hsmall⟩
    obtain ⟨-, hinputs, hanalysis⟩ := (create_prepares (samplePlan 2) .regtest).1 p hp
    obtain ⟨script, -, hspent, -, hpath⟩ := hinputs 0 _ rfl
    refine ⟨p, hp, ⟨script, hspent⟩, hpath ?_, fun scheme => ?_⟩
    · rintro ⟨-, -, -, -, ⟨text, htext, -⟩, -⟩
      simp at htext
    · obtain ⟨hrole, hfee⟩ := hanalysis scheme .regtest
      exact ⟨hrole, hfee (by decide) htotal⟩
  · have hpush : (samplePlan 1000).Pushable := by
      simp [Pushable, samplePlan]
    have hfails : ((samplePlan 1000).create .regtest).toBool = false := by decide +kernel
    cases h : (samplePlan 1000).create .regtest with
    | ok p =>
      rw [h] at hfails
      simp [Except.toBool] at hfails
    | error fault => exact ⟨fault, rfl, (create_prepares _ .regtest).2 hpush fault h⟩

end SpendPlan

end JointSpend
