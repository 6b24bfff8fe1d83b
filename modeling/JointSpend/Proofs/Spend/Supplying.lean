import JointSpend.Proofs.Psbt.Clean
import JointSpend.Proofs.Psbt.Operations
import JointSpend.Proofs.Spend.Completeness

set_option autoImplicit false
set_option relaxedAutoImplicit false

/-!
# Supplying what is missing

Whoever records what an open input is reported to lack gets on: what is reported afterwards, if
anything is, ranks lower. After three calls at most nothing is left to be recorded. Then the input
can be made final, or it lacks signatures, or its script has no known form.

## Main definitions

* `JointSpend.Missing.rank` — how many calls can still be needed.
* `JointSpend.Psbt.innerScript?` — the script below a script hash, if there is one.
* `JointSpend.Psbt.Misses` — what an input lacks, by what is known of it.
* `JointSpend.Psbt.Supplies` — the calls that supply what is missing.
* `JointSpend.Psbt.SuppliedBy` — runs of such calls.
* `JointSpend.SettledAs`, `JointSpend.Psbt.Settled` — nothing is left to be recorded for an input.

## Main results

* `JointSpend.Psbt.misses_of_finalizeInput` — what is reported to be missing is.
* `JointSpend.Psbt.Supplies.attempt` — one call.
* `JointSpend.Psbt.SuppliedBy.length_le` — runs of calls.
* `JointSpend.Psbt.supplying_settles` — at most three calls settle an open input.
-/

namespace JointSpend

/-- How many calls can be needed to record what is missing and what may turn out to be missing
then. Nobody can record signatures or another form of script. -/
def Missing.rank : Missing → Nat
  | utxo => 3
  | redeemScript => 2
  | witnessScript => 1
  | _ => 0

/-- Three calls are enough for whatever is missing. -/
private theorem Missing.rank_le (missing : Missing) : missing.rank ≤ 3 := by
  cases missing <;> simp [rank]

namespace Psbt

variable {scheme : SignatureScheme} {p q r : Psbt} {index : Nat} {x : InputMap}
  {missing : Missing} {op : Operation} {ops : List Operation}

/-! ## What is missing -/

/-- The script that says how an input is spent: that of the spent output or, if this is a script
hash, the redeem script with the hash, if it is recorded. -/
def innerScript? (p : Psbt) (index : Nat) : Option Script := do
  let input ← p.inputs[index]?
  let output ← p.spentOutput? index
  if output.script.matchesPattern Script.p2sh then
    (input.get? .redeemScript).filter fun redeem => redeem.hashOutput = output.script
  else some output.script

/-- What an input lacks. Records are missing in the order in which they are needed, also where there
are others that do not have the right hash. -/
inductive Misses (p : Psbt) (index : Nat) : Missing → Prop
  | utxo (h : p.spentOutput? index = none) : Misses p index .utxo
  | redeemScript {output : TxOutput} (hspent : p.spentOutput? index = some output)
      (h : p.innerScript? index = none) : Misses p index .redeemScript
  | witnessScript {inner : Script} (hinner : p.innerScript? index = some inner)
      (h : ∀ input script, p.inputs[index]? = some input →
        input.get? .witnessScript = some script → script.witnessOutput ≠ inner) :
      Misses p index .witnessScript
  | signatures (keys : List PublicKey) (needed : Nat) : Misses p index (.signatures keys needed)
  | unsupportedScript (script : Script) : Misses p index (.unsupportedScript script)

/-- What is missing below an inner script is the witness script, or a known form. -/
private theorem below_eq_error {output : TxOutput} {inner : Script} {redeem : Option Script}
    (h : SpendPath.below x output inner redeem = .error missing) :
    (missing = .witnessScript ∧
        ∀ script, x.get? .witnessScript = some script → script.witnessOutput ≠ inner) ∨
      missing = .unsupportedScript output.script := by
  unfold SpendPath.below at h
  split at h
  · simp at h
  · split at h
    · refine .inl ?_
      split at h
      · next script hscript =>
        split at h
        · simp at h
        · next hne =>
          refine ⟨(Except.error.inj h).symm, fun other hother => ?_⟩
          obtain rfl := Option.some.inj (hscript.symm.trans hother)
          exact hne
      · next hnone =>
        refine ⟨(Except.error.inj h).symm, fun other hother => ?_⟩
        simp [hnone] at hother
    · split at h
      · split at h
        · exact .inr (Except.error.inj h).symm
        · simp at h
      · simp at h

/-- What is missing below the inner script is missing. -/
private theorem misses_of_below {output : TxOutput} {inner : Script} {redeem : Option Script}
    (hx : p.inputs[index]? = some x) (hinner : p.innerScript? index = some inner)
    (h : SpendPath.below x output inner redeem = .error missing) : p.Misses index missing := by
  rcases below_eq_error h with ⟨rfl, hother⟩ | rfl
  · refine .witnessScript hinner fun input script hinput => ?_
    obtain rfl := Option.some.inj (hx.symm.trans hinput)
    exact hother script
  · exact .unsupportedScript _

/-- What a path lacks is missing. -/
private theorem misses_of_spendPath (hx : p.inputs[index]? = some x)
    (h : p.spendPath index = .error missing) : p.Misses index missing := by
  unfold spendPath at h
  rw [hx] at h
  dsimp only at h
  split at h
  · next hspent =>
    obtain rfl := Except.error.inj h
    exact .utxo hspent
  · next output hspent =>
    split at h
    · next hhash =>
      split at h
      · next redeem hredeem =>
        split at h
        · next heq =>
          refine misses_of_below hx ?_ h
          simp [innerScript?, hx, hspent, hhash, hredeem, heq]
        · next hne =>
          obtain rfl := Except.error.inj h
          refine .redeemScript hspent ?_
          simp [innerScript?, hx, hspent, hhash, hredeem, hne]
      · next hnone =>
        obtain rfl := Except.error.inj h
        refine .redeemScript hspent ?_
        simp [innerScript?, hx, hspent, hhash, hnone]
    · next hdirect =>
      refine misses_of_below hx ?_ h
      simp [innerScript?, hx, hspent, hdirect]

/-- What a template lacks are signatures. -/
private theorem templateStack_eq_error {path : SpendPath} {template : Template}
    (h : p.templateStack scheme index x path template = .error missing) :
    ∃ keys needed, missing = .signatures keys needed := by
  cases template with
  | pubkeyHash hash =>
    simp only [templateStack, pubkeyHashStack] at h
    split at h
    · simp at h
    · exact ⟨_, _, (Except.error.inj h).symm⟩
  | pubkey key =>
    simp only [templateStack, pubkeyStack] at h
    split at h
    · simp at h
    · exact ⟨_, _, (Except.error.inj h).symm⟩
  | multisig threshold keys =>
    simp only [templateStack, multisigStack] at h
    split at h
    · exact ⟨_, _, (Except.error.inj h).symm⟩
    · simp at h
  | taprootKey outputKey =>
    simp only [templateStack, taprootStack] at h
    split at h
    · simp at h
    · exact ⟨_, _, (Except.error.inj h).symm⟩

/-- **What is reported to be missing is missing.** -/
theorem misses_of_finalizeInput (hx : p.inputs[index]? = some x)
    (h : p.finalizeInput scheme index = .error missing) : p.Misses index missing := by
  rcases Steps.bind_eq_error_iff.mp h with hpath | ⟨path, -, h⟩
  · exact misses_of_spendPath hx hpath
  · split at h
    · rcases Steps.bind_eq_error_iff.mp h with hstack | ⟨stack, -, h⟩
      · obtain ⟨keys, needed, rfl⟩ := templateStack_eq_error hstack
        exact .signatures keys needed
      · split at h
        · simp [pure, Except.pure] at h
        · obtain rfl := Except.error.inj h
          exact .unsupportedScript _
    · obtain rfl := Except.error.inj h
      exact .unsupportedScript _

/-! ## One call -/

/-- A call that supplies what is missing: any output, or the transaction that the input refers to
if it has the output; a script with the hash in the spent output; a script with the hash in the
inner script. -/
inductive Supplies (p : Psbt) (index : Nat) : Missing → Operation → Prop
  | witnessUtxo (output : TxOutput) : Supplies p index .utxo (.setWitnessUtxo index output)
  | nonWitnessUtxo {tx : Transaction} {txInput : TxInput}
      (hinput : p.transaction.inputs[index]? = some txInput) (hid : tx.id = txInput.previous.txid)
      (hplace : txInput.previous.vout.toNat < tx.outputs.length) :
      Supplies p index .utxo (.setNonWitnessUtxo index tx)
  | redeemScript {output : TxOutput} {script : Script}
      (hspent : p.spentOutput? index = some output) (hhash : script.hashOutput = output.script) :
      Supplies p index .redeemScript (.setRedeemScript index script)
  | witnessScript {inner script : Script} (hinner : p.innerScript? index = some inner)
      (hhash : script.witnessOutput = inner) :
      Supplies p index .witnessScript (.setWitnessScript index script)

/-- An input that can be worked on: it is open, in a copy with the shape of its transaction. -/
structure Workable (p : Psbt) (index : Nat) (x : InputMap) : Prop where
  shaped : p.Shaped
  input : p.inputs[index]? = some x
  unfinished : InputMap.isFinal x = false

namespace Workable

/-- The input of the transaction. -/
theorem exists_txInput (h : p.Workable index x) :
    ∃ txInput, p.transaction.inputs[index]? = some txInput := by
  have hlt : index < p.transaction.inputs.length := by
    rw [← h.shaped.length_inputs]
    exact (List.getElem?_eq_some_iff.mp h.input).1
  exact ⟨_, List.getElem?_eq_getElem hlt⟩

/-- A record can be set. -/
theorem record (h : p.Workable index x) (k : InputKey) (v : k.Value) :
    p.record index k v = .ok (p.setInput index (x.insert k v)) := by
  rw [Psbt.record, h.input]
  dsimp only
  rw [if_neg (by simp [h.unfinished])]
  rfl

/-- An input can be worked on after a record was set that is no final script. -/
theorem insert (h : p.Workable index x) {k : InputKey} (hk : k.isUnited = true) (v : k.Value) :
    (p.setInput index (x.insert k v)).Workable index (x.insert k v) where
  shaped := h.shaped.setInput index _
  input := by simp [h.input]
  unfinished := by
    rw [← h.unfinished]
    exact InputMap.isFinal_congr fun k' hk' =>
      RecordMap.get?_insert_of_ne x (InputKey.ne_of_isUnited hk hk').symm v

/-- An output is spent that the input knows. -/
theorem exists_spentOutput? (h : p.Workable index x) {output : TxOutput}
    (hknown : x.get? .witnessUtxo = some output) : ∃ spent, p.spentOutput? index = some spent := by
  obtain ⟨txInput, htxInput⟩ := h.exists_txInput
  rw [← Option.isSome_iff_exists]
  simp only [spentOutput?, h.input, htxInput, Option.bind_eq_bind, Option.bind_some]
  split
  · rw [Option.isSome_or, hknown, Option.isSome_some, Bool.or_true]
  · rw [hknown, Option.isSome_some]

end Workable

/-- The spent output stays when another record is set. -/
private theorem spentOutput?_insert (hx : p.inputs[index]? = some x) {k : InputKey}
    (hwhole : k ≠ .nonWitnessUtxo) (hutxo : k ≠ .witnessUtxo) (v : k.Value) :
    (p.setInput index (x.insert k v)).spentOutput? index = p.spentOutput? index := by
  simp only [spentOutput?, getElem?_inputs_setInput, hx, if_true, Option.map_some,
    Option.bind_eq_bind, Option.bind_some, RecordMap.get?_insert_of_ne x hwhole,
    RecordMap.get?_insert_of_ne x hutxo]
  rfl

/-- The inner script stays when another record is set. -/
private theorem innerScript?_insert (hx : p.inputs[index]? = some x) {k : InputKey}
    (hwhole : k ≠ .nonWitnessUtxo) (hutxo : k ≠ .witnessUtxo) (hredeem : k ≠ .redeemScript)
    (v : k.Value) :
    (p.setInput index (x.insert k v)).innerScript? index = p.innerScript? index := by
  simp only [innerScript?, spentOutput?_insert hx hwhole hutxo, getElem?_inputs_setInput, hx,
    if_true, Option.map_some, Option.bind_eq_bind, Option.bind_some,
    RecordMap.get?_insert_of_ne x hredeem]

/-- The inner script after the script behind a script hash was recorded. -/
private theorem innerScript?_insert_redeemScript (hx : p.inputs[index]? = some x)
    {output : TxOutput} {script : Script} (hspent : p.spentOutput? index = some output)
    (hhash : script.hashOutput = output.script) :
    (p.setInput index (x.insert .redeemScript script)).innerScript? index = some script := by
  have hpattern : output.script.matchesPattern Script.p2sh = true :=
    Script.matchesPattern_iff.mpr ⟨_, hhash.symm⟩
  simp [innerScript?, spentOutput?_insert hx, hspent, hx, RecordMap.get?_insert_self, hpattern,
    hhash]

namespace Misses

/-- Where the spent output is known, it is not missing. -/
private theorem rank_lt_three (h : p.Misses index missing) {output : TxOutput}
    (hspent : p.spentOutput? index = some output) : missing.rank < 3 := by
  cases h with
  | utxo hnone => simp [hspent] at hnone
  | redeemScript => decide
  | witnessScript => decide
  | signatures => simp [Missing.rank]
  | unsupportedScript => simp [Missing.rank]

/-- Where the inner script is known, it is not missing, nor is the spent output. -/
private theorem rank_lt_two (h : p.Misses index missing) {inner : Script}
    (hinner : p.innerScript? index = some inner) : missing.rank < 2 := by
  cases h with
  | utxo hnone => simp [innerScript?, hnone] at hinner
  | redeemScript _ hnone => simp [hinner] at hnone
  | witnessScript => decide
  | signatures => simp [Missing.rank]
  | unsupportedScript => simp [Missing.rank]

/-- Where the script is known whose hash the inner script has, nothing is missing that can be
recorded. -/
private theorem rank_lt_one (h : p.Misses index missing) {script : Script}
    (hinner : p.innerScript? index = some script.witnessOutput) (hx : p.inputs[index]? = some x)
    (hscript : x.get? .witnessScript = some script) : missing.rank < 1 := by
  cases h with
  | utxo hnone => simp [innerScript?, hnone] at hinner
  | redeemScript _ hnone => simp [hinner] at hnone
  | witnessScript hother hne =>
    exact absurd (Option.some.inj (hinner.symm.trans hother)) (hne x script hx hscript)
  | signatures => simp [Missing.rank]
  | unsupportedScript => simp [Missing.rank]

end Misses

/-- What a call supplies has a rank. -/
private theorem Supplies.rank_pos (h : p.Supplies index missing op) : 0 < missing.rank := by
  cases h with
  | witnessUtxo => decide
  | nonWitnessUtxo => decide
  | redeemScript => decide
  | witnessScript => decide

/-- **One call** that supplies what is missing succeeds. What is missing afterwards, if anything is,
ranks lower. -/
theorem Supplies.attempt (scheme : SignatureScheme) (h : p.Supplies index missing op)
    (hp : p.Workable index x) :
    ∃ q y, op.attempt scheme p = .ok q ∧ q.Workable index y ∧
      ∀ later, q.finalizeInput scheme index = .error later → later.rank < missing.rank := by
  cases h with
  | witnessUtxo output =>
    have hq := hp.insert (k := .witnessUtxo) rfl output
    refine ⟨_, _, hp.record .witnessUtxo output, hq, fun later hlater => ?_⟩
    obtain ⟨spent, hspent⟩ := hq.exists_spentOutput?
      (RecordMap.get?_insert_self x .witnessUtxo output)
    exact (misses_of_finalizeInput hq.input hlater).rank_lt_three hspent
  | @nonWitnessUtxo tx txInput hinput hid hplace =>
    have hq := hp.insert (k := .nonWitnessUtxo) rfl tx
    have hattempt : p.setNonWitnessUtxo index tx =
        .ok (p.setInput index (x.insert .nonWitnessUtxo tx)) := by
      rw [setNonWitnessUtxo, hinput]
      dsimp only
      rw [if_neg (by simp [hid]), if_neg (by omega), hp.record]
    refine ⟨_, _, hattempt, hq, fun later hlater => ?_⟩
    have hspent := spentOutput?_eq_some_iff.mpr ⟨_, txInput, hq.input, hinput,
      .inl ⟨tx, RecordMap.get?_insert_self x .nonWitnessUtxo tx, List.getElem?_eq_getElem hplace⟩⟩
    exact (misses_of_finalizeInput hq.input hlater).rank_lt_three hspent
  | @redeemScript output script hspent hhash =>
    have hq := hp.insert (k := .redeemScript) rfl script
    refine ⟨_, _, hp.record .redeemScript script, hq, fun later hlater => ?_⟩
    exact (misses_of_finalizeInput hq.input hlater).rank_lt_two
      (innerScript?_insert_redeemScript hp.input hspent hhash)
  | @witnessScript inner script hinner hhash =>
    have hq := hp.insert (k := .witnessScript) rfl script
    refine ⟨_, _, hp.record .witnessScript script, hq, fun later hlater => ?_⟩
    have hsame := innerScript?_insert hp.input (k := .witnessScript) (by simp) (by simp) (by simp)
      script
    exact (misses_of_finalizeInput hq.input hlater).rank_lt_one
      (hsame.trans (hinner.trans (congrArg some hhash.symm))) hq.input
      (RecordMap.get?_insert_self x .witnessScript script)

/-! ## Runs of calls -/

/-- A run of calls, each of which supplies what is reported to be missing at its point. -/
inductive SuppliedBy (scheme : SignatureScheme) (index : Nat) :
    Psbt → List Operation → Psbt → Prop
  | nil (p : Psbt) : SuppliedBy scheme index p [] p
  | cons {p q r : Psbt} {missing : Missing} {op : Operation} {ops : List Operation}
      (hreport : p.finalizeInput scheme index = .error missing)
      (hsupplies : p.Supplies index missing op) (hattempt : op.attempt scheme p = .ok q)
      (hrest : SuppliedBy scheme index q ops r) : SuppliedBy scheme index p (op :: ops) r

namespace SuppliedBy

/-- A run can be continued by another one. -/
private theorem append {later : List Operation} (h : SuppliedBy scheme index p ops q)
    (h' : SuppliedBy scheme index q later r) : SuppliedBy scheme index p (ops ++ later) r := by
  induction h with
  | nil => exact h'
  | cons hreport hsupplies hattempt _ ih => exact .cons hreport hsupplies hattempt (ih h')

/-- After a run, the input can still be worked on. -/
private theorem workable (h : SuppliedBy scheme index p ops q) (hp : p.Workable index x) :
    ∃ y, q.Workable index y := by
  induction h generalizing x with
  | nil => exact ⟨x, hp⟩
  | cons _ hsupplies hattempt _ ih =>
    obtain ⟨q', y, hq', hy, -⟩ := hsupplies.attempt scheme hp
    obtain rfl := Except.ok.inj (hattempt.symm.trans hq')
    exact ih hy

/-- **A run of calls** has at most as many of them as what is reported first ranks. -/
theorem length_le (h : SuppliedBy scheme index p ops q) (hp : p.Workable index x) {bound : Nat}
    (hbound : ∀ missing, p.finalizeInput scheme index = .error missing → missing.rank ≤ bound) :
    ops.length ≤ bound := by
  induction h generalizing x bound with
  | nil => exact Nat.zero_le bound
  | @cons p q r missing op ops hreport hsupplies hattempt _ ih =>
    obtain ⟨q', y, hq', hy, hlower⟩ := hsupplies.attempt scheme hp
    obtain rfl := Except.ok.inj (hattempt.symm.trans hq')
    have hpos := hsupplies.rank_pos
    have hfirst := hbound _ hreport
    have hbound' : ∀ later, q.finalizeInput scheme index = .error later →
        later.rank ≤ bound - 1 := by
      intro later hlater
      have hlt := hlower later hlater
      omega
    have hrest := ih hy hbound'
    rw [List.length_cons]
    omega

end SuppliedBy

end Psbt

/-! ## Settled inputs -/

/-- Nothing is left to be recorded for an input, by what comes of making it final, whose turn it is
said to be and what it is said to lack. -/
inductive SettledAs : Except Missing FinalScripts → Option Role → Option Missing → Prop
  | final (scripts : FinalScripts) : SettledAs (.ok scripts) (some .finalizer) none
  | unsigned (keys : List PublicKey) (needed : Nat) :
      SettledAs (.error (.signatures keys needed)) (some .signer) (some (.signatures keys needed))
  | unsupported (script : Script) :
      SettledAs (.error (.unsupportedScript script)) (some .updater)
        (some (.unsupportedScript script))

namespace Psbt

variable {scheme : SignatureScheme} {p q : Psbt} {index : Nat} {x : InputMap}
  {ops : List Operation}

/-- An analysis says of an input that it is settled. -/
def Settled (p : Psbt) (scheme : SignatureScheme) (network : Network) (index : Nat) : Prop :=
  ∃ status, (p.analyze scheme network).inputs[index]? = some status ∧
    SettledAs (p.finalizeInput scheme index) status.next status.missing

/-- An open input is settled when nothing is missing that has a rank. -/
theorem Workable.settled (hp : p.Workable index x) (network : Network)
    (h : ∀ missing, p.finalizeInput scheme index = .error missing → missing.rank = 0) :
    p.Settled scheme network index := by
  refine ⟨p.inputStatus index (some (p.finalizeInput scheme index)), ?_, ?_⟩
  · rw [analyze_inputs, List.getElem?_mapIdx, hp.input, Option.map_some, outcome,
      if_neg (by simp [hp.unfinished])]
  · cases hfinal : p.finalizeInput scheme index with
    | ok scripts => exact .final scripts
    | error missing =>
      have hrank := h missing hfinal
      cases misses_of_finalizeInput hp.input hfinal with
      | utxo => simp [Missing.rank] at hrank
      | redeemScript => simp [Missing.rank] at hrank
      | witnessScript => simp [Missing.rank] at hrank
      | signatures keys needed => exact .unsigned keys needed
      | unsupportedScript script => exact .unsupported script

/-- An open input is settled, or something is missing that can be recorded. -/
theorem Workable.settled_or (hp : p.Workable index x) (scheme : SignatureScheme)
    (network : Network) :
    p.Settled scheme network index ∨
      ∃ missing, p.finalizeInput scheme index = .error missing ∧ 0 < missing.rank := by
  by_cases h : ∀ missing, p.finalizeInput scheme index = .error missing → missing.rank = 0
  · exact .inl (hp.settled network h)
  · push Not at h
    obtain ⟨missing, hreport, hrank⟩ := h
    exact .inr ⟨missing, hreport, Nat.pos_of_ne_zero hrank⟩

/-- **Where matching data is at hand** for whatever is reported on the way, some run of calls
settles an open input.

**Proof sketch.** Induction on a bound for the rank of what is reported. -/
theorem exists_suppliedBy (hp : p.Workable index x) (network : Network) (bound : Nat)
    (hbound : ∀ missing, p.finalizeInput scheme index = .error missing → missing.rank ≤ bound)
    (hdata : ∀ ops q missing, SuppliedBy scheme index p ops q →
      q.finalizeInput scheme index = .error missing → 0 < missing.rank →
        ∃ op, q.Supplies index missing op) :
    ∃ ops q, SuppliedBy scheme index p ops q ∧ q.Settled scheme network index := by
  induction bound generalizing p x with
  | zero =>
    exact ⟨[], p, .nil p, hp.settled network fun missing h => Nat.le_zero.mp (hbound missing h)⟩
  | succ bound ih =>
    rcases hp.settled_or scheme network with hsettled | ⟨missing, hreport, hrank⟩
    · exact ⟨[], p, .nil p, hsettled⟩
    · obtain ⟨op, hop⟩ := hdata [] p missing (.nil p) hreport hrank
      obtain ⟨q, y, hattempt, hq, hlower⟩ := hop.attempt scheme hp
      have hle := hbound missing hreport
      have hbound' : ∀ later, q.finalizeInput scheme index = .error later →
          later.rank ≤ bound := by
        intro later hlater
        have hlt := hlower later hlater
        omega
      obtain ⟨ops, r, hrun, hsettled⟩ := ih hq hbound' fun ops r later hrun =>
        hdata (op :: ops) r later (.cons hreport hop hattempt hrun)
      exact ⟨op :: ops, r, .cons hreport hop hattempt hrun, hsettled⟩

/-- **The updater always gets on.** Of an open input in a copy that was read, what is reported to be
missing is. A call that supplies it succeeds, and what is reported afterwards, if anything is, ranks
lower. No run of such calls has more than three of them, and after each of them the input is settled
or any call that supplies what is reported then continues the run. Where matching data is at hand,
three calls therefore settle the input. -/
theorem supplying_settles (scheme : SignatureScheme) (hp : p.Decoded)
    (hx : p.inputs[index]? = some x) (hopen : InputMap.isFinal x = false) (network : Network) :
    (∀ missing, p.finalizeInput scheme index = .error missing → p.Misses index missing) ∧
      (∀ missing op, p.Supplies index missing op → ∃ q, op.attempt scheme p = .ok q ∧
        ∀ later, q.finalizeInput scheme index = .error later → later.rank < missing.rank) ∧
      (∀ ops q, SuppliedBy scheme index p ops q → ops.length ≤ 3 ∧
        (q.Settled scheme network index ∨
          ∃ missing, q.finalizeInput scheme index = .error missing ∧ 0 < missing.rank ∧
            ∀ op, q.Supplies index missing op →
              ∃ r, SuppliedBy scheme index p (ops ++ [op]) r)) ∧
      ((∀ ops q missing, SuppliedBy scheme index p ops q →
          q.finalizeInput scheme index = .error missing → 0 < missing.rank →
            ∃ op, q.Supplies index missing op) →
        ∃ ops q, ops.length ≤ 3 ∧ SuppliedBy scheme index p ops q ∧
          q.Settled scheme network index) := by
  have hworkable : p.Workable index x := ⟨hp.shaped, hx, hopen⟩
  have hlength : ∀ ops q, SuppliedBy scheme index p ops q → ops.length ≤ 3 := fun ops q h =>
    h.length_le hworkable fun missing _ => missing.rank_le
  refine ⟨fun missing h => misses_of_finalizeInput hx h, fun missing op h => ?_,
    fun ops q h => ⟨hlength ops q h, ?_⟩, fun hdata => ?_⟩
  · obtain ⟨q, -, hattempt, -, hlower⟩ := h.attempt scheme hworkable
    exact ⟨q, hattempt, hlower⟩
  · obtain ⟨y, hq⟩ := h.workable hworkable
    rcases hq.settled_or scheme network with hsettled | ⟨missing, hreport, hrank⟩
    · exact .inl hsettled
    · refine .inr ⟨missing, hreport, hrank, fun op hop => ?_⟩
      obtain ⟨r, -, hattempt, -, -⟩ := hop.attempt scheme hq
      exact ⟨r, h.append (.cons hreport hop hattempt (.nil r))⟩
  · obtain ⟨ops, q, hrun, hsettled⟩ :=
      exists_suppliedBy hworkable network 3 (fun missing _ => missing.rank_le) hdata
    exact ⟨ops, q, hlength ops q hrun, hrun, hsettled⟩

/-- A copy whose input nothing is known of. -/
def sampleUnknown : Psbt :=
  { sampleSigned sampleKeyScript with inputs := [∅] }

/-- The script that a signature of the key satisfies. -/
def sampleInner : Script :=
  .multisig 1 [sampleKey]

/-- The calls for an output that pays to the hash of a witness script hash. -/
def sampleCalls : List Operation :=
  [.setWitnessUtxo 0 ⟨2000, sampleInner.witnessOutput.hashOutput⟩,
    .setRedeemScript 0 sampleInner.witnessOutput, .setWitnessScript 0 sampleInner]

/-- Three calls can be needed: after them, the input lacks a signature. -/
theorem supplying_settles_nested :
    ∃ q, SuppliedBy Curve.secp256k1 0 sampleUnknown sampleCalls q ∧
      q.Settled Curve.secp256k1 .bitcoin 0 := by
  have hdecoded : sampleUnknown.Decoded :=
    @Decoded.of_ofBytes? _ sampleUnknown.bytes (by decide +kernel)
  have hrun : SuppliedBy Curve.secp256k1 0 sampleUnknown sampleCalls
      (sampleUnknown.run Curve.secp256k1 sampleCalls) := by
    have hinner : ((sampleUnknown.run Curve.secp256k1 (sampleCalls.take 2)).innerScript? 0) =
        some sampleInner.witnessOutput := by
      decide +kernel
    refine .cons (by decide +kernel) (.witnessUtxo _) rfl ?_
    refine .cons (by decide +kernel) (@Supplies.redeemScript _ _ ⟨2000, _⟩ _ rfl rfl) rfl ?_
    refine .cons (by decide +kernel) (.witnessScript hinner rfl) rfl ?_
    exact .nil _
  refine ⟨_, hrun, ?_⟩
  obtain ⟨-, hsettled | ⟨missing, hreport, hrank, -⟩⟩ :=
    (supplying_settles Curve.secp256k1 hdecoded rfl rfl .bitcoin).2.2.1 _ _ hrun
  · exact hsettled
  · have hsignatures : (sampleUnknown.run Curve.secp256k1 sampleCalls).finalizeInput
        Curve.secp256k1 0 = .error (.signatures [sampleKey] 1) := by
      decide +kernel
    obtain rfl := Except.error.inj (hsignatures.symm.trans hreport)
    simp [Missing.rank] at hrank

end Psbt

end JointSpend
