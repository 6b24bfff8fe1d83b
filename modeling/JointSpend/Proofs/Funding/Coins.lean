import JointSpend.Funding.Coin
import JointSpend.Proofs.Psbt.Inputs
import JointSpend.Proofs.Script.Instructions
import JointSpend.Proofs.Steps

set_option autoImplicit false
set_option relaxedAutoImplicit false

/-!
# Checked coins

What the checks of a planned output guarantee: the output is the one that was described, the scripts
behind its hashes are there, and a previous transaction holds it. From this follow the ways in which
a checked coin can be spent, one for each kind of output and of script behind a script hash, and
what is recorded for the input that spends it.

## Main definitions

* `JointSpend.PlannedUtxo.Describes` — a coin is the output that was described.
* `JointSpend.Coin.Checked` — a coin passed the checks.
* `JointSpend.Coin.SpentBy` — how a coin is spent.
* `JointSpend.Coin.records` — what is recorded for the input that spends a coin.

## Main results

* `JointSpend.Coin.checked_of_ofPlanned` — what is taken over from a plan is checked.
* `JointSpend.Coin.Checked.exists_spentBy` — a checked coin is spent in one of the known ways.
* `JointSpend.Coin.Checked.attach_eq` — recording what is known of a checked coin succeeds.
-/

namespace JointSpend

/-! ## Forms of outputs -/

namespace Script

/-- A standard output begins like its pattern. -/
private theorem take_two_of_matchesPattern {s : Script} {p : Pattern} (hp : 2 ≤ p.front.length)
    (h : s.matchesPattern p = true) : s.bytes.take 2 = p.front.take 2 := by
  obtain ⟨payload, rfl⟩ := matchesPattern_iff.mp h
  rw [Pattern.script, List.append_assoc, List.take_append_of_le_length hp]

/-- A script has no two patterns that begin differently. -/
theorem matchesPattern_eq_false {s : Script} {p : Pattern} (h : s.matchesPattern p = true)
    (q : Pattern) (hp : 2 ≤ p.front.length) (hq : 2 ≤ q.front.length)
    (hne : p.front.take 2 ≠ q.front.take 2) : s.matchesPattern q = false := by
  by_contra hmatch
  rw [Bool.not_eq_false] at hmatch
  exact hne ((take_two_of_matchesPattern hp h).symm.trans (take_two_of_matchesPattern hq hmatch))

/-- The pattern of a standard output. -/
def typePattern : OutputType → Pattern
  | .p2pkh => p2pkh
  | .p2wpkh => p2wpkh
  | .p2sh => p2sh
  | .p2wsh => p2wsh
  | .p2tr => p2tr

/-- A standard output has its pattern. -/
theorem matchesPattern_of_outputType {s : Script} {type : OutputType}
    (h : s.outputType = .ok type) : s.matchesPattern (typePattern type) = true := by
  unfold outputType at h
  split at h
  · next hmatch => obtain rfl := Except.ok.inj h; exact hmatch
  · split at h
    · next hmatch => obtain rfl := Except.ok.inj h; exact hmatch
    · split at h
      · next hmatch => obtain rfl := Except.ok.inj h; exact hmatch
      · split at h
        · next hmatch => obtain rfl := Except.ok.inj h; exact hmatch
        · split at h
          · next hmatch => obtain rfl := Except.ok.inj h; exact hmatch
          · simp at h

/-- A standard output has no other pattern. -/
theorem matchesPattern_typePattern_eq_false {s : Script} {type other : OutputType}
    (h : s.matchesPattern (typePattern type) = true) (hne : type ≠ other) :
    s.matchesPattern (typePattern other) = false := by
  refine matchesPattern_eq_false h _ ?_ ?_ ?_
  · cases type <;> decide
  · cases other <;> decide
  · revert hne
    cases type <;> cases other <;> decide

end Script

/-! ## Checks -/

/-- A coin is the output that was described: it has the amount and the script, and the redeem script
is the one that was given. -/
structure PlannedUtxo.Describes (utxo : PlannedUtxo) (coin : Coin) : Prop where
  value : coin.output.value = utxo.valueSats
  script : Text.Hex.decode utxo.scriptPubKeyHex = .ok coin.output.script.bytes
  redeemScript : Coin.decodeOptional .redeemScript utxo.redeemScriptHex = .ok coin.redeemScript

namespace Coin

/-- A coin passed the checks. -/
structure Checked (coin : Coin) : Prop where
  /-- The output is a standard one. -/
  type : coin.output.script.outputType = .ok coin.type
  /-- The scripts behind hashes are there and have the hashes. -/
  scripts : ∃ program,
    program? coin.outPoint coin.output coin.redeemScript coin.type = .ok program ∧
      checkWitnessScript coin.outPoint program coin.witnessScript = .ok ()
  /-- The transaction that holds the output is the one that is referred to, and holds it. -/
  previous : ∀ tx, coin.previous = some tx → tx.id = coin.outPoint.txid ∧
    tx.outputs[coin.outPoint.vout.toNat]? = some coin.output

/-- Bytes in hexadecimal that are read. -/
private theorem decodeHex_eq_ok_iff {field : HexField} {text : String} {bs : Bytes} :
    decodeHex field text = .ok bs ↔ Text.Hex.decode text = .ok bs := by
  unfold decodeHex
  cases Text.Hex.decode text <;> simp

/-- A script in hexadecimal that is read. -/
theorem decodeScript_eq_ok_iff {field : HexField} {text : String} {s : Script} :
    decodeScript field text = .ok s ↔ Text.Hex.decode text = .ok s.bytes := by
  rw [decodeScript, Steps.bind_eq_ok_iff]
  simp only [decodeHex_eq_ok_iff, Steps.pure_eq_ok_iff]
  constructor
  · rintro ⟨bs, hbs, rfl⟩
    exact hbs
  · intro h
    exact ⟨s.bytes, h, rfl⟩

/-- A previous transaction that passes the checks. -/
private theorem checkedPrevious_eq_ok {outPoint : OutPoint} {output : TxOutput}
    {text : Option String} {tx : Transaction}
    (h : checkedPrevious outPoint output text = .ok (some tx)) :
    tx.id = outPoint.txid ∧ tx.outputs[outPoint.vout.toNat]? = some output := by
  unfold checkedPrevious at h
  split at h
  · simp at h
  · obtain ⟨bs, -, h⟩ := Steps.bind_eq_ok_iff.mp h
    split at h
    · exact absurd h Steps.throw_ne_ok
    · next tx' _ =>
      split at h
      · exact absurd h Steps.throw_ne_ok
      · next hid =>
        split at h
        · exact absurd h Steps.throw_ne_ok
        · next hout =>
          obtain rfl : tx' = tx := Option.some.inj (Steps.pure_eq_ok_iff.mp h)
          exact ⟨not_not.mp hid, not_not.mp hout⟩

/-- **What is taken over from a plan is checked** and is the output that was described. -/
theorem checked_of_ofPlanned {sequence : Option UInt32} {utxo : PlannedUtxo} {coin : Coin}
    (h : ofPlanned sequence utxo = .ok coin) : utxo.Describes coin ∧ coin.Checked := by
  unfold ofPlanned at h
  cases htxid : TxId.ofText? utxo.txid with
  | none =>
    simp only [htxid] at h
    obtain ⟨_, hthrow, -⟩ := Steps.bind_eq_ok_iff.mp h
    exact absurd hthrow Steps.throw_ne_ok
  | some txid =>
    simp only [htxid] at h
    obtain ⟨_, -, h⟩ := Steps.bind_eq_ok_iff.mp h
    obtain ⟨script, hscript, h⟩ := Steps.bind_eq_ok_iff.mp h
    obtain ⟨type, htype, h⟩ := Steps.bind_eq_ok_iff.mp h
    obtain ⟨redeem, hredeem, h⟩ := Steps.bind_eq_ok_iff.mp h
    obtain ⟨witnessScript, -, h⟩ := Steps.bind_eq_ok_iff.mp h
    obtain ⟨program, hprogram, h⟩ := Steps.bind_eq_ok_iff.mp h
    obtain ⟨_, hcheck, h⟩ := Steps.bind_eq_ok_iff.mp h
    obtain ⟨previous, hprevious, h⟩ := Steps.bind_eq_ok_iff.mp h
    obtain rfl := Steps.pure_eq_ok_iff.mp h
    refine ⟨⟨rfl, decodeScript_eq_ok_iff.mp hscript, hredeem⟩, htype, ⟨program, hprogram, hcheck⟩,
      fun tx htx => ?_⟩
    obtain rfl : previous = some tx := htx
    exact checkedPrevious_eq_ok hprevious

/-- The witness script behind a program that names one. -/
private theorem witnessOutput_of_checkWitnessScript {outPoint : OutPoint} {program : Script}
    {given : Option Script} (hprogram : program.matchesPattern Script.p2wsh = true)
    (h : checkWitnessScript outPoint (some program) given = .ok ()) :
    ∃ script, given = some script ∧ script.witnessOutput = program := by
  unfold checkWitnessScript at h
  rw [Option.filter_some, if_pos hprogram] at h
  dsimp only at h
  split at h
  · simp at h
  · next script =>
    split at h
    · simp at h
    · next hhash => exact ⟨script, rfl, not_not.mp hhash⟩

/-! ## Ways of spending a coin -/

/-- **How a coin is spent**, by the kind of its output and of the script behind a script hash. There
is no way for a taproot output behind a script hash. -/
inductive SpentBy (coin : Coin) : Except Missing SpendPath → Prop
  /-- By a key with the hash. -/
  | keyHash (htype : coin.type = .p2pkh) :
      SpentBy coin (.ok ⟨coin.output, .base, coin.output.script, none, none⟩)
  /-- By a key with the hash, in the witness. -/
  | witnessKeyHash (htype : coin.type = .p2wpkh) :
      SpentBy coin (.ok ⟨coin.output, .witnessV0, coin.output.script, none, none⟩)
  /-- By the output key. -/
  | taproot (htype : coin.type = .p2tr) :
      SpentBy coin (.ok ⟨coin.output, .taproot, coin.output.script, none, none⟩)
  /-- By the witness script. -/
  | witnessScript {script : Script} (htype : coin.type = .p2wsh)
      (hscript : coin.witnessScript = some script)
      (hhash : script.witnessOutput = coin.output.script) :
      SpentBy coin (.ok ⟨coin.output, .witnessV0, script, none, some script⟩)
  /-- By a key with the hash, in the witness, behind a script hash. -/
  | nestedKeyHash {redeem : Script} (htype : coin.type = .p2sh)
      (hredeem : coin.redeemScript = some redeem) (hhash : redeem.hashOutput = coin.output.script)
      (hform : redeem.matchesPattern Script.p2wpkh = true) :
      SpentBy coin (.ok ⟨coin.output, .witnessV0, redeem, some redeem, none⟩)
  /-- By the witness script, behind a script hash. -/
  | nestedScript {redeem script : Script} (htype : coin.type = .p2sh)
      (hredeem : coin.redeemScript = some redeem) (hhash : redeem.hashOutput = coin.output.script)
      (hform : redeem.matchesPattern Script.p2wsh = true)
      (hscript : coin.witnessScript = some script) (hwitness : script.witnessOutput = redeem) :
      SpentBy coin (.ok ⟨coin.output, .witnessV0, script, some redeem, some script⟩)
  /-- Not at all: a taproot output behind a script hash. -/
  | nestedTaproot {redeem : Script} (htype : coin.type = .p2sh)
      (hredeem : coin.redeemScript = some redeem) (hhash : redeem.hashOutput = coin.output.script)
      (hform : redeem.matchesPattern Script.p2tr = true) :
      SpentBy coin (.error (.unsupportedScript coin.output.script))
  /-- By the redeem script. -/
  | script {redeem : Script} (htype : coin.type = .p2sh)
      (hredeem : coin.redeemScript = some redeem) (hhash : redeem.hashOutput = coin.output.script)
      (hkey : redeem.matchesPattern Script.p2wpkh = false)
      (hscript : redeem.matchesPattern Script.p2wsh = false)
      (htaproot : redeem.matchesPattern Script.p2tr = false) :
      SpentBy coin (.ok ⟨coin.output, .base, redeem, some redeem, none⟩)

/-- A redeem script that passed the checks. -/
private theorem hashOutput_of_program? {outPoint : OutPoint} {output : TxOutput}
    {redeemScript program : Option Script}
    (h : program? outPoint output redeemScript .p2sh = .ok program) :
    ∃ redeem, redeemScript = some redeem ∧ redeem.hashOutput = output.script ∧
      program = some redeem := by
  unfold program? at h
  dsimp only at h
  split at h
  · simp at h
  · next redeem =>
    split at h
    · simp at h
    · next hhash =>
      exact ⟨redeem, rfl, not_not.mp hhash, (Except.ok.inj h).symm⟩

/-- **A checked coin is spent in one of the known ways.** -/
theorem Checked.exists_spentBy {coin : Coin} (h : coin.Checked) :
    ∃ outcome, coin.SpentBy outcome := by
  obtain ⟨program, hprogram, hcheck⟩ := h.scripts
  have hform := Script.matchesPattern_of_outputType h.type
  cases htype : coin.type with
  | p2pkh => exact ⟨_, .keyHash htype⟩
  | p2wpkh => exact ⟨_, .witnessKeyHash htype⟩
  | p2tr => exact ⟨_, .taproot htype⟩
  | p2wsh =>
    rw [htype] at hprogram hform
    obtain rfl := Except.ok.inj hprogram
    obtain ⟨script, hscript, hhash⟩ := witnessOutput_of_checkWitnessScript hform hcheck
    exact ⟨_, .witnessScript htype hscript hhash⟩
  | p2sh =>
    rw [htype] at hprogram
    obtain ⟨redeem, hredeem, hhash, rfl⟩ := hashOutput_of_program? hprogram
    cases hwsh : redeem.matchesPattern Script.p2wsh with
    | true =>
      obtain ⟨script, hscript, hwitness⟩ := witnessOutput_of_checkWitnessScript hwsh hcheck
      exact ⟨_, .nestedScript htype hredeem hhash hwsh hscript hwitness⟩
    | false =>
      cases hkey : redeem.matchesPattern Script.p2wpkh with
      | true => exact ⟨_, .nestedKeyHash htype hredeem hhash hkey⟩
      | false =>
        cases htaproot : redeem.matchesPattern Script.p2tr with
        | true => exact ⟨_, .nestedTaproot htype hredeem hhash htaproot⟩
        | false => exact ⟨_, .script htype hredeem hhash hkey hwsh htaproot⟩

/-! ## Records -/

/-- What is recorded for the input that spends a coin. The output alone is recorded if its whole
transaction is not, or if it is spent in the witness. -/
def records (coin : Coin) : InputMap :=
  let witnessUtxo :=
    if coin.previous.isNone || coin.isWitnessSpend then some coin.output else none
  ((((∅ : InputMap).set .nonWitnessUtxo coin.previous).set .witnessUtxo witnessUtxo).set
    .redeemScript coin.redeemScript).set .witnessScript coin.witnessScript

/-- Nothing but what is known of a coin is recorded for its input. -/
theorem get?_records_eq_none (coin : Coin) {k : InputKey} (hn : k ≠ .nonWitnessUtxo)
    (hu : k ≠ .witnessUtxo) (hr : k ≠ .redeemScript) (hw : k ≠ .witnessScript) :
    coin.records.get? k = none := by
  rw [records, RecordMap.get?_set_of_ne _ hw.symm, RecordMap.get?_set_of_ne _ hr.symm,
    RecordMap.get?_set_of_ne _ hu.symm, RecordMap.get?_set_of_ne _ hn.symm]
  rfl

@[simp]
theorem get?_records_nonWitnessUtxo (coin : Coin) :
    coin.records.get? .nonWitnessUtxo = coin.previous := by
  rw [records, RecordMap.get?_set_of_ne _ (by simp), RecordMap.get?_set_of_ne _ (by simp),
    RecordMap.get?_set_of_ne _ (by simp), RecordMap.get?_set_self]

@[simp]
theorem get?_records_witnessUtxo (coin : Coin) : coin.records.get? .witnessUtxo =
    if coin.previous.isNone || coin.isWitnessSpend then some coin.output else none := by
  rw [records, RecordMap.get?_set_of_ne _ (by simp), RecordMap.get?_set_of_ne _ (by simp),
    RecordMap.get?_set_self]

@[simp]
theorem get?_records_redeemScript (coin : Coin) :
    coin.records.get? .redeemScript = coin.redeemScript := by
  rw [records, RecordMap.get?_set_of_ne _ (by simp), RecordMap.get?_set_self]

@[simp]
theorem get?_records_witnessScript (coin : Coin) :
    coin.records.get? .witnessScript = coin.witnessScript := by
  rw [records, RecordMap.get?_set_self]

/-- The input that spends a coin is open. -/
@[simp]
theorem isFinal_records (coin : Coin) : InputMap.isFinal coin.records = false := by
  simp only [records, InputMap.isFinal_set (k := .nonWitnessUtxo) rfl,
    InputMap.isFinal_set (k := .witnessUtxo) rfl, InputMap.isFinal_set (k := .redeemScript) rfl,
    InputMap.isFinal_set (k := .witnessScript) rfl]
  rfl

end Coin

/-! ## Recording -/

namespace Psbt

variable {p : Psbt} {index : Nat}

/-- Recording something for an open input that was set. -/
private theorem record_setInput (hindex : index < p.inputs.length) {x : InputMap}
    (hx : InputMap.isFinal x = false) (k : InputKey) (v : k.Value) :
    (p.setInput index x).record index k v = .ok (p.setInput index (x.set k (some v))) := by
  have hget : (p.setInput index x).inputs[index]? = some x := by
    rw [getElem?_inputs_setInput, if_pos rfl, List.getElem?_eq_getElem hindex, Option.map_some]
  unfold record
  rw [hget]
  dsimp only
  rw [if_neg (by simp [hx])]
  exact congrArg Except.ok (setInput_setInput p index x (x.insert k v))

/-- Recording what may be known at a free place of an open input that was set. -/
private theorem recordOption_setInput (hindex : index < p.inputs.length) {x : InputMap}
    (hx : InputMap.isFinal x = false) {k : InputKey} (hfree : x.get? k = none)
    (v : Option k.Value) :
    (p.setInput index x).recordOption index k v = .ok (p.setInput index (x.set k v)) := by
  cases v with
  | none =>
    rw [RecordMap.set_none_of_free hfree]
    rfl
  | some v => exact record_setInput hindex hx k v

end Psbt

namespace Coin

variable {p : Psbt} {index : Nat}

/-- Recording what a checked coin spends. -/
theorem Checked.attachOutput_eq {coin : Coin} (h : coin.Checked) {txInput : TxInput}
    (hindex : index < p.inputs.length) (htx : p.transaction.inputs[index]? = some txInput)
    (hout : txInput.previous = coin.outPoint) :
    coin.attachOutput index (p.setInput index ∅) = .ok (p.setInput index
      (((∅ : InputMap).set .nonWitnessUtxo coin.previous).set .witnessUtxo
        (if coin.previous.isNone || coin.isWitnessSpend then some coin.output else none))) := by
  have hopen : InputMap.isFinal (∅ : InputMap) = false := rfl
  unfold attachOutput
  cases hprevious : coin.previous with
  | none =>
    dsimp only
    rw [Psbt.setWitnessUtxo, Psbt.record_setInput hindex hopen, RecordMap.set_none_of_free rfl]
    rfl
  | some tx =>
    obtain ⟨hid, hholds⟩ := h.previous tx hprevious
    have hlt := (List.getElem?_eq_some_iff.mp hholds).1
    have hset : (p.setInput index ∅).setNonWitnessUtxo index tx =
        .ok (p.setInput index ((∅ : InputMap).set .nonWitnessUtxo (some tx))) := by
      have htx' : (p.setInput index ∅).transaction.inputs[index]? = some txInput := htx
      unfold Psbt.setNonWitnessUtxo
      rw [htx']
      dsimp only
      rw [hout, if_neg (not_not.mpr hid), if_neg (by omega), Psbt.record_setInput hindex hopen]
    have hopen' : InputMap.isFinal ((∅ : InputMap).set .nonWitnessUtxo (some tx)) = false :=
      InputMap.isFinal_set (k := .nonWitnessUtxo) rfl _
    have hfree : ((∅ : InputMap).set .nonWitnessUtxo (some tx)).get? .witnessUtxo = none :=
      RecordMap.get?_set_of_ne _ (by simp) _
    dsimp only
    rw [hset]
    change (if coin.isWitnessSpend = true then _ else _) = _
    cases coin.isWitnessSpend with
    | true =>
      rw [if_pos rfl, Psbt.setWitnessUtxo, Psbt.record_setInput hindex hopen']
      rfl
    | false =>
      simp only [Option.isNone_some, Bool.or_self, Bool.false_eq_true, if_false,
        RecordMap.set_none_of_free hfree]
      rfl

/-- **Recording what is known of a checked coin** for an input without records, which refers to the
coin, succeeds. -/
theorem Checked.attach_eq {coin : Coin} (h : coin.Checked) {txInput : TxInput}
    (hindex : p.inputs[index]? = some ∅) (htx : p.transaction.inputs[index]? = some txInput)
    (hout : txInput.previous = coin.outPoint) :
    coin.attach index p = .ok (p.setInput index coin.records) := by
  have hlt : index < p.inputs.length := (List.getElem?_eq_some_iff.mp hindex).1
  have houtput := h.attachOutput_eq hlt htx hout
  rw [Psbt.setInput_self hindex] at houtput
  unfold attach records
  generalize hx : ((∅ : InputMap).set .nonWitnessUtxo coin.previous).set .witnessUtxo
    (if coin.previous.isNone || coin.isWitnessSpend then some coin.output else none) = x
      at houtput
  have hopen : InputMap.isFinal x = false := by
    rw [← hx, InputMap.isFinal_set (k := .witnessUtxo) rfl,
      InputMap.isFinal_set (k := .nonWitnessUtxo) rfl]
    rfl
  have hopen' : InputMap.isFinal (x.set .redeemScript coin.redeemScript) = false := by
    rw [InputMap.isFinal_set (k := .redeemScript) rfl, hopen]
  have hfree : ∀ k, k ≠ .nonWitnessUtxo → k ≠ .witnessUtxo → x.get? k = none := by
    intro k hn hu
    rw [← hx, RecordMap.get?_set_of_ne _ hu.symm, RecordMap.get?_set_of_ne _ hn.symm]
    rfl
  have hfree' : (x.set .redeemScript coin.redeemScript).get? .witnessScript = none :=
    (RecordMap.get?_set_of_ne x (by simp) _).trans (hfree _ (by simp) (by simp))
  simp only [houtput, bind, Except.bind,
    Psbt.recordOption_setInput hlt hopen (hfree .redeemScript (by simp) (by simp)),
    Psbt.recordOption_setInput hlt hopen' hfree', hx]

end Coin

end JointSpend
