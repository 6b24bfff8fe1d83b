import JointSpend.Proofs.Funding.Creation
import JointSpend.Proofs.Spend.Readiness

set_option autoImplicit false
set_option relaxedAutoImplicit false

/-!
# How the coins of a plan are spent

The scripts behind hashes are checked when a coin is taken over from a plan, and again whenever its
input is signed or made final. The two checks agree: in the partially signed transaction of a plan,
each input spends its coin, in the way in which the coin can be spent. The placeholders from which
the size is estimated follow the same ways.

## Main definitions

* `JointSpend.SpendPath.placeholderStack` — a stack as large as the one that satisfies a path.

## Main results

* `JointSpend.SpendPlan.spentOutput?_assembled` — what the inputs spend.
* `JointSpend.SpendPlan.spendPath_assembled` — how they are spent.
* `JointSpend.Coin.SpentBy.placeholder_eq_ok_iff` — the placeholders for a way of spending a coin.
* `JointSpend.Coin.Checked.exists_placeholder` — a checked coin has placeholders.
-/

namespace JointSpend

/-! ## Inputs of a plan -/

namespace SpendPlan

variable {coins : List Coin} {outputs : List TxOutput} {index : Nat} {coin : Coin}

/-- The input for a coin has its records. -/
theorem getElem?_inputs_assembled (hcoin : coins[index]? = some coin) :
    (assembled coins outputs).inputs[index]? = some coin.records := by
  simp [assembled, hcoin]

/-- The input for a coin refers to it. -/
theorem getElem?_txInputs_assembled (hcoin : coins[index]? = some coin) :
    (assembled coins outputs).transaction.inputs[index]? =
      some (coin.txInput ⟨.empty, []⟩) := by
  simp [assembled, unsigned, transaction, hcoin]

/-- **The input for a coin spends its output**, whether or not the previous transaction is given. -/
theorem spentOutput?_assembled (hcoin : coins[index]? = some coin) (hchecked : coin.Checked) :
    (assembled coins outputs).spentOutput? index = some coin.output := by
  refine Psbt.spentOutput?_eq_some_iff.mpr ⟨_, _, getElem?_inputs_assembled hcoin,
    getElem?_txInputs_assembled hcoin, ?_⟩
  unfold InputMap.Knows
  rw [Coin.get?_records_nonWitnessUtxo, Coin.get?_records_witnessUtxo]
  cases hprevious : coin.previous with
  | none => simp
  | some tx =>
    left
    exact ⟨tx, rfl, (hchecked.previous tx hprevious).2⟩

/-- **The input for a coin is spent in the way in which the coin can be spent.**

**Proof sketch.** The output of a checked coin has the pattern of its kind and no other, so the
checks on the way to the path come out as the kind says; the scripts behind hashes are recorded and
have the hashes. -/
theorem spendPath_assembled (hcoin : coins[index]? = some coin) (hchecked : coin.Checked)
    {outcome : Except Missing SpendPath} (h : coin.SpentBy outcome) :
    (assembled coins outputs).spendPath index = outcome := by
  have hform := Script.matchesPattern_of_outputType hchecked.type
  have hyes : ∀ type, coin.type = type →
      coin.output.script.matchesPattern (Script.typePattern type) = true := by
    rintro _ rfl
    exact hform
  have hno : ∀ other, coin.type ≠ other →
      coin.output.script.matchesPattern (Script.typePattern other) = false :=
    fun other hne => Script.matchesPattern_typePattern_eq_false hform hne
  have hsh : coin.type ≠ .p2sh → coin.output.script.matchesPattern Script.p2sh = false := hno .p2sh
  have hkey : coin.type ≠ .p2wpkh → coin.output.script.matchesPattern Script.p2wpkh = false :=
    hno .p2wpkh
  have hscript : coin.type ≠ .p2wsh → coin.output.script.matchesPattern Script.p2wsh = false :=
    hno .p2wsh
  have htaproot : coin.type ≠ .p2tr → coin.output.script.matchesPattern Script.p2tr = false :=
    hno .p2tr
  unfold Psbt.spendPath
  rw [getElem?_inputs_assembled hcoin, spentOutput?_assembled hcoin hchecked]
  dsimp only
  rw [Coin.get?_records_redeemScript]
  cases h with
  | keyHash htype =>
    simp [SpendPath.below, htype, hsh, hkey, hscript, htaproot]
  | witnessKeyHash htype =>
    have hform' : coin.output.script.matchesPattern Script.p2wpkh = true := hyes .p2wpkh htype
    simp [SpendPath.below, htype, hsh, hform']
  | taproot htype =>
    have hform' : coin.output.script.matchesPattern Script.p2tr = true := hyes .p2tr htype
    simp [SpendPath.below, htype, hsh, hkey, hscript, hform']
  | witnessScript htype hgiven hhash =>
    have hform' : coin.output.script.matchesPattern Script.p2wsh = true := hyes .p2wsh htype
    simp [SpendPath.below, htype, hsh, hkey, hform', hgiven, hhash]
  | nestedKeyHash htype hredeem hhash hinner =>
    have hform' : coin.output.script.matchesPattern Script.p2sh = true := hyes .p2sh htype
    simp [SpendPath.below, hform', hredeem, hhash, hinner]
  | nestedScript htype hredeem hhash hinner hgiven hwitness =>
    have hform' : coin.output.script.matchesPattern Script.p2sh = true := hyes .p2sh htype
    have hkey' := Script.matchesPattern_eq_false hinner Script.p2wpkh (by decide) (by decide)
      (by decide)
    simp [SpendPath.below, hform', hredeem, hhash, hinner, hkey', hgiven, hwitness]
  | nestedTaproot htype hredeem hhash hinner =>
    have hform' : coin.output.script.matchesPattern Script.p2sh = true := hyes .p2sh htype
    have hkey' := Script.matchesPattern_eq_false hinner Script.p2wpkh (by decide) (by decide)
      (by decide)
    have hscript' := Script.matchesPattern_eq_false hinner Script.p2wsh (by decide) (by decide)
      (by decide)
    simp [SpendPath.below, hform', hredeem, hhash, hinner, hkey', hscript']
  | script htype hredeem hhash hkey' hscript' htaproot' =>
    have hform' : coin.output.script.matchesPattern Script.p2sh = true := hyes .p2sh htype
    simp [SpendPath.below, hform', hredeem, hhash, hkey', hscript', htaproot']

end SpendPlan

/-! ## Placeholders -/

/-- A stack as large as the one that satisfies the script of a path. -/
def SpendPath.placeholderStack (path : SpendPath) : List Bytes :=
  match path.version with
  | .taproot => [Coin.taprootPlaceholder]
  | _ => Coin.placeholderStack path.script

namespace Coin

variable {coin : Coin} {path : SpendPath} {scripts : FinalScripts}

/-- What stands for signatures and keys is short. -/
private theorem length_le_of_mem_placeholderStack {script : Script} :
    ∀ item ∈ placeholderStack script, item.length ≤ 72 := by
  have hsig : signaturePlaceholder.length = 72 := rfl
  have hkey : keyPlaceholder.length = 33 := rfl
  unfold placeholderStack
  split
  · simp [hsig]
  · rw [List.forall_mem_cons]
    refine ⟨by simp, fun item hitem => ?_⟩
    rw [List.eq_of_mem_replicate hitem, hsig]
  · simp [hsig, hkey]
  · simp [hsig]

/-- What stands for a stack is short. -/
private theorem length_le_of_mem_stack : ∀ item ∈ path.placeholderStack, item.length ≤ 72 := by
  unfold SpendPath.placeholderStack
  split
  · simp [taprootPlaceholder]
  · exact length_le_of_mem_placeholderStack

/-- Items that are pushed. -/
private theorem pushItems_eq_ok_iff {items : List Bytes} {script : Script} :
    pushItems items = .ok script ↔ Script.pushAll? items = some script := by
  unfold pushItems
  cases Script.pushAll? items <;> simp

/-- Nothing is pushed by the empty script. -/
theorem pushAll?_nil : Script.pushAll? [] = some .empty :=
  rfl

/-- **The placeholders for a way of spending a coin** are put together like its final scripts. -/
theorem SpentBy.placeholder_eq_ok_iff (h : coin.SpentBy (.ok path)) :
    coin.placeholder = .ok scripts ↔
      FinalScripts.ofStack? path path.placeholderStack = some scripts := by
  unfold placeholder
  cases h with
  | keyHash htype =>
    simp [htype, FinalScripts.ofStack?, SpendPath.placeholderStack, Steps.map_eq_ok_iff,
      pushItems_eq_ok_iff, Option.map_eq_some_iff]
  | witnessKeyHash htype =>
    simp [htype, FinalScripts.ofStack?, SpendPath.placeholderStack, Steps.pure_eq_ok_iff,
      pushAll?_nil]
  | taproot htype =>
    simp [htype, FinalScripts.ofStack?, SpendPath.placeholderStack, Steps.pure_eq_ok_iff,
      pushAll?_nil]
  | witnessScript htype hscript =>
    simp [htype, FinalScripts.ofStack?, SpendPath.placeholderStack, pushAll?_nil,
      requiredWitnessScript, hscript]
  | nestedKeyHash htype hredeem hhash hform =>
    simp [htype, FinalScripts.ofStack?, SpendPath.placeholderStack, Steps.bind_eq_ok_iff,
      Steps.map_eq_ok_iff, pushItems_eq_ok_iff, requiredRedeemScript, hredeem, hform]
  | nestedScript htype hredeem hhash hform hscript =>
    have hkey := Script.matchesPattern_eq_false hform Script.p2wpkh (by decide) (by decide)
      (by decide)
    simp [htype, FinalScripts.ofStack?, SpendPath.placeholderStack, Steps.bind_eq_ok_iff,
      Steps.map_eq_ok_iff, pushItems_eq_ok_iff, requiredRedeemScript, hredeem, hform, hkey,
      requiredWitnessScript, hscript]
  | script htype hredeem hhash hkey hscript htaproot =>
    simp [htype, FinalScripts.ofStack?, SpendPath.placeholderStack, Steps.bind_eq_ok_iff,
      Steps.map_eq_ok_iff, pushItems_eq_ok_iff, requiredRedeemScript, hredeem, hkey, hscript]

/-- The redeem script of a way of spending a coin is that of the coin. -/
private theorem SpentBy.redeemScript_eq (h : coin.SpentBy (.ok path)) {redeem : Script}
    (hredeem : path.redeemScript = some redeem) : coin.redeemScript = some redeem := by
  cases h with
  | keyHash => simp at hredeem
  | witnessKeyHash => simp at hredeem
  | taproot => simp at hredeem
  | witnessScript => simp at hredeem
  | nestedKeyHash htype hgiven => exact hgiven.trans hredeem
  | nestedScript htype hgiven => exact hgiven.trans hredeem
  | script htype hgiven => exact hgiven.trans hredeem

/-- **A checked coin has placeholders**, if its redeem script can be pushed. -/
theorem Checked.exists_placeholder (h : coin.Checked)
    (hredeem : ∀ redeem, coin.redeemScript = some redeem →
      redeem.bytes.length < 0x100000000) : ∃ scripts, coin.placeholder = .ok scripts := by
  obtain ⟨outcome, hspent⟩ := h.exists_spentBy
  cases outcome with
  | ok path =>
    have hpush : path.Pushable := fun redeem hgiven =>
      hredeem redeem (hspent.redeemScript_eq hgiven)
    have hshort : ∀ item ∈ path.placeholderStack, item.length < 0x100000000 := by
      intro item hitem
      have := length_le_of_mem_stack item hitem
      omega
    obtain ⟨scripts, hscripts⟩ :=
      Option.isSome_iff_exists.mp ((Psbt.isSome_ofStack?_iff hshort).mpr hpush)
    exact ⟨scripts, hspent.placeholder_eq_ok_iff.mpr hscripts⟩
  | error missing =>
    cases hspent with
    | @nestedTaproot redeem htype hgiven hhash hform =>
      have hkey := Script.matchesPattern_eq_false hform Script.p2wpkh (by decide) (by decide)
        (by decide)
      have hscript := Script.matchesPattern_eq_false hform Script.p2wsh (by decide) (by decide)
        (by decide)
      -- the size is estimated as for a script of unknown form
      have hpush : (Script.pushAll? (placeholderStack redeem ++ [redeem.bytes])).isSome := by
        rw [Psbt.isSome_pushAll?_iff, List.forall_mem_append]
        constructor
        · intro item hitem
          have := length_le_of_mem_placeholderStack item hitem
          omega
        · simpa using hredeem redeem hgiven
      obtain ⟨script, hscripts⟩ := Option.isSome_iff_exists.mp hpush
      refine ⟨⟨script, []⟩, ?_⟩
      simp [placeholder, htype, requiredRedeemScript, hgiven, hkey, hscript, Steps.bind_eq_ok_iff,
        Steps.map_eq_ok_iff, pushItems_eq_ok_iff, hscripts]

end Coin

end JointSpend
