import JointSpend.Proofs.Merge.Exactness
import JointSpend.Proofs.Spend.Completeness
import JointSpend.Proofs.Spend.Readiness
import JointSpend.Proofs.Spend.Validity

set_option autoImplicit false
set_option relaxedAutoImplicit false

/-!
# Merging keeps readiness

An input that one copy has final or ready to be made final is so in what two copies are merged to.
A merge adds what the other copy knows of the spent outputs, its scripts and its signatures, whether
they are valid or not, and none of it spoils the input, as long as the copies do not disagree about
the spent outputs.

## Main definitions

* `JointSpend.Psbt.Gathers` — what a copy has from two others, in whatever order they are merged.
* `JointSpend.Psbt.SameSpent` — two copies know the same of the spent outputs that both know.

## Main results

* `JointSpend.Psbt.Gathers.extends_left` — a merge knows the spent outputs that a copy knows.
* `JointSpend.Psbt.Gathers.inputComplete` — it can make final what a copy can make final.
* `JointSpend.Psbt.merge_keeps_readiness` — both sides, and the whole.
-/

namespace JointSpend.Psbt

variable {scheme : SignatureScheme} {a b m : Psbt} {index : Nat}

/-! ## What comes from both sides -/

/-- What a copy has from two others. The two sides are alike, unlike in
`JointSpend.Psbt.Merged`: nothing is said of the records that only final inputs lose. -/
structure Gathers (a b m : Psbt) : Prop where
  transaction_left : m.transaction = a.transaction
  transaction_right : m.transaction = b.transaction
  length_left : m.inputs.length = a.inputs.length
  length_right : m.inputs.length = b.inputs.length
  final : ∀ (i : Nat) (x y z : InputMap), a.inputs[i]? = some x → b.inputs[i]? = some y →
    m.inputs[i]? = some z → InputMap.isFinal z = (InputMap.isFinal x || InputMap.isFinal y)
  retained : ∀ (i : Nat) (x y z : InputMap), a.inputs[i]? = some x → b.inputs[i]? = some y →
    m.inputs[i]? = some z → RecordMap.UnionAt InputKey.isRetained x y z
  signing : ∀ (i : Nat) (x y z : InputMap), a.inputs[i]? = some x → b.inputs[i]? = some y →
    m.inputs[i]? = some z → InputMap.isFinal x = false → InputMap.isFinal y = false →
      RecordMap.UnionAt InputKey.isDropped x y z

/-- **A merge gathers** what two copies of the same shape have. -/
theorem gathers_of_merge (ha : a.Shaped) (hb : b.Shaped) (h : merge a b = .ok m) :
    Gathers a b m := by
  obtain ⟨hcompatible, rfl⟩ := (merge_eq_ok_iff ha hb).mp h
  have hmerged := merged_joined ha hb hcompatible
  have hright : (joined a b).transaction = b.transaction :=
    hmerged.transaction.trans hcompatible.transaction
  exact
    { transaction_left := hmerged.transaction
      transaction_right := hright
      length_left := hmerged.shaped.length_inputs_eq ha hmerged.transaction
      length_right := hmerged.shaped.length_inputs_eq hb hright
      final := fun i x y z hx hy hz => (hmerged.inputs i x y z hx hy hz).final
      retained := fun i x y z hx hy hz => (hmerged.inputs i x y z hx hy hz).retained
      signing := fun i x y z hx hy hz => (hmerged.inputs i x y z hx hy hz).signing }

/-- Two copies know the same of the spent outputs that both know. -/
def SameSpent (a b : Psbt) : Prop :=
  ∀ (i : Nat) (u v : TxOutput), a.spentOutput? i = some u → b.spentOutput? i = some v → u = v

theorem SameSpent.symm (h : SameSpent a b) : SameSpent b a :=
  fun i u v hu hv => (h i v u hv hu).symm

namespace Gathers

/-- The two sides are alike. -/
theorem symm (h : Gathers a b m) : Gathers b a m where
  transaction_left := h.transaction_right
  transaction_right := h.transaction_left
  length_left := h.length_right
  length_right := h.length_left
  final := fun i y x z hy hx hz => by rw [h.final i x y z hx hy hz, Bool.or_comm]
  retained := fun i y x z hy hx hz => (h.retained i x y z hx hy hz).symm
  signing := fun i y x z hy hx hz hyopen hxopen =>
    (h.signing i x y z hx hy hz hxopen hyopen).symm

/-- An input of one copy, with the input of the other copy and the one that has both. -/
theorem exists_inputs (h : Gathers a b m) {x : InputMap} (hx : a.inputs[index]? = some x) :
    ∃ y z, b.inputs[index]? = some y ∧ m.inputs[index]? = some z := by
  obtain ⟨hlt, -⟩ := List.getElem?_eq_some_iff.mp hx
  have hleft := h.length_left
  have hright := h.length_right
  have hb : index < b.inputs.length := by omega
  have hm : index < m.inputs.length := by omega
  exact ⟨b.inputs[index], m.inputs[index], List.getElem?_eq_getElem hb,
    List.getElem?_eq_getElem hm⟩

/-! ## Spent outputs -/

/-- **A spent output that one copy knows is known afterwards**, and is the same.

**Proof sketch.** The whole transaction is preferred to the output alone. If the copy has the
transaction, it is kept. Otherwise the transaction can come from the other copy; if it has the
output, the other copy knows it, and the two agree. If it does not have it, the output alone
counts, which is kept. -/
theorem spentOutput?_eq (h : Gathers a b m) (hsame : SameSpent a b) {output : TxOutput}
    (ha : a.spentOutput? index = some output) : m.spentOutput? index = some output := by
  obtain ⟨x, txInput, hx, htx, hknows⟩ := spentOutput?_eq_some_iff.mp ha
  obtain ⟨y, z, hy, hz⟩ := h.exists_inputs hx
  have hunion := h.retained index x y z hx hy hz
  have htxb : b.transaction.inputs[index]? = some txInput := by
    rw [← h.transaction_right, h.transaction_left, htx]
  have htxm : m.transaction.inputs[index]? = some txInput := by
    rw [h.transaction_left, htx]
  refine spentOutput?_eq_some_iff.mpr ⟨z, txInput, hz, htxm, ?_⟩
  rcases hknows with ⟨tx, hwhole, hout⟩ | ⟨halone, hlacks⟩
  · exact Or.inl ⟨tx, (hunion .nonWitnessUtxo rfl tx).mpr (Or.inl hwhole), hout⟩
  · by_cases hnew : ∃ tx, y.get? .nonWitnessUtxo = some tx ∧
        ∃ other, tx.outputs[txInput.previous.vout.toNat]? = some other
    · obtain ⟨tx, hwhole, other, hout⟩ := hnew
      have hb : b.spentOutput? index = some other :=
        spentOutput?_eq_some_iff.mpr ⟨y, txInput, hy, htxb, Or.inl ⟨tx, hwhole, hout⟩⟩
      obtain rfl := hsame index output other ha hb
      exact Or.inl ⟨tx, (hunion .nonWitnessUtxo rfl tx).mpr (Or.inr hwhole), hout⟩
    · refine Or.inr ⟨(hunion .witnessUtxo rfl output).mpr (Or.inl halone), fun tx hz => ?_⟩
      rcases (hunion .nonWitnessUtxo rfl tx).mp hz with hown | hother
      · exact hlacks tx hown
      · by_contra hsome
        exact hnew ⟨tx, hother, Option.ne_none_iff_exists'.mp hsome⟩

/-- **A merge knows the spent outputs that a copy knows.** -/
theorem extends_left (h : Gathers a b m) (hsame : SameSpent a b) : Extends a m where
  transaction := h.transaction_left
  length := h.length_left
  spent := fun _ _ => h.spentOutput?_eq hsame

/-! ## Readiness -/

/-- **What a copy has final or can make final stays so.** -/
theorem inputComplete (h : Gathers a b m) (hsame : SameSpent a b)
    (ha : a.inputComplete scheme index = true) : m.inputComplete scheme index = true := by
  unfold Psbt.inputComplete at ha ⊢
  cases hx : a.inputs[index]? with
  | none =>
    have hfails : a.finalizeInput scheme index = .error (.noSuchInput a.inputs.length) := by
      simp [finalizeInput, spendPath, hx, bind, Except.bind]
    rw [hx, hfails] at ha
    simp [Except.toBool] at ha
  | some x =>
    obtain ⟨y, z, hy, hz⟩ := h.exists_inputs hx
    rw [hx, Option.any_some, Bool.or_eq_true] at ha
    rw [hz, Option.any_some, Bool.or_eq_true, h.final index x y z hx hy hz]
    cases hxfinal : InputMap.isFinal x with
    | true => exact Or.inl rfl
    | false =>
      cases hyfinal : InputMap.isFinal y with
      | true => exact Or.inl rfl
      | false =>
        -- both copies are open, so their scripts and signatures are united
        have hunion := h.signing index x y z hx hy hz hxfinal hyfinal
        rw [hxfinal] at ha
        have hready := Steps.toBool_eq_true_iff.mp (ha.resolve_left Bool.false_ne_true)
        right
        rw [Steps.toBool_eq_true_iff]
        exact (h.extends_left hsame).exists_finalizeInput hx hz
          (fun k hk v hv => (hunion k hk v).mpr (Or.inl hv)) hready

/-- A copy that is complete stays so. -/
theorem isComplete (h : Gathers a b m) (hsame : SameSpent a b)
    (ha : a.isComplete scheme = true) : m.isComplete scheme = true := by
  unfold Psbt.isComplete at ha ⊢
  rw [List.all_eq_true] at ha ⊢
  intro i hi
  rw [h.length_left] at hi
  exact h.inputComplete hsame (ha i hi)

end Gathers

/-- **Merging never loses readiness.** Of two copies that were read and do not disagree about a
spent output, whatever one has final or can make final is so in what they are merged to. -/
theorem merge_keeps_readiness (scheme : SignatureScheme) (ha : a.Decoded) (hb : b.Decoded)
    (hmerge : merge a b = .ok m)
    (hsame : ∀ (i : Nat) (u v : TxOutput), a.spentOutput? i = some u →
      b.spentOutput? i = some v → u = v) :
    (∀ i, a.inputComplete scheme i = true ∨ b.inputComplete scheme i = true →
      m.inputComplete scheme i = true) ∧
      (a.isComplete scheme = true ∨ b.isComplete scheme = true → m.isComplete scheme = true) := by
  have hgathers := gathers_of_merge ha.shaped hb.shaped hmerge
  have hspent : SameSpent a b := hsame
  constructor
  · rintro i (hi | hi)
    · exact hgathers.inputComplete hspent hi
    · exact hgathers.symm.inputComplete hspent.symm hi
  · rintro (hall | hall)
    · exact hgathers.isComplete hspent hall
    · exact hgathers.symm.isComplete hspent.symm hall

/-- A copy of the signed transaction that lacks the signature, but has the whole transaction whose
output is spent. -/
def sampleKnowing : Psbt :=
  ⟨(sampleSigned sampleKeyScript).transaction, ∅,
    [(∅ : InputMap).insert .nonWitnessUtxo
      ⟨2, 0, [⟨⟨⟨Fixed.zero 32⟩, 7⟩, .empty, 0xffffffff, []⟩], [⟨2000, sampleKeyScript⟩]⟩], [∅]⟩

/-- The signed copy is complete, and it is so together with the whole transaction. -/
theorem merge_keeps_readiness_sampleKnowing :
    ∃ m, merge sampleKnowing (sampleSigned sampleKeyScript) = .ok m ∧
      m.inputComplete Curve.secp256k1 0 = true ∧ m.isComplete Curve.secp256k1 = true := by
  have hknowing : sampleKnowing.Decoded :=
    @Decoded.of_ofBytes? _ sampleKnowing.bytes (by decide +kernel)
  have hsigned : (sampleSigned sampleKeyScript).Decoded :=
    @Decoded.of_ofBytes? _ (sampleSigned sampleKeyScript).bytes (by decide +kernel)
  have hfirst : (sampleSigned sampleKeyScript).inputComplete Curve.secp256k1 0 = true := by
    decide +kernel
  have hcomplete : (sampleSigned sampleKeyScript).isComplete Curve.secp256k1 = true :=
    List.all_eq_true.mpr fun i hi => by
      obtain rfl : i = 0 := by simpa [sampleSigned] using hi
      exact hfirst
  have hsame : ∀ (i : Nat) (u v : TxOutput), sampleKnowing.spentOutput? i = some u →
      (sampleSigned sampleKeyScript).spentOutput? i = some v → u = v := by
    intro i u v hu hv
    cases i with
    | zero =>
      have hfirst : sampleKnowing.spentOutput? 0 =
          (sampleSigned sampleKeyScript).spentOutput? 0 := by
        decide +kernel
      exact Option.some.inj (hu.symm.trans (hfirst.trans hv))
    | succ i => simp [spentOutput?, sampleKnowing] at hu
  obtain ⟨m, hmerge⟩ : ∃ m, merge sampleKnowing (sampleSigned sampleKeyScript) = .ok m :=
    Steps.toBool_eq_true_iff.mp (by decide +kernel)
  have h := merge_keeps_readiness Curve.secp256k1 hknowing hsigned hmerge hsame
  exact ⟨m, hmerge, h.1 0 (Or.inr hfirst), h.2 (Or.inr hcomplete)⟩

end JointSpend.Psbt
