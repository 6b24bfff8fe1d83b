import JointSpend.Proofs.Merge.Exactness
import JointSpend.Proofs.Psbt.Operations
import JointSpend.Proofs.Sign.Containment
import JointSpend.Proofs.Spend.Finalizing

set_option autoImplicit false
set_option relaxedAutoImplicit false

/-!
# Progress is never undone

Whatever is done to a copy, in whatever order and by whomever: the transaction stays the same, an
input that is final stays final with the same final scripts, and signatures stay until their input
becomes final.

## Main definitions

* `JointSpend.InputMap.Advances`, `JointSpend.Psbt.Advances` — nothing of this is undone from one
  copy to another.

## Main results

* `JointSpend.InputMap.Merged.advances_first`, `JointSpend.InputMap.Merged.advances_second` —
  merging undoes nothing on either side.
* `JointSpend.InputMap.TakenOver.advances` — neither does signing, whoever signs.
* `JointSpend.Operation.advances` — no operation does.
* `JointSpend.Operation.perform_sign` — what is held after signing is what signing in place leaves.
* `JointSpend.Psbt.run_advances` — no run does.
-/

namespace JointSpend

/-! ## Inputs -/

namespace InputMap

/-- What was achieved for an input is not undone. -/
structure Advances (x y : InputMap) : Prop where
  /-- A final input stays final, with the same final scripts. -/
  final : isFinal x = true → isFinal y = true ∧ SameScripts x y
  /-- A signature stays until the input is final. -/
  signature : ∀ k, InputKey.isSignature k = true → ∀ v, x.get? k = some v →
    isFinal y = true ∨ y.get? k = some v

namespace Advances

variable {x y z : InputMap}

theorem refl (x : InputMap) : Advances x x :=
  ⟨fun hx => ⟨hx, rfl, rfl⟩, fun _ _ _ hv => Or.inr hv⟩

theorem trans (hxy : Advances x y) (hyz : Advances y z) : Advances x z := by
  constructor
  · intro hx
    obtain ⟨hy, hscripts⟩ := hxy.final hx
    obtain ⟨hz, hscripts'⟩ := hyz.final hy
    exact ⟨hz, hscripts.1.trans hscripts'.1, hscripts.2.trans hscripts'.2⟩
  · intro k hk v hv
    rcases hxy.signature k hk v hv with hy | hy
    · exact Or.inl (hyz.final hy).1
    · exact hyz.signature k hk v hy

/-- An open input that becomes final. -/
theorem of_becomes_final (hx : isFinal x = false) (hy : isFinal y = true) : Advances x y :=
  ⟨by simp [hx], fun _ _ _ _ => Or.inl hy⟩

/-- An open input that keeps its signatures. -/
theorem of_open (hx : isFinal x = false)
    (h : ∀ k, InputKey.isSignature k = true → ∀ v, x.get? k = some v → y.get? k = some v) :
    Advances x y :=
  ⟨by simp [hx], fun k hk v hv => Or.inr (h k hk v hv)⟩

/-- A final input that keeps its final scripts. -/
theorem of_final (hx : isFinal x = true)
    (h : ∀ k, InputKey.isUnited k = false → x.get? k = y.get? k) : Advances x y := by
  have hy : isFinal y = true := by rw [← isFinal_congr h, hx]
  exact ⟨fun _ => ⟨hy, h _ rfl, h _ rfl⟩, fun _ _ _ _ => Or.inl hy⟩

end Advances

/-- Recording anything but a signature in an open input undoes nothing. -/
private theorem advances_insert {x : InputMap} (hx : isFinal x = false) {k : InputKey}
    (hk : k.isSignature = false) (v : k.Value) : Advances x (x.insert k v) := by
  refine .of_open hx fun k' hk' w hw => ?_
  have hne : k ≠ k' := by
    rintro rfl
    simp [hk] at hk'
  rw [RecordMap.get?_insert_of_ne x hne, hw]

/-- **Merging undoes nothing** that was achieved in the first copy. -/
theorem Merged.advances_first {x y z : InputMap} (h : Merged x y z) : Advances x z := by
  cases hx : isFinal x with
  | true => exact .of_final hx fun k hk => (h.ofFirst hx k (InputKey.isRetained_eq_false hk)).symm
  | false =>
    cases hy : isFinal y with
    | true => exact .of_becomes_final hx (by rw [h.final, hy, Bool.or_true])
    | false =>
      refine .of_open hx fun k hk v hv => ?_
      exact (h.signing hx hy k (InputKey.isDropped_of_isSignature hk) v).mpr (Or.inl hv)

/-- **Merging undoes nothing** that was achieved in the second copy. -/
theorem Merged.advances_second {x y z : InputMap} (h : Merged x y z) : Advances y z := by
  cases hx : isFinal x with
  | true =>
    have hz : isFinal z = true := by rw [h.final, hx, Bool.true_or]
    exact ⟨fun hy => ⟨hz, (h.scripts hx hy).2⟩, fun _ _ _ _ => Or.inl hz⟩
  | false =>
    cases hy : isFinal y with
    | true =>
      exact .of_final hy fun k hk => (h.ofSecond hx hy k (InputKey.isRetained_eq_false hk)).symm
    | false =>
      refine .of_open hy fun k hk v hv => ?_
      exact (h.signing hx hy k (InputKey.isDropped_of_isSignature hk) v).mpr (Or.inr hv)

/-- **Signing undoes nothing**, whoever signs. -/
theorem TakenOver.advances {options : SignOptions} {index : Nat} {x w y : InputMap}
    (h : TakenOver options index x w y) : Advances x y := by
  cases hx : isFinal x with
  | true =>
    rw [h.eq_of_isFinal hx]
    exact .refl x
  | false =>
    cases hy : isFinal y with
    | true => exact .of_becomes_final hx hy
    | false => exact .of_open hx fun _ _ _ hv => h.kept hy hv

/-- Making an input final undoes nothing. -/
private theorem advances_dryRunInput (scheme : SignatureScheme) (p : Psbt) (index : Nat)
    (x : InputMap) : Advances x (Psbt.dryRunInput x (p.outcome scheme index x)) := by
  cases hy : isFinal (Psbt.dryRunInput x (p.outcome scheme index x)) with
  | false =>
    rw [Psbt.dryRunInput_of_open hy]
    exact .refl x
  | true =>
    cases hx : isFinal x with
    | true =>
      rw [Psbt.dryRunInput_of_isFinal hx]
      exact .refl x
    | false => exact .of_becomes_final hx hy

end InputMap

/-! ## Copies -/

namespace Psbt

/-- What was achieved in a copy is not undone. -/
structure Advances (p q : Psbt) : Prop where
  transaction : q.transaction = p.transaction
  length_inputs : q.inputs.length = p.inputs.length
  length_outputs : q.outputs.length = p.outputs.length
  inputs : Pointwise InputMap.Advances p.inputs q.inputs

namespace Advances

variable {p q r : Psbt}

theorem refl (p : Psbt) : Advances p p :=
  ⟨rfl, rfl, rfl, fun _ x _ hx hy => Option.some.inj (hx.symm.trans hy) ▸ .refl x⟩

theorem trans (hpq : Advances p q) (hqr : Advances q r) : Advances p r where
  transaction := hqr.transaction.trans hpq.transaction
  length_inputs := hqr.length_inputs.trans hpq.length_inputs
  length_outputs := hqr.length_outputs.trans hpq.length_outputs
  inputs := fun i x z hx hz => by
    have hlt : i < q.inputs.length := by
      rw [hpq.length_inputs]
      exact (List.getElem?_eq_some_iff.mp hx).1
    have hy := List.getElem?_eq_getElem hlt
    exact (hpq.inputs i x _ hx hy).trans (hqr.inputs i _ z hy hz)

/-- A copy that advances keeps its shape. -/
theorem shaped (h : Advances p q) (hp : p.Shaped) : q.Shaped :=
  ⟨by rw [h.length_inputs, h.transaction, hp.length_inputs],
    by rw [h.length_outputs, h.transaction, hp.length_outputs]⟩

/-- Recording anything but a signature undoes nothing. -/
theorem record {index : Nat} {k : InputKey} (hk : k.isSignature = false) {v : k.Value}
    (h : p.record index k v = .ok q) : Advances p q := by
  obtain ⟨x, hx, hopen, rfl⟩ := record_eq_ok h
  refine ⟨rfl, by simp [setInput], rfl, fun i y z hy hz => ?_⟩
  rw [getElem?_inputs_setInput] at hz
  split at hz
  · next hi =>
    subst hi
    obtain rfl := Option.some.inj (hx.symm.trans hy)
    rw [hy, Option.map_some, Option.some.injEq] at hz
    rw [← hz]
    exact InputMap.advances_insert hopen hk v
  · obtain rfl := Option.some.inj (hy.symm.trans hz)
    exact .refl y

/-- Merging undoes nothing on either side. -/
theorem merge (hp : p.Shaped) (hq : q.Shaped) (h : Psbt.merge p q = .ok r) :
    Advances p r ∧ Advances q r := by
  obtain ⟨hc, rfl⟩ := (merge_eq_ok_iff hp hq).mp h
  have hmerged := merged_joined hp hq hc
  have hshaped := hmerged.shaped
  have hsides : ∀ (i : Nat) (z : InputMap), (joined p q).inputs[i]? = some z →
      ∃ x y : InputMap, p.inputs[i]? = some x ∧ q.inputs[i]? = some y := by
    intro i z hz
    obtain ⟨x, y, hx, hy, -⟩ := List.getElem?_zipWith_eq_some.mp hz
    exact ⟨x, y, hx, hy⟩
  refine ⟨⟨rfl, hshaped.length_inputs_eq hp rfl, hshaped.length_outputs_eq hp rfl,
      fun i x z hx hz => ?_⟩,
    ⟨hc.transaction, hshaped.length_inputs_eq hq hc.transaction,
      hshaped.length_outputs_eq hq hc.transaction, fun i y z hy hz => ?_⟩⟩
  · obtain ⟨-, y, -, hy⟩ := hsides i z hz
    exact (hmerged.inputs i x y z hx hy hz).advances_first
  · obtain ⟨x, -, hx, -⟩ := hsides i z hz
    exact (hmerged.inputs i x y z hx hy hz).advances_second

variable (scheme : SignatureScheme)

/-- Making all inputs final undoes nothing. -/
theorem finalize (p : Psbt) : Advances p (p.finalize scheme) := by
  rw [finalize_eq_dryRun]
  exact ⟨rfl, by simp [dryRun], rfl,
    pointwise_mapIdx fun i x _ => InputMap.advances_dryRunInput scheme p i x⟩

/-- Signing undoes nothing, whoever signs. -/
theorem sign {signer : Signer} {options : SignOptions} {complete : Bool}
    (h : p.sign scheme signer options = .ok (q, complete)) : Advances p q := by
  obtain ⟨-, working, -, -, -, committed, hcommit, rfl, -⟩ := sign_eq_ok_iff.mp h
  have hc := commitFrom_committed hcommit
  have hadvances : Advances p committed := by
    refine ⟨hc.transaction, hc.length, by rw [hc.outputs], fun i x y hx hy => ?_⟩
    rcases hc.inputs i x y hx hy with rfl | ⟨w, -, -, htaken⟩
    · exact .refl y
    · exact htaken.advances
  split
  · exact hadvances.trans (.finalize scheme committed)
  · exact hadvances

end Advances

end Psbt

/-! ## Runs -/

/-- **No operation undoes anything** on a shaped copy. -/
theorem Operation.advances {scheme : SignatureScheme} {p q : Psbt} {op : Operation} (hp : p.Shaped)
    (h : op.attempt scheme p = .ok q) : p.Advances q := by
  cases op with
  | setWitnessUtxo index output => exact .record rfl h
  | setNonWitnessUtxo index tx => exact .record rfl (Psbt.record_of_setNonWitnessUtxo h)
  | setRedeemScript index script => exact .record rfl h
  | setWitnessScript index script => exact .record rfl h
  | addDerivation index key source => exact .record rfl h
  | mergeSecond other => exact (Psbt.Advances.merge hp other.2.shaped h).1
  | mergeFirst other => exact (Psbt.Advances.merge other.2.shaped hp h).2
  | sign signer options =>
    cases hsign : p.sign scheme signer options with
    | error fault => simp [attempt, hsign, Except.map] at h
    | ok result =>
      obtain rfl : result.1 = q := by simpa [attempt, hsign, Except.map] using h
      exact .sign scheme hsign
  | finalize =>
    obtain rfl := Except.ok.inj h
    exact .finalize scheme p

/-- **What is held after signing** is what signing in place leaves, also where it fails. -/
theorem Operation.perform_sign (scheme : SignatureScheme) (p : Psbt) (signer : Signer)
    (options : SignOptions) :
    (Operation.sign signer options).perform scheme p =
      ((Psbt.signInPlace scheme signer options).exec ⟨p, []⟩).2.copy := by
  unfold perform attempt
  cases hsign : p.sign scheme signer options with
  | ok result => simp only [hsign, Except.map, Psbt.exec_of_sign_eq_ok hsign]
  | error fault => simp only [hsign, Except.map, Psbt.exec_of_sign_eq_error hsign]

namespace Psbt

/-- **Progress is never undone.** Whatever is done to a copy that was read, at every point of the
run the transaction is the same and there is one map for each input and one for each output. From
any point to any later one, final inputs stay final with the same final scripts, and the signatures
of open inputs stay until their input is final.

**Proof sketch.** Every operation advances a shaped copy, which leaves it shaped, and so does every
run. -/
theorem run_advances (scheme : SignatureScheme) {p : Psbt} (hp : p.Decoded)
    (ops later : List Operation) :
    (p.run scheme ops).transaction = p.transaction ∧ (p.run scheme ops).Shaped ∧
      Pointwise InputMap.Advances (p.run scheme ops).inputs
        (p.run scheme (ops ++ later)).inputs := by
  have hrun : ∀ {p : Psbt}, p.Shaped → ∀ ops : List Operation,
      p.Advances (p.run scheme ops) := by
    intro p hp ops
    refine run_induction (motive := p.Advances) (fun hq hr => ?_) (.refl p) ops
    exact hq.trans (Operation.advances (hq.shaped hp) hr)
  have hops := hrun hp.shaped ops
  rw [run_append]
  exact ⟨hops.transaction, hops.shaped hp.shaped, (hrun (hops.shaped hp.shaped) later).inputs⟩

/-- Signing, and an attempt at an input that does not exist. -/
def sampleRun : List Operation :=
  [.sign sampleSigner .default, .setRedeemScript 1 .empty]

/-- Merging with a final copy, and an attempt at its input. -/
def sampleLaterRun : List Operation :=
  [.mergeFirst ⟨finalAlone, decoded_finalAlone⟩, .setRedeemScript 0 .empty]

/-- The signature is there after the first part of the run; after the second part the input is
final. -/
theorem run_advances_sampleRun :
    openAsking.Decoded ∧ ∃ x y : InputMap,
      (openAsking.run Curve.secp256k1 sampleRun).inputs[0]? = some x ∧
      (openAsking.run Curve.secp256k1 (sampleRun ++ sampleLaterRun)).inputs[0]? = some y ∧
      x.get? (.partialSig sampleKey) = some sampleSignature ∧ InputMap.isFinal y = true ∧
      x.Advances y := by
  have hdecoded : openAsking.Decoded := @Decoded.of_ofBytes? _ openAsking.bytes rfl
  have h := run_advances Curve.secp256k1 hdecoded sampleRun sampleLaterRun
  exact ⟨hdecoded, _, _, rfl, rfl, by decide +kernel, by decide +kernel, h.2.2 0 _ _ rfl rfl⟩

end Psbt

end JointSpend
