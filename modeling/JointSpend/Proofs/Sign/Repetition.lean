import JointSpend.Proofs.Sign.Agreement
import JointSpend.Proofs.Spend.Independence

set_option autoImplicit false
set_option relaxedAutoImplicit false

/-!
# Signing again

A key store that has signed a copy has nothing to add to it. Its offers do not depend on the
signatures that are there, so those that were kept the first time are kept again and are there
already, and those that did not suffice do not suffice the second time. An input that became final
has lost its scripts, but is not asked for signatures any more.

## Main results

* `JointSpend.KeyStore.offers_eq_of_spendsAlike` — offers depend on what is asked for, and on what
  inputs spend.
* `JointSpend.KeyStore.keptOffers_withOffers` — with the offers that were kept, the same are kept.
* `JointSpend.KeyStore.withOffers_finalize` — neither does making inputs final change that.
* `JointSpend.KeyStore.sign_sign` — signing again changes nothing.
-/

namespace JointSpend.KeyStore

variable {scheme : SignatureScheme} {keys : List HeldKey} {options : SignOptions} {p q : Psbt}
  {index : Nat}

/-! ## Offers of copies that spend alike -/

/-- Offers are the same where the same is asked for in copies that spend alike. -/
theorem offers_eq_of_spendsAlike (h : Psbt.SpendsAlike p q)
    (hasked : asked options p index = asked options q index) :
    offers scheme keys options p index = offers scheme keys options q index := by
  have hecdsa : ecdsaOffer scheme p index = ecdsaOffer scheme q index := by
    funext path type key
    simp only [ecdsaOffer, h.ecdsaDigest_eq]
  have htaproot : taprootOffer scheme keys p index = taprootOffer scheme keys q index := by
    funext x outputKey
    simp only [taprootOffer, h.taprootDigest_eq]
  unfold offers
  rw [hasked, hecdsa, htaproot]

/-- Held keys are ready alike where the same is asked for in copies that spend alike. -/
private theorem ready_iff_of_spendsAlike (h : Psbt.SpendsAlike p q)
    (hasked : asked options p index = asked options q index) :
    Ready scheme keys options p index ↔ Ready scheme keys options q index := by
  unfold Ready
  rw [hasked]
  simp only [h.taprootDigest_eq]

/-- Where nothing is asked for, there is nothing to offer, and nothing hinders. -/
private theorem offers_of_asked_eq_none (h : asked options p index = none) :
    offers scheme keys options p index = [] ∧ Ready scheme keys options p index := by
  unfold offers Ready
  rw [h]
  exact ⟨rfl, trivial⟩

/-! ## A copy with the offers that were kept -/

/-- All offers, added to an input after those that were kept. -/
private theorem withOffers_keptOffers (scheme : SignatureScheme) (keys : List HeldKey)
    (options : SignOptions) (p : Psbt) (index : Nat) (x : InputMap) :
    InputMap.withOffers (offers scheme keys options p index)
        (InputMap.withOffers (keptOffers scheme keys options p index) x) =
      InputMap.withOffers (offers scheme keys options p index) x := by
  rcases @keptOffers_eq_or scheme keys options p index with h | h
  · rw [h, InputMap.withOffers_withOffers_self]
  · rw [h, InputMap.withOffers_nil]

/-- **With the offers that were kept, the same are kept.** -/
theorem keptOffers_withOffers (scheme : SignatureScheme) (keys : List HeldKey)
    (options : SignOptions) (p : Psbt) :
    keptOffers scheme keys options (p.withOffers (keptOffers scheme keys options p)) =
      keptOffers scheme keys options p := by
  have hall : (p.withOffers (keptOffers scheme keys options p)).withOffers
      (offers scheme keys options p) = p.withOffers (offers scheme keys options p) := by
    refine Psbt.ext_inputs rfl rfl rfl fun i => ?_
    simp only [Psbt.getElem?_inputs_withOffers, Option.map_map]
    exact congrArg (fun f => Option.map f p.inputs[i]?)
      (funext (withOffers_keptOffers scheme keys options p i))
  have hoffers : offers scheme keys options (p.withOffers (keptOffers scheme keys options p)) =
      offers scheme keys options p :=
    funext (offers_withOffers _ p)
  funext i
  rw [keptOffers, hoffers, hall]
  rfl

/-- A copy with the offers that were kept has them. -/
private theorem withOffers_keptOffers_self (scheme : SignatureScheme) (keys : List HeldKey)
    (options : SignOptions) (p : Psbt) :
    (p.withOffers (keptOffers scheme keys options p)).withOffers
        (keptOffers scheme keys options p) =
      p.withOffers (keptOffers scheme keys options p) := by
  refine Psbt.ext_inputs rfl rfl rfl fun i => ?_
  simp [Function.comp_def]

/-! ## A copy that was made final -/

/-- A final input is not asked for anything. -/
private theorem asked_of_isFinal {x : InputMap} (hx : p.inputs[index]? = some x)
    (hfinal : InputMap.isFinal x = true) : asked options p index = none := by
  unfold asked
  rw [hx]
  simp [hfinal]

/-- What is asked for when inputs have been made final: nothing where they are final, and otherwise
the same as before. -/
private theorem asked_finalize (scheme : SignatureScheme) (options : SignOptions) (p : Psbt)
    (index : Nat) :
    asked options (p.finalize scheme) index = none ∨
      (p.finalize scheme).inputs[index]? = p.inputs[index]? ∧
        asked options (p.finalize scheme) index = asked options p index := by
  have hz := Psbt.getElem?_inputs_finalize scheme p index
  cases hy : p.inputs[index]? with
  | none =>
    rw [hy, Option.map_none] at hz
    exact .inl (asked_of_length_le (List.getElem?_eq_none_iff.mp hz))
  | some y =>
    rw [hy, Option.map_some] at hz
    cases hfinal : InputMap.isFinal (Psbt.dryRunInput y (p.outcome scheme index y)) with
    | true => exact .inl (asked_of_isFinal hz hfinal)
    | false =>
      rw [Psbt.dryRunInput_of_open hfinal] at hz
      have hpath := Psbt.spendsAlike_finalize.spendPath_eq (hy.trans hz.symm)
      refine .inr ⟨hz, ?_⟩
      unfold asked
      rw [hz, hy, hpath]

/-- What is kept when inputs have been made final: nothing where nothing is asked for, and otherwise
the same as before. -/
private theorem keptOffers_finalize {p : Psbt}
    (hasked : asked options (p.finalize scheme) index = asked options p index)
    (hsame : (p.finalize scheme).inputs[index]? = p.inputs[index]?) :
    keptOffers scheme keys options (p.finalize scheme) index =
      keptOffers scheme keys options p index := by
  have halike : Psbt.SpendsAlike p (p.finalize scheme) := Psbt.spendsAlike_finalize
  have hoffers : offers scheme keys options (p.finalize scheme) index =
      offers scheme keys options p index :=
    (offers_eq_of_spendsAlike halike hasked.symm).symm
  have hfinal : ((p.finalize scheme).withOffers
      (offers scheme keys options (p.finalize scheme))).finalizeInput scheme index =
        (p.withOffers (offers scheme keys options p)).finalizeInput scheme index := by
    refine ((spendsAlike_withOffers _ _).symm.trans
      (halike.symm.trans (spendsAlike_withOffers _ _))).finalizeInput_eq ?_
    simp [hsame, hoffers]
  unfold keptOffers
  rw [hoffers, hfinal]

/-- Who can sign a copy can sign it when inputs have been made final. -/
theorem CanSign.finalize {store : KeyStore} (h : CanSign scheme options store p) :
    CanSign scheme options store (p.finalize scheme) where
  scope := by
    have hlength : (p.finalize scheme).inputs.length = p.inputs.length :=
      Psbt.spendsAlike_finalize.length.symm
    rw [hlength]
    exact h.scope
  keys := h.keys
  ready := fun i => by
    rcases asked_finalize scheme options p i with hnone | ⟨-, hasked⟩
    · exact (offers_of_asked_eq_none hnone).2
    · exact (ready_iff_of_spendsAlike Psbt.spendsAlike_finalize hasked.symm).mp (h.ready i)

/-- A copy that has all that is kept has it when inputs have been made final. -/
theorem withOffers_finalize (h : p.withOffers (keptOffers scheme keys options p) = p) :
    (p.finalize scheme).withOffers (keptOffers scheme keys options (p.finalize scheme)) =
      p.finalize scheme := by
  refine Psbt.ext_inputs rfl rfl rfl fun i => ?_
  rw [Psbt.getElem?_inputs_withOffers]
  rcases asked_finalize scheme options p i with hnone | ⟨hsame, hasked⟩
  · have hkept : keptOffers scheme keys options (p.finalize scheme) i = [] := by
      rcases @keptOffers_eq_or scheme keys options (p.finalize scheme) i with h | h
      · rw [h, (offers_of_asked_eq_none hnone).1]
      · exact h
    rw [hkept]
    exact congrFun Option.map_id _
  · rw [keptOffers_finalize hasked hsame, hsame, ← Psbt.getElem?_inputs_withOffers, h]

/-! ## Signing again -/

/-- **Signing again changes nothing**, whatever the options are. If a key store signs a copy, it
signs the copy that comes of it, and what comes of that is the same copy, with the same answer to
whether it is complete.

**Proof sketch.** The copy that was signed has the offers that were kept, and with them the same
are kept. Where inputs were made final after that, they are not asked for anything, and for those
that are still open everything is as it was. -/
theorem sign_sign {store : KeyStore} {complete : Bool} (hp : p.Decoded)
    (h : p.sign scheme (store.signer scheme) options = .ok (q, complete)) :
    q.sign scheme (store.signer scheme) options = .ok (q, complete) := by
  obtain ⟨hcan, hq, hcomplete⟩ := (sign_eq_ok_iff_kept hp.shaped).mp h
  have hsigned : (p.withOffers (keptOffers scheme (store.held scheme) options p)).Shaped :=
    hp.shaped.withOffers _
  have hcan' := hcan.withOffers (keptOffers scheme (store.held scheme) options p)
  have hkept : (p.withOffers (keptOffers scheme (store.held scheme) options p)).withOffers
      (keptOffers scheme (store.held scheme) options
        (p.withOffers (keptOffers scheme (store.held scheme) options p))) =
          p.withOffers (keptOffers scheme (store.held scheme) options p) := by
    rw [keptOffers_withOffers, withOffers_keptOffers_self]
  cases hfinalize : options.finalize with
  | false =>
    rw [hfinalize, if_neg Bool.false_ne_true] at hq
    subst hq
    refine (sign_eq_ok_iff_kept hsigned).mpr ⟨hcan', ?_, hcomplete⟩
    rw [hfinalize, if_neg Bool.false_ne_true, hkept]
  | true =>
    rw [hfinalize, if_pos rfl] at hq
    subst hq
    refine (sign_eq_ok_iff_kept hsigned.finalize).mpr ⟨hcan'.finalize, ?_, hcomplete⟩
    rw [hfinalize, if_pos rfl, withOffers_finalize hkept, Psbt.finalize_finalize]

/-- A key store with both keys signs the sample copy, and its input is made final. A key store with
one of them signs it where partial signatures are not allowed. Neither has anything to add. -/
theorem sign_sign_sample :
    (∃ q complete,
      sampleShared.sign sampleTable
          (KeyStore.signer sampleTable ⟨[sampleKey true, sampleKey false]⟩)
          { SignOptions.default with finalize := true } = .ok (q, complete) ∧
        q.sign sampleTable (KeyStore.signer sampleTable ⟨[sampleKey true, sampleKey false]⟩)
          { SignOptions.default with finalize := true } = .ok (q, complete)) ∧
    ∃ q complete,
      sampleShared.sign sampleTable (KeyStore.signer sampleTable ⟨[sampleKey false]⟩)
          { SignOptions.default with allowPartial := false } = .ok (q, complete) ∧
        q.sign sampleTable (KeyStore.signer sampleTable ⟨[sampleKey false]⟩)
          { SignOptions.default with allowPartial := false } = .ok (q, complete) := by
  have hcan : ∀ {store : KeyStore} (finalize allowPartial : Bool), store.keys ≠ [] →
      CanSign sampleTable ⟨.all, finalize, allowPartial, .all⟩ store sampleShared :=
    fun _ _ hkeys => ⟨rfl, hkeys, (sampleShared_canSign hkeys).ready⟩
  have hboth := (sign_eq_ok_iff_kept sampleShared_decoded.shaped).mpr
    ⟨hcan true true (List.cons_ne_nil (sampleKey true) [sampleKey false]), rfl, rfl⟩
  have hone := (sign_eq_ok_iff_kept sampleShared_decoded.shaped).mpr
    ⟨hcan false false (List.cons_ne_nil (sampleKey false) []), rfl, rfl⟩
  exact ⟨⟨_, _, hboth, sign_sign sampleShared_decoded hboth⟩,
    _, _, hone, sign_sign sampleShared_decoded hone⟩

end JointSpend.KeyStore
