import JointSpend.Proofs.Sign.Offers
import JointSpend.Proofs.Sign.Taking

set_option autoImplicit false
set_option relaxedAutoImplicit false

/-!
# What a key store signs

A key store that signs adds offers to the inputs, and nothing else. Which offers these are does not
depend on the signatures that are there already, and a key store that can sign a copy can sign it
with more signatures.

## Main definitions

* `JointSpend.KeyStore.asked` — what an input asks a signer for.
* `JointSpend.KeyStore.offers` — the signatures that held keys have to offer for an input.
* `JointSpend.KeyStore.Ready`, `JointSpend.KeyStore.CanSign` — nothing hinders the held keys from
  signing an input, or all of them.
* `JointSpend.KeyStore.keptOffers` — the offers for an input that are kept.

## Main results

* `JointSpend.KeyStore.signInput_eq_ok_iff` — one input.
* `JointSpend.KeyStore.signer_eq_ok_iff` — the signer adds the offers for all inputs.
* `JointSpend.KeyStore.sign_eq_ok_iff_kept` — those that are kept are taken over.
-/

namespace JointSpend.KeyStore

variable (scheme : SignatureScheme) (keys : List HeldKey) (options : SignOptions)

/-! ## Offers of held keys -/

/-- What an input asks a signer for: it is open and to be signed, and its path has a known form. -/
structure Task where
  input : InputMap
  path : SpendPath
  template : Template

/-- What an input asks a signer for, if anything. -/
def asked (p : Psbt) (index : Nat) : Option Task :=
  match p.inputs[index]? with
  | none => none
  | some input =>
    if !options.scope.contains index || InputMap.isFinal input then none
    else
      match p.spendPath index with
      | .error _ => none
      | .ok path => path.template?.map (⟨input, path, ·⟩)

/-- The signature that a held key has to offer, if the path accepts the key. -/
def ecdsaOffer (p : Psbt) (index : Nat) (path : SpendPath) (type : SighashType)
    (key : HeldKey) : List Offer :=
  if path.accepts key.publicKey then
    match p.ecdsaDigest index path type with
    | .ok digest =>
      [.partialSig key.publicKey ⟨scheme.ecdsaSign key.privateKey.secret digest, type⟩]
    | .error _ => []
  else []

/-- The secret key of an output key, if the output key is derived from a held key. -/
def outputSecret? (input : InputMap) (outputKey : Curve.XOnly) : Option Curve.SecretKey := do
  let internalKey ← input.get? .tapInternalKey
  let held ← keys.find? fun held => held.publicKey.point.xOnly = internalKey
  let tweaked := scheme.taprootTweak held.privateKey.secret (input.get? .tapMerkleRoot)
  if (scheme.point tweaked).xOnly = outputKey then some tweaked else none

/-- The signature under an output key, if there is a key and a digest to sign. -/
def taprootOffer (p : Psbt) (index : Nat) (input : InputMap) (outputKey : Curve.XOnly) :
    List Offer :=
  match outputSecret? scheme keys input outputKey, p.taprootDigest index .default with
  | some secret, .ok digest => [.tapKeySig ⟨scheme.schnorrSign secret digest, .default⟩]
  | _, _ => []

/-- The signatures that held keys have to offer for an input, also where it has been signed. -/
def offers (p : Psbt) (index : Nat) : List Offer :=
  match asked options p index with
  | none => []
  | some ⟨input, _, .taprootKey outputKey⟩ => taprootOffer scheme keys p index input outputKey
  | some ⟨input, path, template⟩ =>
    match sighashFor options index input with
    | .error _ => []
    | .ok type => (signingKeys keys template).flatMap (ecdsaOffer scheme p index path type)

/-- Nothing hinders the held keys from signing an input: what it says about the sighash type can be
followed, and if a taproot signature is missing and a key for it is held, there is a digest. -/
def Ready (p : Psbt) (index : Nat) : Prop :=
  match asked options p index with
  | none => True
  | some ⟨input, _, .taprootKey outputKey⟩ =>
    input.get? .tapKeySig = none → outputSecret? scheme keys input outputKey ≠ none →
      ∃ digest, p.taprootDigest index .default = .ok digest
  | some ⟨input, _, _⟩ => ∃ type, sighashFor options index input = .ok type

variable {scheme keys options} {p q : Psbt} {index : Nat}

/-! ## Offers and signatures that are there -/

/-- An input asks for the same with more signatures. -/
private theorem asked_withOffers (os : Nat → List Offer) (p : Psbt) (index : Nat) :
    asked options (p.withOffers os) index = (asked options p index).map fun task =>
      { task with input := InputMap.withOffers (os index) task.input } := by
  unfold asked
  rw [Psbt.getElem?_inputs_withOffers, Psbt.spendPath_withOffers]
  cases p.inputs[index]? with
  | none => rfl
  | some x =>
    simp only [Option.map_some, InputMap.isFinal_withOffers]
    split
    · rfl
    · cases p.spendPath index with
      | error _ => rfl
      | ok path =>
        simp only [Option.map_map]
        rfl

private theorem sighashFor_withOffers (os : List Offer) (x : InputMap) :
    sighashFor options index (InputMap.withOffers os x) = sighashFor options index x := by
  have h : (InputMap.withOffers os x).get? .sighashType = x.get? .sighashType :=
    InputMap.get?_withOffers_of_not rfl os x
  unfold sighashFor
  rw [h]

private theorem outputSecret?_withOffers (os : List Offer) (x : InputMap)
    (outputKey : Curve.XOnly) :
    outputSecret? scheme keys (InputMap.withOffers os x) outputKey =
      outputSecret? scheme keys x outputKey := by
  have hkey : (InputMap.withOffers os x).get? .tapInternalKey = x.get? .tapInternalKey :=
    InputMap.get?_withOffers_of_not rfl os x
  have hroot : (InputMap.withOffers os x).get? .tapMerkleRoot = x.get? .tapMerkleRoot :=
    InputMap.get?_withOffers_of_not rfl os x
  unfold outputSecret?
  rw [hkey, hroot]

/-- **The offers do not depend on the signatures that are there.** -/
theorem offers_withOffers (os : Nat → List Offer) (p : Psbt) (index : Nat) :
    offers scheme keys options (p.withOffers os) index = offers scheme keys options p index := by
  unfold offers
  rw [asked_withOffers]
  cases asked options p index with
  | none => rfl
  | some task =>
    obtain ⟨x, path, template⟩ := task
    have htaproot : ∀ outputKey,
        taprootOffer scheme keys (p.withOffers os) index (InputMap.withOffers (os index) x)
          outputKey = taprootOffer scheme keys p index x outputKey := by
      intro outputKey
      unfold taprootOffer
      rw [outputSecret?_withOffers, Psbt.taprootDigest_withOffers]
    cases template with
    | taprootKey outputKey => exact htaproot outputKey
    | pubkeyHash hash => simp only [Option.map_some, sighashFor_withOffers]; rfl
    | pubkey key => simp only [Option.map_some, sighashFor_withOffers]; rfl
    | multisig threshold wanted => simp only [Option.map_some, sighashFor_withOffers]; rfl

/-- Whoever can sign an input can sign it with more signatures; and without, if none of them are
for this input. -/
private theorem ready_withOffers_iff (os : Nat → List Offer) (h : os index = []) :
    Ready scheme keys options (p.withOffers os) index ↔ Ready scheme keys options p index := by
  unfold Ready
  rw [asked_withOffers, h]
  cases asked options p index with
  | none => rfl
  | some task => simp

theorem Ready.withOffers (hp : Ready scheme keys options p index) (os : Nat → List Offer) :
    Ready scheme keys options (p.withOffers os) index := by
  unfold Ready at hp ⊢
  rw [asked_withOffers]
  cases hasked : asked options p index with
  | none => trivial
  | some task =>
    rw [hasked] at hp
    obtain ⟨x, path, template⟩ := task
    cases template with
    | taprootKey outputKey =>
      simp only [Option.map_some, outputSecret?_withOffers, Psbt.taprootDigest_withOffers] at hp ⊢
      intro hfree
      rw [InputMap.get?_withOffers, Option.or_eq_none_iff] at hfree
      exact hp hfree.1
    | pubkeyHash hash => simpa only [Option.map_some, sighashFor_withOffers] using hp
    | pubkey key => simpa only [Option.map_some, sighashFor_withOffers] using hp
    | multisig threshold wanted => simpa only [Option.map_some, sighashFor_withOffers] using hp

/-! ## One input -/

/-- What asks for something is an open input that is to be signed. -/
theorem asked_eq_some {task : Task} (h : asked options p index = some task) :
    p.inputs[index]? = some task.input ∧ options.scope.contains index = true ∧
      InputMap.isFinal task.input = false ∧ p.spendPath index = .ok task.path ∧
      task.path.template? = some task.template := by
  unfold asked at h
  split at h
  · simp at h
  · next x hx =>
    split at h
    · simp at h
    · next hskip =>
      split at h
      · simp at h
      · next path hpath =>
        obtain ⟨template, htemplate, rfl⟩ := Option.map_eq_some_iff.mp h
        simp only [Bool.or_eq_true, Bool.not_eq_true', not_or, Bool.not_eq_true,
          Bool.not_eq_false] at hskip
        exact ⟨hx, hskip.1, hskip.2, hpath, htemplate⟩

/-- Offers go to open inputs that are to be signed. -/
theorem offers_eq_nil {x : InputMap} (hx : p.inputs[index]? = some x)
    (h : options.scope.contains index = false ∨ InputMap.isFinal x = true) :
    offers scheme keys options p index = [] := by
  unfold offers asked
  rw [hx]
  rcases h with h | h <;> simp [h]

/-- There is an ECDSA digest for every input of a shaped copy whose path has another form than a
taproot output. -/
theorem exists_ecdsaDigest (hp : p.Shaped) {task : Task} (h : asked options p index = some task)
    (hform : ∀ outputKey, task.template ≠ .taprootKey outputKey) (type : SighashType) :
    ∃ digest, p.ecdsaDigest index task.path type = .ok digest := by
  obtain ⟨hx, -, -, -, htemplate⟩ := asked_eq_some h
  have hlt : index < p.transaction.inputs.length := by
    rw [← hp.length_inputs]
    exact (List.getElem?_eq_some_iff.mp hx).1
  unfold Psbt.ecdsaDigest
  dsimp only
  split
  · next hnone => exact absurd hlt (by simpa using hnone)
  · split
    · exact ⟨_, rfl⟩
    · exact ⟨_, rfl⟩
    · next htaproot =>
      rw [SpendPath.template?, htaproot] at htemplate
      obtain ⟨outputKey, -, heq⟩ := Option.map_eq_some_iff.mp htemplate
      exact absurd heq.symm (hform outputKey)

/-- **Signing with one key** adds its offer. -/
theorem signWith_eq {path : SpendPath} {type : SighashType} {digest : Digest}
    (hdigest : p.ecdsaDigest index path type = .ok digest) (key : HeldKey) :
    signWith scheme index path type p key =
      .ok (p.withOffers (Psbt.offersFor index (ecdsaOffer scheme p index path type key))) := by
  unfold signWith ecdsaOffer
  rw [hdigest]
  cases hx : p.inputs[index]? with
  | none =>
    -- there is a digest, but no input: nothing is done, and offers come to nothing
    have hsame : ∀ os, p.withOffers (Psbt.offersFor index os) = p := by
      refine fun os => Psbt.withOffers_eq_self fun i x hi => ?_
      rw [Psbt.offersFor, if_neg]
      rintro rfl
      simp [hx] at hi
    simp [hsame]
  | some x =>
    cases haccepts : path.accepts key.publicKey with
    | false => simp
    | true =>
      cases htaken : x.contains (.partialSig key.publicKey) with
      | true =>
        simp only [htaken, Bool.or_true, if_true]
        rw [← Psbt.setInput_withOffers hx, InputMap.withOffers_of_taken (by simpa using htaken),
          Psbt.setInput_self hx]
      | false =>
        simp only [htaken, Bool.not_true, Bool.or_self, Bool.false_eq_true, if_false, if_true]
        rw [← Psbt.setInput_withOffers hx, InputMap.withOffers_singleton (by simpa using htaken)]
        rfl

/-- Signing with several keys adds their offers. -/
private theorem foldlM_signWith_eq {path : SpendPath} {type : SighashType} {digest : Digest}
    (hdigest : p.ecdsaDigest index path type = .ok digest) (held : List HeldKey) :
    held.foldlM (signWith scheme index path type) p =
      .ok (p.withOffers (Psbt.offersFor index
        (held.flatMap (ecdsaOffer scheme p index path type)))) := by
  induction held generalizing p with
  | nil =>
    rw [List.flatMap_nil, Psbt.withOffers_offersFor_nil]
    rfl
  | cons key held ih =>
    rw [List.foldlM_cons, signWith_eq hdigest]
    refine (ih (p := p.withOffers _) hdigest).trans ?_
    rw [Psbt.withOffers_offersFor_append]
    rfl

/-- **Signing with the secret of an output key** succeeds unless there is something to sign with, a
free place, and no digest. It adds the offer. -/
theorem signTaproot_eq_ok_iff {x : InputMap} (hx : p.inputs[index]? = some x)
    {outputKey : Curve.XOnly} :
    signTaproot scheme keys index x outputKey p = .ok q ↔
      (x.get? .tapKeySig = none → outputSecret? scheme keys x outputKey ≠ none →
        ∃ digest, p.taprootDigest index .default = .ok digest) ∧
      q = p.withOffers (Psbt.offersFor index (taprootOffer scheme keys p index x outputKey)) := by
  cases hsig : x.get? .tapKeySig with
  | some sig =>
    have htaken : ∀ offer ∈ taprootOffer scheme keys p index x outputKey,
        x.contains offer.1.1 = true := by
      intro offer hmem
      unfold taprootOffer at hmem
      split at hmem
      · rw [List.mem_singleton.mp hmem, Offer.tapKeySig_val, RecordMap.contains_eq_isSome, hsig]
        rfl
      · simp at hmem
    rw [← Psbt.setInput_withOffers hx, InputMap.withOffers_of_taken htaken, Psbt.setInput_self hx]
    simp [signTaproot, hsig, eq_comm]
  | none =>
    have hfree : x.contains .tapKeySig = false := by
      rw [RecordMap.contains_eq_isSome, hsig]
      rfl
    unfold signTaproot taprootOffer outputSecret?
    rw [hsig]
    cases hkey : x.get? .tapInternalKey with
    | none => simp [eq_comm]
    | some internalKey =>
      simp only [Option.bind_eq_bind, Option.bind_some]
      cases hheld : keys.find? fun held => held.publicKey.point.xOnly = internalKey with
      | none => simp [eq_comm]
      | some held =>
        simp only [Option.bind_some]
        split
        · simp [eq_comm]
        · next heq =>
          rw [not_not] at heq
          cases hdigest : p.taprootDigest index .default with
          | error fault => simp [heq]
          | ok digest =>
            simp only [heq, if_true]
            rw [← Psbt.setInput_withOffers hx, InputMap.withOffers_singleton (by simpa using hfree)]
            simp [eq_comm]

/-- An input that asks for nothing is left alone. -/
private theorem signInput_of_asked_eq_none (hasked : asked options p index = none) :
    signInput scheme keys options p index = .ok p := by
  unfold asked at hasked
  unfold signInput
  split
  · rfl
  · next x hx =>
    split
    · rfl
    · next hopen =>
      rw [hx] at hasked
      simp only [hopen, Bool.false_eq_true, if_false] at hasked
      split
      · rfl
      · next path hpath =>
        rw [hpath] at hasked
        rw [Option.map_eq_none_iff.mp hasked]

/-- **Signing an input** succeeds exactly where the held keys are ready, and adds their offers. -/
theorem signInput_eq_ok_iff (hp : p.Shaped) :
    signInput scheme keys options p index = .ok q ↔
      Ready scheme keys options p index ∧
      q = p.withOffers (Psbt.offersFor index (offers scheme keys options p index)) := by
  cases hasked : asked options p index with
  | none =>
    rw [signInput_of_asked_eq_none hasked]
    unfold Ready offers
    simp [hasked, eq_comm]
  | some task =>
    obtain ⟨hx, hscope, hopen, hpath, htemplate⟩ := asked_eq_some hasked
    have hdigest := exists_ecdsaDigest hp hasked
    obtain ⟨x, path, template⟩ := task
    simp only at hx hopen hpath htemplate hdigest
    have hecdsa : (∀ outputKey, template ≠ .taprootKey outputKey) →
        ((do
          let type ← sighashFor options index x
          (signingKeys keys template).foldlM (signWith scheme index path type) p) = .ok q ↔
        (∃ type, sighashFor options index x = .ok type) ∧
          q = p.withOffers (Psbt.offersFor index
            (match sighashFor options index x with
              | .error _ => []
              | .ok type =>
                (signingKeys keys template).flatMap (ecdsaOffer scheme p index path type)))) := by
      intro hform
      cases htype : sighashFor options index x with
      | error fault => simp [bind, Except.bind]
      | ok type =>
        obtain ⟨digest, hdigest⟩ := hdigest hform type
        have hfold := @foldlM_signWith_eq scheme p index path type digest hdigest
          (signingKeys keys template)
        simp [bind, Except.bind, hfold, eq_comm]
    unfold Ready offers signInput
    simp only [hx, hscope, hopen, hpath, htemplate, hasked, Bool.not_true, Bool.or_self,
      Bool.false_eq_true, if_false]
    cases template with
    | taprootKey outputKey => exact signTaproot_eq_ok_iff hx
    | pubkeyHash hash => exact hecdsa (by simp)
    | pubkey key => exact hecdsa (by simp)
    | multisig threshold wanted => exact hecdsa (by simp)

/-! ## All inputs -/

/-- There is nothing to offer for inputs that there are not. -/
theorem asked_of_length_le (h : p.inputs.length ≤ index) : asked options p index = none := by
  unfold asked
  rw [List.getElem?_eq_none h]

/-- **The offers for the first of several inputs, then those for the others**, are the offers for all
of them: what is added for one input does not matter for the others. -/
theorem withOffers_cons {i : Nat} {indexes : List Nat} (hi : i ∉ indexes) :
    ((p.withOffers (Psbt.offersFor i (offers scheme keys options p i))).withOffers fun j =>
        if j ∈ indexes then
          offers scheme keys options
            (p.withOffers (Psbt.offersFor i (offers scheme keys options p i))) j
        else []) =
      p.withOffers fun j => if j ∈ i :: indexes then offers scheme keys options p j else [] := by
  simp only [Psbt.withOffers_withOffers, offers_withOffers]
  congr 1
  funext j
  unfold Psbt.offersFor
  by_cases hj : j = i
  · subst hj
    simp [hi]
  · simp [hj]

/-- Signing several inputs succeeds exactly where the held keys are ready for each of them, and adds
the offers for them. -/
private theorem foldlM_signInput_eq_ok_iff (hp : p.Shaped) {indexes : List Nat}
    (hnodup : indexes.Nodup) :
    indexes.foldlM (signInput scheme keys options) p = .ok q ↔
      (∀ i ∈ indexes, Ready scheme keys options p i) ∧
      q = p.withOffers fun i => if i ∈ indexes then offers scheme keys options p i else [] := by
  induction indexes generalizing p with
  | nil =>
    have hnone : (p.withOffers fun _ => []) = p := Psbt.withOffers_eq_self fun _ _ _ => rfl
    simp [hnone, pure, Except.pure, eq_comm]
  | cons i indexes ih =>
    rw [List.nodup_cons] at hnodup
    have hready : ∀ os, (∀ j ∈ indexes,
        Ready scheme keys options (p.withOffers (Psbt.offersFor i os)) j) ↔
          ∀ j ∈ indexes, Ready scheme keys options p j := by
      intro os
      refine forall₂_congr fun j hj => ready_withOffers_iff _ ?_
      rw [Psbt.offersFor, if_neg]
      rintro rfl
      exact hnodup.1 hj
    rw [List.foldlM_cons, Steps.bind_eq_ok_iff]
    constructor
    · rintro ⟨p', hp', hrest⟩
      obtain ⟨hi, rfl⟩ := (signInput_eq_ok_iff hp).mp hp'
      obtain ⟨hall, rfl⟩ := (ih (hp.withOffers _) hnodup.2).mp hrest
      exact ⟨List.forall_mem_cons.mpr ⟨hi, (hready _).mp hall⟩, withOffers_cons hnodup.1⟩
    · rintro ⟨hall, rfl⟩
      obtain ⟨hi, hall⟩ := List.forall_mem_cons.mp hall
      refine ⟨_, (signInput_eq_ok_iff hp).mpr ⟨hi, rfl⟩, ?_⟩
      exact (ih (hp.withOffers _) hnodup.2).mpr
        ⟨(hready _).mpr hall, (withOffers_cons hnodup.1).symm⟩

/-- **What the signer of a key store does.** It succeeds exactly if it holds keys and they are ready
for every input, and adds the offers for all inputs. -/
theorem signer_eq_ok_iff {store : KeyStore} (hp : p.Shaped) :
    store.signer scheme p options = .ok q ↔
      store.keys ≠ [] ∧ (∀ i, Ready scheme (store.held scheme) options p i) ∧
      q = p.withOffers (offers scheme (store.held scheme) options p) := by
  have hready : (∀ i ∈ List.range p.inputs.length,
      Ready scheme (store.held scheme) options p i) ↔
        ∀ i, Ready scheme (store.held scheme) options p i := by
    refine ⟨fun h i => ?_, fun h i _ => h i⟩
    by_cases hi : i < p.inputs.length
    · exact h i (List.mem_range.mpr hi)
    · unfold Ready
      rw [asked_of_length_le (by omega)]
      trivial
  have hoffers : (fun i => if i ∈ List.range p.inputs.length then
      offers scheme (store.held scheme) options p i else []) =
        offers scheme (store.held scheme) options p := by
    funext i
    by_cases hi : i < p.inputs.length
    · rw [if_pos (List.mem_range.mpr hi)]
    · rw [if_neg (by simpa using hi), offers, asked_of_length_le (by omega)]
  unfold signer
  rw [← hready, ← hoffers]
  cases hkeys : store.keys with
  | nil => simp
  | cons key rest =>
    simp only [List.isEmpty_cons, Bool.false_eq_true, if_false, ne_eq, reduceCtorEq,
      not_false_eq_true, true_and]
    exact foldlM_signInput_eq_ok_iff hp List.nodup_range

/-! ## Taking over the offers -/

/-- Offers change nothing about what inputs spend. -/
theorem spendsAlike_withOffers (os : Nat → List Offer) (p : Psbt) :
    Psbt.SpendsAlike p (p.withOffers os) :=
  ⟨rfl, by simp, fun i => (Psbt.spentOutput?_withOffers os p i).symm⟩

/-- Offers that are found in a signer's copy, and are not there yet, count as new signatures. -/
private theorem taken_of_count {x : InputMap} {os : List Offer}
    (h : InputMap.countNewSignatures x (InputMap.withOffers os x) = 0) :
    ∀ offer ∈ os, x.contains offer.1.1 = true := by
  intro offer hmem
  by_contra hfree
  rw [Bool.not_eq_true] at hfree
  obtain ⟨⟨k, v⟩, hk⟩ := offer
  have hnone : x.get? k = none := by simpa [RecordMap.contains_eq_isSome] using hfree
  obtain ⟨w, hw⟩ := Offer.exists_lookup_of_mem hmem
  have hentry : ⟨k, w⟩ ∈ ((InputMap.withOffers os x).filter InputKey.isSignature).entries := by
    rw [RecordMap.mem_entries_iff, RecordMap.get?_filter, if_pos hk, InputMap.get?_withOffers,
      hnone, hw]
    rfl
  have hcount := List.countP_eq_zero.mp h _ hentry
  simp [hfree] at hcount

/-- Offers bring no origins of keys. -/
private theorem unite_origins_withOffers (os : List Offer) (x : InputMap) :
    InputMap.unite InputKey.isOrigin index x (InputMap.withOffers os x) = .ok x := by
  have hsame : ∀ k, InputKey.isOrigin k = true →
      (InputMap.withOffers os x).get? k = x.get? k := by
    intro k hk
    apply InputMap.get?_withOffers_of_not
    cases k <;> simp [InputKey.isOrigin, InputKey.isSignature] at hk ⊢
  have hknown : x.fill InputKey.isOrigin (InputMap.withOffers os x) = x := by
    apply RecordMap.ext_get?
    intro k
    rw [RecordMap.get?_fill]
    split
    · next hk => rw [hsame k hk, Option.or_self]
    · rw [Option.or_none]
  refine InputMap.unite_eq_ok_iff.mpr ⟨fun k hk v w hv hw => ?_, hknown.symm⟩
  rw [hsame k hk, hv] at hw
  exact Option.some.inj hw

/-- The signatures that are taken over are the offers. -/
private theorem commitSignatures_withOffers (os : List Offer) {x : InputMap}
    (hopen : InputMap.isFinal x = false) :
    InputMap.commitSignatures x (InputMap.withOffers os x) =
      (InputMap.withOffers os x,
        InputMap.countNewSignatures x (InputMap.withOffers os x) != 0) := by
  have hsigned : x.fill InputKey.isSignature (InputMap.withOffers os x) =
      InputMap.withOffers os x := by
    apply RecordMap.ext_get?
    intro k
    rw [RecordMap.get?_fill, InputMap.get?_withOffers]
    split
    · rw [← Option.or_assoc, Option.or_self]
    · next hk => rw [Offer.lookup_eq_none (by simpa using hk)]
  rw [InputMap.commitSignatures, InputMap.isFinal_withOffers, hopen, hsigned]
  rfl

variable (scheme keys options) in
/-- The offers for an input that are kept: all of them, if partial signatures are allowed or with
these signatures the input can be made final, and otherwise none. -/
def keptOffers (p : Psbt) (index : Nat) : List Offer :=
  if options.allowPartial || ((p.withOffers (offers scheme keys options p)).finalizeInput scheme
    index).toBool then offers scheme keys options p index
  else []

/-- Offers that are kept are offers. -/
theorem keptOffers_eq_or (p : Psbt) (index : Nat) :
    keptOffers scheme keys options p index = offers scheme keys options p index ∨
      keptOffers scheme keys options p index = [] := by
  unfold keptOffers
  split
  · exact .inl rfl
  · exact .inr rfl

/-- **Taking over offers for an input** adds those that are kept. -/
theorem takenInput_withOffers {x : InputMap} (hx : p.inputs[index]? = some x) :
    Psbt.takenInput scheme options p index x
        (InputMap.withOffers (offers scheme keys options p index) x) =
      InputMap.withOffers (keptOffers scheme keys options p index) x := by
  by_cases hskip : InputMap.isFinal x = true ∨ options.scope.contains index = false
  · have hnone : offers scheme keys options p index = [] := offers_eq_nil hx hskip.symm
    rw [Psbt.takenInput_of_skipped hskip]
    rcases @keptOffers_eq_or scheme keys options p index with h | h <;> simp [h, hnone]
  · rw [not_or, Bool.not_eq_true, Bool.not_eq_false] at hskip
    have hknown : x.fill InputKey.isOrigin
        (InputMap.withOffers (offers scheme keys options p index) x) = x :=
      (InputMap.unite_eq_ok_iff.mp (@unite_origins_withOffers index _ x)).2.symm
    -- whether signatures suffice does not depend on the offers for other inputs
    have hfinal : (p.setInput index (InputMap.withOffers (offers scheme keys options p index)
        x)).finalizeInput scheme index =
          (p.withOffers (offers scheme keys options p)).finalizeInput scheme index := by
      rw [Psbt.setInput_withOffers hx]
      refine ((spendsAlike_withOffers _ p).symm.trans
        (spendsAlike_withOffers _ p)).finalizeInput_eq ?_
      simp [hx, Psbt.offersFor]
    unfold Psbt.takenInput keptOffers
    rw [if_neg (by simp [hskip])]
    dsimp only
    rw [hknown, commitSignatures_withOffers _ hskip.1, InputMap.isFinal_withOffers, hskip.1,
      Bool.or_false, hfinal]
    cases hnew : InputMap.countNewSignatures x
        (InputMap.withOffers (offers scheme keys options p index) x) != 0 with
    | false =>
      have htaken := InputMap.withOffers_of_taken (taken_of_count (by simpa using hnew))
      rw [Bool.false_and, if_neg Bool.false_ne_true]
      split
      · exact htaken.symm
      · rfl
    | true =>
      rw [Bool.true_and]
      split <;> rfl

/-- Offers bring no origins of keys, so inputs with offers can be taken over. -/
private theorem admitsFrom_withOffers (os : Nat → List Offer) (p : Psbt) :
    Psbt.AdmitsFrom options 0 (p.withOffers os).inputs p := by
  intro i x w hx hw _ _
  rw [Nat.zero_add] at hx
  rw [Psbt.getElem?_inputs_withOffers, hx, Option.map_some, Option.some.injEq] at hw
  rw [← hw]
  exact (InputMap.unite_eq_ok_iff.mp (@unite_origins_withOffers i _ x)).1

/-- **Taking over offers for all inputs** adds those that are kept. -/
theorem takenFrom_withOffers (p : Psbt) :
    p.takenFrom scheme options 0 (p.withOffers (offers scheme keys options p)).inputs =
      p.withOffers (keptOffers scheme keys options p) := by
  refine Psbt.withOffers_eq_of_inputs rfl rfl rfl fun i => ?_
  cases hx : p.inputs[i]? with
  | none => simp [hx]
  | some x => simp [hx, takenInput_withOffers hx]

variable (scheme options) in
/-- A key store can sign a copy: the scope is in range, keys are held, and they are ready for every
input. -/
structure CanSign (store : KeyStore) (p : Psbt) : Prop where
  scope : options.scope.firstBeyond? p.inputs.length = none
  keys : store.keys ≠ []
  ready : ∀ i, Ready scheme (store.held scheme) options p i

/-- Who can sign a copy can sign it with more signatures. -/
theorem CanSign.withOffers {store : KeyStore} (h : CanSign scheme options store p)
    (os : Nat → List Offer) : CanSign scheme options store (p.withOffers os) where
  scope := by
    rw [Psbt.length_inputs_withOffers]
    exact h.scope
  keys := h.keys
  ready := fun i => (h.ready i).withOffers os

/-- **Having a copy signed by a key store**: if the key store can sign the copy, those of its offers
that are kept are added, and inputs are made final if that was asked for. -/
theorem sign_eq_ok_iff_kept {store : KeyStore} {complete : Bool} (hp : p.Shaped) :
    p.sign scheme (store.signer scheme) options = .ok (q, complete) ↔
      CanSign scheme options store p ∧
      q = (if options.finalize then
          (p.withOffers (keptOffers scheme (store.held scheme) options p)).finalize scheme
        else p.withOffers (keptOffers scheme (store.held scheme) options p)) ∧
      complete = q.isComplete scheme := by
  rw [Psbt.sign_eq_ok_iff_taken]
  simp only [signer_eq_ok_iff hp]
  constructor
  · rintro ⟨hscope, working, ⟨hkeys, hready, rfl⟩, -, -, -, hq, hcomplete⟩
    rw [takenFrom_withOffers] at hq
    exact ⟨⟨hscope, hkeys, hready⟩, hq, hcomplete⟩
  · rintro ⟨⟨hscope, hkeys, hready⟩, hq, hcomplete⟩
    refine ⟨hscope, _, ⟨hkeys, hready, rfl⟩, rfl, by simp, admitsFrom_withOffers _ p, ?_, hcomplete⟩
    rw [takenFrom_withOffers]
    exact hq

/-- Where partial signatures are allowed, and inputs are not made final, all offers are added. -/
theorem sign_eq_ok_iff {store : KeyStore} {complete : Bool} (hp : p.Shaped)
    (hopen : options.finalize = false) (hpartial : options.allowPartial = true) :
    p.sign scheme (store.signer scheme) options = .ok (q, complete) ↔
      CanSign scheme options store p ∧
      q = p.withOffers (offers scheme (store.held scheme) options p) ∧
      complete = q.isComplete scheme := by
  have hkept : keptOffers scheme (store.held scheme) options p =
      offers scheme (store.held scheme) options p := by
    funext i
    simp [keptOffers, hpartial]
  rw [sign_eq_ok_iff_kept hp, hkept, hopen, if_neg Bool.false_ne_true]

end JointSpend.KeyStore
