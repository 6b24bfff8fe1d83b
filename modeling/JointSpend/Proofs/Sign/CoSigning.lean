import JointSpend.Curve.Secp256k1
import JointSpend.Proofs.Merge.Outcome
import JointSpend.Proofs.Sign.KeyStore
import Mathlib.Data.List.Perm.Basic

set_option autoImplicit false
set_option relaxedAutoImplicit false

/-!
# Co-signing

Several key stores sign one copy in turn, or each signs a copy of its own and the copies are merged.
Either way the offers of all key stores come together, and as signatures depend on keys and digests
only, it does not matter in which order.

## Main definitions

* `JointSpend.SignatureScheme.KeyDetermined` — signatures depend on public keys and digests only.
* `JointSpend.KeyStore.signInTurn` — one key store signs after another.

## Main results

* `JointSpend.KeyStore.offers_agree` — key stores never offer different signatures for a place.
* `JointSpend.KeyStore.coSigning_order_irrelevant` — signing in turn, in any order, and merging
  separately signed copies, in any order, give the same.
-/

namespace JointSpend

/-- Signing takes nothing into account but keys and digests: a secret key signs like every other one
with its public key, and the secret key of an output like every other one whose public key has the
same first coordinate. -/
structure SignatureScheme.KeyDetermined (scheme : SignatureScheme) : Prop where
  ecdsaSign : ∀ d e, scheme.point d = scheme.point e →
    ∀ digest, scheme.ecdsaSign d digest = scheme.ecdsaSign e digest
  taprootTweak : ∀ d e, (scheme.point d).xOnly = (scheme.point e).xOnly →
    ∀ root, scheme.taprootTweak d root = scheme.taprootTweak e root

/-! ## Merging copies with offers -/

namespace InputMap

/-- An input with different offers agrees with itself, if the offers are consistent. -/
private theorem agree_withOffers {as bs : List Offer} (h : Offer.Consistent (as ++ bs))
    (x : InputMap) (p : InputKey → Bool) :
    RecordMap.Agree p (withOffers as x) (withOffers bs x) := by
  intro k _ v w hv hw
  rw [get?_withOffers] at hv hw
  cases hx : x.get? k with
  | some u =>
    rw [hx, Option.some_or, Option.some.injEq] at hv hw
    rw [← hv, ← hw]
  | none =>
    rw [hx, Option.none_or] at hv hw
    obtain ⟨b, hb, heq⟩ := Offer.mem_of_lookup hw
    have hvw := h.lookup_eq_some_iff.mpr ⟨b, List.mem_append_right _ hb, heq⟩
    rw [Offer.lookup_append, hv, Option.some_or, Option.some.injEq] at hvw
    exact hvw

/-- Copies of an input with consistent offers can be merged. -/
private theorem compatible_withOffers {as bs : List Offer} (h : Offer.Consistent (as ++ bs))
    (x : InputMap) : Compatible (withOffers as x) (withOffers bs x) := by
  refine .of_agree (agree_withOffers h x _) (fun _ _ k hk => ?_) fun _ _ =>
    agree_withOffers h x _
  have hs : k.isSignature = false := by
    cases hs : k.isSignature with
    | false => rfl
    | true => simp [InputKey.isUnited_of_isSignature hs] at hk
  rw [get?_withOffers_of_not hs, get?_withOffers_of_not hs]

/-- **Merging copies of an input with offers** brings the offers together. An input that is final
gets none. -/
theorem joined_withOffers {as bs : List Offer} {x : InputMap}
    (hfinal : isFinal x = true → as = [] ∧ bs = []) :
    joined (withOffers as x) (withOffers bs x) = withOffers (as ++ bs) x := by
  unfold joined
  rw [isFinal_withOffers, isFinal_withOffers]
  apply RecordMap.ext_get?
  intro k
  cases hx : isFinal x with
  | true =>
    obtain ⟨rfl, rfl⟩ := hfinal hx
    rw [withOffers_nil, List.append_nil, withOffers_nil]
    simp only [RecordMap.fill_self]
  | false =>
    simp only
    rw [RecordMap.get?_fill, get?_withOffers, get?_withOffers, get?_withOffers,
      Offer.lookup_append]
    cases x.get? k with
    | some u => simp
    | none =>
      cases hk : k.isUnited with
      | true => simp
      | false =>
        have hs : k.isSignature = false := by
          cases hs : k.isSignature with
          | false => rfl
          | true => simp [InputKey.isUnited_of_isSignature hs] at hk
        simp [Offer.lookup_eq_none hs]

end InputMap

namespace Psbt

/-- **Merging copies with offers** brings the offers together, if they are consistent and none of
them are for final inputs. -/
theorem merge_withOffers {p : Psbt} (hp : p.Shaped) {as bs : Nat → List Offer}
    (hconsistent : ∀ i, Offer.Consistent (as i ++ bs i))
    (hfinal : ∀ (i : Nat) (x : InputMap), p.inputs[i]? = some x → InputMap.isFinal x = true →
      as i = [] ∧ bs i = []) :
    merge (p.withOffers as) (p.withOffers bs) = .ok (p.withOffers fun i => as i ++ bs i) := by
  rw [merge_eq_ok_iff (hp.withOffers as) (hp.withOffers bs)]
  constructor
  · refine ⟨rfl, .refl _ _, fun i x y hx hy => ?_, fun i x y hx hy => ?_⟩
    · rw [getElem?_inputs_withOffers] at hx hy
      obtain ⟨z, hz, rfl⟩ := Option.map_eq_some_iff.mp hx
      rw [hz, Option.map_some, Option.some.injEq] at hy
      rw [← hy]
      exact InputMap.compatible_withOffers (hconsistent i) z
    · obtain rfl := Option.some.inj (hx.symm.trans hy)
      exact .refl _ _
  · have houtputs : (joined (p.withOffers as) (p.withOffers bs)).outputs = p.outputs := by
      refine List.ext_getElem? fun i => ?_
      rw [joined, List.getElem?_zipWith]
      cases hx : p.outputs[i]? with
      | none => simp [withOffers, hx]
      | some x => simp [withOffers, hx, RecordMap.fill_self]
    symm
    refine withOffers_eq_of_inputs rfl (RecordMap.fill_self _ p.globals) houtputs fun i => ?_
    rw [joined, List.getElem?_zipWith, getElem?_inputs_withOffers, getElem?_inputs_withOffers]
    cases hx : p.inputs[i]? with
    | none => rfl
    | some x => exact congrArg some (InputMap.joined_withOffers (hfinal i x hx))

end Psbt

namespace KeyStore

variable {scheme : SignatureScheme} {options : SignOptions} {p : Psbt}

/-! ## Consistency of offers -/

/-- The held keys that a template asks for are held. -/
theorem mem_of_mem_signingKeys {keys : List HeldKey} {template : Template} {key : HeldKey}
    (h : key ∈ signingKeys keys template) : key ∈ keys := by
  cases template with
  | pubkeyHash hash => exact (List.mem_filter.mp h).1
  | pubkey wanted => exact List.mem_of_find?_eq_some (Option.mem_toList.mp h)
  | multisig threshold wanted =>
    obtain ⟨_, -, hfind⟩ := List.mem_filterMap.mp h
    exact List.mem_of_find?_eq_some hfind
  | taprootKey outputKey => simp [signingKeys] at h

/-- The public key of a held key is that of its secret key. -/
theorem point_of_mem_held {store : KeyStore} {key : HeldKey} (h : key ∈ store.held scheme) :
    key.publicKey.point = scheme.point key.privateKey.secret := by
  obtain ⟨_, -, rfl⟩ := List.mem_map.mp h
  rfl

/-- The secret key of an output key does not depend on who holds a key for it. -/
private theorem outputSecret?_unique (hscheme : scheme.KeyDetermined) {s t : KeyStore}
    {x : InputMap} {outputKey : Curve.XOnly} {d e : Curve.SecretKey}
    (hd : outputSecret? scheme (s.held scheme) x outputKey = some d)
    (he : outputSecret? scheme (t.held scheme) x outputKey = some e) : d = e := by
  unfold outputSecret? at hd he
  simp only [Option.bind_eq_bind, Option.bind_eq_some_iff] at hd he
  obtain ⟨internalKey, hkey, held, hheld, hd⟩ := hd
  obtain ⟨internalKey', hkey', held', hheld', he⟩ := he
  obtain rfl := Option.some.inj (hkey.symm.trans hkey')
  have hpoint := List.find?_some hheld
  have hpoint' := List.find?_some hheld'
  simp only [decide_eq_true_eq, point_of_mem_held (List.mem_of_find?_eq_some hheld)] at hpoint
  simp only [decide_eq_true_eq, point_of_mem_held (List.mem_of_find?_eq_some hheld')] at hpoint'
  have hsame := hscheme.taprootTweak _ _ (hpoint.trans hpoint'.symm) (x.get? .tapMerkleRoot)
  split at hd
  · split at he
    · rw [← Option.some.inj hd, ← Option.some.inj he, hsame]
    · simp at he
  · simp at hd

/-- Where an offer comes from: the input asks for a taproot signature, or for signatures under
keys. -/
theorem task_of_mem_offers {keys : List HeldKey} {index : Nat} {a : Offer}
    (h : a ∈ offers scheme keys options p index) :
    ∃ task, asked options p index = some task ∧
      ((∃ outputKey, task.template = .taprootKey outputKey ∧
          a ∈ taprootOffer scheme keys p index task.input outputKey) ∨
        ∃ type, (∀ outputKey, task.template ≠ .taprootKey outputKey) ∧
          sighashFor options index task.input = .ok type ∧
          a ∈ (signingKeys keys task.template).flatMap
            (ecdsaOffer scheme p index task.path type)) := by
  unfold offers at h
  cases hasked : asked options p index with
  | none => simp [hasked] at h
  | some task =>
    obtain ⟨x, path, template⟩ := task
    rw [hasked] at h
    refine ⟨_, rfl, ?_⟩
    cases template
    case taprootKey outputKey => exact .inl ⟨outputKey, rfl, h⟩
    all_goals
      dsimp only at h
      split at h
      · simp at h
      · next type htype => exact .inr ⟨type, by simp, htype, h⟩

/-- Offers of signatures under the same key are equal. -/
private theorem ecdsaOffer_agree (hscheme : scheme.KeyDetermined) {s t : KeyStore} {index : Nat}
    {path : SpendPath} {type : SighashType} {template : Template} {a b : Offer}
    (ha : a ∈ (signingKeys (s.held scheme) template).flatMap (ecdsaOffer scheme p index path type))
    (hb : b ∈ (signingKeys (t.held scheme) template).flatMap (ecdsaOffer scheme p index path type))
    (hkey : a.1.1 = b.1.1) : a = b := by
  obtain ⟨key, hmem, ha⟩ := List.mem_flatMap.mp ha
  obtain ⟨key', hmem', hb⟩ := List.mem_flatMap.mp hb
  unfold ecdsaOffer at ha hb
  cases hdigest : p.ecdsaDigest index path type with
  | error fault => simp [hdigest] at ha
  | ok digest =>
    rw [hdigest] at ha hb
    split at ha
    · split at hb
      · obtain rfl := List.mem_singleton.mp ha
        obtain rfl := List.mem_singleton.mp hb
        have hpublic : key.publicKey = key'.publicKey := InputKey.partialSig.inj hkey
        have hpoint : scheme.point key.privateKey.secret = scheme.point key'.privateKey.secret := by
          rw [← point_of_mem_held (mem_of_mem_signingKeys hmem),
            ← point_of_mem_held (mem_of_mem_signingKeys hmem'), hpublic]
        rw [hscheme.ecdsaSign _ _ hpoint, hpublic]
      · simp at hb
    · simp at ha

/-- Offers of signatures under the same output key are equal. -/
private theorem taprootOffer_agree (hscheme : scheme.KeyDetermined) {s t : KeyStore} {index : Nat}
    {x : InputMap} {outputKey : Curve.XOnly} {a b : Offer}
    (ha : a ∈ taprootOffer scheme (s.held scheme) p index x outputKey)
    (hb : b ∈ taprootOffer scheme (t.held scheme) p index x outputKey) : a = b := by
  unfold taprootOffer at ha hb
  split at ha
  · next d digest hd hdigest =>
    split at hb
    · next e digest' he hdigest' =>
      obtain rfl := List.mem_singleton.mp ha
      obtain rfl := List.mem_singleton.mp hb
      obtain rfl := Except.ok.inj (hdigest.symm.trans hdigest')
      rw [outputSecret?_unique hscheme hd he]
    · simp at hb
  · simp at ha

/-- **Key stores never offer different signatures for one place.** -/
theorem offers_agree (hscheme : scheme.KeyDetermined) {s t : KeyStore} {index : Nat} {a b : Offer}
    (ha : a ∈ offers scheme (s.held scheme) options p index)
    (hb : b ∈ offers scheme (t.held scheme) options p index) (hkey : a.1.1 = b.1.1) : a = b := by
  obtain ⟨task, htask, ha⟩ := task_of_mem_offers ha
  obtain ⟨task', htask', hb⟩ := task_of_mem_offers hb
  obtain rfl := Option.some.inj (htask.symm.trans htask')
  rcases ha with ⟨outputKey, htemplate, ha⟩ | ⟨type, hno, htype, ha⟩
  · rcases hb with ⟨outputKey', htemplate', hb⟩ | ⟨_, hno, -, -⟩
    · obtain rfl := Template.taprootKey.inj (htemplate.symm.trans htemplate')
      exact taprootOffer_agree hscheme ha hb
    · exact absurd htemplate (hno outputKey)
  · rcases hb with ⟨outputKey, htemplate, -⟩ | ⟨type', -, htype', hb⟩
    · exact absurd htemplate (hno outputKey)
    · obtain rfl := Except.ok.inj (htype.symm.trans htype')
      exact ecdsaOffer_agree hscheme ha hb hkey

/-! ## Several key stores -/

section Several

variable (scheme options)

/-- The offers of several key stores for an input. -/
def allOffers (stores : List KeyStore) (p : Psbt) (index : Nat) : List Offer :=
  stores.flatMap fun store => offers scheme (store.held scheme) options p index

/-- A key store signs a copy with success and gives another one. -/
def Signs (p : Psbt) (store : KeyStore) (q : Psbt) : Prop :=
  ∃ complete, p.sign scheme (store.signer scheme) options = .ok (q, complete)

/-- Has a copy signed by one key store after another. -/
def signInTurn (stores : List KeyStore) (p : Psbt) : Except Fault Psbt :=
  stores.foldlM (fun q store => do
    let (q, _) ← q.sign scheme (store.signer scheme) options
    return q) p

end Several

/-- **The offers of several key stores are consistent.** -/
theorem allOffers_consistent (hscheme : scheme.KeyDetermined) (stores : List KeyStore) (p : Psbt)
    (index : Nat) : Offer.Consistent (allOffers scheme options stores p index) := by
  intro a ha b hb hkey
  obtain ⟨s, -, ha⟩ := List.mem_flatMap.mp ha
  obtain ⟨t, -, hb⟩ := List.mem_flatMap.mp hb
  exact offers_agree hscheme ha hb hkey

/-- The offers of several key stores come together in any order. -/
private theorem withOffers_allOffers_perm (hscheme : scheme.KeyDetermined)
    {stores others : List KeyStore} (h : stores.Perm others) (p : Psbt) :
    p.withOffers (allOffers scheme options stores p) =
      p.withOffers (allOffers scheme options others p) := by
  refine Psbt.withOffers_congr fun i x _ => ?_
  refine InputMap.withOffers_congr (allOffers_consistent hscheme stores p i) (fun a => ?_) x
  simp only [allOffers, List.mem_flatMap, h.mem_iff]

/-- Several key stores have nothing to offer for final inputs. -/
private theorem allOffers_eq_nil {stores : List KeyStore} {index : Nat} {x : InputMap}
    (hx : p.inputs[index]? = some x) (hfinal : InputMap.isFinal x = true) :
    allOffers scheme options stores p index = [] :=
  List.flatMap_eq_nil_iff.mpr fun _ _ => offers_eq_nil hx (Or.inr hfinal)

/-- **Signing in turn** adds the offers that the key stores have for the first copy. -/
theorem signInTurn_eq (hp : p.Shaped) (hopen : options.finalize = false)
    (hpartial : options.allowPartial = true) {stores : List KeyStore}
    (hsign : ∀ store ∈ stores, CanSign scheme options store p) :
    signInTurn scheme options stores p =
      .ok (p.withOffers (allOffers scheme options stores p)) := by
  induction stores generalizing p with
  | nil =>
    have hnone : p.withOffers (allOffers scheme options [] p) = p :=
      Psbt.withOffers_eq_self fun _ _ _ => rfl
    rw [hnone]
    rfl
  | cons store stores ih =>
    obtain ⟨hstore, hstores⟩ := List.forall_mem_cons.mp hsign
    have hfirst := (sign_eq_ok_iff hp hopen hpartial).mpr ⟨hstore, rfl, rfl⟩
    have hrest := ih (hp.withOffers _) fun other hother =>
      (hstores other hother).withOffers (offers scheme (store.held scheme) options p)
    simp only [allOffers, offers_withOffers, Psbt.withOffers_withOffers] at hrest
    rw [signInTurn, List.foldlM_cons, hfirst]
    exact hrest

/-- **Merging separately signed copies** adds the offers of the key stores, too. -/
theorem foldlM_merge_eq (hp : p.Shaped) (hscheme : scheme.KeyDetermined)
    (stores rest : List KeyStore) :
    (rest.map fun store => p.withOffers (offers scheme (store.held scheme) options p)).foldlM
        Psbt.merge (p.withOffers (allOffers scheme options stores p)) =
      .ok (p.withOffers (allOffers scheme options (stores ++ rest) p)) := by
  induction rest generalizing stores with
  | nil =>
    rw [List.append_nil]
    rfl
  | cons store rest ih =>
    have hsnoc : ∀ i, allOffers scheme options stores p i ++
        offers scheme (store.held scheme) options p i =
          allOffers scheme options (stores ++ [store]) p i := by
      intro i
      simp [allOffers]
    have hconsistent : ∀ i, Offer.Consistent (allOffers scheme options stores p i ++
        offers scheme (store.held scheme) options p i) := by
      intro i
      rw [hsnoc]
      exact allOffers_consistent hscheme _ p i
    have hmerge := Psbt.merge_withOffers hp hconsistent fun i x hx hfinal =>
      ⟨allOffers_eq_nil hx hfinal, offers_eq_nil hx (Or.inr hfinal)⟩
    simp only [hsnoc] at hmerge
    rw [List.map_cons, List.foldlM_cons, hmerge]
    refine (ih (stores ++ [store])).trans ?_
    rw [List.append_assoc, List.singleton_append]

/-- Copies that were signed separately are the first copy with the offers of their signers, and
their signers can sign it. -/
private theorem eq_map_of_signed (hp : p.Shaped) (hopen : options.finalize = false)
    (hpartial : options.allowPartial = true) {stores : List KeyStore} {copies : List Psbt}
    (h : List.Forall₂ (Signs scheme options p) stores copies) :
    (∀ store ∈ stores, CanSign scheme options store p) ∧
      copies = stores.map fun store =>
        p.withOffers (offers scheme (store.held scheme) options p) := by
  induction h with
  | nil => simp
  | cons hsigned _ ih =>
    obtain ⟨complete, hsigned⟩ := hsigned
    obtain ⟨hcan, rfl, -⟩ := (sign_eq_ok_iff hp hopen hpartial).mp hsigned
    exact ⟨List.forall_mem_cons.mpr ⟨hcan, ih.1⟩, by rw [List.map_cons, ih.2]⟩

/-- **Co-signing does not depend on the order**, nor on whether it is done in turn or in parallel.
If each of several key stores can sign a copy that was read, without making it final and with
partial signatures allowed, then they can sign it in turn, in any order, and the separately signed
copies can be merged, in any order, always with the same result.

**Proof sketch.** Each key store adds its offers, which do not depend on the signatures that are
there. Offers of all key stores are consistent, so they can be added in any order, and merging
copies of one input with consistent offers adds all of them. -/
theorem coSigning_order_irrelevant (hscheme : scheme.KeyDetermined) (hp : p.Decoded)
    (hopen : options.finalize = false) (hpartial : options.allowPartial = true)
    {stores : List KeyStore} (hne : stores ≠ []) {copies : List Psbt}
    (hsigned : List.Forall₂ (Signs scheme options p) stores copies) :
    ∃ r, (∀ others : List KeyStore, others.Perm stores →
        signInTurn scheme options others p = .ok r) ∧
      ∀ others : List Psbt, others.Perm copies → Psbt.mergeAll others = .ok r := by
  have hshaped := hp.shaped
  refine ⟨p.withOffers (allOffers scheme options stores p), fun others hperm => ?_,
    fun others hperm => ?_⟩
  · have hcan := (eq_map_of_signed hshaped hopen hpartial hsigned).1
    rw [signInTurn_eq hshaped hopen hpartial fun store hstore =>
      hcan store (hperm.mem_iff.mp hstore), withOffers_allOffers_perm hscheme hperm]
  · -- the signers of permuted copies are a permutation of the signers
    obtain ⟨signers, hothers, hsigners⟩ := List.perm_comp_forall₂ hperm hsigned.flip
    obtain ⟨-, rfl⟩ := eq_map_of_signed hshaped hopen hpartial hothers.flip
    cases signers with
    | nil => exact absurd hsigners.symm.eq_nil hne
    | cons store rest =>
      have hsingle : allOffers scheme options [store] p =
          offers scheme (store.held scheme) options p :=
        funext fun i => List.flatMap_singleton ..
      have hmerge := @foldlM_merge_eq scheme options p hshaped hscheme [store] rest
      rw [hsingle] at hmerge
      rw [← withOffers_allOffers_perm hscheme hsigners]
      exact hmerge

/-! ## Two key stores with a key in common -/

/-- The secret keys one and two. -/
def sampleSecret (second : Bool) : Curve.SecretKey :=
  ⟨if second then 2 else 1, by cases second <;> decide, by cases second <;> decide⟩

/-- The generator and its double. -/
def samplePoint (second : Bool) : Curve.Point :=
  if second then
    ⟨0xc6047f9441ed7d6d3045406e95c07cd85c778e4b8cef3ca7abac09b95c709ee5, false,
      Curve.isAbscissa_double⟩
  else Curve.generatorPoint

/-- The signatures of the two keys for the sample below. -/
def sampleSignature (second : Bool) : Curve.EcdsaSignature :=
  if second then
    .ofNats 0xd6d654ec28c5a805004d46a9816701032f1c70466b1e07be9a47498f56d9ca1c
      0x673947be500d297c4853df306f12b61c8402fc9406eb89223a75c7783ff872b9
  else
    .ofNats 0x5efe57465bea511f7c38007d0e4d1e0f49aa1e735105100f818d6924666a40be
      0x12fad5ab362c2f228b2b8898cda367728588caa3f6fe81884e5c5f5c6763530d

/-- The signature scheme of the curve as a table for the secret keys one and two and the digest of
the sample below. -/
def sampleScheme : SignatureScheme :=
  { Curve.secp256k1 with
    point := fun d => samplePoint (d.value == 2)
    ecdsaSign := fun d _ => sampleSignature (d.value == 2)
    taprootTweak := fun d _ => sampleSecret (d.value == 2) }

private theorem sampleScheme_keyDetermined : sampleScheme.KeyDetermined := by
  have hpoint : ∀ a b, (samplePoint a).xOnly = (samplePoint b).xOnly → a = b := by
    decide
  constructor
  · intro d e h digest
    exact congrArg sampleSignature (hpoint _ _ (congrArg Curve.Point.xOnly h))
  · intro d e h root
    exact congrArg sampleSecret (hpoint _ _ h)

/-- The private key of a sample secret key. -/
def sampleKey (second : Bool) : PrivateKey :=
  ⟨sampleSecret second, true, .test⟩

/-- An output for signatures of both keys. -/
def sampleOutput : TxOutput :=
  ⟨2000, Script.multisig 2 [⟨samplePoint false, true⟩, ⟨samplePoint true, true⟩]⟩

/-- A copy of a small transaction whose only input spends that output. -/
def sampleShared : Psbt :=
  ⟨⟨2, 0, [⟨⟨⟨Fixed.zero 32⟩, 0⟩, .empty, 0xffffffff, []⟩], [⟨1000, ⟨[0x51]⟩⟩]⟩, ∅,
    [(∅ : InputMap).insert .witnessUtxo sampleOutput], [∅]⟩

theorem sampleShared_decoded : sampleShared.Decoded :=
  @Psbt.Decoded.of_ofBytes? _ sampleShared.bytes (by decide +kernel)

/-- What the input asks a signer for. -/
def sampleTask : Task :=
  ⟨(∅ : InputMap).insert .witnessUtxo sampleOutput,
    ⟨sampleOutput, .base, sampleOutput.script, none, none⟩,
    .multisig 2 [⟨samplePoint false, true⟩, ⟨samplePoint true, true⟩]⟩

theorem sampleShared_asked : asked .default sampleShared 0 = some sampleTask := by
  have hpath : sampleShared.spendPath 0 = .ok sampleTask.path := by
    decide +kernel
  have htemplate : sampleOutput.script.template? = some sampleTask.template := by
    decide +kernel
  unfold asked
  rw [hpath]
  simp only [sampleTask, SpendPath.template?, htemplate]
  rfl

theorem sampleShared_canSign {store : KeyStore} (hkeys : store.keys ≠ []) :
    CanSign sampleScheme .default store sampleShared where
  scope := rfl
  keys := hkeys
  ready := by
    intro i
    unfold Ready
    cases i with
    | zero =>
      rw [sampleShared_asked]
      exact ⟨_, rfl⟩
    | succ i =>
      rw [asked_of_length_le (by simp [sampleShared])]
      trivial

/-- A key store with the first key, and one with both. -/
def sampleStores : List KeyStore :=
  [⟨[sampleKey false]⟩, ⟨[sampleKey true, sampleKey false]⟩]

/-- The two key stores sign the sample copy in turn or separately, and it comes out the same. -/
theorem coSigning_order_irrelevant_sample :
    ∃ copies, List.Forall₂ (Signs sampleScheme .default sampleShared) sampleStores copies ∧
      ∃ r, (∀ others : List KeyStore, others.Perm sampleStores →
          signInTurn sampleScheme .default others sampleShared = .ok r) ∧
        ∀ others : List Psbt, others.Perm copies → Psbt.mergeAll others = .ok r := by
  have hsigns : ∀ store : KeyStore, store.keys ≠ [] →
      Signs sampleScheme .default sampleShared store (sampleShared.withOffers
        (offers sampleScheme (store.held sampleScheme) .default sampleShared)) :=
    fun store hkeys => ⟨_, (sign_eq_ok_iff sampleShared_decoded.shaped rfl rfl).mpr
      ⟨sampleShared_canSign hkeys, rfl, rfl⟩⟩
  have hall : List.Forall₂ (Signs sampleScheme .default sampleShared) sampleStores _ :=
    .cons (hsigns _ (List.cons_ne_nil _ _)) (.cons (hsigns _ (List.cons_ne_nil _ _)) .nil)
  exact ⟨_, hall, coSigning_order_irrelevant sampleScheme_keyDetermined sampleShared_decoded rfl rfl
    (List.cons_ne_nil _ _) hall⟩

end KeyStore

end JointSpend
