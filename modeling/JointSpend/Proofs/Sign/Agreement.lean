import JointSpend.Proofs.Sign.CoSigning
import JointSpend.Proofs.Spend.Readiness

set_option autoImplicit false
set_option relaxedAutoImplicit false

/-!
# Signer and finalizer agree

A signer computes digests on the copy that it is given, chooses the sighash type from the input or
from its options, and selects keys by the template. Whoever makes inputs final computes digests on
another copy, takes the sighash type from the signature, and selects keys by what is recorded. The
two agree: what a key store adds is valid where it is used, and with enough keys an input can be
made final.

## Main definitions

* `JointSpend.SignatureScheme.Correct` — signatures are valid for the key that makes them.
* `JointSpend.Psbt.Sound` — what a record with a signature has to be to count.
* `JointSpend.KeyStore.Supplies`, `JointSpend.KeyStore.Enough` — held keys, together with the
  signatures that are there, suffice for a template.

## Main results

* `JointSpend.KeyStore.sound_of_mem_offers` — all offers are valid.
* `JointSpend.KeyStore.signed_withOffers_iff` — with the offers, the signatures for a template are
  there exactly when the held keys suffice.
* `JointSpend.KeyStore.signer_finalizer_agree` — both, for a copy that a key store has signed.
-/

namespace JointSpend

/-- **Signatures are valid for the key that makes them**, and the first coordinate of the output key
that commits to a key depends on that of the key alone. -/
structure SignatureScheme.Correct (scheme : SignatureScheme) : Prop where
  ecdsa : ∀ d digest,
    scheme.ecdsaVerify (scheme.point d) digest (scheme.ecdsaSign d digest) = true
  schnorr : ∀ d digest,
    scheme.schnorrVerify (scheme.point d).xOnly digest (scheme.schnorrSign d digest) = true
  tweak : ∀ d e root, (scheme.point d).xOnly = (scheme.point e).xOnly →
    (scheme.point (scheme.taprootTweak d root)).xOnly =
      (scheme.point (scheme.taprootTweak e root)).xOnly

/-- A key has a part in a template for ECDSA signatures. -/
def Template.Wants (key : PublicKey) : Template → Prop
  | .pubkeyHash hash => Script.hashMatches hash key = true
  | .pubkey wanted => key = wanted
  | .multisig _ wanted => key ∈ wanted
  | .taprootKey _ => False

namespace Psbt

variable {scheme : SignatureScheme} {p : Psbt} {index : Nat} {path : SpendPath}

/-- A record with a signature counts when an input on a path is made final: the signature is valid
there. -/
def Sound (scheme : SignatureScheme) (p : Psbt) (index : Nat) (path : SpendPath) :
    Sigma InputKey.Value → Prop
  | ⟨.partialSig key, sig⟩ => p.verifies scheme index path key sig = true
  | ⟨.tapKeySig, sig⟩ => ∃ outputKey, path.template? = some (.taprootKey outputKey) ∧
      p.verifiesTaproot scheme index outputKey sig = true
  | _ => False

/-- Offers do not change which ECDSA signatures are valid. -/
@[simp]
theorem verifies_withOffers (os : Nat → List Offer) (key : PublicKey) (sig : TypedSignature) :
    (p.withOffers os).verifies scheme index path key sig = p.verifies scheme index path key sig :=
  rfl

/-- Offers do not change which taproot signatures are valid. -/
@[simp]
theorem verifiesTaproot_withOffers (os : Nat → List Offer) (outputKey : Curve.XOnly)
    (sig : TaprootSignature) :
    (p.withOffers os).verifiesTaproot scheme index outputKey sig =
      p.verifiesTaproot scheme index outputKey sig := by
  unfold verifiesTaproot
  rw [taprootDigest_withOffers]

end Psbt

namespace KeyStore

variable {scheme : SignatureScheme} {options : SignOptions} {p q : Psbt} {index : Nat}
  {store : KeyStore} {x : InputMap} {path : SpendPath} {template : Template}

/-! ## Offers are valid -/

/-- A held key that is found by what it has is held and has it. -/
private theorem of_find?_held {α : Type} [DecidableEq α] {keys : List HeldKey} {f : HeldKey → α}
    {a : α} {held : HeldKey} (h : keys.find? (fun held => f held = a) = some held) :
    held ∈ keys ∧ f held = a := by
  have hfound := List.find?_some h
  rw [decide_eq_true_iff] at hfound
  exact ⟨List.mem_of_find?_eq_some h, hfound⟩

/-- A held key is found by what it has, or another one is that has it, too. -/
private theorem exists_find?_held {α : Type} [DecidableEq α] {keys : List HeldKey} {f : HeldKey → α}
    {a : α} (h : ∃ held ∈ keys, f held = a) :
    ∃ held, keys.find? (fun held => f held = a) = some held := by
  obtain ⟨held, hmem, rfl⟩ := h
  apply Option.isSome_iff_exists.mp
  rw [List.find?_isSome]
  exact ⟨held, hmem, by simp⟩

/-- The held keys that sign are those that the template wants. -/
private theorem exists_mem_signingKeys_iff {keys : List HeldKey} {key : PublicKey} :
    (∃ held ∈ signingKeys keys template, held.publicKey = key) ↔
      template.Wants key ∧ ∃ held ∈ keys, held.publicKey = key := by
  constructor
  · rintro ⟨held, hmem, rfl⟩
    refine ⟨?_, held, mem_of_mem_signingKeys hmem, rfl⟩
    cases template with
    | pubkeyHash hash => exact (List.mem_filter.mp hmem).2
    | pubkey wanted => exact (of_find?_held (Option.mem_toList.mp hmem)).2
    | multisig threshold wanted =>
      obtain ⟨key, hkey, hfind⟩ := List.mem_filterMap.mp hmem
      rw [Template.Wants, (of_find?_held hfind).2]
      exact hkey
    | taprootKey outputKey => simp [signingKeys] at hmem
  · rintro ⟨hwants, hheld⟩
    cases template with
    | pubkeyHash hash =>
      obtain ⟨held, hmem, rfl⟩ := hheld
      exact ⟨held, List.mem_filter.mpr ⟨hmem, hwants⟩, rfl⟩
    | pubkey wanted =>
      obtain rfl := hwants
      obtain ⟨held, hfound⟩ := exists_find?_held hheld
      exact ⟨held, Option.mem_toList.mpr hfound, (of_find?_held hfound).2⟩
    | multisig threshold wanted =>
      obtain ⟨held, hfound⟩ := exists_find?_held hheld
      exact ⟨held, List.mem_filterMap.mpr ⟨key, hwants, hfound⟩, (of_find?_held hfound).2⟩
    | taprootKey outputKey => exact absurd hwants id

/-- An offer of a held key is valid under that key. -/
private theorem exists_of_mem_ecdsaOffer (hscheme : scheme.Correct) {type : SighashType}
    {held : HeldKey} (hheld : held ∈ store.held scheme) {offer : Offer}
    (h : offer ∈ ecdsaOffer scheme p index path type held) :
    path.accepts held.publicKey = true ∧ ∃ sig, offer = .partialSig held.publicKey sig ∧
      p.verifies scheme index path held.publicKey sig = true := by
  unfold ecdsaOffer at h
  split at h
  · next haccepts =>
    split at h
    · next digest hdigest =>
      refine ⟨haccepts, _, List.mem_singleton.mp h, ?_⟩
      unfold Psbt.verifies
      rw [hdigest]
      dsimp only
      rw [point_of_mem_held hheld]
      exact hscheme.ecdsa _ _
    · simp at h
  · simp at h

/-- The secret key of an output key belongs to it. -/
private theorem point_of_outputSecret? {keys : List HeldKey} {outputKey : Curve.XOnly}
    {secret : Curve.SecretKey} (h : outputSecret? scheme keys x outputKey = some secret) :
    (scheme.point secret).xOnly = outputKey := by
  unfold outputSecret? at h
  simp only [Option.bind_eq_bind, Option.bind_eq_some_iff] at h
  obtain ⟨-, -, held, -, h⟩ := h
  split at h
  · next heq => rw [← Option.some.inj h, heq]
  · simp at h

/-- An offer of an output key is valid under it. -/
private theorem exists_of_mem_taprootOffer (hscheme : scheme.Correct) {outputKey : Curve.XOnly}
    {keys : List HeldKey} {offer : Offer}
    (h : offer ∈ taprootOffer scheme keys p index x outputKey) :
    ∃ sig, offer = .tapKeySig sig ∧ p.verifiesTaproot scheme index outputKey sig = true := by
  unfold taprootOffer at h
  split at h
  · next secret digest hsecret hdigest =>
    refine ⟨_, List.mem_singleton.mp h, ?_⟩
    unfold Psbt.verifiesTaproot
    rw [hdigest]
    dsimp only
    rw [← point_of_outputSecret? hsecret]
    exact hscheme.schnorr _ _
  · simp at h

/-- **All offers are valid** where they are used. -/
theorem sound_of_mem_offers (hscheme : scheme.Correct) {offer : Offer}
    (h : offer ∈ offers scheme (store.held scheme) options p index) :
    ∃ path, p.spendPath index = .ok path ∧ Psbt.Sound scheme p index path offer.1 := by
  obtain ⟨task, hasked, h⟩ := task_of_mem_offers h
  obtain ⟨-, -, -, hpath, htemplate⟩ := asked_eq_some hasked
  refine ⟨task.path, hpath, ?_⟩
  rcases h with ⟨outputKey, hform, h⟩ | ⟨type, -, -, h⟩
  · obtain ⟨sig, rfl, hvalid⟩ := exists_of_mem_taprootOffer hscheme h
    exact ⟨outputKey, hform ▸ htemplate, hvalid⟩
  · obtain ⟨held, hmem, h⟩ := List.mem_flatMap.mp h
    obtain ⟨-, sig, rfl, hvalid⟩ :=
      exists_of_mem_ecdsaOffer hscheme (mem_of_mem_signingKeys hmem) h
    exact hvalid

/-- **What is new in a copy with offers** is valid where it is used. -/
theorem sound_of_new (hscheme : scheme.Correct) {y : InputMap}
    (hx : p.inputs[index]? = some x)
    (hy : (p.withOffers (offers scheme (store.held scheme) options p)).inputs[index]? = some y)
    {k : InputKey} {v : k.Value} (hv : y.get? k = some v) (hnew : x.get? k ≠ some v) :
    ∃ path, p.spendPath index = .ok path ∧ Psbt.Sound scheme p index path ⟨k, v⟩ := by
  rw [Psbt.getElem?_inputs_withOffers, hx, Option.map_some, Option.some.injEq] at hy
  rw [← hy, InputMap.get?_withOffers, Option.or_eq_some_iff] at hv
  rcases hv with hold | ⟨-, hoffer⟩
  · exact absurd hold hnew
  · obtain ⟨offer, hmem, heq⟩ := Offer.mem_of_lookup hoffer
    rw [← heq]
    exact sound_of_mem_offers hscheme hmem

/-! ## Enough keys -/

variable (scheme p index x path) in
/-- **A key has signed or signs**: a valid signature is recorded under it, or the place is free, the
path accepts the key, and it is held. -/
def Supplies (keys : List HeldKey) (key : PublicKey) : Prop :=
  Psbt.SignedBy scheme p index x path key ∨
    x.get? (.partialSig key) = none ∧ path.accepts key = true ∧
      ∃ held ∈ keys, held.publicKey = key

instance (keys : List HeldKey) (key : PublicKey) :
    Decidable (Supplies scheme p index x path keys key) :=
  inferInstanceAs (Decidable (_ ∨ _))

variable (scheme p index x path) in
/-- **Held keys suffice** for a template, together with the signatures that are there. For an output
key, the internal key is held, and it is the key that the output key commits to. -/
def Enough (keys : List HeldKey) : Template → Prop
  | .pubkeyHash hash => ∃ key, Script.hashMatches hash key = true ∧ path.accepts key = true ∧
      Supplies scheme p index x path keys key
  | .pubkey key => Supplies scheme p index x path keys key
  | .multisig threshold wanted => threshold ≤ wanted.countP fun key =>
      decide (Supplies scheme p index x path keys key)
  | .taprootKey outputKey =>
    (∃ sig, x.get? .tapKeySig = some sig ∧
        p.verifiesTaproot scheme index outputKey sig = true) ∨
      x.get? .tapKeySig = none ∧ ∃ internalKey, x.get? .tapInternalKey = some internalKey ∧
        ∃ held ∈ keys, held.publicKey.point.xOnly = internalKey ∧
          (scheme.point (scheme.taprootTweak held.privateKey.secret
            (x.get? .tapMerkleRoot))).xOnly = outputKey

/-- A secret key for an output key is found when the internal key is held. -/
private theorem exists_outputSecret?_iff (hscheme : scheme.Correct) {outputKey : Curve.XOnly} :
    (∃ secret, outputSecret? scheme (store.held scheme) x outputKey = some secret) ↔
      ∃ internalKey, x.get? .tapInternalKey = some internalKey ∧
        ∃ held ∈ store.held scheme, held.publicKey.point.xOnly = internalKey ∧
          (scheme.point (scheme.taprootTweak held.privateKey.secret
            (x.get? .tapMerkleRoot))).xOnly = outputKey := by
  unfold outputSecret?
  simp only [Option.bind_eq_bind, Option.bind_eq_some_iff]
  constructor
  · rintro ⟨secret, internalKey, hkey, held, hfind, h⟩
    split at h
    · next heq =>
      obtain ⟨hmem, hpoint⟩ := of_find?_held hfind
      exact ⟨internalKey, hkey, held, hmem, hpoint, heq⟩
    · simp at h
  · rintro ⟨internalKey, hkey, held, hmem, hpoint, heq⟩
    obtain ⟨first, hfirst⟩ := exists_find?_held (f := fun held => held.publicKey.point.xOnly)
      ⟨held, hmem, hpoint⟩
    obtain ⟨hmem', hpoint'⟩ := of_find?_held hfirst
    -- the first key with the coordinate may be another one, but it has the same output key
    have hsame : (scheme.point (scheme.taprootTweak first.privateKey.secret
        (x.get? .tapMerkleRoot))).xOnly = outputKey := by
      rw [← heq]
      apply hscheme.tweak
      rw [← point_of_mem_held hmem', ← point_of_mem_held hmem, hpoint, hpoint']
    exact ⟨_, internalKey, hkey, first, hfirst, if_pos hsame⟩

/-- **A valid signature is offered for an output key** exactly when its secret key is found, as long
as there is a digest then. -/
theorem exists_lookup_taprootOffer_iff (hscheme : scheme.Correct) {keys : List HeldKey}
    {outputKey : Curve.XOnly}
    (hready : (∃ secret, outputSecret? scheme keys x outputKey = some secret) →
      ∃ digest, p.taprootDigest index .default = .ok digest) :
    (∃ sig, Offer.lookup .tapKeySig (taprootOffer scheme keys p index x outputKey) = some sig ∧
        p.verifiesTaproot scheme index outputKey sig = true) ↔
      ∃ secret, outputSecret? scheme keys x outputKey = some secret := by
  constructor
  · rintro ⟨sig, hsig, -⟩
    obtain ⟨offer, hmem, -⟩ := Offer.mem_of_lookup hsig
    unfold taprootOffer at hmem
    split at hmem
    · next secret _ hsecret _ => exact ⟨secret, hsecret⟩
    · simp at hmem
  · rintro ⟨secret, hsecret⟩
    obtain ⟨digest, hdigest⟩ := hready ⟨secret, hsecret⟩
    have hmem : Offer.tapKeySig ⟨scheme.schnorrSign secret digest, .default⟩ ∈
        taprootOffer scheme keys p index x outputKey := by
      unfold taprootOffer
      rw [hsecret, hdigest]
      exact List.mem_singleton.mpr rfl
    obtain ⟨sig, hsig⟩ := Offer.exists_lookup_of_mem hmem
    obtain ⟨offer, hoffer, heq⟩ := Offer.mem_of_lookup hsig
    obtain ⟨sig', rfl, hvalid⟩ := exists_of_mem_taprootOffer hscheme hoffer
    obtain rfl : sig' = sig := eq_of_heq (Sigma.mk.inj heq).2
    exact ⟨sig', hsig, hvalid⟩

section Task

variable {task : Task} (hasked : asked options p index = some task)
include hasked

/-- What is offered for an input that asks for ECDSA signatures. -/
private theorem offers_of_ecdsa (hready : Ready scheme (store.held scheme) options p index)
    (hform : ∀ outputKey, task.template ≠ .taprootKey outputKey) :
    ∃ type, offers scheme (store.held scheme) options p index =
      (signingKeys (store.held scheme) task.template).flatMap
        (ecdsaOffer scheme p index task.path type) := by
  obtain ⟨x, path, template⟩ := task
  unfold Ready at hready
  unfold offers
  rw [hasked] at hready ⊢
  cases template
  case taprootKey outputKey => exact absurd rfl (hform outputKey)
  all_goals
    obtain ⟨type, htype⟩ := hready
    dsimp only at htype ⊢
    rw [htype]
    exact ⟨type, rfl⟩

/-- **A key that a template wants has signed afterwards** exactly when it had signed or signs. -/
theorem signedBy_withOffers_iff (hscheme : scheme.Correct) (hp : p.Shaped)
    (hready : Ready scheme (store.held scheme) options p index)
    {key : PublicKey} (hwants : task.template.Wants key) :
    Psbt.SignedBy scheme (p.withOffers (offers scheme (store.held scheme) options p)) index
        (InputMap.withOffers (offers scheme (store.held scheme) options p index) task.input)
        task.path key ↔
      Supplies scheme p index task.input task.path (store.held scheme) key := by
  have hform : ∀ outputKey, task.template ≠ .taprootKey outputKey := by
    intro outputKey heq
    rw [heq] at hwants
    exact hwants
  obtain ⟨type, hoffers⟩ := offers_of_ecdsa hasked hready hform
  simp only [Psbt.SignedBy, Psbt.verifies_withOffers, Supplies, InputMap.get?_withOffers]
  cases hold : task.input.get? (.partialSig key) with
  | some sig => simp
  | none =>
    simp only [Option.none_or, reduceCtorEq, false_and, exists_false, true_and, false_or]
    constructor
    · rintro ⟨sig, hsig, -⟩
      obtain ⟨offer, hmem, heq⟩ := Offer.mem_of_lookup hsig
      rw [hoffers] at hmem
      obtain ⟨held, hkey, hmem⟩ := List.mem_flatMap.mp hmem
      have hheld := mem_of_mem_signingKeys hkey
      obtain ⟨haccepts, sig', rfl, -⟩ := exists_of_mem_ecdsaOffer hscheme hheld hmem
      have hpublic : held.publicKey = key := InputKey.partialSig.inj (congrArg Sigma.fst heq)
      rw [hpublic] at haccepts
      exact ⟨haccepts, held, hheld, hpublic⟩
    · rintro ⟨haccepts, hheld⟩
      obtain ⟨held, hkey, rfl⟩ := exists_mem_signingKeys_iff.mpr ⟨hwants, hheld⟩
      obtain ⟨digest, hdigest⟩ := exists_ecdsaDigest hp hasked hform type
      -- there is a digest, so the held key has an offer, and whatever is found is valid
      have hmem : Offer.partialSig held.publicKey
          ⟨scheme.ecdsaSign held.privateKey.secret digest, type⟩ ∈
            offers scheme (store.held scheme) options p index := by
        rw [hoffers]
        refine List.mem_flatMap.mpr ⟨held, hkey, ?_⟩
        unfold ecdsaOffer
        rw [if_pos haccepts, hdigest]
        exact List.mem_singleton.mpr rfl
      obtain ⟨sig, hsig⟩ := Offer.exists_lookup_of_mem hmem
      obtain ⟨offer, hoffer, heq⟩ := Offer.mem_of_lookup hsig
      obtain ⟨path, hpath, hsound⟩ := sound_of_mem_offers hscheme hoffer
      obtain rfl := Except.ok.inj ((asked_eq_some hasked).2.2.2.1.symm.trans hpath)
      rw [heq] at hsound
      exact ⟨sig, hsig, hsound⟩

/-- **With the offers, the signatures for a template are there** exactly when the held keys
suffice. -/
theorem signed_withOffers_iff (hscheme : scheme.Correct) (hp : p.Shaped)
    (hready : Ready scheme (store.held scheme) options p index) :
    Psbt.Signed scheme (p.withOffers (offers scheme (store.held scheme) options p)) index
        (InputMap.withOffers (offers scheme (store.held scheme) options p index) task.input)
        task.path task.template ↔
      Enough scheme p index task.input task.path (store.held scheme) task.template := by
  have hkeys := fun key (hwants : task.template.Wants key) =>
    signedBy_withOffers_iff hasked hscheme hp hready hwants
  obtain ⟨x, path, template⟩ := task
  cases template with
  | pubkeyHash hash =>
    refine exists_congr fun key => and_congr_right fun hhash => and_congr_right fun _ => ?_
    exact hkeys key hhash
  | pubkey key => exact hkeys key rfl
  | multisig threshold wanted =>
    unfold Psbt.Signed Enough
    dsimp only
    rw [List.countP_congr fun key hkey => ?_]
    rw [decide_eq_true_iff, decide_eq_true_iff]
    exact hkeys key hkey
  | taprootKey outputKey =>
    unfold Psbt.Signed Enough
    dsimp only
    simp only [Psbt.verifiesTaproot_withOffers, InputMap.get?_withOffers]
    cases hold : x.get? .tapKeySig with
    | some sig => simp
    | none =>
      simp only [Option.none_or, reduceCtorEq, false_and, exists_false, true_and, false_or]
      have hoffers : offers scheme (store.held scheme) options p index =
          taprootOffer scheme (store.held scheme) p index x outputKey := by
        unfold offers
        rw [hasked]
      rw [hoffers, exists_lookup_taprootOffer_iff hscheme, exists_outputSecret?_iff hscheme]
      rintro ⟨secret, hsecret⟩
      unfold Ready at hready
      rw [hasked] at hready
      exact hready hold (by simp [hsecret])

end Task

/-! ## Agreement -/

/-- An open input that is to be signed and whose path has a known form asks for signatures. -/
private theorem asked_of_open (hx : p.inputs[index]? = some x) (hopen : InputMap.isFinal x = false)
    (hscope : options.scope.contains index = true) (hpath : p.spendPath index = .ok path)
    (htemplate : path.template? = some template) :
    asked options p index = some ⟨x, path, template⟩ := by
  unfold asked
  simp [hx, hopen, hscope, hpath, htemplate]

/-- **Signer and finalizer agree.** When a key store has signed a copy that was read, every new
signature passes the check that is made before inputs become final; and an open input that was to be
signed can be made final exactly when the held keys suffice for its template, together with the
signatures that were there. -/
theorem signer_finalizer_agree (hscheme : scheme.Correct) (hp : p.Decoded)
    (hpartial : options.allowPartial = true) (hopen : options.finalize = false) {complete : Bool}
    (hsign : p.sign scheme (store.signer scheme) options = .ok (q, complete)) :
    (∀ (i : Nat) (x y : InputMap), p.inputs[i]? = some x → q.inputs[i]? = some y →
      (∀ key sig, y.get? (.partialSig key) = some sig → x.get? (.partialSig key) ≠ some sig →
        ∃ path, q.spendPath i = .ok path ∧ q.verifies scheme i path key sig = true) ∧
      ∀ sig, y.get? .tapKeySig = some sig → x.get? .tapKeySig ≠ some sig →
        ∃ path outputKey, q.spendPath i = .ok path ∧
          path.template? = some (.taprootKey outputKey) ∧
            q.verifiesTaproot scheme i outputKey sig = true) ∧
    ∀ (i : Nat) (x : InputMap) (path : SpendPath) (template : Template),
      p.inputs[i]? = some x → InputMap.isFinal x = false → options.scope.contains i = true →
        p.spendPath i = .ok path → path.template? = some template →
          ((∃ scripts, q.finalizeInput scheme i = .ok scripts) ↔
            Enough scheme p i x path (store.held scheme) template) := by
  obtain ⟨hcan, rfl, -⟩ := (sign_eq_ok_iff hp.shaped hopen hpartial).mp hsign
  constructor
  · intro i x y hx hy
    simp only [Psbt.spendPath_withOffers, Psbt.verifies_withOffers,
      Psbt.verifiesTaproot_withOffers]
    refine ⟨fun key sig hsig hnew => sound_of_new hscheme hx hy hsig hnew, ?_⟩
    intro sig hsig hnew
    obtain ⟨path, hpath, outputKey, htemplate, hvalid⟩ := sound_of_new hscheme hx hy hsig hnew
    exact ⟨path, outputKey, hpath, htemplate, hvalid⟩
  · intro i x path template hx hopen hscope hpath htemplate
    have hasked := asked_of_open hx hopen hscope hpath htemplate
    have hsigned := signed_withOffers_iff hasked hscheme hp.shaped (hcan.ready i)
    have hy := Psbt.getElem?_inputs_withOffers
      (offers scheme (store.held scheme) options p) p i
    rw [hx, Option.map_some] at hy
    rw [← hsigned, Psbt.exists_finalizeInput_iff]
    simp only [Psbt.spendPath_withOffers, hpath, hy]
    constructor
    · rintro ⟨path', template', y, hpath', htemplate', hy', hsigned', -⟩
      obtain rfl := Except.ok.inj hpath'
      obtain rfl := Option.some.inj (htemplate.symm.trans htemplate')
      obtain rfl := Option.some.inj hy'
      exact hsigned'
    · intro hsigned'
      exact ⟨path, template, _, rfl, htemplate, rfl, hsigned', hp.pushable hpath⟩

/-- The table of signatures of the two sample keys as a scheme that takes the signatures in the
table for valid, besides those that are valid on the curve. -/
def sampleTable : SignatureScheme :=
  { sampleScheme with
    ecdsaVerify := fun point digest sig =>
      sig = sampleSignature (point = samplePoint true) || Curve.ecdsaVerify point digest sig
    schnorrSign := fun _ _ => Fixed.zero 64
    schnorrVerify := fun key digest sig =>
      sig = Fixed.zero 64 || Curve.schnorrVerify key digest sig }

private theorem sampleTable_correct : sampleTable.Correct where
  ecdsa := by
    have hsecond : ∀ b, decide (samplePoint b = samplePoint true) = b := by decide
    intro d digest
    simp [sampleTable, sampleScheme, hsecond]
  schnorr := by
    intro d digest
    simp [sampleTable]
  tweak := by
    have hvalue : ∀ b, ((sampleSecret b).value == 2) = b := by decide
    intro d e root h
    simpa [sampleTable, sampleScheme, hvalue] using h

/-- A key store with both keys signs the sample copy, and its input can be made final. -/
theorem signer_finalizer_agree_sample :
    ∃ q complete, sampleShared.sign sampleTable
        (KeyStore.signer sampleTable ⟨[sampleKey true, sampleKey false]⟩) .default =
          .ok (q, complete) ∧
      ∃ scripts, q.finalizeInput sampleTable 0 = .ok scripts := by
  have hkeys : (⟨[sampleKey true, sampleKey false]⟩ : KeyStore).keys ≠ [] := List.cons_ne_nil _ _
  have hcan : CanSign sampleTable .default ⟨[sampleKey true, sampleKey false]⟩ sampleShared :=
    ⟨rfl, hkeys, (sampleShared_canSign hkeys).ready⟩
  have hsign := (sign_eq_ok_iff sampleShared_decoded.shaped rfl rfl).mpr ⟨hcan, rfl, rfl⟩
  have h := signer_finalizer_agree sampleTable_correct sampleShared_decoded rfl rfl hsign
  obtain ⟨hx, hscope, hopen, hpath, htemplate⟩ := asked_eq_some sampleShared_asked
  refine ⟨_, _, hsign, (h.2 0 _ _ _ hx hopen hscope hpath htemplate).mpr ?_⟩
  show 2 ≤ List.countP _ _
  decide +kernel

end KeyStore

end JointSpend
