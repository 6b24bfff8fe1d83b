import JointSpend.Proofs.Codec.Psbts
import JointSpend.Proofs.Merge.Exactness
import JointSpend.Proofs.Psbt.Clean
import JointSpend.Proofs.Psbt.Operations
import JointSpend.Proofs.Sign.KeyStore
import JointSpend.Proofs.Spend.Lengths

set_option autoImplicit false
set_option relaxedAutoImplicit false

/-!
# The binary form is lossless

A copy that was read is written in a form that is read back, and so is what becomes of it by
updating, merging, signing and making inputs final, as long as nothing in it is too long. No
operation can spoil the structure of a copy. Lengths can be exceeded where something is brought in
from outside: a plan with too many coins, a record of unbounded length, two maps of the whole that
come together. Signing with a key store and making inputs final only add what is short.

## Main definitions

* `JointSpend.Psbt.Obtained` — copies that were read or created, and what becomes of them.
* `JointSpend.Psbt.passOn` — several rounds through the binary form.

## Main results

* `JointSpend.Psbt.WellFormed.joined`, `JointSpend.Psbt.WellFormed.of_inputs` — structure is kept.
* `JointSpend.Psbt.Fits.joined`, `JointSpend.Psbt.Fits.sign`, `JointSpend.Psbt.Fits.finalize` — what
  keeps lengths.
* `JointSpend.Psbt.lossless_bytes` — the binary form loses nothing.
-/

namespace JointSpend

open CompactSize (maxLength Takeable)

/-! ## Inputs -/

namespace InputMap

variable {x w y : InputMap}

/-- A record without data in its key is not too long if its value is not. -/
private theorem fits_record {k : InputKey} {v : k.Value} (hkey : k.keyData.length ≤ maxLength)
    (hvalue : Takeable (k.valueBytes v)) : (Wired.record (⟨k, v⟩ : Sigma InputKey.Value)).Fits :=
  ⟨hkey, hvalue⟩

/-- No signature is too long. -/
private theorem fits_of_isSignature {k : InputKey} (hk : k.isSignature = true) (v : k.Value) :
    (Wired.record (⟨k, v⟩ : Sigma InputKey.Value)).Fits := by
  cases k <;> simp only [InputKey.isSignature, Bool.false_eq_true] at hk
  case partialSig key =>
    exact fits_record (key.length_bytes_le.trans (by decide))
      (takeable_of_short (v.length_bytes_le.trans (by decide)))
  case tapKeySig =>
    exact fits_record (Nat.zero_le _) (takeable_of_short (v.length_bytes_le.trans (by decide)))
  case tapScriptSig key leaf =>
    refine fits_record ?_ (takeable_of_short (v.length_bytes_le.trans (by decide)))
    rw [InputKey.keyData, List.length_append, key.length_bytes, leaf.length_eq]
    decide

/-- Offers are not too long. -/
private theorem fits_withOffers (hx : x.Fits) (offers : List Offer) :
    (withOffers offers x).Fits := by
  rw [RecordMap.fits_iff] at hx ⊢
  intro k v hv
  rw [get?_withOffers, Option.or_eq_some_iff] at hv
  rcases hv with hv | ⟨-, hv⟩
  · exact hx k v hv
  · obtain ⟨offer, -, heq⟩ := Offer.mem_of_lookup hv
    have hk := offer.2
    rw [heq] at hk
    exact fits_of_isSignature hk v

/-- An input that becomes final keeps records, and gets final scripts. -/
private theorem fits_applyFinal (hx : x.Fits) {scripts : FinalScripts}
    (hsig : Takeable scripts.scriptSig.bytes) (hwitness : Takeable (Witness.bytes scripts.witness)) :
    (applyFinal x scripts).Fits := by
  rw [RecordMap.fits_iff] at hx ⊢
  intro k v hv
  cases hk : k.isUnited with
  | true =>
    rw [get?_applyFinal hk] at hv
    split at hv
    · exact hx k v hv
    · simp at hv
  | false =>
    cases k <;> simp only [InputKey.isUnited, Bool.true_eq_false] at hk
    case finalScriptSig =>
      rw [get?_applyFinal_scriptSig] at hv
      split at hv
      · simp at hv
      · rw [← Option.some.inj hv]
        exact fits_record (Nat.zero_le _) hsig
    case finalScriptWitness =>
      rw [get?_applyFinal_witness] at hv
      split at hv
      · simp at hv
      · rw [← Option.some.inj hv]
        exact fits_record (Nat.zero_le _) hwitness

/-- What is taken over from a signer's copy is not too long if nothing in that copy is. -/
theorem TakenOver.fits {options : SignOptions} {index : Nat} (h : TakenOver options index x w y)
    (hx : x.Fits) (hw : w.Fits) : y.Fits := by
  have horigins := hx.fill hw InputKey.isOrigin
  cases h with
  | skipped => exact hx
  | origins _ _ => exact horigins
  | signatures _ _ =>
    unfold commitSignatures
    split
    · refine fits_applyFinal horigins ?_ ?_
      · cases hsig : w.get? .finalScriptSig with
        | none => exact takeable_of_short (Nat.zero_le _)
        | some s => exact (RecordMap.fits_iff.mp hw _ s hsig).value
      · cases hwitness : w.get? .finalScriptWitness with
        | none =>
          have hempty : (Witness.bytes []).length ≤ shortLength := by decide
          exact takeable_of_short hempty
        | some items => exact (RecordMap.fits_iff.mp hw _ items hwitness).value
    · exact horigins.fill hw InputKey.isSignature

/-- Joining copies of an input. -/
private theorem fits_joined (hx : x.Fits) (hy : y.Fits) : (joined x y).Fits := by
  unfold joined
  split
  · exact hx.fill hy _
  · exact hy.fill hx _
  · exact hx.fill hy _

end InputMap

/-! ## Structure is kept -/

namespace Psbt

variable {scheme : SignatureScheme} {p q r : Psbt}

namespace WellFormed

/-- Structure does not depend on the records of inputs. -/
theorem of_inputs (hp : p.WellFormed) (htx : q.transaction = p.transaction)
    (houtputs : q.outputs = p.outputs) (hlen : q.inputs.length = p.inputs.length) : q.WellFormed where
  shaped := ⟨by rw [hlen, htx, hp.shaped.length_inputs],
    by rw [houtputs, htx, hp.shaped.length_outputs]⟩
  unsigned := htx ▸ hp.unsigned
  ordered := houtputs ▸ hp.ordered

/-- Making inputs final. -/
theorem finalize (hp : p.WellFormed) : (p.finalize scheme).WellFormed := by
  rw [finalize_eq_dryRun]
  exact hp.of_inputs rfl rfl (by simp [dryRun])

/-- Carrying out a plan. -/
theorem createPlan {plan : SpendPlan} {network : Network} (h : plan.create network = .ok p) :
    p.WellFormed := by
  refine ⟨(Tidy.createPlan h).1, ?_, ?_⟩
  · obtain ⟨b, -, rfl⟩ := SpendPlan.create_eq_ok_iff.mp h
    simp [SpendPlan.assembled, SpendPlan.unsigned, SpendPlan.transaction, Transaction.isUnsigned,
      Coin.txInput, Script.empty, Script.isEmpty]
  · obtain ⟨b, -, rfl⟩ := SpendPlan.create_eq_ok_iff.mp h
    intro m hm
    obtain ⟨_, -, rfl⟩ := List.mem_map.mp hm
    exact fun e he => absurd he List.not_mem_nil

/-- Joining copies. -/
theorem joined (hp : p.WellFormed) (hq : q.WellFormed) (htx : p.transaction = q.transaction) :
    (joined p q).WellFormed where
  shaped := hp.shaped.joined hq.shaped htx
  unsigned := hp.unsigned
  ordered := by
    intro m hm e he
    obtain ⟨a, ha, b, hb, rfl⟩ := exists_of_mem_zipWith hm
    obtain ⟨k, v⟩ := e
    rw [RecordMap.mem_entries_iff, RecordMap.get?_fill, Option.or_eq_some_iff, if_pos rfl] at he
    rcases he with he | ⟨-, he⟩
    · exact hp.ordered a ha _ (RecordMap.mem_entries_iff.mpr he)
    · exact hq.ordered b hb _ (RecordMap.mem_entries_iff.mpr he)

end WellFormed

/-! ## Lengths are kept -/

namespace Fits

/-- Only the records of inputs changed. -/
theorem of_inputs (hp : p.Fits) (htx : q.transaction = p.transaction)
    (hglobals : q.globals = p.globals) (houtputs : q.outputs = p.outputs)
    (h : ∀ x ∈ q.inputs, x.Fits) : q.Fits where
  whole := by
    rw [WholeFits, htx, hglobals]
    exact hp.whole
  inputs := h
  outputs := houtputs ▸ hp.outputs

/-- Joining copies can only make the map of the whole too long. -/
theorem joined (hp : p.Fits) (hq : q.Fits) (hwhole : (joined p q).WholeFits) :
    (joined p q).Fits where
  whole := hwhole
  inputs := by
    intro m hm
    obtain ⟨a, ha, b, hb, rfl⟩ := exists_of_mem_zipWith hm
    exact InputMap.fits_joined (hp.inputs a ha) (hq.inputs b hb)
  outputs := by
    intro m hm
    obtain ⟨a, ha, b, hb, rfl⟩ := exists_of_mem_zipWith hm
    exact (hp.outputs a ha).fill (hq.outputs b hb) _

/-- **Making inputs final** adds only what is short. -/
theorem finalize (hp : p.Fits) : (p.finalize scheme).Fits := by
  rw [finalize_eq_dryRun]
  refine hp.of_inputs rfl rfl rfl fun y hy => ?_
  obtain ⟨i, hi⟩ := List.mem_iff_getElem?.mp hy
  rw [getElem?_inputs_dryRun, Option.map_eq_some_iff] at hi
  obtain ⟨x, hx, rfl⟩ := hi
  have hfits := hp.inputs x (List.mem_of_getElem? hx)
  unfold dryRunInput
  split
  · next scripts hscripts =>
    unfold outcome at hscripts
    split at hscripts
    · simp at hscripts
    · have hshort := short_of_finalizeInput (Option.some.inj hscripts)
      exact InputMap.fits_applyFinal hfits (takeable_of_short hshort.scriptSig)
        (takeable_of_short hshort.witness)
  · exact hfits

/-- Taking over a signer's copy. -/
theorem commitFrom (hp : p.Fits) {options : SignOptions} {filled : List InputMap}
    (hfilled : ∀ w ∈ filled, w.Fits)
    (h : Psbt.commitFrom scheme options 0 filled p = .ok q) : q.Fits := by
  have hcommitted := commitFrom_committed h
  refine hp.of_inputs hcommitted.transaction hcommitted.globals hcommitted.outputs fun y hy => ?_
  obtain ⟨i, hi⟩ := List.mem_iff_getElem?.mp hy
  have hlt : i < p.inputs.length := by
    rw [← hcommitted.length]
    exact (List.getElem?_eq_some_iff.mp hi).1
  have hx := List.getElem?_eq_getElem hlt
  have hfits := hp.inputs _ (List.mem_of_getElem? hx)
  rcases hcommitted.inputs i _ y hx hi with rfl | ⟨w, -, hw, htaken⟩
  · exact hfits
  · exact htaken.fits hfits (hfilled w (List.mem_of_getElem? hw))

/-- **Signing with a key store** adds only what is short. -/
theorem sign (hp : p.Fits) (hshaped : p.Shaped) {store : KeyStore} {options : SignOptions}
    {complete : Bool} (h : p.sign scheme (store.signer scheme) options = .ok (q, complete)) :
    q.Fits := by
  obtain ⟨-, working, hworking, -, -, committed, hcommit, rfl, -⟩ := sign_eq_ok_iff.mp h
  obtain ⟨-, -, rfl⟩ := (KeyStore.signer_eq_ok_iff hshaped).mp hworking
  have hfilled : ∀ w ∈ (p.withOffers
      (KeyStore.offers scheme (store.held scheme) options p)).inputs, w.Fits := by
    intro w hw
    obtain ⟨i, hi⟩ := List.mem_iff_getElem?.mp hw
    rw [getElem?_inputs_withOffers, Option.map_eq_some_iff] at hi
    obtain ⟨x, hx, rfl⟩ := hi
    exact InputMap.fits_withOffers (hp.inputs x (List.mem_of_getElem? hx)) _
  have hcommitted := hp.commitFrom hfilled hcommit
  split
  · exact hcommitted.finalize
  · exact hcommitted

end Fits

/-! ## Copies that were read or created, and what becomes of them -/

end Psbt

/-- Whether an operation records what is known about an input. -/
def Operation.isUpdate : Operation → Bool
  | setWitnessUtxo _ _ => true
  | setNonWitnessUtxo _ _ => true
  | setRedeemScript _ _ => true
  | setWitnessScript _ _ => true
  | addDerivation _ _ _ => true
  | _ => false

/-- What is known about an input is recorded there. -/
private theorem Operation.exists_record {scheme : SignatureScheme} {p q : Psbt} {op : Operation}
    (hop : op.isUpdate = true) (h : op.attempt scheme p = .ok q) :
    ∃ (index : Nat) (k : InputKey) (v : k.Value), p.record index k v = .ok q := by
  cases op <;> simp only [isUpdate, Bool.false_eq_true] at hop
  case setNonWitnessUtxo index tx => exact ⟨_, _, _, Psbt.record_of_setNonWitnessUtxo h⟩
  all_goals exact ⟨_, _, _, h⟩

namespace Psbt

variable {scheme : SignatureScheme} {p q : Psbt}

/-- **Copies that were read or created**, and what becomes of them by updating, merging, signing
with a key store and making inputs final. They are limited if nothing that is brought in from
outside makes them too long: no plan, no record, no union of two maps of the whole. -/
inductive Obtained (scheme : SignatureScheme) (limited : Bool) : Psbt → Prop where
  /-- A copy that was read. -/
  | read {p : Psbt} (h : p.Decoded) : Obtained scheme limited p
  /-- The copy that a plan describes. -/
  | createPlan {plan : SpendPlan} {network : Network} {p : Psbt} (h : plan.create network = .ok p)
      (hfits : limited = true → p.Fits) : Obtained scheme limited p
  /-- A copy in which something was recorded. -/
  | update {p q : Psbt} (hp : Obtained scheme limited p) {op : Operation}
      (hop : op.isUpdate = true) (h : op.attempt scheme p = .ok q)
      (hfits : limited = true → q.Fits) : Obtained scheme limited q
  /-- A union of two copies. -/
  | merge {p q r : Psbt} (hp : Obtained scheme limited p) (hq : Obtained scheme limited q)
      (h : Psbt.merge p q = .ok r) (hwhole : limited = true → r.WholeFits) :
      Obtained scheme limited r
  /-- A copy that was signed. -/
  | sign {p q : Psbt} (hp : Obtained scheme limited p) {store : KeyStore} {options : SignOptions}
      {complete : Bool} (h : p.sign scheme (store.signer scheme) options = .ok (q, complete)) :
      Obtained scheme limited q
  /-- A copy whose inputs were made final as far as possible. -/
  | finalize {p : Psbt} (hp : Obtained scheme limited p) :
      Obtained scheme limited (p.finalize scheme)

namespace Obtained

/-- **No operation spoils the structure** of a copy. -/
theorem wellFormed {limited : Bool} (h : Obtained scheme limited p) : p.WellFormed := by
  induction h with
  | read h => exact h.wellFormed
  | createPlan h _ => exact .createPlan h
  | update _ hop h _ ih =>
    obtain ⟨index, k, v, hrecord⟩ := Operation.exists_record hop h
    obtain ⟨x, -, -, rfl⟩ := record_eq_ok hrecord
    exact ih.of_inputs rfl rfl (by simp [setInput])
  | merge _ _ h _ ihp ihq =>
    obtain ⟨hcompatible, rfl⟩ := (merge_eq_ok_iff ihp.shaped ihq.shaped).mp h
    exact ihp.joined ihq hcompatible.transaction
  | sign _ h ih =>
    obtain ⟨-, working, -, -, -, committed, hcommit, rfl, -⟩ := sign_eq_ok_iff.mp h
    have hc := commitFrom_committed hcommit
    have hcommitted := ih.of_inputs hc.transaction hc.outputs hc.length
    split
    · exact hcommitted.finalize
    · exact hcommitted
  | finalize _ ih => exact ih.finalize

/-- **Limited copies are not too long.** -/
theorem fits (h : Obtained scheme true p) : p.Fits := by
  induction h with
  | read h => exact h.fits
  | createPlan _ hfits => exact hfits rfl
  | update _ _ _ hfits _ => exact hfits rfl
  | merge hp hq h hwhole ihp ihq =>
    obtain ⟨-, rfl⟩ := (merge_eq_ok_iff hp.wellFormed.shaped hq.wellFormed.shaped).mp h
    exact ihp.joined ihq (hwhole rfl)
  | sign hp h ih => exact ih.sign hp.wellFormed.shaped h
  | finalize _ ih => exact ih.finalize

/-- A union of several copies is made of unions of two. -/
theorem mergeAll {ps : List Psbt} (hps : ∀ p ∈ ps, Obtained scheme false p)
    (h : Psbt.mergeAll ps = .ok q) : Obtained scheme false q := by
  cases ps with
  | nil => cases h
  | cons p ps =>
    rw [List.forall_mem_cons] at hps
    obtain ⟨hp, hps⟩ := hps
    change ps.foldlM Psbt.merge p = .ok q at h
    induction ps generalizing p with
    | nil => exact Except.ok.inj h ▸ hp
    | cons next ps ih =>
      rw [List.forall_mem_cons] at hps
      obtain ⟨hnext, hps⟩ := hps
      rw [List.foldlM_cons, Steps.bind_eq_ok_iff] at h
      obtain ⟨r, hr, h⟩ := h
      exact ih r (hp.merge hnext hr (by simp)) hps h

end Obtained

/-! ## Rounds through the binary form -/

/-- Writes a copy and reads it again, several times in a row. -/
def passOn : Nat → Psbt → Except Fault Psbt
  | 0, p => .ok p
  | hops + 1, p => do passOn hops (← decode p.bytes)

/-- A copy that is read back once is read back again and again. -/
private theorem passOn_eq (h : decode p.bytes = .ok p) (hops : Nat) : p.passOn hops = .ok p := by
  induction hops with
  | zero => rfl
  | succ hops ih => exact Steps.bind_eq_ok_iff.mpr ⟨p, h, ih⟩

/-- **The binary form loses nothing.** A copy that was read has every record that was there, and is
found again in every further round through the binary form, whatever the spelling was that it was
read from. A copy that was made of such copies, or created, is found again exactly when nothing in
it is too long; so it is if only what was brought in from outside keeps the limits. -/
theorem lossless_bytes (scheme : SignatureScheme) :
    (∀ bs p, decode bs = .ok p →
      p.SpelledBy bs ∧ decode p.bytes = .ok p ∧ ∀ hops, p.passOn hops = .ok p) ∧
    (∀ p, Obtained scheme false p → (decode p.bytes = .ok p ↔ p.Fits)) ∧
    ∀ p, Obtained scheme true p →
      decode p.bytes = .ok p ∧ ∀ hops, p.passOn hops = .ok p := by
  refine ⟨fun bs p h => ?_, fun p h => ?_, fun p h => ?_⟩
  · obtain ⟨hform, hfits, hspelled⟩ := spec_of_decode h
    have hback := decode_bytes_iff.mpr ⟨hform, hfits⟩
    exact ⟨hspelled, hback, passOn_eq hback⟩
  · rw [decode_bytes_iff]
    exact and_iff_right h.wellFormed
  · have hback := decode_bytes_iff.mpr ⟨h.wellFormed, h.fits⟩
    exact ⟨hback, passOn_eq hback⟩

/-- Two copies that were read, one of them with bytes behind its last map, and their union: none is
too long. -/
theorem lossless_bytes_openWithBoth :
    openAsking.SpelledBy (openAsking.bytes ++ [7]) ∧ openAsking.passOn 7 = .ok openAsking ∧
      openWithBoth.Fits ∧ openWithBoth.passOn 7 = .ok openWithBoth := by
  have hasking : decode (openAsking.bytes ++ [7]) = .ok openAsking := decode_of_ofBytes? rfl
  have hknowing : openKnowing.Decoded := @Decoded.of_ofBytes? _ openKnowing.bytes rfl
  have hwhole : openWithBoth.WholeFits := by
    unfold WholeFits
    decide +kernel
  have hunion : ∀ limited, Obtained Curve.secp256k1 limited openWithBoth :=
    fun limited => .merge (.read ⟨_, hasking⟩) (.read hknowing) rfl fun _ => hwhole
  obtain ⟨hread, hexact, hlimited⟩ := lossless_bytes Curve.secp256k1
  obtain ⟨hspelled, -, hpassed⟩ := hread (openAsking.bytes ++ [7]) openAsking hasking
  obtain ⟨hback, hpassed'⟩ := hlimited openWithBoth (hunion true)
  exact ⟨hspelled, hpassed 7, (hexact openWithBoth (hunion false)).mp hback, hpassed' 7⟩

/-- The copy that knows nothing about its input. -/
def openBlank : Psbt :=
  sampleCopy ∅

/-- The source of a key that is derived in a million steps. -/
def distantSource : KeySource :=
  ⟨Fixed.zero 4, List.replicate 1000000 0⟩

/-- **Records of any length can be added, but not read.** A source of a key may be recorded that is
longer than a record can be. -/
theorem not_lossless_bytes_of_obtained :
    ¬ ∀ p : Psbt, Obtained Curve.secp256k1 false p → decode p.bytes = .ok p := by
  intro h
  have hblank : openBlank.Decoded := @Decoded.of_ofBytes? _ openBlank.bytes rfl
  let key := InputKey.derivation Curve.generatorPoint
  let distant := openBlank.setInput 0 ((∅ : InputMap).insert key distantSource)
  have hupdate : (Operation.addDerivation 0 Curve.generatorPoint distantSource).attempt
      Curve.secp256k1 openBlank = .ok distant := rfl
  have hback := h distant (.update (.read hblank) rfl hupdate (by simp))
  have hfits : distant.Fits := (decode_bytes_iff.mp hback).2
  have hinput : (∅ : InputMap).insert key distantSource ∈ distant.inputs := by
    simp [distant, openBlank, sampleCopy, setInput]
  have hrecord := RecordMap.fits_iff.mp (hfits.inputs _ hinput) key distantSource
    (RecordMap.get?_insert_self _ _ _)
  have hshort : distantSource.bytes.length ≤ maxLength := hrecord.value.length_le
  have hsteps := Bytes.length_flatMap_of_length Bytes.length_ofUInt32 distantSource.path
  have hcount : distantSource.path.length = 1000000 := List.length_replicate
  rw [KeySource.bytes, List.length_append, Fixed.length_eq, hsteps, hcount] at hshort
  exact absurd hshort (by decide)

end Psbt

end JointSpend
