import JointSpend.Proofs.Merge.Outcome
import JointSpend.Sign.KeyStore

set_option autoImplicit false
set_option relaxedAutoImplicit false

/-!
# Offers of signatures

A signer has signatures to offer for inputs; at places that are free they are added. What an input
needs to be signed does not depend on the signatures it has, so adding offers changes neither the
spending path of an input nor the digests that are signed.

## Main definitions

* `JointSpend.Offer` — a record that holds a signature.
* `JointSpend.InputMap.withOffers`, `JointSpend.Psbt.withOffers` — offers added at free places.
* `JointSpend.Offer.Consistent` — no two different signatures for one place.

## Main results

* `JointSpend.Psbt.spendPath_withOffers`, `JointSpend.Psbt.taprootDigest_withOffers` — what is
  signed stays the same.
* `JointSpend.InputMap.withOffers_congr` — the order of consistent offers does not matter.
-/

namespace JointSpend

/-- A record that holds a signature. -/
abbrev Offer := { e : Sigma InputKey.Value // InputKey.isSignature e.1 = true }

namespace Offer

/-- An offer of a signature under a key. -/
def partialSig (key : PublicKey) (sig : TypedSignature) : Offer :=
  ⟨⟨.partialSig key, sig⟩, rfl⟩

/-- An offer of a signature under the output key. -/
def tapKeySig (sig : TaprootSignature) : Offer :=
  ⟨⟨.tapKeySig, sig⟩, rfl⟩

@[simp]
theorem partialSig_val (key : PublicKey) (sig : TypedSignature) :
    (partialSig key sig).1 = ⟨.partialSig key, sig⟩ :=
  rfl

@[simp]
theorem tapKeySig_val (sig : TaprootSignature) : (tapKeySig sig).1 = ⟨.tapKeySig, sig⟩ :=
  rfl

/-- The first signature for a place among offers. -/
def lookup (k : InputKey) (offers : List Offer) : Option k.Value :=
  RecordMap.lookup k (offers.map Subtype.val)

theorem lookup_append (k : InputKey) (as bs : List Offer) :
    lookup k (as ++ bs) = (lookup k as).or (lookup k bs) := by
  rw [lookup, List.map_append, RecordMap.lookup_append]
  rfl

/-- Nothing but signatures is offered. -/
theorem lookup_eq_none {k : InputKey} (hk : k.isSignature = false) (offers : List Offer) :
    lookup k offers = none := by
  refine RecordMap.lookup_eq_none fun e he hke => ?_
  obtain ⟨offer, -, rfl⟩ := List.mem_map.mp he
  simp [← hke, offer.2] at hk

/-- What is found was offered. -/
theorem mem_of_lookup {k : InputKey} {v : k.Value} {offers : List Offer}
    (h : lookup k offers = some v) : ∃ offer ∈ offers, offer.1 = ⟨k, v⟩ :=
  List.mem_map.mp (RecordMap.mem_of_lookup h)

/-- For a place that something is offered for, something is found. -/
theorem exists_lookup_of_mem {offer : Offer} {offers : List Offer} (h : offer ∈ offers) :
    ∃ v, lookup offer.1.1 offers = some v := by
  by_contra hnone
  have hfree : lookup offer.1.1 offers = none := by
    simpa [Option.eq_none_iff_forall_ne_some] using hnone
  exact RecordMap.ne_of_lookup_eq_none hfree _ (List.mem_map_of_mem h) rfl

/-- Offers are consistent when no two of them put different signatures in one place. -/
def Consistent (offers : List Offer) : Prop :=
  ∀ a ∈ offers, ∀ b ∈ offers, a.1.1 = b.1.1 → a = b

theorem Consistent.mono {as bs : List Offer} (h : Consistent bs) (hsub : ∀ a ∈ as, a ∈ bs) :
    Consistent as :=
  fun a ha b hb => h a (hsub a ha) b (hsub b hb)

/-- Of consistent offers, each is found. -/
theorem Consistent.lookup_eq_some_iff {offers : List Offer} (h : Consistent offers) {k : InputKey}
    {v : k.Value} : lookup k offers = some v ↔ ∃ offer ∈ offers, offer.1 = ⟨k, v⟩ := by
  refine ⟨mem_of_lookup, ?_⟩
  rintro ⟨offer, hmem, heq⟩
  obtain ⟨w, hw⟩ : ∃ w, lookup k offers = some w := by
    have hfound := exists_lookup_of_mem hmem
    rwa [heq] at hfound
  obtain ⟨offer', hmem', heq'⟩ := mem_of_lookup hw
  have hsame : offer = offer' := h offer hmem offer' hmem' (by rw [heq, heq'])
  rw [hsame, heq'] at heq
  rw [hw]
  exact congrArg some (eq_of_heq (Sigma.mk.inj heq).2)

end Offer

/-! ## Inputs with offers -/

namespace InputMap

/-- An input with offers added at free places. -/
def withOffers (offers : List Offer) (x : InputMap) : InputMap :=
  (offers.map Subtype.val).foldl RecordMap.insertIfFree x

@[simp]
theorem withOffers_nil (x : InputMap) : withOffers [] x = x :=
  rfl

private theorem withOffers_append (as bs : List Offer) (x : InputMap) :
    withOffers (as ++ bs) x = withOffers bs (withOffers as x) := by
  rw [withOffers, List.map_append, List.foldl_append]
  rfl

/-- What is there stays; a free place gets the first signature offered for it. -/
theorem get?_withOffers (offers : List Offer) (x : InputMap) (k : InputKey) :
    (withOffers offers x).get? k = (x.get? k).or (Offer.lookup k offers) :=
  RecordMap.get?_fold_insertIfFree _ x k

/-- Records other than signatures are left alone. -/
theorem get?_withOffers_of_not {k : InputKey} (hk : k.isSignature = false) (offers : List Offer)
    (x : InputMap) : (withOffers offers x).get? k = x.get? k := by
  rw [get?_withOffers, Offer.lookup_eq_none hk, Option.or_none]

/-- Offers that were added are not added again. -/
@[simp]
theorem withOffers_withOffers_self (offers : List Offer) (x : InputMap) :
    withOffers offers (withOffers offers x) = withOffers offers x := by
  refine RecordMap.ext_get? fun k => ?_
  rw [get?_withOffers, get?_withOffers, Option.or_assoc, Option.or_self]

/-- Offers do not make an input final. -/
@[simp]
theorem isFinal_withOffers (offers : List Offer) (x : InputMap) :
    isFinal (withOffers offers x) = isFinal x := by
  apply isFinal_congr
  intro k hk
  apply get?_withOffers_of_not
  cases hs : k.isSignature with
  | false => rfl
  | true => simp [InputKey.isUnited_of_isSignature hs] at hk

/-- Offers for places that are taken change nothing. -/
theorem withOffers_of_taken {offers : List Offer} {x : InputMap}
    (h : ∀ offer ∈ offers, x.contains offer.1.1 = true) : withOffers offers x = x := by
  apply RecordMap.ext_get?
  intro k
  rw [get?_withOffers]
  cases hx : x.get? k with
  | some v => rfl
  | none =>
    rw [Option.none_or, Option.eq_none_iff_forall_ne_some]
    intro v hv
    obtain ⟨offer, hmem, heq⟩ := Offer.mem_of_lookup hv
    have htaken := h offer hmem
    rw [heq, RecordMap.contains_eq_isSome, hx] at htaken
    simp at htaken

/-- A single offer for a free place is put in. -/
theorem withOffers_singleton {offer : Offer} {x : InputMap} (h : x.contains offer.1.1 = false) :
    withOffers [offer] x = x.insert offer.1.1 offer.1.2 := by
  change RecordMap.insertIfFree x offer.1 = _
  rw [RecordMap.insertIfFree, h]
  rfl

/-- **The order of consistent offers does not matter.** -/
theorem withOffers_congr {as bs : List Offer} (ha : Offer.Consistent as)
    (h : ∀ a, a ∈ as ↔ a ∈ bs) (x : InputMap) : withOffers as x = withOffers bs x := by
  have hb : Offer.Consistent bs := ha.mono fun b hb => (h b).mpr hb
  apply RecordMap.ext_get?
  intro k
  rw [get?_withOffers, get?_withOffers]
  congr 1
  apply Option.ext
  intro v
  rw [ha.lookup_eq_some_iff, hb.lookup_eq_some_iff]
  simp only [h]

end InputMap

/-! ## Copies with offers -/

namespace Psbt

/-- A copy with offers for each input, given by its index, added at free places. -/
def withOffers (offers : Nat → List Offer) (p : Psbt) : Psbt :=
  { p with inputs := p.inputs.mapIdx fun i x => InputMap.withOffers (offers i) x }

/-- Offers for one input only. -/
def offersFor (index : Nat) (offers : List Offer) (i : Nat) : List Offer :=
  if i = index then offers else []

variable (offers : Nat → List Offer) (p : Psbt)

@[simp]
theorem transaction_withOffers : (p.withOffers offers).transaction = p.transaction :=
  rfl

@[simp]
theorem length_inputs_withOffers : (p.withOffers offers).inputs.length = p.inputs.length := by
  simp [withOffers]

@[simp]
theorem getElem?_inputs_withOffers (i : Nat) :
    (p.withOffers offers).inputs[i]? = (p.inputs[i]?).map (InputMap.withOffers (offers i)) := by
  simp [withOffers]

theorem Shaped.withOffers {p : Psbt} (hp : p.Shaped) : (p.withOffers offers).Shaped :=
  ⟨by simp [hp.length_inputs], hp.length_outputs⟩

/-- Copies that differ in their inputs only are equal when the inputs are, one by one. -/
theorem withOffers_eq_of_inputs {q : Psbt} {offers : Nat → List Offer} {p : Psbt}
    (htx : q.transaction = p.transaction) (hglobals : q.globals = p.globals)
    (houtputs : q.outputs = p.outputs)
    (h : ∀ i : Nat, q.inputs[i]? = (p.inputs[i]?).map (InputMap.withOffers (offers i))) :
    q = p.withOffers offers := by
  have hinputs : q.inputs = (p.withOffers offers).inputs := by
    apply List.ext_getElem?
    intro i
    rw [h, getElem?_inputs_withOffers]
  obtain ⟨tx, globals, inputs, outputs⟩ := q
  simp only at htx hglobals houtputs hinputs
  rw [htx, hglobals, houtputs, hinputs]
  rfl

theorem withOffers_withOffers (more : Nat → List Offer) :
    (p.withOffers offers).withOffers more = p.withOffers fun i => offers i ++ more i := by
  refine withOffers_eq_of_inputs rfl rfl rfl fun i => ?_
  rw [getElem?_inputs_withOffers, getElem?_inputs_withOffers, Option.map_map]
  congr 1
  funext x
  rw [InputMap.withOffers_append]
  rfl

/-- Offers count at the inputs that there are. -/
theorem withOffers_congr {offers more : Nat → List Offer} {p : Psbt}
    (h : ∀ (i : Nat) (x : InputMap), p.inputs[i]? = some x →
      InputMap.withOffers (offers i) x = InputMap.withOffers (more i) x) :
    p.withOffers offers = p.withOffers more := by
  refine withOffers_eq_of_inputs rfl rfl rfl fun i => ?_
  rw [getElem?_inputs_withOffers]
  cases hx : p.inputs[i]? with
  | none => rfl
  | some x => simp [h i x hx]

/-- Without offers for the inputs that there are, a copy stays as it is. -/
theorem withOffers_eq_self {offers : Nat → List Offer} {p : Psbt}
    (h : ∀ (i : Nat) (x : InputMap), p.inputs[i]? = some x → offers i = []) :
    p.withOffers offers = p := by
  refine (withOffers_eq_of_inputs rfl rfl rfl fun i => ?_).symm
  cases hx : p.inputs[i]? with
  | none => rfl
  | some x => simp [h i x hx]

@[simp]
theorem withOffers_offersFor_nil (index : Nat) : p.withOffers (offersFor index []) = p :=
  withOffers_eq_self fun _ _ _ => ite_self _

theorem withOffers_offersFor_append (index : Nat) (as bs : List Offer) :
    (p.withOffers (offersFor index as)).withOffers (offersFor index bs) =
      p.withOffers (offersFor index (as ++ bs)) := by
  rw [withOffers_withOffers]
  congr 1
  funext i
  unfold offersFor
  split <;> rfl

/-- An input set to itself with offers. -/
theorem setInput_withOffers {p : Psbt} {index : Nat} {x : InputMap} (hx : p.inputs[index]? = some x)
    (os : List Offer) :
    p.setInput index (InputMap.withOffers os x) = p.withOffers (offersFor index os) := by
  refine withOffers_eq_of_inputs rfl rfl rfl fun i => ?_
  rw [setInput, List.getElem?_set]
  unfold offersFor
  by_cases hi : index = i
  · subst hi
    have hlt : index < p.inputs.length := (List.getElem?_eq_some_iff.mp hx).1
    rw [if_pos rfl, if_pos hlt, if_pos rfl, hx]
    rfl
  · rw [if_neg hi, if_neg (Ne.symm hi)]
    cases p.inputs[i]? <;> rfl

/-! ## What is signed -/

/-- Offers do not change which output an input spends. -/
@[simp]
theorem spentOutput?_withOffers (i : Nat) :
    (p.withOffers offers).spentOutput? i = p.spentOutput? i := by
  unfold spentOutput?
  cases hx : p.inputs[i]? with
  | none => simp [hx]
  | some x =>
    have hw : (InputMap.withOffers (offers i) x).get? .witnessUtxo = x.get? .witnessUtxo :=
      InputMap.get?_withOffers_of_not rfl _ x
    have hn : (InputMap.withOffers (offers i) x).get? .nonWitnessUtxo = x.get? .nonWitnessUtxo :=
      InputMap.get?_withOffers_of_not rfl _ x
    simp [hx, hw, hn]

/-- Offers do not change the path below a script. -/
private theorem below_withOffers (os : List Offer) (x : InputMap) (output : TxOutput)
    (inner : Script) (redeem : Option Script) :
    SpendPath.below (InputMap.withOffers os x) output inner redeem =
      SpendPath.below x output inner redeem := by
  have hw : (InputMap.withOffers os x).get? .witnessScript = x.get? .witnessScript :=
    InputMap.get?_withOffers_of_not rfl os x
  unfold SpendPath.below
  rw [hw]

/-- **Offers do not change how an input is spent.** -/
@[simp]
theorem spendPath_withOffers (i : Nat) : (p.withOffers offers).spendPath i = p.spendPath i := by
  unfold spendPath
  rw [spentOutput?_withOffers]
  cases hx : p.inputs[i]? with
  | none => simp [hx]
  | some x =>
    have hr : (InputMap.withOffers (offers i) x).get? .redeemScript = x.get? .redeemScript :=
      InputMap.get?_withOffers_of_not rfl _ x
    simp only [getElem?_inputs_withOffers, hx, Option.map_some, hr, below_withOffers]

/-- **Offers do not change what a taproot signature signs.** -/
@[simp]
theorem taprootDigest_withOffers (i : Nat) (type : TaprootSighashType) :
    (p.withOffers offers).taprootDigest i type = p.taprootDigest i type := by
  have hspent : ∀ count start, (p.withOffers offers).spentOutputsFrom count start =
      p.spentOutputsFrom count start := by
    intro count
    induction count with
    | zero => exact fun _ => rfl
    | succ count ih =>
      intro start
      simp only [spentOutputsFrom, spentOutput?_withOffers, ih]
  unfold taprootDigest
  rw [hspent, length_inputs_withOffers, transaction_withOffers]

end Psbt

end JointSpend
