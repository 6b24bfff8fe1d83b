import JointSpend.Proofs.Spend.Lengths
import Mathlib.Data.Finset.Sort

set_option autoImplicit false
set_option relaxedAutoImplicit false

/-!
# Which signatures a threshold takes

Signatures are recorded under keys, in any number, valid or not, while a script for a threshold of
keys takes them in the order of its own keys, one of which may occur twice. So positions count, not
keys: the script takes the signatures at the first positions that have signed, as many as it asks
for, and nothing else that is recorded matters.

## Main definitions

* `JointSpend.Psbt.signedPositions` — the positions of the keys that have signed.
* `JointSpend.Psbt.AlikeUnsigned` — two inputs that differ in signatures only.
* `JointSpend.Psbt.CountsAlike` — two inputs that differ in signatures that do not count.

## Main results

* `JointSpend.Psbt.finalizeInput_of_stack`, `JointSpend.Psbt.finalizeInput_of_missing` — with a
  template, only the stack decides whether an input can be made final.
* `JointSpend.Psbt.multisigStack_eq` — the stack for a threshold, or what is missing.
* `JointSpend.Psbt.finalizeInput_multisig` — the selection is exact.
-/

namespace JointSpend

/-! ## Positions -/

/-- The positions with a property, in order. -/
private theorem sort_univ_filter {n : Nat} (P : Fin n → Prop) [DecidablePred P] :
    (Finset.univ.filter P).sort = (List.finRange n).filter P := by
  refine (Finset.sortedLT_sort _).eq_of_mem_iff ?_ (by simp)
  exact ((List.sortedLT_finRange n).pairwise.filter _).sortedLT

/-- The elements at the positions with a property, in order. -/
private theorem map_sort_univ_filter {α : Type} (as : List α) (P : α → Prop) [DecidablePred P] :
    ((Finset.univ.filter fun j : Fin as.length => P as[j]).sort.map fun j => as[j]) =
      as.filter P := by
  rw [sort_univ_filter]
  conv_rhs => rw [← List.map_getElem_finRange as, List.filter_map]
  rfl

/-- What is found for some elements of a list, beside the elements that it is found for. -/
theorem forall₂_filter_filterMap {α γ : Type} (f : α → Option γ) (as : List α) :
    List.Forall₂ (fun a c => f a = some c) (as.filter fun a => (f a).isSome) (as.filterMap f) := by
  induction as with
  | nil => exact .nil
  | cons a as ih =>
    cases hfa : f a with
    | none =>
      rw [List.filterMap_cons_none hfa, List.filter_cons_of_neg (by simp [hfa])]
      exact ih
    | some c =>
      rw [List.filterMap_cons_some hfa, List.filter_cons_of_pos (by simp [hfa])]
      exact .cons hfa ih

namespace Psbt

section Positions

variable (scheme : SignatureScheme) (p : Psbt) (index : Nat) (input : InputMap) (path : SpendPath)
  (keys : List PublicKey)

/-- **The positions of the keys that have signed**: a valid signature is recorded under the key
there. -/
def signedPositions : Finset (Fin keys.length) :=
  Finset.univ.filter fun j => SignedBy scheme p index input path keys[j]

/-- The keys at the positions that have not signed. -/
private theorem map_sort_compl_signedPositions :
    ((signedPositions scheme p index input path keys)ᶜ.sort.map fun j => keys[j]) =
      keys.filter fun key => ¬ SignedBy scheme p index input path key := by
  rw [signedPositions, Finset.compl_filter]
  exact map_sort_univ_filter keys fun key => ¬ SignedBy scheme p index input path key

/-- The valid signatures, beside the positions that have signed. -/
private theorem forall₂_sort_signedPositions :
    List.Forall₂ (fun j sig => p.validSignature? scheme index input path keys[j] = some sig)
      (signedPositions scheme p index input path keys).sort
      (keys.filterMap (p.validSignature? scheme index input path)) := by
  have hfound := forall₂_filter_filterMap
    (fun j : Fin keys.length => p.validSignature? scheme index input path keys[j])
    (List.finRange keys.length)
  have hkeys : ((List.finRange keys.length).filterMap fun j =>
      p.validSignature? scheme index input path keys[j]) =
        keys.filterMap (p.validSignature? scheme index input path) := by
    conv_rhs => rw [← List.map_getElem_finRange keys, List.filterMap_map]
    rfl
  simp only [hkeys, isSome_validSignature?] at hfound
  rw [signedPositions, sort_univ_filter]
  exact hfound

/-- There are as many valid signatures as positions that have signed. -/
private theorem length_filterMap_validSignature? :
    (keys.filterMap (p.validSignature? scheme index input path)).length =
      (signedPositions scheme p index input path keys).card := by
  rw [← (forall₂_sort_signedPositions scheme p index input path keys).length_eq,
    Finset.length_sort]

end Positions

variable {scheme : SignatureScheme} {p q : Psbt} {index : Nat} {input x y : InputMap}
  {path : SpendPath} {template : Template} {threshold : Nat} {keys : List PublicKey}

/-- As many positions as keys have signed. -/
private theorem card_signedPositions (scheme : SignatureScheme) (p : Psbt) (index : Nat)
    (input : InputMap) (path : SpendPath) (keys : List PublicKey) :
    (signedPositions scheme p index input path keys).card =
      keys.countP fun key => SignedBy scheme p index input path key := by
  rw [← length_filterMap_validSignature?, length_validSignatures]

/-- **The stack for a threshold of keys**: an empty element and the first valid signatures if there
are enough, and otherwise the keys that have not signed. -/
theorem multisigStack_eq : p.multisigStack scheme index input path threshold keys =
    if (keys.countP fun key => SignedBy scheme p index input path key) < threshold then
      .error (.signatures (keys.filter fun key => ¬ SignedBy scheme p index input path key)
        (threshold - keys.countP fun key => SignedBy scheme p index input path key))
    else
      .ok ([] :: ((keys.filterMap (p.validSignature? scheme index input path)).take
        threshold).map (·.bytes)) := by
  have hsigs : (keys.map fun key =>
      (key, p.validSignature? scheme index input path key)).filterMap (·.2) =
        keys.filterMap (p.validSignature? scheme index input path) := by
    rw [List.filterMap_map]
    rfl
  have hunsigned : ((keys.map fun key =>
      (key, p.validSignature? scheme index input path key)).filter (·.2.isNone)).map (·.1) =
        keys.filter fun key => ¬ SignedBy scheme p index input path key := by
    rw [List.filter_map, List.map_map]
    simp only [Function.comp_def, List.map_id', ← Option.not_isSome, isSome_validSignature?,
      decide_not]
  unfold multisigStack
  dsimp only
  rw [hsigs, hunsigned, List.length_take, length_validSignatures]
  split
  · next hfew => rw [if_pos (by omega), Nat.min_eq_right (by omega)]
  · next henough => rw [if_neg (by omega)]

/-! ## Final scripts for a template -/

/-- A redeem script on a path with a template can be pushed. -/
theorem pushable_of_template (hpath : p.spendPath index = .ok path)
    (htemplate : path.template? = some template) : path.Pushable := by
  intro redeem hredeem
  have := length_le_of_spendPath hpath htemplate redeem (by simp [hredeem])
  omega

/-- **With a stack for its template** an input can be made final, with the scripts for the stack. -/
theorem finalizeInput_of_stack {stack : List Bytes} (hpath : p.spendPath index = .ok path)
    (htemplate : path.template? = some template) (hx : p.inputs[index]? = some x)
    (hstack : p.templateStack scheme index x path template = .ok stack) :
    ∃ scripts, p.finalizeInput scheme index = .ok scripts ∧
      FinalScripts.ofStack? path stack = some scripts := by
  have hshort : ∀ item ∈ stack, item.length < 0x100000000 := by
    intro item hitem
    have := length_le_of_templateStack hstack item hitem
    omega
  obtain ⟨scripts, hscripts⟩ := Option.isSome_iff_exists.mp
    ((isSome_ofStack?_iff hshort).mpr (pushable_of_template hpath htemplate))
  exact ⟨scripts, finalizeInput_eq_ok_iff.mpr
    ⟨path, template, x, stack, hpath, htemplate, hx, hstack, hscripts⟩, hscripts⟩

/-- **Without a stack for its template** an input lacks what the stack lacks. -/
theorem finalizeInput_of_missing {missing : Missing} (hpath : p.spendPath index = .ok path)
    (htemplate : path.template? = some template) (hx : p.inputs[index]? = some x)
    (hmissing : p.templateStack scheme index x path template = .error missing) :
    p.finalizeInput scheme index = .error missing := by
  unfold finalizeInput
  rw [hpath]
  simp only [bind, Except.bind, htemplate, hx, hmissing]

/-- Inputs for whose template there is the same stack come out the same. -/
private theorem finalizeInput_congr (hpath : p.spendPath index = .ok path)
    (hpath' : q.spendPath index = .ok path) (hx : p.inputs[index]? = some x)
    (hy : q.inputs[index]? = some y) (htemplate : path.template? = some template)
    (hstack : p.templateStack scheme index x path template =
      q.templateStack scheme index y path template) :
    p.finalizeInput scheme index = q.finalizeInput scheme index := by
  unfold finalizeInput
  rw [hpath, hpath', hx, hy]
  simp only [bind, Except.bind, htemplate, hstack]

/-! ## Signatures that do not count -/

/-- Two inputs differ at most in their signatures. -/
def AlikeUnsigned (x y : InputMap) : Prop :=
  ∀ k, InputKey.isSignature k = false → y.get? k = x.get? k

/-- Copies spend alike, whatever the signatures for an input are. -/
theorem AlikeUnsigned.spendsAlike (h : AlikeUnsigned x y) (hx : p.inputs[index]? = some x) :
    SpendsAlike p (p.setInput index y) :=
  SpendsAlike.setInput_retained hx fun k hk => h k (InputKey.isSignature_eq_false hk)

/-- The path of an input does not depend on its signatures. -/
theorem AlikeUnsigned.spendPath_eq (h : AlikeUnsigned x y) (hx : p.inputs[index]? = some x)
    (hpath : p.spendPath index = .ok path) : (p.setInput index y).spendPath index = .ok path := by
  have hy : (p.setInput index y).inputs[index]? = some y := by simp [hx]
  refine (h.spendsAlike hx).extends.spendPath_eq hx hy (fun script hscript => ?_)
    (fun script hscript => ?_) hpath
  · rw [h _ rfl, hscript]
  · rw [h _ rfl, hscript]

variable (scheme p index path keys) in
/-- Two inputs differ at most in signatures that do not count for some keys: those under other keys,
and those that are not valid. -/
structure CountsAlike (x y : InputMap) : Prop where
  others : AlikeUnsigned x y
  valid : ∀ key ∈ keys, ∀ sig, p.verifies scheme index path key sig = true →
    (y.get? (.partialSig key) = some sig ↔ x.get? (.partialSig key) = some sig)

/-- **Signatures that do not count do not matter.** -/
theorem CountsAlike.finalizeInput_eq (h : CountsAlike scheme p index path keys x y)
    (hpath : p.spendPath index = .ok path)
    (htemplate : path.template? = some (.multisig threshold keys))
    (hx : p.inputs[index]? = some x) :
    (p.setInput index y).finalizeInput scheme index = p.finalizeInput scheme index := by
  have hy : (p.setInput index y).inputs[index]? = some y := by simp [hx]
  have hvalid : ∀ key ∈ keys, p.validSignature? scheme index y path key =
      p.validSignature? scheme index x path key := by
    intro key hkey
    refine Option.ext fun sig => ?_
    simp only [validSignature?, Option.filter_eq_some_iff]
    exact and_congr_left (h.valid key hkey sig)
  refine finalizeInput_congr (h.others.spendPath_eq hx hpath) hpath hy hx htemplate ?_
  rw [← (h.others.spendsAlike hx).templateStack_eq]
  simp only [templateStack, multisigStack]
  rw [List.map_congr_left fun key hkey => by rw [hvalid key hkey]]

/-- **The selection for a threshold of keys is exact.** An input whose script asks for a threshold
of keys can be made final exactly when as many positions have signed. Then the stack is an empty
element and the signatures at the first of these positions, as many as the threshold says, in order.
Otherwise the keys at all other positions are listed, in order, and the number of signatures that
are needed. Signatures under other keys, and signatures that are not valid, do not matter.

**Proof sketch.** The stack for the threshold is read off the positions that have signed, and the
scripts behind hashes on a path with a template are short enough to be pushed, so nothing else can
be in the way. -/
theorem finalizeInput_multisig (hpath : p.spendPath index = .ok path)
    (htemplate : path.template? = some (.multisig threshold keys))
    (hx : p.inputs[index]? = some x) :
    ((∃ scripts, p.finalizeInput scheme index = .ok scripts) ↔
      threshold ≤ (signedPositions scheme p index x path keys).card) ∧
    (∀ scripts, p.finalizeInput scheme index = .ok scripts → ∃ sigs : List TypedSignature,
      sigs.length = threshold ∧
      List.Forall₂ (fun j sig => x.get? (.partialSig keys[j]) = some sig)
        ((signedPositions scheme p index x path keys).sort.take threshold) sigs ∧
      FinalScripts.ofStack? path ([] :: sigs.map (·.bytes)) = some scripts) ∧
    ((signedPositions scheme p index x path keys).card < threshold →
      1 ≤ threshold - (signedPositions scheme p index x path keys).card ∧
      p.finalizeInput scheme index = .error (.signatures
        ((signedPositions scheme p index x path keys)ᶜ.sort.map fun j => keys[j])
        (threshold - (signedPositions scheme p index x path keys).card))) ∧
    ∀ y, CountsAlike scheme p index path keys x y →
      (p.setInput index y).finalizeInput scheme index = p.finalizeInput scheme index := by
  have hfew : (signedPositions scheme p index x path keys).card < threshold →
      p.finalizeInput scheme index = .error (.signatures
        ((signedPositions scheme p index x path keys)ᶜ.sort.map fun j => keys[j])
        (threshold - (signedPositions scheme p index x path keys).card)) := by
    rw [map_sort_compl_signedPositions, card_signedPositions]
    exact fun hlt =>
      finalizeInput_of_missing hpath htemplate hx (multisigStack_eq.trans (if_pos hlt))
  have henough : threshold ≤ (signedPositions scheme p index x path keys).card →
      ∃ scripts, p.finalizeInput scheme index = .ok scripts ∧
        FinalScripts.ofStack? path ([] :: ((keys.filterMap
          (p.validSignature? scheme index x path)).take threshold).map (·.bytes)) =
            some scripts := by
    rw [card_signedPositions]
    exact fun hle => finalizeInput_of_stack hpath htemplate hx
      (multisigStack_eq.trans (if_neg (Nat.not_lt.mpr hle)))
  have hle : ∀ scripts, p.finalizeInput scheme index = .ok scripts →
      threshold ≤ (signedPositions scheme p index x path keys).card := by
    intro scripts hscripts
    by_contra hlt
    rw [hfew (Nat.not_le.mp hlt)] at hscripts
    simp at hscripts
  refine ⟨⟨fun ⟨scripts, hscripts⟩ => hle scripts hscripts, fun h => ?_⟩,
    fun scripts hscripts => ?_, fun hlt => ⟨by omega, hfew hlt⟩,
    fun y hy => hy.finalizeInput_eq hpath htemplate hx⟩
  · obtain ⟨scripts, hscripts, -⟩ := henough h
    exact ⟨scripts, hscripts⟩
  · obtain ⟨scripts', hscripts', hstack⟩ := henough (hle scripts hscripts)
    obtain rfl := Except.ok.inj (hscripts.symm.trans hscripts')
    refine ⟨_, ?_, ?_, hstack⟩
    · rw [List.length_take, length_filterMap_validSignature?]
      exact Nat.min_eq_left (hle scripts hscripts)
    · refine (List.forall₂_take threshold
        (forall₂_sort_signedPositions scheme p index x path keys)).imp fun j sig hsig => ?_
      exact (Option.filter_eq_some_iff.mp hsig).1

/-! ## A key that occurs twice -/

/-- Another key: twice the generator. -/
def sampleOtherKey : PublicKey :=
  ⟨⟨0xc6047f9441ed7d6d3045406e95c07cd85c778e4b8cef3ca7abac09b95c709ee5, false,
    Curve.isAbscissa_double⟩, true⟩

/-- The records of an input that spends an output for the hash of a script. -/
def sampleLocked (script : Script) : InputMap :=
  ((∅ : InputMap).insert .witnessUtxo ⟨2000, script.witnessOutput⟩).insert .witnessScript script

/-- A small transaction with one input. -/
def sampleSpending (x : InputMap) : Psbt :=
  ⟨⟨2, 0, [⟨⟨⟨Fixed.zero 32⟩, 0⟩, .empty, 0xffffffff, []⟩], [⟨1000, ⟨[0x51]⟩⟩]⟩, ∅, [x], [∅]⟩

/-- The path of that input. -/
def sampleLockedPath (script : Script) : SpendPath :=
  ⟨⟨2000, script.witnessOutput⟩, .witnessV0, script, none, some script⟩

/-- Three keys, of which the first and the last are the same. -/
def sampleKeys : List PublicKey :=
  [sampleKey, sampleOtherKey, sampleKey]

/-- A scheme that takes every signature of the first key for valid, and no others. -/
def sampleChecker : SignatureScheme :=
  { Curve.secp256k1 with ecdsaVerify := fun point _ _ => point = sampleKey.point }

/-- An input for two of the three keys, with one signature under both of them. -/
def sampleStale : InputMap :=
  ((sampleLocked (.multisig 2 sampleKeys)).insert (.partialSig sampleKey) sampleSignature).insert
    (.partialSig sampleOtherKey) sampleSignature

/-- The path of the input is resolved, and its script asks for two of the three keys. -/
theorem spendPath_sampleStale :
    (sampleSpending sampleStale).spendPath 0 = .ok (sampleLockedPath (.multisig 2 sampleKeys)) ∧
      (sampleLockedPath (.multisig 2 sampleKeys)).template? = some (.multisig 2 sampleKeys) := by
  constructor <;> decide +kernel

/-- The signature counts at both positions of the first key, and not under the other one. -/
theorem finalizeInput_multisig_sampleStale :
    ∃ scripts sigs, (sampleSpending sampleStale).finalizeInput sampleChecker 0 = .ok scripts ∧
      List.Forall₂ (fun (j : Fin sampleKeys.length) sig =>
          sampleStale.get? (.partialSig sampleKeys[j]) = some sig)
        [⟨0, by decide⟩, ⟨2, by decide⟩] sigs ∧
      FinalScripts.ofStack? (sampleLockedPath (.multisig 2 sampleKeys))
        ([] :: sigs.map (·.bytes)) = some scripts := by
  obtain ⟨hpath, htemplate⟩ := spendPath_sampleStale
  have hpositions : (signedPositions sampleChecker (sampleSpending sampleStale) 0 sampleStale
      (sampleLockedPath (.multisig 2 sampleKeys)) sampleKeys).sort =
        [⟨0, by decide⟩, ⟨2, by decide⟩] := by
    rw [signedPositions, sort_univ_filter]
    decide +kernel
  have hcard := congrArg List.length hpositions
  rw [Finset.length_sort] at hcard
  have hexact := @finalizeInput_multisig sampleChecker _ 0 _ _ 2 sampleKeys hpath htemplate rfl
  obtain ⟨scripts, hfinal⟩ := hexact.1.mpr hcard.ge
  obtain ⟨sigs, -, hsigs, hstack⟩ := hexact.2.1 scripts hfinal
  rw [hpositions] at hsigs
  exact ⟨scripts, sigs, hfinal, hsigs, hstack⟩

end Psbt

end JointSpend
