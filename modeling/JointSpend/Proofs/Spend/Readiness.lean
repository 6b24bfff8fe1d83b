import JointSpend.Proofs.Codec.Psbts
import JointSpend.Proofs.Curve.Lengths
import JointSpend.Proofs.Spend.Finalizing

set_option autoImplicit false
set_option relaxedAutoImplicit false

/-!
# When an input can be made final

An input can be made final exactly when its path has a known form, enough valid signatures are
recorded for that form, and the redeem script, if there is one, can be pushed. None of this is lost
when more becomes known: more signatures, more scripts, more about the spent outputs.

## Main definitions

* `JointSpend.Psbt.SignedBy`, `JointSpend.Psbt.Signed` — the signatures that a template asks for are
  recorded.
* `JointSpend.SpendPath.Pushable` — the redeem script can be pushed.
* `JointSpend.Psbt.Extends` — another copy knows all that a copy knows about the spent outputs.

## Main results

* `JointSpend.Psbt.exists_templateStack_iff` — when there is a stack for a template.
* `JointSpend.Psbt.exists_finalizeInput_iff` — when an input can be made final.
* `JointSpend.Psbt.Decoded.pushable` — redeem scripts of copies that were read can be pushed.
* `JointSpend.Psbt.Extends.exists_finalizeInput` — more knowledge does no harm.
-/

namespace JointSpend

/-- The redeem script of a path, if there is one, can be pushed. -/
def SpendPath.Pushable (path : SpendPath) : Prop :=
  ∀ redeem, path.redeemScript = some redeem → redeem.bytes.length < 0x100000000

/-- The redeem script of a path is the one that the path goes on below. -/
private theorem SpendPath.Below.redeemScript_eq {output : TxOutput} {inner : Script}
    {redeem : Option Script} {path : SpendPath} (h : path.Below output inner redeem) :
    path.redeemScript = redeem := by
  cases h with
  | keyHash => rfl
  | scriptHash => rfl
  | outputKey hdirect => exact hdirect.symm
  | base => rfl

namespace Psbt

/-! ## Recorded signatures -/

section Signed

variable (scheme : SignatureScheme) (p : Psbt) (index : Nat) (input : InputMap) (path : SpendPath)

/-- A valid signature is recorded under a key. -/
def SignedBy (key : PublicKey) : Prop :=
  ∃ sig, input.get? (.partialSig key) = some sig ∧ p.verifies scheme index path key sig = true

instance (key : PublicKey) : Decidable (SignedBy scheme p index input path key) :=
  decidable_of_iff ((p.validSignature? scheme index input path key).isSome = true) <| by
    simp only [validSignature?, Option.isSome_iff_exists, Option.filter_eq_some_iff]
    rfl

/-- **The signatures that a template asks for** are recorded: one of an accepted key with the hash,
one of the key, those of as many keys as the threshold says, or one of the output key. -/
def Signed : Template → Prop
  | .pubkeyHash hash => ∃ key, Script.hashMatches hash key = true ∧ path.accepts key = true ∧
      SignedBy scheme p index input path key
  | .pubkey key => SignedBy scheme p index input path key
  | .multisig threshold keys => threshold ≤ keys.countP fun key =>
      decide (SignedBy scheme p index input path key)
  | .taprootKey outputKey => ∃ sig, input.get? .tapKeySig = some sig ∧
      p.verifiesTaproot scheme index outputKey sig = true

end Signed

variable {scheme : SignatureScheme} {p q : Psbt} {index : Nat} {input : InputMap}
  {path : SpendPath}

/-- A valid signature is found exactly when one is recorded. -/
theorem isSome_validSignature? (key : PublicKey) :
    (p.validSignature? scheme index input path key).isSome =
      decide (SignedBy scheme p index input path key) := by
  rw [Bool.eq_iff_iff, decide_eq_true_iff]
  simp only [validSignature?, Option.isSome_iff_exists, Option.filter_eq_some_iff]
  rfl

/-- As many valid signatures are found as keys have signed. -/
theorem length_validSignatures (keys : List PublicKey) :
    (keys.filterMap (p.validSignature? scheme index input path)).length =
      keys.countP fun key => decide (SignedBy scheme p index input path key) := by
  rw [List.length_filterMap_eq_countP]
  simp only [isSome_validSignature?]

/-! ## Stacks for templates -/

/-- There is a stack for a key hash when a key with the hash has signed. -/
private theorem exists_pubkeyHashStack_iff {hash : Fixed 20} :
    (∃ stack, p.pubkeyHashStack scheme index input path hash = .ok stack) ↔
      Signed scheme p index input path (.pubkeyHash hash) := by
  constructor
  · rintro ⟨stack, h⟩
    obtain ⟨key, sig, -, hhash, haccepts, hsig, hvalid⟩ := pubkeyHashStack_eq_ok h
    exact ⟨key, hhash, haccepts, sig, hsig, hvalid⟩
  · rintro ⟨key, hhash, haccepts, sig, hsig, hvalid⟩
    unfold pubkeyHashStack
    dsimp only
    split
    · exact ⟨_, rfl⟩
    · next hnone =>
      have hfails := List.find?_eq_none.mp hnone _ (InputMap.mem_partialSigs_iff.mpr hsig)
      simp [hhash, haccepts, hvalid] at hfails

/-- There is a stack for a key when it has signed. -/
private theorem exists_pubkeyStack_iff {key : PublicKey} :
    (∃ stack, p.pubkeyStack scheme index input path key = .ok stack) ↔
      Signed scheme p index input path (.pubkey key) := by
  simp only [pubkeyStack_eq_ok_iff]
  exact ⟨fun ⟨_, sig, _, h⟩ => ⟨sig, h⟩, fun ⟨sig, h⟩ => ⟨_, sig, rfl, h⟩⟩

/-- There is a stack for a threshold of keys when so many have signed. -/
private theorem exists_multisigStack_iff {threshold : Nat} {keys : List PublicKey} :
    (∃ stack, p.multisigStack scheme index input path threshold keys = .ok stack) ↔
      Signed scheme p index input path (.multisig threshold keys) := by
  simp only [multisigStack_eq_ok_iff, exists_and_left, exists_eq, and_true, length_validSignatures]
  rfl

/-- There is a stack for an output key when it has signed. -/
private theorem exists_taprootStack_iff {outputKey : Curve.XOnly} :
    (∃ stack, p.taprootStack scheme index input outputKey = .ok stack) ↔
      Signed scheme p index input path (.taprootKey outputKey) := by
  simp only [taprootStack_eq_ok_iff]
  exact ⟨fun ⟨_, sig, _, h⟩ => ⟨sig, h⟩, fun ⟨sig, h⟩ => ⟨_, sig, rfl, h⟩⟩

/-- **There is a stack for a template** exactly when the signatures that it asks for are
recorded. -/
theorem exists_templateStack_iff {template : Template} :
    (∃ stack, p.templateStack scheme index input path template = .ok stack) ↔
      Signed scheme p index input path template := by
  cases template with
  | pubkeyHash hash => exact exists_pubkeyHashStack_iff
  | pubkey key => exact exists_pubkeyStack_iff
  | multisig threshold keys => exact exists_multisigStack_iff
  | taprootKey outputKey => exact exists_taprootStack_iff

/-- The elements of a stack for a template are keys and signatures, or nothing. -/
theorem length_le_of_templateStack {template : Template} {stack : List Bytes}
    (h : p.templateStack scheme index input path template = .ok stack) :
    ∀ item ∈ stack, item.length ≤ 73 := by
  cases template with
  | pubkeyHash hash =>
    obtain ⟨key, sig, rfl, -⟩ := pubkeyHashStack_eq_ok h
    have := sig.length_bytes_le
    have := key.length_bytes_le
    simp only [List.forall_mem_cons, List.not_mem_nil, false_implies, implies_true, and_true]
    omega
  | pubkey key =>
    obtain ⟨sig, rfl, -⟩ := pubkeyStack_eq_ok_iff.mp h
    simpa using sig.length_bytes_le
  | multisig threshold keys =>
    obtain ⟨-, rfl⟩ := multisigStack_eq_ok_iff.mp h
    intro item hitem
    rcases List.mem_cons.mp hitem with rfl | hitem
    · simp
    · obtain ⟨sig, -, rfl⟩ := List.mem_map.mp hitem
      exact sig.length_bytes_le
  | taprootKey outputKey =>
    obtain ⟨sig, rfl, -⟩ := taprootStack_eq_ok_iff.mp h
    have := sig.length_bytes_le
    simp only [List.forall_mem_cons, List.not_mem_nil, false_implies, implies_true, and_true]
    omega

/-! ## Final scripts -/

/-- Byte strings that are short enough can be pushed. -/
theorem isSome_pushAll?_iff {items : List Bytes} :
    (Script.pushAll? items).isSome = true ↔ ∀ item ∈ items, item.length < 0x100000000 := by
  unfold Script.pushAll?
  split
  · next h => simpa using h
  · next h => simpa using h

/-- **There are scripts for a stack** of short elements exactly when the redeem script can be
pushed. -/
theorem isSome_ofStack?_iff {stack : List Bytes}
    (h : ∀ item ∈ stack, item.length < 0x100000000) :
    (FinalScripts.ofStack? path stack).isSome = true ↔ path.Pushable := by
  have hredeem : (∀ item ∈ path.redeemScript.toList.map (·.bytes), item.length < 0x100000000) ↔
      path.Pushable := by
    simp [SpendPath.Pushable]
  unfold FinalScripts.ofStack?
  dsimp only
  split
  · rw [Option.isSome_map, isSome_pushAll?_iff, List.forall_mem_append, hredeem]
    exact and_iff_right h
  · rw [Option.isSome_map, isSome_pushAll?_iff, hredeem]

/-- **An input can be made final** exactly when its path has a known form, the signatures are
recorded that it asks for, and its redeem script can be pushed. -/
theorem exists_finalizeInput_iff :
    (∃ scripts, p.finalizeInput scheme index = .ok scripts) ↔
      ∃ path template input, p.spendPath index = .ok path ∧ path.template? = some template ∧
        p.inputs[index]? = some input ∧ Signed scheme p index input path template ∧
        path.Pushable := by
  have hshort : ∀ {input : InputMap} {path : SpendPath} {template : Template}
      {stack : List Bytes}, p.templateStack scheme index input path template = .ok stack →
        ∀ item ∈ stack, item.length < 0x100000000 := by
    intro input path template stack hstack item hitem
    have := length_le_of_templateStack hstack item hitem
    omega
  simp only [finalizeInput_eq_ok_iff]
  constructor
  · rintro ⟨scripts, path, template, input, stack, hpath, htemplate, hinput, hstack, hscripts⟩
    refine ⟨path, template, input, hpath, htemplate, hinput,
      exists_templateStack_iff.mp ⟨stack, hstack⟩, ?_⟩
    exact (isSome_ofStack?_iff (hshort hstack)).mp (by rw [hscripts, Option.isSome_some])
  · rintro ⟨path, template, input, hpath, htemplate, hinput, hsigned, hpush⟩
    obtain ⟨stack, hstack⟩ := exists_templateStack_iff.mpr hsigned
    obtain ⟨scripts, hscripts⟩ :=
      Option.isSome_iff_exists.mp ((isSome_ofStack?_iff (hshort hstack)).mpr hpush)
    exact ⟨scripts, path, template, input, stack, hpath, htemplate, hinput, hstack, hscripts⟩

/-- The redeem script of a path was recorded. -/
private theorem get?_redeemScript_of_spendPath (h : p.spendPath index = .ok path) {redeem : Script}
    (hredeem : path.redeemScript = some redeem) :
    ∃ input, p.inputs[index]? = some input ∧ input.get? .redeemScript = some redeem := by
  unfold spendPath at h
  split at h
  · simp at h
  · next input hinput =>
    split at h
    · simp at h
    · split at h
      · split at h
        · next given hgiven =>
          split at h
          · rw [(SpendPath.below_eq_ok h).redeemScript_eq] at hredeem
            obtain rfl := Option.some.inj hredeem
            exact ⟨input, hinput, hgiven⟩
          · simp at h
        · simp at h
      · rw [(SpendPath.below_eq_ok h).redeemScript_eq] at hredeem
        simp at hredeem

/-- **Redeem scripts of copies that were read can be pushed.** -/
theorem Decoded.pushable (hp : p.Decoded) (h : p.spendPath index = .ok path) : path.Pushable := by
  intro redeem hredeem
  obtain ⟨input, hinput, hget⟩ := get?_redeemScript_of_spendPath h hredeem
  have hfits := hp.fits.inputs input (List.mem_of_getElem? hinput)
  have hlength : redeem.bytes.length ≤ CompactSize.maxLength :=
    (RecordMap.fits_iff.mp hfits .redeemScript redeem hget).value.length_le
  unfold CompactSize.maxLength at hlength
  omega

/-! ## More knowledge -/

/-- Another copy of the transaction knows all spent outputs that a copy knows, and knows them to be
the same. -/
structure Extends (p q : Psbt) : Prop where
  transaction : q.transaction = p.transaction
  length : q.inputs.length = p.inputs.length
  spent : ∀ i output, p.spentOutput? i = some output → q.spentOutput? i = some output

/-- Copies that spend alike know the same. -/
theorem SpendsAlike.extends (h : SpendsAlike p q) : Extends p q :=
  ⟨h.transaction.symm, h.length.symm, fun i _ hi => (h.spent i).symm.trans hi⟩

namespace Extends

variable {x y : InputMap}

/-- The outputs that inputs spend are the same where all are known. -/
theorem spentOutputsFrom_eq (h : Extends p q) {count start : Nat} {spent : List TxOutput}
    (hp : p.spentOutputsFrom count start = .ok spent) :
    q.spentOutputsFrom count start = .ok spent := by
  induction count generalizing start spent with
  | zero => exact hp
  | succ count ih =>
    rw [spentOutputsFrom] at hp ⊢
    cases hfirst : p.spentOutput? start with
    | none =>
      rw [hfirst] at hp
      exact absurd hp Steps.throw_ne_ok
    | some output =>
      rw [hfirst] at hp
      rw [h.spent start output hfirst]
      obtain ⟨rest, hrest, hp⟩ := Steps.bind_eq_ok_iff.mp hp
      exact Steps.bind_eq_ok_iff.mpr ⟨rest, ih hrest, hp⟩

/-- A taproot signature that is valid stays valid. -/
theorem verifiesTaproot (h : Extends p q) {outputKey : Curve.XOnly} {sig : TaprootSignature}
    (hp : p.verifiesTaproot scheme index outputKey sig = true) :
    q.verifiesTaproot scheme index outputKey sig = true := by
  unfold Psbt.verifiesTaproot at hp ⊢
  split at hp
  · next digest hdigest =>
    obtain ⟨spent, hspent, hdigest⟩ := Steps.bind_eq_ok_iff.mp hdigest
    have hq : q.taprootDigest index sig.sighash = .ok digest := by
      refine Steps.bind_eq_ok_iff.mpr ⟨spent, ?_, ?_⟩
      · rw [h.length]
        exact h.spentOutputsFrom_eq hspent
      · rw [h.transaction]
        exact hdigest
    rw [hq]
    exact hp
  · simp at hp

/-- An ECDSA signature that is valid stays valid. -/
theorem verifies (h : Extends p q) (key : PublicKey) (sig : TypedSignature) :
    q.verifies scheme index path key sig = p.verifies scheme index path key sig := by
  unfold Psbt.verifies ecdsaDigest
  rw [h.transaction]

/-- The path below a script stays the same when the witness script stays. -/
theorem below_eq {output : TxOutput} {inner : Script} {redeem : Option Script}
    (hwitness : ∀ script, x.get? .witnessScript = some script →
      y.get? .witnessScript = some script)
    (hx : SpendPath.below x output inner redeem = .ok path) :
    SpendPath.below y output inner redeem = .ok path := by
  unfold SpendPath.below at hx ⊢
  split at hx
  · next hkey => rw [if_pos hkey, hx]
  · next hkey =>
    rw [if_neg hkey]
    split at hx
    · next hscript =>
      rw [if_pos hscript]
      split at hx
      · next script hgiven =>
        rw [hwitness script hgiven]
        exact hx
      · simp at hx
    · next hscript =>
      rw [if_neg hscript]
      exact hx

/-- The path of an input stays the same when its scripts stay. -/
theorem spendPath_eq (h : Extends p q) (hx : p.inputs[index]? = some x)
    (hy : q.inputs[index]? = some y)
    (hredeem : ∀ script, x.get? .redeemScript = some script → y.get? .redeemScript = some script)
    (hwitness : ∀ script, x.get? .witnessScript = some script →
      y.get? .witnessScript = some script)
    (hpath : p.spendPath index = .ok path) : q.spendPath index = .ok path := by
  unfold spendPath at hpath ⊢
  rw [hx] at hpath
  rw [hy]
  dsimp only at hpath ⊢
  cases hspent : p.spentOutput? index with
  | none =>
    rw [hspent] at hpath
    simp at hpath
  | some output =>
    rw [hspent] at hpath
    rw [h.spent index output hspent]
    dsimp only at hpath ⊢
    split at hpath
    · next hhash =>
      rw [if_pos hhash]
      split at hpath
      · next redeem hgiven =>
        rw [hredeem redeem hgiven]
        dsimp only
        split at hpath
        · next hsame =>
          rw [if_pos hsame]
          exact below_eq hwitness hpath
        · simp at hpath
      · simp at hpath
    · next hhash =>
      rw [if_neg hhash]
      exact below_eq hwitness hpath

/-- **Recorded signatures stay enough** when more are recorded. -/
theorem signed (h : Extends p q)
    (hkept : ∀ k, InputKey.isSignature k = true → ∀ v, x.get? k = some v → y.get? k = some v)
    {template : Template} (hp : Signed scheme p index x path template) :
    Signed scheme q index y path template := by
  have hkey : ∀ key, SignedBy scheme p index x path key → SignedBy scheme q index y path key := by
    rintro key ⟨sig, hsig, hvalid⟩
    refine ⟨sig, hkept _ rfl sig hsig, ?_⟩
    rw [h.verifies]
    exact hvalid
  cases template with
  | pubkeyHash hash =>
    obtain ⟨key, hhash, haccepts, hsigned⟩ := hp
    exact ⟨key, hhash, haccepts, hkey key hsigned⟩
  | pubkey key => exact hkey key hp
  | multisig threshold keys =>
    refine le_trans hp (List.countP_mono_left fun key _ hsigned => ?_)
    rw [decide_eq_true_iff] at hsigned ⊢
    exact hkey key hsigned
  | taprootKey outputKey =>
    obtain ⟨sig, hsig, hvalid⟩ := hp
    exact ⟨sig, hkept _ rfl sig hsig, h.verifiesTaproot hvalid⟩

/-- **More knowledge does no harm**: an input that can be made final can be made so in a copy that
knows the spent outputs and has the records of the input. -/
theorem exists_finalizeInput (h : Extends p q) (hx : p.inputs[index]? = some x)
    (hy : q.inputs[index]? = some y)
    (hkept : ∀ k, InputKey.isDropped k = true → ∀ v, x.get? k = some v → y.get? k = some v)
    (hp : ∃ scripts, p.finalizeInput scheme index = .ok scripts) :
    ∃ scripts, q.finalizeInput scheme index = .ok scripts := by
  obtain ⟨path, template, input, hpath, htemplate, hinput, hsigned, hpush⟩ :=
    exists_finalizeInput_iff.mp hp
  obtain rfl := Option.some.inj (hx.symm.trans hinput)
  refine exists_finalizeInput_iff.mpr ⟨path, template, y, ?_, htemplate, hy, ?_, hpush⟩
  · exact h.spendPath_eq hx hy (hkept .redeemScript rfl) (hkept .witnessScript rfl) hpath
  · exact h.signed (fun k hk => hkept k (InputKey.isDropped_of_isSignature hk)) hsigned

end Extends

end Psbt

end JointSpend
