import JointSpend.Proofs.Spend.Selection

set_option autoImplicit false
set_option relaxedAutoImplicit false

/-!
# Which keys a witness is made with

A witness takes keys in the short form only, and the path of an input says which keys it accepts.
Where a script names the hash of a key, a key is asked for its form before its signature is used.
Where a script names the keys themselves it is not: whoever wrote the script is relied on. So the
rule holds for a script exactly as far as it holds for the keys that the script names.

## Main definitions

* `JointSpend.Template.named` — the keys that a template names.
* `JointSpend.Psbt.usedKeys` — the keys whose signatures are put on the stack.
* `JointSpend.Psbt.AcceptedOnly` — no other keys are used or asked for than accepted ones.

## Main results

* `JointSpend.Psbt.exists_sigs_of_templateStack` — the stack consists of the signatures of the keys
  that are used.
* `JointSpend.Psbt.acceptedOnly_witness_iff` — what the rule comes to.
* `JointSpend.Psbt.not_acceptedOnly_sampleMixed` — it is not kept for every script.
-/

namespace JointSpend

namespace Template

/-- The keys that a template names. -/
def named : Template → List PublicKey
  | pubkey key => [key]
  | multisig _ keys => keys
  | _ => []

/-- How many of the named keys have to sign. -/
def quota : Template → Nat
  | pubkey _ => 1
  | multisig threshold _ => threshold
  | _ => 0

/-- The stack of some signatures and their keys. -/
def stackOf (keys : List PublicKey) (sigs : List TypedSignature) : Template → List Bytes
  | pubkeyHash _ => sigs.map (·.bytes) ++ keys.map (·.bytes)
  | multisig _ _ => [] :: sigs.map (·.bytes)
  | _ => sigs.map (·.bytes)

end Template

namespace Psbt

section Keys

variable (scheme : SignatureScheme) (p : Psbt) (index : Nat) (input : InputMap) (path : SpendPath)

/-- **The keys whose signatures are put on the stack**: for the hash of a key the first one that
qualifies, and otherwise the first ones of those that have signed. -/
def usedKeys : Template → List PublicKey
  | .pubkeyHash hash => ((input.partialSigs.find? fun (key, sig) =>
      Script.hashMatches hash key && path.accepts key &&
        p.verifies scheme index path key sig).map (·.1)).toList
  | template => (template.named.filter fun key =>
      SignedBy scheme p index input path key).take template.quota

/-- The keys on which the rule depends: of the named keys those that are used, if there are enough,
and otherwise those that are asked for. -/
def keysAtStake (template : Template) : List PublicKey :=
  if template.quota ≤ template.named.countP fun key => SignedBy scheme p index input path key then
    (template.named.filter fun key => SignedBy scheme p index input path key).take template.quota
  else template.named.filter fun key => ¬ SignedBy scheme p index input path key

/-- **The rule for the forms of keys**: when an input can be made final, every key whose signature
is used is accepted on its path, and when signatures are missing, so is every key that is asked
for. -/
structure AcceptedOnly : Prop where
  used : ∀ template x scripts, path.template? = some template → p.inputs[index]? = some x →
    p.finalizeInput scheme index = .ok scripts →
      ∀ key ∈ usedKeys scheme p index x path template, path.accepts key = true
  listed : ∀ keys needed, p.finalizeInput scheme index = .error (.signatures keys needed) →
    ∀ key ∈ keys, path.accepts key = true

end Keys

variable {scheme : SignatureScheme} {p : Psbt} {index : Nat} {x : InputMap} {path : SpendPath}
  {template : Template}

/-! ## The stack and its keys -/

/-- A template in a witness is the form of the script there. -/
private theorem hasForm_of_witness (hversion : path.version = .witnessV0)
    (htemplate : path.template? = some template) : path.script.HasForm template := by
  unfold SpendPath.template? at htemplate
  rw [hversion] at htemplate
  exact Script.hasForm_of_template? htemplate

/-- A script pays to the hash of a key, or asks for signatures of keys that it names. -/
private theorem pubkeyHash_or_quota_pos (hform : path.script.HasForm template) :
    (∃ hash, template = .pubkeyHash hash) ∨ 0 < template.quota := by
  cases hform with
  | @keyHash hash _ => exact .inl ⟨hash, rfl⟩
  | @witnessKeyHash hash _ => exact .inl ⟨hash, rfl⟩
  | pubkey => exact .inr Nat.one_pos
  | multisig hpos => exact .inr hpos

/-- The first valid signatures, beside the first keys that have signed. -/
private theorem forall₂_take_signed (keys : List PublicKey) (n : Nat) :
    List.Forall₂ (fun key sig => x.get? (.partialSig key) = some sig ∧
        p.verifies scheme index path key sig = true)
      ((keys.filter fun key => SignedBy scheme p index x path key).take n)
      ((keys.filterMap (p.validSignature? scheme index x path)).take n) := by
  have hfound := forall₂_filter_filterMap (p.validSignature? scheme index x path) keys
  simp only [isSome_validSignature?] at hfound
  exact (List.forall₂_take n hfound).imp fun key sig hsig => Option.filter_eq_some_iff.mp hsig

/-- Of keys that are named the first ones of those that have signed are used. -/
private theorem usedKeys_eq (hquota : 0 < template.quota) :
    usedKeys scheme p index x path template =
      (template.named.filter fun key => SignedBy scheme p index x path key).take
        template.quota := by
  cases template with
  | pubkeyHash hash => exact absurd hquota (Nat.lt_irrefl 0)
  | _ => rfl

/-- The stack for a template that names keys: the first valid signatures if there are enough, and
otherwise the named keys that have not signed. -/
private theorem namedStack_eq (hquota : 0 < template.quota) :
    p.templateStack scheme index x path template =
      if (template.named.countP fun key => SignedBy scheme p index x path key) < template.quota then
        .error (.signatures
          (template.named.filter fun key => ¬ SignedBy scheme p index x path key)
          (template.quota - template.named.countP fun key => SignedBy scheme p index x path key))
      else
        .ok (template.stackOf (usedKeys scheme p index x path template)
          ((template.named.filterMap (p.validSignature? scheme index x path)).take
            template.quota)) := by
  cases template with
  | pubkeyHash hash => exact absurd hquota (Nat.lt_irrefl 0)
  | taprootKey outputKey => exact absurd hquota (Nat.lt_irrefl 0)
  | multisig threshold keys => exact multisigStack_eq
  | pubkey key =>
    have hsome := @isSome_validSignature? scheme p index x path key
    rw [templateStack, pubkeyStack]
    cases hvalid : p.validSignature? scheme index x path key with
    | none =>
      rw [hvalid, eq_comm] at hsome
      have hunsigned : ¬ SignedBy scheme p index x path key := of_decide_eq_false hsome
      simp [Template.named, Template.quota, hunsigned]
    | some sig =>
      rw [hvalid, eq_comm] at hsome
      have hsigned : SignedBy scheme p index x path key := of_decide_eq_true hsome
      simp [Template.named, Template.quota, Template.stackOf, hsigned, hvalid]

/-- **The stack consists of the signatures of the keys that are used**, which are recorded and
valid. -/
theorem exists_sigs_of_templateStack {stack : List Bytes} (hform : path.script.HasForm template)
    (h : p.templateStack scheme index x path template = .ok stack) :
    ∃ sigs, List.Forall₂ (fun key sig => x.get? (.partialSig key) = some sig ∧
        p.verifies scheme index path key sig = true)
      (usedKeys scheme p index x path template) sigs ∧
      stack = template.stackOf (usedKeys scheme p index x path template) sigs := by
  rcases pubkeyHash_or_quota_pos hform with ⟨hash, rfl⟩ | hquota
  · rw [templateStack] at h
    unfold pubkeyHashStack at h
    dsimp only at h
    split at h
    · next key sig hfound =>
      have hrecorded := InputMap.mem_partialSigs_iff.mp (List.mem_of_find?_eq_some hfound)
      have hall := List.find?_some hfound
      rw [Bool.and_eq_true] at hall
      have hused : usedKeys scheme p index x path (.pubkeyHash hash) = [key] := by
        rw [usedKeys, hfound]
        rfl
      rw [hused]
      exact ⟨[sig], .cons ⟨hrecorded, hall.2⟩ .nil, (Except.ok.inj h).symm⟩
    · simp at h
  · rw [namedStack_eq hquota] at h
    split at h
    · simp at h
    · refine ⟨_, ?_, (Except.ok.inj h).symm⟩
      rw [usedKeys_eq hquota]
      exact forall₂_take_signed _ _

/-! ## The rule -/

/-- The rule, read off the stack for the template. -/
private theorem acceptedOnly_iff_stack (hpath : p.spendPath index = .ok path)
    (htemplate : path.template? = some template) (hx : p.inputs[index]? = some x) :
    AcceptedOnly scheme p index path ↔
      (∀ stack, p.templateStack scheme index x path template = .ok stack →
        ∀ key ∈ usedKeys scheme p index x path template, path.accepts key = true) ∧
      ∀ keys needed,
        p.templateStack scheme index x path template = .error (.signatures keys needed) →
          ∀ key ∈ keys, path.accepts key = true := by
  constructor
  · intro h
    refine ⟨fun stack hstack => ?_, fun keys needed hmissing =>
      h.listed keys needed (finalizeInput_of_missing hpath htemplate hx hmissing)⟩
    obtain ⟨scripts, hscripts, -⟩ := finalizeInput_of_stack hpath htemplate hx hstack
    exact h.used template x scripts htemplate hx hscripts
  · rintro ⟨hused, hlisted⟩
    refine ⟨fun template' x' scripts htemplate' hx' hscripts => ?_, fun keys needed hmissing => ?_⟩
    · obtain rfl := Option.some.inj (htemplate.symm.trans htemplate')
      obtain rfl := Option.some.inj (hx.symm.trans hx')
      cases hstack : p.templateStack scheme index x path template with
      | ok stack => exact hused stack hstack
      | error missing =>
        rw [finalizeInput_of_missing hpath htemplate hx hstack] at hscripts
        simp at hscripts
    · cases hstack : p.templateStack scheme index x path template with
      | ok stack =>
        obtain ⟨scripts, hscripts, -⟩ := finalizeInput_of_stack hpath htemplate hx hstack
        simp [hscripts] at hmissing
      | error missing =>
        rw [finalizeInput_of_missing hpath htemplate hx hstack] at hmissing
        rw [Except.error.inj hmissing] at hstack
        exact hlisted keys needed hstack

/-- For the hash of a key the rule is kept: keys are asked for their form before they are used, and
only short forms are asked for. -/
private theorem acceptedOnly_of_pubkeyHash {hash : Fixed 20} (hpath : p.spendPath index = .ok path)
    (htemplate : path.template? = some (.pubkeyHash hash)) (hx : p.inputs[index]? = some x) :
    AcceptedOnly scheme p index path := by
  refine (acceptedOnly_iff_stack hpath htemplate hx).mpr ⟨fun stack _ key hkey => ?_,
    fun keys needed hmissing key hkey => ?_⟩
  · simp only [usedKeys, Option.mem_toList, Option.map_eq_some_iff, Prod.exists,
      exists_and_right, exists_eq_right] at hkey
    obtain ⟨sig, hfound⟩ := hkey
    have hall := List.find?_some hfound
    simp only [Bool.and_eq_true] at hall
    exact hall.1.2
  · change p.pubkeyHashStack scheme index x path hash = _ at hmissing
    unfold pubkeyHashStack at hmissing
    dsimp only at hmissing
    split at hmissing
    · simp at hmissing
    · obtain ⟨rfl, -⟩ := Missing.signatures.inj (Except.error.inj hmissing)
      obtain ⟨hkey, -⟩ := List.mem_filter.mp hkey
      obtain ⟨point, -, rfl⟩ := List.mem_map.mp hkey
      simp [SpendPath.accepts]

/-- **What the rule comes to** depends on the named keys only: on those that are used, or on those
that are asked for. -/
theorem acceptedOnly_iff (hversion : path.version = .witnessV0)
    (hpath : p.spendPath index = .ok path) (htemplate : path.template? = some template)
    (hx : p.inputs[index]? = some x) : AcceptedOnly scheme p index path ↔
      ∀ key ∈ keysAtStake scheme p index x path template, path.accepts key = true := by
  rcases pubkeyHash_or_quota_pos (hasForm_of_witness hversion htemplate) with ⟨hash, rfl⟩ | hquota
  · exact iff_of_true (acceptedOnly_of_pubkeyHash hpath htemplate hx)
      (by simp [keysAtStake, Template.named, Template.quota])
  · rw [acceptedOnly_iff_stack hpath htemplate hx, namedStack_eq hquota, keysAtStake,
      usedKeys_eq hquota]
    split
    · next hfew => simp [if_neg (Nat.not_le.mpr hfew)]
    · next henough => simp [if_pos (Nat.not_lt.mp henough)]

/-- The keys at stake are named keys. -/
private theorem mem_named_of_mem_keysAtStake {key : PublicKey}
    (hkey : key ∈ keysAtStake scheme p index x path template) : key ∈ template.named := by
  unfold keysAtStake at hkey
  split at hkey
  · exact (List.mem_filter.mp (List.mem_of_mem_take hkey)).1
  · exact (List.mem_filter.mp hkey).1

/-- Without signatures all named keys are at stake. -/
private theorem mem_keysAtStake_of_unsigned (hform : path.script.HasForm template)
    (hnone : ∀ key, x.get? (.partialSig key) = none) {key : PublicKey}
    (hkey : key ∈ template.named) : key ∈ keysAtStake scheme p index x path template := by
  have hunsigned : ∀ key, ¬ SignedBy scheme p index x path key := by
    rintro key ⟨sig, hsig, -⟩
    simp [hnone key] at hsig
  have hquota : 0 < template.quota := by
    rcases pubkeyHash_or_quota_pos hform with ⟨hash, rfl⟩ | hquota
    · simp [Template.named] at hkey
    · exact hquota
  have hcount : (template.named.countP fun key => SignedBy scheme p index x path key) = 0 :=
    List.countP_eq_zero.mpr fun key _ => by simp [hunsigned key]
  rw [keysAtStake, hcount, if_neg (by omega)]
  exact List.mem_filter.mpr ⟨hkey, by simp [hunsigned key]⟩

/-- **Which keys a witness is made with.** When an input with a known form of script in its witness
can be made final, the stack consists of valid signatures that are recorded under the keys that are
used. That these keys are accepted, or those that are asked for when signatures are missing, comes
to the same for the named keys at stake. It is so whatever is recorded as signatures exactly when
the script names accepted keys only.

**Proof sketch.** The stack for a template that names keys has signatures of these keys or says
which of them have not signed; for the hash of a key the form is asked for. Without any signatures
all named keys are asked for. -/
theorem acceptedOnly_witness_iff (hversion : path.version = .witnessV0)
    (hpath : p.spendPath index = .ok path) (htemplate : path.template? = some template)
    (hx : p.inputs[index]? = some x) :
    (∀ scripts, p.finalizeInput scheme index = .ok scripts → ∃ sigs,
      List.Forall₂ (fun key sig => x.get? (.partialSig key) = some sig ∧
          p.verifies scheme index path key sig = true)
        (usedKeys scheme p index x path template) sigs ∧
      FinalScripts.ofStack? path
        (template.stackOf (usedKeys scheme p index x path template) sigs) = some scripts) ∧
    (AcceptedOnly scheme p index path ↔
      ∀ key ∈ keysAtStake scheme p index x path template, path.accepts key = true) ∧
    ((∀ y, AlikeUnsigned x y → AcceptedOnly scheme (p.setInput index y) index path) ↔
      ∀ key ∈ template.named, path.accepts key = true) := by
  have hform := hasForm_of_witness hversion htemplate
  have hset : ∀ y, AlikeUnsigned x y → (AcceptedOnly scheme (p.setInput index y) index path ↔
      ∀ key ∈ keysAtStake scheme (p.setInput index y) index y path template,
        path.accepts key = true) := fun y hy =>
    acceptedOnly_iff hversion (hy.spendPath_eq hx hpath) htemplate (by simp [hx])
  refine ⟨fun scripts hscripts => ?_, acceptedOnly_iff hversion hpath htemplate hx,
    fun h key hkey => ?_, fun h y hy => ?_⟩
  · obtain ⟨path', template', x', stack, hpath', htemplate', hx', hstack, hofStack⟩ :=
      finalizeInput_eq_ok_iff.mp hscripts
    obtain rfl := Except.ok.inj (hpath.symm.trans hpath')
    obtain rfl := Option.some.inj (htemplate.symm.trans htemplate')
    obtain rfl := Option.some.inj (hx.symm.trans hx')
    obtain ⟨sigs, hsigs, rfl⟩ := exists_sigs_of_templateStack hform hstack
    exact ⟨sigs, hsigs, hofStack⟩
  · -- without its signatures every named key is asked for
    let bare := x.filter fun k => !k.isSignature
    have hbare : AlikeUnsigned x bare := fun k hk => by
      rw [RecordMap.get?_filter, hk]
      rfl
    have hnone : ∀ key, bare.get? (.partialSig key) = none := fun key => by
      rw [RecordMap.get?_filter]
      rfl
    exact (hset bare hbare).mp (h bare hbare) key (mem_keysAtStake_of_unsigned hform hnone hkey)
  · exact (hset y hy).mpr fun key hkey => h key (mem_named_of_mem_keysAtStake hkey)

/-- A script that names short keys only: the rule is kept for what is recorded, and for whatever is
recorded as signatures. -/
theorem acceptedOnly_witness_iff_sampleStale :
    AcceptedOnly sampleChecker (sampleSpending sampleStale) 0
        (sampleLockedPath (.multisig 2 sampleKeys)) ∧
      ∀ y, AlikeUnsigned sampleStale y →
        AcceptedOnly sampleChecker ((sampleSpending sampleStale).setInput 0 y) 0
          (sampleLockedPath (.multisig 2 sampleKeys)) := by
  obtain ⟨hpath, htemplate⟩ := spendPath_sampleStale
  have hall := (@acceptedOnly_witness_iff sampleChecker _ 0 _ _ _ rfl hpath htemplate rfl).2.2.mpr
    (by decide)
  exact ⟨hall sampleStale fun _ _ => rfl, hall⟩

/-! ## A key in the long form -/

/-- A key in the long form: the generator. -/
def sampleLongKey : PublicKey :=
  ⟨Curve.generatorPoint, false⟩

/-- A script that asks for a signature of one of two keys, the first of which is in the long
form. -/
def sampleMixedScript : Script :=
  .multisig 1 [sampleLongKey, sampleOtherKey]

/-- An input for that script, with or without a signature of the key in the long form. -/
def sampleMixed (signed : Bool) : InputMap :=
  if signed then
    (sampleLocked sampleMixedScript).insert (.partialSig sampleLongKey)
      ⟨.ofNats 0x44fb12dc6a99a54edfd4103b130394bdc5c330d70f5e5814ee0c22b77d068295
        0x6c45128f98bb6eaf3c1420704417e03ace58b2d0cf2de6d2ded03c4bbd5139ef, ⟨.all, false⟩⟩
  else sampleLocked sampleMixedScript

/-- The copies with these inputs were read, and the script is found behind its hash. -/
private theorem sampleMixed_resolved (signed : Bool) :
    (sampleSpending (sampleMixed signed)).Decoded ∧
      (sampleSpending (sampleMixed signed)).spendPath 0 =
        .ok (sampleLockedPath sampleMixedScript) := by
  have hread : ∀ signed, ofBytes? (sampleSpending (sampleMixed signed)).bytes =
        some (sampleSpending (sampleMixed signed)) ∧
      (sampleSpending (sampleMixed signed)).spendPath 0 =
        .ok (sampleLockedPath sampleMixedScript) := by
    decide +kernel
  exact ⟨.of_ofBytes? (hread signed).1, (hread signed).2⟩

/-- **The rule is not kept for every script**, neither when an input can be made final nor when it
cannot: of a script with a key in the long form, which its path does not accept, that key is used if
it has signed, and asked for if it has not. -/
theorem not_acceptedOnly_sampleMixed :
    (¬ ∀ (p : Psbt) (index : Nat) (path : SpendPath), p.Decoded →
      p.spendPath index = .ok path → path.version = .witnessV0 →
        (∃ scripts, p.finalizeInput Curve.secp256k1 index = .ok scripts) →
          AcceptedOnly Curve.secp256k1 p index path) ∧
    ¬ ∀ (p : Psbt) (index : Nat) (path : SpendPath), p.Decoded →
      p.spendPath index = .ok path → path.version = .witnessV0 →
        (∃ missing, p.finalizeInput Curve.secp256k1 index = .error missing) →
          AcceptedOnly Curve.secp256k1 p index path := by
  have htemplate : (sampleLockedPath sampleMixedScript).template? =
      some (.multisig 1 [sampleLongKey, sampleOtherKey]) := by
    decide +kernel
  have hlong : (sampleLockedPath sampleMixedScript).accepts sampleLongKey ≠ true := by decide
  have hsigned : SignedBy Curve.secp256k1 (sampleSpending (sampleMixed true)) 0 (sampleMixed true)
      (sampleLockedPath sampleMixedScript) sampleLongKey := by
    decide +kernel
  have hstake : ∀ signed, sampleLongKey ∈ keysAtStake Curve.secp256k1
      (sampleSpending (sampleMixed signed)) 0 (sampleMixed signed)
        (sampleLockedPath sampleMixedScript) (.multisig 1 [sampleLongKey, sampleOtherKey]) := by
    rintro (_ | _)
    · exact mem_keysAtStake_of_unsigned (hasForm_of_witness rfl htemplate) (fun _ => rfl)
        List.mem_cons_self
    · simp [keysAtStake, Template.named, Template.quota, hsigned]
  have hbroken : ∀ signed, ¬ AcceptedOnly Curve.secp256k1 (sampleSpending (sampleMixed signed)) 0
      (sampleLockedPath sampleMixedScript) := by
    intro signed h
    obtain ⟨-, hpath⟩ := sampleMixed_resolved signed
    exact hlong ((acceptedOnly_iff rfl hpath htemplate rfl).mp h _ (hstake signed))
  obtain ⟨hread, hpath⟩ := sampleMixed_resolved true
  obtain ⟨hread', hpath'⟩ := sampleMixed_resolved false
  have hfinal : ∃ scripts, (sampleSpending (sampleMixed true)).finalizeInput Curve.secp256k1 0 =
      .ok scripts := by
    refine exists_finalizeInput_iff.mpr ⟨_, _, _, hpath, htemplate, rfl, ?_, ?_⟩
    · simp [Signed, hsigned]
    · exact pushable_of_template hpath htemplate
  have hmissing : ∃ missing, (sampleSpending (sampleMixed false)).finalizeInput Curve.secp256k1 0 =
      .error missing :=
    ⟨_, finalizeInput_of_missing hpath' htemplate rfl rfl⟩
  exact ⟨fun h => hbroken true (h _ _ _ hread hpath rfl hfinal),
    fun h => hbroken false (h _ _ _ hread' hpath' rfl hmissing)⟩

end Psbt

end JointSpend
