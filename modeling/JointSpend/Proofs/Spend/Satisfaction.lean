import JointSpend.Proofs.Psbt.Inputs
import JointSpend.Proofs.Spend.Runs
import JointSpend.Proofs.Steps

set_option autoImplicit false
set_option relaxedAutoImplicit false

/-!
# Stacks that satisfy templates

The stack that is collected for a template makes the script of the template leave a single true
element. The signatures on it were checked when they were collected; here the same checks are found
again where the script makes them, on the same digests.

## Main definitions

* `JointSpend.Psbt.context` — what the scripts of an input are run for.
* `JointSpend.SpendPath.code` — the script whose run satisfies a path.

## Main results

* `JointSpend.Psbt.checkSignature_of_verifies`, `JointSpend.Psbt.checkTaproot_of_verifiesTaproot` —
  signatures that were accepted for an input are accepted by its scripts.
* `JointSpend.Psbt.pubkeyStack_eq_ok_iff`, `JointSpend.Psbt.multisigStack_eq_ok_iff`,
  `JointSpend.Psbt.taprootStack_eq_ok_iff` — the stacks that are collected.
* `JointSpend.Psbt.endsTrue_of_templateStack` — the stack for a template satisfies it.
-/

namespace JointSpend

open Evaluation

/-- The script whose run satisfies a path, which is the script code for signatures: what checks the
key hash where the script only names it. -/
def SpendPath.code (path : SpendPath) : Script :=
  match Script.p2wpkh.payload? path.script with
  | some hash => Script.p2pkh.script hash
  | none => path.script

/-- A script that is no witness program for a key hash is its own script code. -/
theorem SpendPath.code_eq_script {path : SpendPath}
    (h : path.script.matchesPattern Script.p2wpkh = false) : path.code = path.script := by
  rw [code, Script.Pattern.payload?_eq_none_iff.mpr h]

namespace Psbt

variable {scheme : SignatureScheme} {p : Psbt} {index : Nat} {path : SpendPath}

/-- What the scripts of an input are run for. -/
def context (scheme : SignatureScheme) (p : Psbt) (index : Nat) : Evaluation.Context :=
  ⟨scheme, p.transaction, index, p.spentOutput?⟩

/-! ## ECDSA signatures -/

/-- The digest for a path is the one that its script prescribes. -/
private theorem ecdsaDigest?_of_ecdsaDigest (hspent : p.spentOutput? index = some path.output)
    (hbase : path.version = .base → path.script.matchesPattern Script.p2wpkh = false)
    {type : SighashType} {digest : Digest} (h : p.ecdsaDigest index path type = .ok digest) :
    (p.context scheme index).ecdsaDigest? path.version path.code type = some digest := by
  unfold ecdsaDigest at h
  unfold Context.ecdsaDigest?
  dsimp only [context] at h ⊢
  rw [hspent]
  cases hinput : p.transaction.inputs[index]? with
  | none =>
    rw [hinput] at h
    simp at h
  | some input =>
    rw [hinput] at h
    dsimp only at h ⊢
    cases hversion : path.version with
    | base =>
      rw [hversion] at h
      rw [SpendPath.code_eq_script (hbase hversion)]
      exact congrArg some (Except.ok.inj h)
    | witnessV0 =>
      rw [hversion] at h
      exact congrArg some (Except.ok.inj h)
    | taproot =>
      rw [hversion] at h
      simp at h

/-- **A signature that was accepted under a key** is accepted by the script of the path. -/
theorem checkSignature_of_verifies (hspent : p.spentOutput? index = some path.output)
    (hbase : path.version = .base → path.script.matchesPattern Script.p2wpkh = false)
    {key : PublicKey} {sig : TypedSignature} {data : Bytes}
    (hdata : Curve.Point.ofBytes? data = some key.point)
    (h : p.verifies scheme index path key sig = true) :
    (p.context scheme index).checkSignature path.version path.code sig.bytes data = true := by
  unfold verifies at h
  split at h
  · next digest hdigest =>
    have hread : signature? sig.bytes = some sig := by
      simp [signature?, TypedSignature.ofBytes?_bytes]
    unfold Context.checkSignature
    rw [hread, hdata]
    dsimp only
    rw [ecdsaDigest?_of_ecdsaDigest hspent hbase hdigest]
    exact h
  · simp at h

/-! ## Taproot signatures -/

/-- The spent outputs are known, one for each index. -/
private theorem mapM_of_spentOutputsFrom {count start : Nat} {spent : List TxOutput}
    (h : p.spentOutputsFrom count start = .ok spent) :
    (List.range' start count).mapM p.spentOutput? = some spent ∧ spent.length = count := by
  induction count generalizing start spent with
  | zero =>
    obtain rfl := Except.ok.inj h
    exact ⟨rfl, rfl⟩
  | succ count ih =>
    rw [spentOutputsFrom] at h
    cases hfirst : p.spentOutput? start with
    | none =>
      rw [hfirst] at h
      exact absurd h Steps.throw_ne_ok
    | some output =>
      rw [hfirst] at h
      obtain ⟨rest, hrest, h⟩ := Steps.bind_eq_ok_iff.mp h
      obtain rfl := Steps.pure_eq_ok_iff.mp h
      obtain ⟨hmap, hlen⟩ := ih hrest
      refine ⟨?_, congrArg Nat.succ hlen⟩
      rw [List.range'_succ, List.mapM_cons, hfirst, hmap]
      rfl

/-- There is a digest only for as many spent outputs as inputs. -/
private theorem length_eq_of_taprootDigest? {tx : Transaction} {spent : List TxOutput}
    {type : TaprootSighashType} {digest : Digest}
    (h : tx.taprootDigest? index spent type = .ok digest) : spent.length = tx.inputs.length := by
  by_contra hne
  have hthrow : tx.taprootDigest? index spent type = throw .spentCount := by
    unfold Transaction.taprootDigest?
    exact if_pos hne
  exact Steps.throw_ne_ok (hthrow.symm.trans h)

/-- The digest for an output key is the one that is prescribed. -/
private theorem taprootDigest?_of_taprootDigest {type : TaprootSighashType} {digest : Digest}
    (h : p.taprootDigest index type = .ok digest) :
    (p.context scheme index).taprootDigest? type = some digest := by
  obtain ⟨spent, hspent, h⟩ := Steps.bind_eq_ok_iff.mp h
  obtain ⟨hmap, hlen⟩ := mapM_of_spentOutputsFrom hspent
  unfold Context.taprootDigest?
  dsimp only [context]
  rw [← length_eq_of_taprootDigest? h, hlen, List.range_eq_range', hmap]
  simp [h, Except.toOption]

/-- **A signature that was accepted under an output key** is accepted when the output is spent. -/
theorem checkTaproot_of_verifiesTaproot {outputKey : Curve.XOnly} {sig : TaprootSignature}
    {data : Bytes} (hdata : Curve.XOnly.ofBytes? data = some outputKey)
    (h : p.verifiesTaproot scheme index outputKey sig = true) :
    (p.context scheme index).checkTaproot data sig.bytes = true := by
  unfold verifiesTaproot at h
  split at h
  · next digest hdigest =>
    have hread : taprootSignature? sig.bytes = some sig := by
      simp [taprootSignature?, TaprootSignature.ofBytes?_bytes]
    unfold Context.checkTaproot
    rw [hread, hdata]
    dsimp only
    rw [taprootDigest?_of_taprootDigest hdigest]
    exact h
  · simp at h

/-! ## Collected stacks -/

/-- The stack for a key hash: a signature and its key, which are recorded, accepted and valid. -/
theorem pubkeyHashStack_eq_ok {input : InputMap} {hash : Fixed 20} {stack : List Bytes}
    (h : p.pubkeyHashStack scheme index input path hash = .ok stack) :
    ∃ key sig, stack = [sig.bytes, key.bytes] ∧ Script.hashMatches hash key = true ∧
      path.accepts key = true ∧ input.get? (.partialSig key) = some sig ∧
        p.verifies scheme index path key sig = true := by
  unfold pubkeyHashStack at h
  dsimp only at h
  split at h
  · next key sig hfound =>
    obtain rfl := Except.ok.inj h
    have hrecorded := InputMap.mem_partialSigs_iff.mp (List.mem_of_find?_eq_some hfound)
    have hall := List.find?_some hfound
    simp only [Bool.and_eq_true] at hall
    obtain ⟨⟨hhash, haccepts⟩, hvalid⟩ := hall
    exact ⟨key, sig, rfl, hhash, haccepts, hrecorded, hvalid⟩
  · simp at h

/-- A signature that is found under a key was checked. -/
theorem verifies_of_validSignature? {input : InputMap} {key : PublicKey} {sig : TypedSignature}
    (h : p.validSignature? scheme index input path key = some sig) :
    p.verifies scheme index path key sig = true :=
  (Option.filter_eq_some_iff.mp h).2

/-- **The stack for a key**: a valid signature that is recorded under it. -/
theorem pubkeyStack_eq_ok_iff {input : InputMap} {key : PublicKey} {stack : List Bytes} :
    p.pubkeyStack scheme index input path key = .ok stack ↔
      ∃ sig, stack = [sig.bytes] ∧ input.get? (.partialSig key) = some sig ∧
        p.verifies scheme index path key sig = true := by
  simp only [← Option.filter_eq_some_iff]
  change _ ↔ ∃ sig, _ ∧ p.validSignature? scheme index input path key = some sig
  unfold pubkeyStack
  cases p.validSignature? scheme index input path key with
  | none => simp
  | some sig => simp [eq_comm]

/-- What is found for some elements of a list, beside the elements of a related list. -/
private theorem exists_sublist_of_filterMap {α β γ : Type} {R : β → α → Prop} (f : α → Option γ)
    {bs : List β} {as : List α} (h : List.Forall₂ R bs as) :
    ∃ chosen, chosen.Sublist bs ∧
      List.Forall₂ (fun c b => ∃ a, R b a ∧ f a = some c) (as.filterMap f) chosen := by
  induction h with
  | nil => exact ⟨[], .slnil, .nil⟩
  | @cons b a bs as hba _ ih =>
    obtain ⟨chosen, hsub, hall⟩ := ih
    cases hfa : f a with
    | none =>
      rw [List.filterMap_cons_none hfa]
      exact ⟨chosen, hsub.cons b, hall⟩
    | some c =>
      rw [List.filterMap_cons_some hfa]
      exact ⟨b :: chosen, hsub.cons_cons b, .cons ⟨a, hba, hfa⟩ hall⟩

/-- **The stack for a threshold of keys**: an empty element, and as many of the valid signatures as
the threshold says. -/
theorem multisigStack_eq_ok_iff {input : InputMap} {threshold : Nat} {keys : List PublicKey}
    {stack : List Bytes} :
    p.multisigStack scheme index input path threshold keys = .ok stack ↔
      threshold ≤ (keys.filterMap (p.validSignature? scheme index input path)).length ∧
        stack = [] :: ((keys.filterMap (p.validSignature? scheme index input path)).take
          threshold).map (·.bytes) := by
  unfold multisigStack
  dsimp only
  rw [List.filterMap_map]
  change (if ((keys.filterMap (p.validSignature? scheme index input path)).take threshold).length <
    threshold then _ else _) = _ ↔ _
  rw [List.length_take]
  split
  · next hfew => simp only [reduceCtorEq, false_iff, not_and]; omega
  · next henough =>
    rw [Except.ok.injEq, eq_comm]
    exact (and_iff_right (by omega)).symm

/-- The signatures on the stack for a threshold of keys are those of some of the keys, in their
order. The keys are those that a script pushes. -/
private theorem multisigStack_eq_ok {input : InputMap} {threshold : Nat} {pushes : List Bytes}
    {keys : List PublicKey} {stack : List Bytes}
    (hkeys : List.Forall₂ (fun data key => PublicKey.ofBytes? data = some key) pushes keys)
    (h : p.multisigStack scheme index input path threshold keys = .ok stack) :
    ∃ (sigs : List TypedSignature) (chosen : List Bytes),
      stack = [] :: sigs.map (·.bytes) ∧ sigs.length = threshold ∧ chosen.Sublist pushes ∧
      List.Forall₂ (fun sig data => ∃ key, PublicKey.ofBytes? data = some key ∧
        p.verifies scheme index path key sig = true) sigs chosen := by
  obtain ⟨henough, rfl⟩ := multisigStack_eq_ok_iff.mp h
  obtain ⟨chosen, hsub, hall⟩ := exists_sublist_of_filterMap
    (p.validSignature? scheme index input path) hkeys
  refine ⟨_, chosen.take threshold, rfl, List.length_take_of_le henough,
    (List.take_sublist _ _).trans hsub, (List.forall₂_take threshold hall).imp ?_⟩
  rintro sig data ⟨key, hkey, hsig⟩
  exact ⟨key, hkey, verifies_of_validSignature? hsig⟩

/-- **The stack for an output key**: the signature that is recorded, if it is valid. -/
theorem taprootStack_eq_ok_iff {input : InputMap} {outputKey : Curve.XOnly} {stack : List Bytes} :
    p.taprootStack scheme index input outputKey = .ok stack ↔
      ∃ sig : TaprootSignature, stack = [sig.bytes] ∧ input.get? .tapKeySig = some sig ∧
        p.verifiesTaproot scheme index outputKey sig = true := by
  simp only [← Option.filter_eq_some_iff]
  unfold taprootStack
  cases (input.get? .tapKeySig).filter (p.verifiesTaproot scheme index outputKey) with
  | none => simp
  | some sig => simp [eq_comm]

/-! ## Satisfied templates -/

/-- A script that ends in an operation is its own script code. -/
private theorem code_eq_script_of_instructions? (front : List Script.Instruction) {code : UInt8}
    (h : path.script.instructions? = some (front ++ [.op code])) : path.code = path.script := by
  refine SpendPath.code_eq_script (Bool.eq_false_iff.mpr fun hmatch => ?_)
  obtain ⟨hash, hscript⟩ := Script.matchesPattern_iff.mp hmatch
  rw [hscript] at h
  have his := Option.some.inj ((Script.instructions?_p2wpkh hash).symm.trans h)
  have hlast := congrArg List.getLast? his
  rw [List.getLast?_append] at hlast
  simp at hlast

/-- Checking the hash of a key and its signature ends in truth. -/
private theorem endsTrue_of_pubkeyHashStack (hspent : p.spentOutput? index = some path.output)
    (hbase : path.version = .base → path.script.matchesPattern Script.p2wpkh = false)
    {input : InputMap} {hash : Fixed 20} {stack : List Bytes}
    (hcode : path.code = Script.p2pkh.script hash)
    (h : p.pubkeyHashStack scheme index input path hash = .ok stack) :
    endsTrue ((p.context scheme index).runScript path.version path.code stack.reverse) = true := by
  obtain ⟨key, sig, rfl, hhash, -, -, hvalid⟩ := pubkeyHashStack_eq_ok h
  have hcheck := checkSignature_of_verifies hspent hbase (PublicKey.point_ofBytes?_bytes key) hvalid
  rw [hcode] at hcheck ⊢
  unfold Context.runScript
  rw [Script.instructions?_p2pkh, Option.bind_some]
  change endsTrue (Evaluation.run _ _ [key.bytes, sig.bytes]) = true
  rw [run_keyHash (eq_of_beq hhash), hcheck]
  rfl

/-- Checking the signature of a key ends in truth. -/
private theorem endsTrue_of_pubkeyStack (hspent : p.spentOutput? index = some path.output)
    (hbase : path.version = .base → path.script.matchesPattern Script.p2wpkh = false)
    {input : InputMap} {data : Bytes} {key : PublicKey} {stack : List Bytes}
    (hscript : path.script.instructions? = some [.push data, .op Script.checkSig])
    (hkey : PublicKey.ofBytes? data = some key)
    (h : p.pubkeyStack scheme index input path key = .ok stack) :
    endsTrue ((p.context scheme index).runScript path.version path.code stack.reverse) = true := by
  obtain ⟨sig, rfl, -, hvalid⟩ := pubkeyStack_eq_ok_iff.mp h
  have hcheck := checkSignature_of_verifies hspent hbase (PublicKey.point_of_ofBytes? hkey) hvalid
  rw [code_eq_script_of_instructions? [.push data] hscript] at hcheck ⊢
  unfold Context.runScript
  rw [hscript, Option.bind_some]
  change endsTrue (Evaluation.run _ _ [sig.bytes]) = true
  rw [run_pubkey, hcheck]
  rfl

/-- Checking signatures of a threshold of keys ends in truth. -/
private theorem endsTrue_of_multisigStack (hspent : p.spentOutput? index = some path.output)
    (hbase : path.version = .base → path.script.matchesPattern Script.p2wpkh = false)
    {input : InputMap} {threshold : Nat} {pushes : List Bytes} {keys : List PublicKey}
    {stack : List Bytes} (hpos : 0 < threshold) (hle : threshold ≤ keys.length)
    (hmax : keys.length ≤ 16)
    (hscript : path.script.instructions? = some (.op (UInt8.ofNat (0x50 + threshold)) ::
      pushes.map .push ++ [.op (UInt8.ofNat (0x50 + keys.length)), .op Script.checkMultisig]))
    (hkeys : List.Forall₂ (fun data key => PublicKey.ofBytes? data = some key) pushes keys)
    (h : p.multisigStack scheme index input path threshold keys = .ok stack) :
    endsTrue ((p.context scheme index).runScript path.version path.code stack.reverse) = true := by
  obtain ⟨sigs, chosen, rfl, hcount, hsub, hvalid⟩ := multisigStack_eq_ok hkeys h
  have hlen : pushes.length = keys.length := hkeys.length_eq
  have hchecks : List.Forall₂ (fun sig data => (p.context scheme index).checkSignature path.version
      path.code sig data = true) (sigs.map (·.bytes)) chosen := by
    refine List.forall₂_map_left_iff.mpr (hvalid.imp ?_)
    rintro sig data ⟨key, hkey, hsig⟩
    exact checkSignature_of_verifies hspent hbase (PublicKey.point_of_ofBytes? hkey) hsig
  have hmatch := matchSignatures_of_sublist hsub.reverse (List.forall₂_reverse_iff.mpr hchecks)
  have hcode : path.code = path.script :=
    code_eq_script_of_instructions? (.op (UInt8.ofNat (0x50 + threshold)) :: pushes.map .push ++
      [.op (UInt8.ofNat (0x50 + keys.length))]) (by rw [hscript, List.append_assoc]; rfl)
  rw [hcode] at hmatch ⊢
  unfold Context.runScript
  rw [← hlen] at hle hmax hscript
  rw [hscript, Option.bind_some, List.reverse_cons,
    run_multisig hpos hle hmax (by rw [List.length_map, hcount]), hmatch]
  rfl

/-- **The stack for a template satisfies it**: the script of the path, run on the stack, leaves a
single true element.

**Proof sketch.** One case for each form that the script can have. The checks that the script makes
are those that were made when the stack was collected; for a threshold of keys the signatures are in
the order of their keys, which is what passing over keys needs. -/
theorem endsTrue_of_templateStack (hspent : p.spentOutput? index = some path.output)
    (hbase : path.version = .base → path.script.matchesPattern Script.p2wpkh = false)
    {input : InputMap} {template : Template} {stack : List Bytes}
    (hform : path.script.HasForm template)
    (h : p.templateStack scheme index input path template = .ok stack) :
    endsTrue ((p.context scheme index).runScript path.version path.code stack.reverse) = true := by
  cases hform with
  | @keyHash hash hscript =>
    refine endsTrue_of_pubkeyHashStack hspent hbase ?_ h
    rw [SpendPath.code_eq_script, hscript]
    refine Bool.eq_false_iff.mpr fun hmatch => ?_
    obtain ⟨other, hother⟩ := Script.matchesPattern_iff.mp hmatch
    exact Script.p2wpkh_script_ne_p2pkh other hash (hother.symm.trans hscript)
  | @witnessKeyHash hash hscript =>
    refine endsTrue_of_pubkeyHashStack hspent hbase ?_ h
    have hpayload : Script.p2wpkh.payload? path.script = some hash :=
      Script.Pattern.payload?_eq_some_iff.mpr hscript
    rw [SpendPath.code, hpayload]
  | pubkey hscript hkey => exact endsTrue_of_pubkeyStack hspent hbase hscript hkey h
  | multisig hpos hle hmax hscript hkeys =>
    exact endsTrue_of_multisigStack hspent hbase hpos hle hmax hscript hkeys h

end Psbt

end JointSpend
