import JointSpend.Curve.Secp256k1
import JointSpend.Proofs.Psbt.Shape
import JointSpend.Proofs.Spend.Satisfaction

set_option autoImplicit false
set_option relaxedAutoImplicit false

/-!
# Validity of final scripts

When final scripts were found for an input, do they satisfy the output that it spends? They do, for
every kind of output and every signature scheme, with one exception: a script behind a witness
script hash whose own bytes are those of an output that pays to a key hash in the witness. It is
taken for such an output, so that a key and a signature are collected, but it is run as it is: it
pushes two elements more and checks nothing.

## Main definitions

* `JointSpend.SpendPath.Below` — how a path goes on below an output script or a redeem script.
* `JointSpend.Evaluation.Context.satisfiesScript` — whether elements and a witness satisfy a script,
  of the output or behind a script hash.
* `JointSpend.SpendPath.runsKeyHashOutput` — the exception.

## Main results

* `JointSpend.Psbt.spendPath_eq_ok` — how a path comes about.
* `JointSpend.Psbt.finalizeInput_eq_ok_iff` — what making an input final gives.
* `JointSpend.Evaluation.Context.satisfies_direct`,
  `JointSpend.Evaluation.Context.satisfies_hashOutput` — outputs and script hashes.
* `JointSpend.Psbt.finalizeInput_satisfies_iff` — final scripts satisfy the spent output, except in
  one case.
-/

namespace JointSpend

open Evaluation

/-! ## Paths -/

namespace SpendPath

/-- Whether the script behind a witness script hash has the bytes of an output that pays to a key
hash in the witness. -/
def runsKeyHashOutput (path : SpendPath) : Bool :=
  path.witnessScript.any (·.matchesPattern Script.p2wpkh)

/-- How a path goes on below an output script or a redeem script, which is called `inner`. -/
inductive Below (output : TxOutput) (inner : Script) (redeem : Option Script) : SpendPath → Prop
  /-- A key hash in the witness. -/
  | keyHash {hash : Fixed 20} (h : inner = Script.p2wpkh.script hash) :
      Below output inner redeem ⟨output, .witnessV0, inner, redeem, none⟩
  /-- A script hash in the witness. -/
  | scriptHash {witnessScript : Script} (h : inner = witnessScript.witnessOutput) :
      Below output inner redeem ⟨output, .witnessV0, witnessScript, redeem, some witnessScript⟩
  /-- An output key, which is never behind a script hash. -/
  | outputKey {key : Fixed 32} (hdirect : redeem = none) (h : inner = Script.p2tr.script key) :
      Below output inner redeem ⟨output, .taproot, inner, none, none⟩
  /-- No witness. -/
  | base (h : inner.matchesPattern Script.p2wpkh = false) :
      Below output inner redeem ⟨output, .base, inner, redeem, none⟩

theorem below_eq_ok {input : InputMap} {output : TxOutput} {inner : Script}
    {redeem : Option Script} {path : SpendPath} (h : below input output inner redeem = .ok path) :
    path.Below output inner redeem := by
  unfold below at h
  split at h
  · next hkey =>
    obtain rfl := Except.ok.inj h
    obtain ⟨hash, hinner⟩ := Script.matchesPattern_iff.mp hkey
    exact .keyHash hinner
  · next hkey =>
    split at h
    · split at h
      · next witnessScript hscript =>
        split at h
        · next hhash =>
          obtain rfl := Except.ok.inj h
          exact .scriptHash hhash.symm
        · simp at h
      · simp at h
    · split at h
      · next htaproot =>
        split at h
        · simp at h
        · next hredeem =>
          obtain rfl := Except.ok.inj h
          obtain ⟨key, hinner⟩ := Script.matchesPattern_iff.mp htaproot
          exact .outputKey (by simpa using hredeem) hinner
      · obtain rfl := Except.ok.inj h
        exact .base (by simpa using hkey)

end SpendPath

/-- **How a path comes about**: from the spent output, or from the script with its hash. -/
theorem Psbt.spendPath_eq_ok {p : Psbt} {index : Nat} {path : SpendPath}
    (h : p.spendPath index = .ok path) :
    ∃ output, p.spentOutput? index = some output ∧
      ((output.script.matchesPattern Script.p2sh = false ∧
          path.Below output output.script none) ∨
        ∃ redeem, output.script = redeem.hashOutput ∧
          path.Below output redeem (some redeem)) := by
  unfold spendPath at h
  split at h
  · simp at h
  · split at h
    · simp at h
    · next output houtput =>
      refine ⟨output, houtput, ?_⟩
      split at h
      · split at h
        · next redeem hredeem =>
          split at h
          · next hhash => exact .inr ⟨redeem, hhash.symm, SpendPath.below_eq_ok h⟩
          · simp at h
        · simp at h
      · next hdirect => exact .inl ⟨by simpa using hdirect, SpendPath.below_eq_ok h⟩

/-! ## Pushed elements -/

namespace Script

private theorem pushBytes_ne_nil (data : Bytes) : pushBytes data ≠ [] := by
  unfold pushBytes
  dsimp only
  split
  · simp
  · split
    · simp
    · split <;> simp

private theorem flatMap_pushBytes_eq_nil_iff {items : List Bytes} :
    items.flatMap pushBytes = [] ↔ items = [] := by
  rw [List.flatMap_eq_nil_iff]
  constructor
  · intro h
    exact List.eq_nil_iff_forall_not_mem.mpr fun item hitem =>
      pushBytes_ne_nil item (h item hitem)
  · rintro rfl
    simp

end Script

namespace Evaluation.Context

variable {c : Context} {items witness : List Bytes} {scriptSig : Script}

/-- Pushed elements end up on the stack. -/
private theorem runScript_pushAll? (version : SigVersion)
    (h : Script.pushAll? items = some scriptSig) :
    c.runScript version scriptSig [] = some items.reverse := by
  obtain ⟨hlen, rfl⟩ := Script.pushAll?_eq_some_iff.mp h
  rw [runScript, Script.instructions?_pushes hlen, Option.bind_some, run_pushes, List.append_nil]

/-- A script that pushes elements does nothing else. -/
private theorem pushesOnly_pushAll? (h : Script.pushAll? items = some scriptSig) :
    pushesOnly scriptSig = true := by
  obtain ⟨hlen, rfl⟩ := Script.pushAll?_eq_some_iff.mp h
  rw [pushesOnly, Script.instructions?_pushes hlen]
  simp

theorem isEmpty_pushAll? (h : Script.pushAll? items = some scriptSig) :
    scriptSig.isEmpty = items.isEmpty := by
  obtain ⟨-, rfl⟩ := Script.pushAll?_eq_some_iff.mp h
  rw [Bool.eq_iff_iff, Script.isEmpty, List.isEmpty_iff, List.isEmpty_iff,
    Script.flatMap_pushBytes_eq_nil_iff]

/-! ## Outputs and script hashes -/

/-- Whether pushed elements and a witness satisfy a script: that of the output, or the one behind a
script hash. A witness program admits no pushed elements. -/
def satisfiesScript (c : Context) (nested : Bool) (script : Script) (items witness : List Bytes) :
    Bool :=
  match script.witnessProgram? with
  | some (version, program) => items.isEmpty && c.satisfiesProgram nested version program witness
  | none => witness.isEmpty && endsTrue (c.runScript .base script items.reverse)

/-- **An output that is no script hash** is satisfied by what satisfies its script. -/
theorem satisfies_direct {output : TxOutput} (hspent : c.spent c.index = some output)
    (hdirect : output.script.matchesPattern Script.p2sh = false)
    (h : Script.pushAll? items = some scriptSig) :
    c.satisfies ⟨scriptSig, witness⟩ = c.satisfiesScript false output.script items witness := by
  unfold satisfies satisfiesScript
  rw [hspent]
  dsimp only
  cases output.script.witnessProgram? with
  | some program =>
    dsimp only
    rw [isEmpty_pushAll? h]
  | none =>
    dsimp only
    rw [runScript_pushAll? .base h]
    simp [hdirect]

/-- Checking the hash of a script leaves its other elements. -/
private theorem runScript_hashOutput (redeem : Script) (stack : Stack) :
    c.runScript .base redeem.hashOutput (redeem.bytes :: stack) = some (ofBool true :: stack) := by
  have hequal : ofBool ((Hash.hash160 redeem.bytes).bytes == (Hash.hash160 redeem.bytes).bytes) =
      ofBool true := by
    rw [beq_self_eq_true]
  unfold runScript Script.hashOutput
  rw [Script.instructions?_p2sh, Option.bind_some, ← hequal]
  rfl

/-- **A script hash** is satisfied by what satisfies the script with the hash, if that script is
pushed last. -/
theorem satisfies_hashOutput {output : TxOutput} {redeem : Script}
    (hspent : c.spent c.index = some output) (hhash : output.script = redeem.hashOutput)
    (h : Script.pushAll? (items ++ [redeem.bytes]) = some scriptSig) :
    c.satisfies ⟨scriptSig, witness⟩ = c.satisfiesScript true redeem items witness := by
  have hprogram : output.script.witnessProgram? = none := by
    rw [hhash]
    exact Script.witnessProgram?_p2sh _
  have hmatch : output.script.matchesPattern Script.p2sh = true :=
    Script.matchesPattern_iff.mpr ⟨_, hhash⟩
  have hlast : (scriptSig.bytes == Script.pushBytes redeem.bytes) = items.isEmpty := by
    obtain ⟨-, rfl⟩ := Script.pushAll?_eq_some_iff.mp h
    rw [Bool.eq_iff_iff, beq_iff_eq, List.isEmpty_iff, ← Script.flatMap_pushBytes_eq_nil_iff]
    simp
  unfold satisfies satisfiesScript
  rw [hspent]
  dsimp only
  rw [hprogram]
  dsimp only
  rw [runScript_pushAll? .base h, List.reverse_append]
  simp only [hmatch, if_true, List.reverse_singleton, List.singleton_append, satisfiesHash]
  rw [pushesOnly_pushAll? h, hhash, runScript_hashOutput, hlast]
  rfl

/-! ## Witness programs -/

/-- A key hash takes two elements. -/
private theorem satisfiesProgram_keyHash (nested : Bool) (hash : Fixed 20) :
    c.satisfiesProgram nested 0 hash.bytes witness =
      (witness.length == 2 &&
        endsTrue (c.runScript .witnessV0 (Script.p2pkh.script hash) witness.reverse)) := by
  unfold satisfiesProgram
  rw [Fixed.ofBytes?_bytes]
  rfl

/-- A script hash takes a stack for the script with the hash, which comes last. -/
private theorem satisfiesProgram_scriptHash (nested : Bool) (script : Script) :
    c.satisfiesProgram nested 0 (Hash.sha256 script.bytes).bytes (items ++ [script.bytes]) =
      endsTrue (c.runScript .witnessV0 script items.reverse) := by
  have hlong : Fixed.ofBytes? 20 (Hash.sha256 script.bytes).bytes = none :=
    dif_neg (by rw [Fixed.length_eq]; decide)
  unfold satisfiesProgram
  rw [hlong, List.getLast?_concat, List.dropLast_concat]
  simp

/-- An output key takes a signature. -/
private theorem satisfiesProgram_outputKey (key : Fixed 32) (sig : Bytes) :
    c.satisfiesProgram false 1 key.bytes [sig] = c.checkTaproot key.bytes sig := by
  unfold satisfiesProgram
  dsimp only
  rw [key.length_eq]
  simp

/-- **A script that is itself a witness program for a key hash** is satisfied by no stack that has
elements: it adds two more. -/
theorem endsTrue_runScript_p2wpkh (version : SigVersion) (hash : Fixed 20) {top : Bytes}
    {stack : Stack} :
    endsTrue (c.runScript version (Script.p2wpkh.script hash) (top :: stack)) = false := by
  unfold runScript
  rw [Script.instructions?_p2wpkh, Option.bind_some, run_witnessKeyHash]
  rfl

end Evaluation.Context

/-! ## Final scripts -/

/-- The scripts for a stack without a witness. -/
theorem FinalScripts.ofStack?_base {path : SpendPath} {stack : List Bytes} {scripts : FinalScripts}
    (hversion : path.version = .base) (h : ofStack? path stack = some scripts) :
    Script.pushAll? (stack ++ path.redeemScript.toList.map (·.bytes)) = some scripts.scriptSig ∧
      scripts.witness = [] := by
  unfold ofStack? at h
  rw [hversion] at h
  obtain ⟨scriptSig, hpush, rfl⟩ := Option.map_eq_some_iff.mp h
  exact ⟨hpush, rfl⟩

/-- The scripts for a stack in the witness. -/
theorem FinalScripts.ofStack?_witness {path : SpendPath} {stack : List Bytes}
    {scripts : FinalScripts} (hversion : path.version ≠ .base)
    (h : ofStack? path stack = some scripts) :
    Script.pushAll? (path.redeemScript.toList.map (·.bytes)) = some scripts.scriptSig ∧
      scripts.witness = stack ++ path.witnessScript.toList.map (·.bytes) := by
  unfold ofStack? at h
  dsimp only at h
  split at h
  · next hbase => exact absurd hbase hversion
  · obtain ⟨scriptSig, hpush, rfl⟩ := Option.map_eq_some_iff.mp h
    exact ⟨hpush, rfl⟩

namespace Psbt

variable {scheme : SignatureScheme} {p : Psbt} {index : Nat} {output : TxOutput} {inner : Script}
  {redeem : Option Script} {path : SpendPath}

/-- **Making an input final**: the scripts are those for a stack that satisfies the form of the
path. -/
theorem finalizeInput_eq_ok_iff {scripts : FinalScripts} :
    p.finalizeInput scheme index = .ok scripts ↔
      ∃ path template input stack, p.spendPath index = .ok path ∧
        path.template? = some template ∧ p.inputs[index]? = some input ∧
          p.templateStack scheme index input path template = .ok stack ∧
            FinalScripts.ofStack? path stack = some scripts := by
  constructor
  · intro h
    obtain ⟨path, hpath, h⟩ := Steps.bind_eq_ok_iff.mp h
    split at h
    · next template input htemplate hinput =>
      obtain ⟨stack, hstack, h⟩ := Steps.bind_eq_ok_iff.mp h
      split at h
      · next found hfound =>
        obtain rfl := Steps.pure_eq_ok_iff.mp h
        exact ⟨path, template, input, stack, hpath, htemplate, hinput, hstack, hfound⟩
      · exact absurd h Steps.throw_ne_ok
    · exact absurd h Steps.throw_ne_ok
  · rintro ⟨path, template, input, stack, hpath, htemplate, hinput, hstack, hscripts⟩
    refine Steps.bind_eq_ok_iff.mpr ⟨path, hpath, ?_⟩
    rw [htemplate, hinput]
    refine Steps.bind_eq_ok_iff.mpr ⟨stack, hstack, ?_⟩
    rw [hscripts]
    rfl

/-- What a path is satisfied with: the elements that the input script pushes, the redeem script
apart, and the witness. -/
private theorem exists_items_of_ofStack? {stack : List Bytes} {scripts : FinalScripts}
    (hbelow : path.Below output inner redeem)
    (h : FinalScripts.ofStack? path stack = some scripts) :
    ∃ items, Script.pushAll? (items ++ redeem.toList.map (·.bytes)) = some scripts.scriptSig ∧
      items = (if path.version = .base then stack else []) ∧
      scripts.witness = (if path.version = .base then []
        else stack ++ path.witnessScript.toList.map (·.bytes)) := by
  cases hbelow with
  | base hno =>
    obtain ⟨hpush, hwitness⟩ := FinalScripts.ofStack?_base rfl h
    exact ⟨stack, hpush, rfl, hwitness⟩
  | keyHash hinner =>
    obtain ⟨hpush, hwitness⟩ := FinalScripts.ofStack?_witness (by simp) h
    exact ⟨[], hpush, rfl, hwitness⟩
  | scriptHash hinner =>
    obtain ⟨hpush, hwitness⟩ := FinalScripts.ofStack?_witness (by simp) h
    exact ⟨[], hpush, rfl, hwitness⟩
  | outputKey hdirect hinner =>
    obtain ⟨hpush, hwitness⟩ := FinalScripts.ofStack?_witness (by simp) h
    subst hdirect
    exact ⟨[], hpush, rfl, hwitness⟩

/-! ## Satisfied scripts -/

/-- A key hash in the witness asks for a key with the hash. -/
private theorem template?_p2wpkh (hash : Fixed 20) :
    (Script.p2wpkh.script hash).template? = some (.pubkeyHash hash) := by
  have hno : Script.p2pkh.payload? (Script.p2wpkh.script hash) = none := by
    rw [Script.Pattern.payload?_eq_none_iff, Bool.eq_false_iff]
    intro hmatch
    obtain ⟨other, hother⟩ := Script.matchesPattern_iff.mp hmatch
    exact Script.p2wpkh_script_ne_p2pkh hash other hother
  have hyes : Script.p2wpkh.payload? (Script.p2wpkh.script hash) = some hash :=
    Script.Pattern.payload?_script _ _
  unfold Script.template?
  rw [hno]
  dsimp only
  rw [hyes]

/-- A key hash in the witness is satisfied. -/
private theorem satisfiesScript_keyHash {nested : Bool} {hash : Fixed 20} {input : InputMap}
    {template : Template} {stack : List Bytes}
    (hspent : p.spentOutput? index = some output)
    (htemplate : (Script.p2wpkh.script hash).template? = some template)
    (hstack : p.templateStack scheme index input
      ⟨output, .witnessV0, Script.p2wpkh.script hash, redeem, none⟩ template = .ok stack) :
    (p.context scheme index).satisfiesScript nested (Script.p2wpkh.script hash) [] stack =
      true := by
  have hends := endsTrue_of_templateStack hspent (by simp)
    (Script.hasForm_of_template? htemplate) hstack
  obtain rfl := Option.some.inj ((template?_p2wpkh hash).symm.trans htemplate)
  obtain ⟨key, sig, rfl, -⟩ := pubkeyHashStack_eq_ok hstack
  have hpayload : Script.p2wpkh.payload? (Script.p2wpkh.script hash) = some hash :=
    Script.Pattern.payload?_script _ _
  rw [SpendPath.code, hpayload] at hends
  unfold Context.satisfiesScript
  rw [Script.witnessProgram?_p2wpkh]
  dsimp only
  rw [Context.satisfiesProgram_keyHash, hends]
  rfl

/-- A script hash in the witness is satisfied, unless its script pays to a key hash itself. -/
private theorem satisfiesScript_scriptHash {nested : Bool} {witnessScript : Script}
    {input : InputMap} {template : Template} {stack : List Bytes}
    (hspent : p.spentOutput? index = some output)
    (htemplate : witnessScript.template? = some template)
    (hstack : p.templateStack scheme index input
      ⟨output, .witnessV0, witnessScript, redeem, some witnessScript⟩ template = .ok stack) :
    (p.context scheme index).satisfiesScript nested witnessScript.witnessOutput []
      (stack ++ [witnessScript.bytes]) = !witnessScript.matchesPattern Script.p2wpkh := by
  have hends := endsTrue_of_templateStack hspent (by simp)
    (Script.hasForm_of_template? htemplate) hstack
  unfold Context.satisfiesScript Script.witnessOutput
  rw [Script.witnessProgram?_p2wsh]
  dsimp only
  rw [Context.satisfiesProgram_scriptHash, List.isEmpty_nil, Bool.true_and]
  cases hmatch : witnessScript.matchesPattern Script.p2wpkh with
  | false =>
    rw [SpendPath.code_eq_script hmatch] at hends
    exact hends
  | true =>
    -- the stack is a signature and a key, and the script pushes two elements on it
    obtain ⟨hash, rfl⟩ := Script.matchesPattern_iff.mp hmatch
    obtain rfl := Option.some.inj ((template?_p2wpkh hash).symm.trans htemplate)
    obtain ⟨key, sig, rfl, -⟩ := pubkeyHashStack_eq_ok hstack
    exact Context.endsTrue_runScript_p2wpkh .witnessV0 hash

/-- An output key is satisfied. -/
private theorem satisfiesScript_outputKey {key : Fixed 32} {input : InputMap} {template : Template}
    {stack : List Bytes}
    (htemplate : SpendPath.template?
      ⟨output, .taproot, Script.p2tr.script key, none, none⟩ = some template)
    (hstack : p.templateStack scheme index input
      ⟨output, .taproot, Script.p2tr.script key, none, none⟩ template = .ok stack) :
    (p.context scheme index).satisfiesScript false (Script.p2tr.script key) [] stack = true := by
  obtain ⟨outputKey, hkey, rfl⟩ := Option.map_eq_some_iff.mp htemplate
  obtain ⟨sig, rfl, -, hvalid⟩ := taprootStack_eq_ok_iff.mp hstack
  have hbytes : ((Script.p2tr.script key).bytes.drop 2).take 32 = key.bytes := by
    simp only [Script.p2tr, Script.Pattern.script, List.append_nil]
    exact List.take_of_length_le key.length_eq.le
  change Curve.XOnly.ofBytes? (((Script.p2tr.script key).bytes.drop 2).take 32) = _ at hkey
  rw [hbytes] at hkey
  unfold Context.satisfiesScript
  rw [Script.witnessProgram?_p2tr]
  dsimp only
  rw [Context.satisfiesProgram_outputKey, checkTaproot_of_verifiesTaproot hkey hvalid]
  rfl

/-- A script without a witness is satisfied. -/
private theorem satisfiesScript_base {nested : Bool} {input : InputMap} {template : Template}
    {stack : List Bytes} (hspent : p.spentOutput? index = some output)
    (hno : inner.matchesPattern Script.p2wpkh = false)
    (htemplate : inner.template? = some template)
    (hstack : p.templateStack scheme index input
      ⟨output, .base, inner, redeem, none⟩ template = .ok stack) :
    (p.context scheme index).satisfiesScript nested inner stack [] = true := by
  have hform := Script.hasForm_of_template? htemplate
  have hends := endsTrue_of_templateStack hspent (fun _ => hno) hform hstack
  rw [SpendPath.code_eq_script hno] at hends
  unfold Context.satisfiesScript
  rw [hform.witnessProgram?_eq_none hno]
  exact hends

/-- What is pushed and the witness satisfy the script that a path is below, except in one case. -/
private theorem satisfiesScript_of_below {input : InputMap} {template : Template}
    {stack : List Bytes}
    (hspent : p.spentOutput? index = some output) (hbelow : path.Below output inner redeem)
    (htemplate : path.template? = some template)
    (hstack : p.templateStack scheme index input path template = .ok stack) :
    (p.context scheme index).satisfiesScript redeem.isSome inner
      (if path.version = .base then stack else [])
      (if path.version = .base then [] else stack ++ path.witnessScript.toList.map (·.bytes)) =
        !path.runsKeyHashOutput := by
  cases hbelow with
  | base hno => exact satisfiesScript_base hspent hno htemplate hstack
  | keyHash hinner =>
    subst hinner
    rw [Option.toList_none, List.map_nil, List.append_nil]
    exact satisfiesScript_keyHash hspent htemplate hstack
  | scriptHash hinner =>
    subst hinner
    exact satisfiesScript_scriptHash hspent htemplate hstack
  | outputKey hdirect hinner =>
    subst hdirect hinner
    have hsatisfied := satisfiesScript_outputKey htemplate hstack
    simpa [SpendPath.runsKeyHashOutput] using hsatisfied

/-- **Final scripts satisfy the spent output, except in one case**: when the script behind a witness
script hash has the bytes of an output that pays to a key hash in the witness. Then they never do.

**Proof sketch.** The stack that was collected satisfies the script of the path. Below an output
script or a redeem script, that script is run with the same script code, by the rules for its
version; only a witness script with the bytes of such an output is not run by the rules for that
output, but as it is. A redeem script is reached by the check of its hash and is pushed last. -/
theorem finalizeInput_satisfies_iff {scripts : FinalScripts}
    (h : p.finalizeInput scheme index = .ok scripts) :
    (p.context scheme index).satisfies scripts = true ↔
      ∀ path, p.spendPath index = .ok path → path.runsKeyHashOutput = false := by
  obtain ⟨path, template, input, stack, hpath, htemplate, -, hstack, hscripts⟩ :=
    finalizeInput_eq_ok_iff.mp h
  obtain ⟨output, hspent, hreach⟩ := spendPath_eq_ok hpath
  have hsatisfies : (p.context scheme index).satisfies scripts = !path.runsKeyHashOutput := by
    obtain ⟨scriptSig, witness⟩ := scripts
    rcases hreach with ⟨hdirect, hbelow⟩ | ⟨redeem, hhash, hbelow⟩
    · obtain ⟨items, hpush, rfl, hwitness⟩ := exists_items_of_ofStack? hbelow hscripts
      dsimp only at hpush hwitness
      rw [Option.toList_none, List.map_nil, List.append_nil] at hpush
      rw [Context.satisfies_direct hspent hdirect hpush, hwitness]
      exact satisfiesScript_of_below hspent hbelow htemplate hstack
    · obtain ⟨items, hpush, rfl, hwitness⟩ := exists_items_of_ofStack? hbelow hscripts
      dsimp only at hpush hwitness
      rw [Context.satisfies_hashOutput hspent hhash hpush, hwitness]
      exact satisfiesScript_of_below hspent hbelow htemplate hstack
  rw [hsatisfies, Bool.not_eq_true']
  constructor
  · intro hruns other hother
    obtain rfl := Except.ok.inj (hpath.symm.trans hother)
    exact hruns
  · intro hruns
    exact hruns path hpath

/-! ## One signature for two outputs -/

/-- A key: the generator. -/
def sampleKey : PublicKey :=
  ⟨Curve.generatorPoint, true⟩

/-- What pays to the hash of the key in the witness. -/
def sampleKeyScript : Script :=
  Script.p2wpkh.script (Hash.hash160 sampleKey.bytes)

/-- A signature of the key for the samples below. -/
def sampleSignature : TypedSignature :=
  ⟨.ofNats 0x7e5f3f14c628a1ee5ed2ca6386f8b0e7d54f9ab542059157ddf57d6493369f62
    0x3a696fee46afaa9317e498240e0f308a222b20389cb55930d09a72cbcf372ae0, ⟨.all, false⟩⟩

/-- A signed copy of a small transaction that spends an output with the given script. What the
signature signs is the same for an output that pays to the key hash and for one that pays to the
hash of that output's script. -/
def sampleSigned (script : Script) : Psbt :=
  ⟨⟨2, 0, [⟨⟨⟨Fixed.zero 32⟩, 0⟩, .empty, 0xffffffff, []⟩], [⟨1000, ⟨[0x51]⟩⟩]⟩, ∅,
    [(((∅ : InputMap).insert .witnessUtxo ⟨2000, script⟩).insert .witnessScript
      sampleKeyScript).insert (.partialSig sampleKey) sampleSignature], [∅]⟩

/-- The output that pays to the key hash is satisfied. -/
theorem finalizeInput_satisfies_iff_sampleKeyScript :
    ∃ scripts, (sampleSigned sampleKeyScript).finalizeInput Curve.secp256k1 0 = .ok scripts ∧
      ((sampleSigned sampleKeyScript).context Curve.secp256k1 0).satisfies scripts = true := by
  have hpath : (sampleSigned sampleKeyScript).spendPath 0 =
      .ok ⟨⟨2000, sampleKeyScript⟩, .witnessV0, sampleKeyScript, none, none⟩ := by
    decide +kernel
  have hfinal : (sampleSigned sampleKeyScript).finalizeInput Curve.secp256k1 0 =
      .ok ⟨.empty, [sampleSignature.bytes, sampleKey.bytes]⟩ := by
    decide +kernel
  refine ⟨_, hfinal, (finalizeInput_satisfies_iff hfinal).mpr fun path h => ?_⟩
  obtain rfl := Except.ok.inj (hpath.symm.trans h)
  rfl

/-- **Final scripts need not satisfy the spent output**: those for the output that pays to the hash
of that script do not, although the copy was read and the signatures are those of the curve. -/
theorem not_finalizeInput_satisfies :
    ¬ ∀ (p : Psbt) (index : Nat) (scripts : FinalScripts), p.Decoded →
      p.finalizeInput Curve.secp256k1 index = .ok scripts →
        (p.context Curve.secp256k1 index).satisfies scripts = true := by
  intro hall
  have hdecoded : (sampleSigned sampleKeyScript.witnessOutput).Decoded :=
    @Decoded.of_ofBytes? _ (sampleSigned sampleKeyScript.witnessOutput).bytes (by decide +kernel)
  have hfinal : (sampleSigned sampleKeyScript.witnessOutput).finalizeInput Curve.secp256k1 0 =
      .ok ⟨.empty, [sampleSignature.bytes, sampleKey.bytes, sampleKeyScript.bytes]⟩ := by
    decide +kernel
  have hfails : ((sampleSigned sampleKeyScript.witnessOutput).context Curve.secp256k1 0).satisfies
      ⟨.empty, [sampleSignature.bytes, sampleKey.bytes, sampleKeyScript.bytes]⟩ = false := by
    decide +kernel
  exact Bool.false_ne_true (hfails.symm.trans (hall _ _ _ hdecoded hfinal))

end Psbt

end JointSpend
