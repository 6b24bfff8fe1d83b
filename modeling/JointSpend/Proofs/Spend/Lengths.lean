import JointSpend.Proofs.Codec.Values
import JointSpend.Proofs.Spend.Readiness
import Mathlib.Algebra.Order.BigOperators.Group.List

set_option autoImplicit false
set_option relaxedAutoImplicit false

/-!
# Final scripts are short

What an input is made final with consists of a few keys and signatures, and of scripts that have a
template. Neither can be long, whatever else is recorded for the input: a script with a template has
at most 16 keys, and its instructions leave no bytes between them.

## Main definitions

* `JointSpend.Script.Instruction.size` — how many bytes an instruction takes at most.
* `JointSpend.FinalScripts.Short` — final scripts whose written forms are short.

## Main results

* `JointSpend.Script.length_le_of_instructions?` — a script is no longer than its instructions.
* `JointSpend.Script.HasForm.length_le` — how long a script with a template can be.
* `JointSpend.Psbt.short_of_finalizeInput` — final scripts are short.
-/

namespace JointSpend

/-- Items together are no longer than their number says, if none of them is too long. -/
private theorem Bytes.length_flatMap_le_mul {α : Type} {writer : α → Bytes} {as : List α}
    {n m : Nat} (hcount : as.length ≤ n) (h : ∀ a ∈ as, (writer a).length ≤ m) :
    (as.flatMap writer).length ≤ n * m := by
  have hsum := List.sum_le_card_nsmul (as.map fun a => (writer a).length) m
    (List.forall_mem_map.mpr h)
  rw [List.length_map, nsmul_eq_mul, Nat.cast_id] at hsum
  rw [List.length_flatMap]
  exact hsum.trans (Nat.mul_le_mul_right m hcount)

/-- Byte strings after their lengths. -/
private theorem CompactSize.length_writeAll_le {items : List Bytes} {n m : Nat}
    (hcount : items.length ≤ n) (h : ∀ item ∈ items, item.length ≤ m) :
    (items.flatMap writeBytes).length ≤ n * (9 + m) := by
  refine Bytes.length_flatMap_le_mul hcount fun item hitem => ?_
  rw [writeBytes, List.length_append]
  exact Nat.add_le_add (length_write_le _) (h item hitem)

/-- Byte strings that are pushed. -/
private theorem Script.length_pushes_le {items : List Bytes} {n m : Nat} (hcount : items.length ≤ n)
    (h : ∀ item ∈ items, item.length ≤ m) : (items.flatMap pushBytes).length ≤ n * (m + 5) := by
  refine Bytes.length_flatMap_le_mul hcount fun item hitem => ?_
  rw [length_pushBytes]
  refine Nat.add_le_add (h item hitem) ?_
  split_ifs <;> decide

/-! ## Scripts with templates -/

namespace Script

/-- How many bytes an instruction takes at most. -/
def Instruction.size : Instruction → Nat
  | push data => data.length + 5
  | op _ => 1

/-- A push takes its bytes and those of its length. -/
private theorem length_of_readPush {n : Nat} {bs : Bytes} {r : Bytes × Bytes}
    (h : readPush n bs = some r) : bs.length = n + r.1.length + r.2.length := by
  obtain ⟨data, rest⟩ := r
  simp only [readPush, Option.bind_eq_bind, Option.bind_eq_some_iff, Prod.exists,
    Bytes.reads_littleEndian n _ _ _, Bytes.splitExact_eq_some_iff] at h
  obtain ⟨size, rest', ⟨-, rfl⟩, -, rfl⟩ := h
  rw [List.length_append, Bytes.length_littleEndian, List.length_append, Nat.add_assoc]

/-- An instruction takes no more bytes than its size. -/
private theorem length_le_of_readInstruction {bs rest : Bytes} {i : Instruction}
    (h : readInstruction bs = some (i, rest)) : bs.length ≤ i.size + rest.length := by
  cases bs with
  | nil => simp [readInstruction] at h
  | cons b cs =>
    have hmap : ∀ {o : Option (Bytes × Bytes)}, (∀ r, o = some r →
        cs.length ≤ 4 + r.1.length + r.2.length) →
          o.map (fun r => (Instruction.push r.1, r.2)) = some (i, rest) →
            (b :: cs).length ≤ i.size + rest.length := by
      intro o ho hsome
      obtain ⟨r, hr, heq⟩ := Option.map_eq_some_iff.mp hsome
      obtain ⟨rfl, rfl⟩ := Prod.mk.inj heq
      have := ho r hr
      rw [List.length_cons, Instruction.size]
      omega
    have hwide : ∀ n ≤ 4, ∀ r, readPush n cs = some r →
        cs.length ≤ 4 + r.1.length + r.2.length := by
      intro n hn r hr
      have := length_of_readPush hr
      omega
    rw [readInstruction] at h
    split at h
    · refine hmap (fun r hr => ?_) h
      obtain ⟨-, rfl⟩ := Bytes.splitExact_eq_some_iff.mp hr
      rw [List.length_append]
      omega
    · split at h
      · exact hmap (hwide 1 (by decide)) h
      · split at h
        · exact hmap (hwide 2 (by decide)) h
        · split at h
          · exact hmap (hwide 4 (by decide)) h
          · obtain ⟨rfl, rfl⟩ := Prod.mk.inj (Option.some.inj h)
            rw [List.length_cons, Instruction.size, Nat.add_comm]

/-- **A script is no longer than its instructions.** -/
theorem length_le_of_instructions? {s : Script} {is : List Instruction}
    (h : s.instructions? = some is) : s.bytes.length ≤ (is.map Instruction.size).sum := by
  have hwithin : ∀ (bound : Nat) (bs : Bytes) (is : List Instruction),
      instructionsWithin bound bs = some is → bs.length ≤ (is.map Instruction.size).sum := by
    intro bound
    induction bound with
    | zero =>
      intro bs is h
      cases bs with
      | nil => exact Nat.zero_le _
      | cons b bs => simp [instructionsWithin] at h
    | succ bound ih =>
      intro bs is h
      cases bs with
      | nil => exact Nat.zero_le _
      | cons b bs =>
        simp only [instructionsWithin, Option.bind_eq_bind, Option.bind_eq_some_iff,
          Option.pure_def, Option.some.injEq, Prod.exists] at h
        obtain ⟨i, rest, hi, is', his', rfl⟩ := h
        have hfirst := length_le_of_readInstruction hi
        have hrest := ih rest is' his'
        rw [List.map_cons, List.sum_cons]
        omega
  exact hwithin _ _ _ h

/-- What is read as a key is no longer than a key. -/
private theorem length_le_of_publicKey {data : Bytes} {key : PublicKey}
    (h : PublicKey.ofBytes? data = some key) : data.length ≤ 65 := by
  cases data with
  | nil => exact Nat.zero_le _
  | cons b rest =>
    rw [PublicKey.ofBytes?] at h
    split at h
    · next hlen =>
      rw [List.length_cons, hlen]
      decide
    · split at h
      · obtain ⟨point, hpoint, -⟩ := Option.map_eq_some_iff.mp h
        unfold Curve.Point.ofLong? at hpoint
        split at hpoint
        · next hlen => rw [List.length_cons, hlen]
        · simp at hpoint
      · simp at h

/-- What is read as keys is no longer than keys. -/
private theorem length_le_of_publicKeys {pushes : List Bytes} {keys : List PublicKey}
    (h : List.Forall₂ (fun data key => PublicKey.ofBytes? data = some key) pushes keys) :
    ∀ data ∈ pushes, data.length ≤ 65 := by
  induction h with
  | nil => simp
  | cons hkey _ ih => exact List.forall_mem_cons.mpr ⟨length_le_of_publicKey hkey, ih⟩

/-- **A script with a template** has at most 16 keys and three instructions beside them. -/
theorem HasForm.length_le {s : Script} {t : Template} (h : s.HasForm t) :
    s.bytes.length ≤ 1123 := by
  cases h with
  | keyHash hs => simp [hs, p2pkh, Pattern.script, Fixed.length_eq]
  | witnessKeyHash hs => simp [hs, p2wpkh, Pattern.script, Fixed.length_eq]
  | pubkey hs hkey =>
    have hle := length_le_of_instructions? hs
    have hdata := length_le_of_publicKey hkey
    simp only [List.map_cons, List.map_nil, List.sum_cons, List.sum_nil, Instruction.size] at hle
    omega
  | @multisig threshold pushes keys hpos hle hmax hs hkeys =>
    have hlength := length_le_of_instructions? hs
    have hpushes : ∀ n ∈ pushes.map fun data => data.length + 5, n ≤ 70 := by
      refine List.forall_mem_map.mpr fun data hdata => ?_
      have := length_le_of_publicKeys hkeys data hdata
      omega
    have hsum := List.sum_le_card_nsmul _ 70 hpushes
    have hcount := hkeys.length_eq
    simp only [List.cons_append, List.map_cons, List.map_append, List.map_map, List.map_nil,
      List.sum_cons, List.sum_append, List.sum_nil, Instruction.size, Function.comp_def] at hlength
    rw [List.length_map, nsmul_eq_mul, Nat.cast_id] at hsum
    omega

end Script

/-! ## Final scripts -/

/-- Final scripts whose written forms are short. -/
structure FinalScripts.Short (scripts : FinalScripts) : Prop where
  scriptSig : scripts.scriptSig.bytes.length ≤ shortLength
  witness : (Witness.bytes scripts.witness).length ≤ shortLength

namespace Psbt

variable {scheme : SignatureScheme} {p : Psbt} {index : Nat} {path : SpendPath}
  {template : Template}

/-- A stack for a template has an element for each of at most 16 keys, and one more. -/
private theorem length_templateStack_le {input : InputMap} {stack : List Bytes}
    (htemplate : path.template? = some template)
    (h : p.templateStack scheme index input path template = .ok stack) : stack.length ≤ 17 := by
  cases template with
  | pubkeyHash hash =>
    obtain ⟨key, sig, rfl, -⟩ := pubkeyHashStack_eq_ok h
    simp
  | pubkey key =>
    obtain ⟨sig, rfl, -⟩ := pubkeyStack_eq_ok_iff.mp h
    simp
  | multisig threshold keys =>
    obtain ⟨-, rfl⟩ := multisigStack_eq_ok_iff.mp h
    have hscript : path.script.template? = some (.multisig threshold keys) := by
      unfold SpendPath.template? at htemplate
      split at htemplate
      · simp at htemplate
      · exact htemplate
    cases Script.hasForm_of_template? hscript with
    | multisig _ hle hmax _ _ =>
      have := List.length_take_le threshold (keys.filterMap (p.validSignature? scheme index input path))
      rw [List.length_cons, List.length_map]
      omega
  | taprootKey outputKey =>
    obtain ⟨sig, rfl, -⟩ := taprootStack_eq_ok_iff.mp h
    simp

/-- The scripts behind hashes on a path with a template are short. -/
theorem length_le_of_spendPath (hpath : p.spendPath index = .ok path)
    (htemplate : path.template? = some template) :
    ∀ s ∈ path.redeemScript.toList ++ path.witnessScript.toList, s.bytes.length ≤ 1123 := by
  have hbelow : ∀ {output : TxOutput} {inner : Script} {redeem : Option Script},
      (∀ s ∈ redeem, s = inner) → path.Below output inner redeem →
        ∀ s ∈ path.redeemScript.toList ++ path.witnessScript.toList, s.bytes.length ≤ 1123 := by
    intro output inner redeem hredeem hbelow
    cases hbelow with
    | keyHash hinner =>
      intro s hs
      rw [hredeem s (by simpa using hs), hinner]
      simp [Script.p2wpkh, Script.Pattern.script, Fixed.length_eq]
    | @scriptHash witnessScript hinner =>
      have hform := Script.hasForm_of_template? htemplate
      rw [List.forall_mem_append]
      refine ⟨fun s hs => ?_, fun s hs => ?_⟩
      · rw [hredeem s (by simpa using hs), hinner]
        simp [Script.witnessOutput, Script.p2wsh, Script.Pattern.script, Fixed.length_eq]
      · obtain rfl : s = witnessScript := by simpa using hs
        exact hform.length_le
    | outputKey _ _ => simp
    | base _ =>
      have hform := Script.hasForm_of_template? htemplate
      intro s hs
      rw [hredeem s (by simpa using hs)]
      exact hform.length_le
  obtain ⟨output, -, ⟨-, h⟩ | ⟨redeem, -, h⟩⟩ := spendPath_eq_ok hpath
  · exact hbelow (by simp) h
  · exact hbelow (by simp) h

/-- **Final scripts are short.** -/
theorem short_of_finalizeInput {scripts : FinalScripts}
    (h : p.finalizeInput scheme index = .ok scripts) : scripts.Short := by
  obtain ⟨path, template, input, stack, hpath, htemplate, -, hstack, hscripts⟩ :=
    finalizeInput_eq_ok_iff.mp h
  have hcount := length_templateStack_le htemplate hstack
  have hitem := length_le_of_templateStack hstack
  have hscript := length_le_of_spendPath hpath htemplate
  rw [List.forall_mem_append] at hscript
  have hone : ∀ o : Option Script, (o.toList.map (·.bytes)).length ≤ 1 := by simp
  have hsigned := Script.length_pushes_le hcount hitem
  have hredeem := Script.length_pushes_le (hone _) (List.forall_mem_map.mpr hscript.1)
  by_cases hversion : path.version = .base
  · obtain ⟨hpush, hnone⟩ := FinalScripts.ofStack?_base hversion hscripts
    obtain ⟨-, hsig⟩ := Script.pushAll?_eq_some_iff.mp hpush
    refine ⟨?_, ?_⟩
    · rw [hsig, shortLength, List.flatMap_append, List.length_append]
      omega
    · rw [hnone]
      decide
  · obtain ⟨hpush, hitems⟩ := FinalScripts.ofStack?_witness hversion hscripts
    obtain ⟨-, hsig⟩ := Script.pushAll?_eq_some_iff.mp hpush
    refine ⟨?_, ?_⟩
    · rw [hsig, shortLength]
      dsimp only
      omega
    · have hstacked := CompactSize.length_writeAll_le hcount hitem
      have hending := CompactSize.length_writeAll_le (hone _) (List.forall_mem_map.mpr hscript.2)
      have hnumber := CompactSize.length_write_le
        (stack.length + (path.witnessScript.toList.map (·.bytes)).length)
      rw [hitems, shortLength, Witness.bytes, CompactSize.writeList, List.flatMap_append]
      simp only [List.length_append]
      omega

end Psbt

end JointSpend
