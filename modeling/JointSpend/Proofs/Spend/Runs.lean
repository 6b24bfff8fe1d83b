import JointSpend.Proofs.Curve.Encodings
import JointSpend.Proofs.Script.Instructions
import JointSpend.Proofs.Spend.Evaluation
import Mathlib.Data.List.Forall2

set_option autoImplicit false
set_option relaxedAutoImplicit false

/-!
# Runs of scripts with templates

What the scripts of each template leave on a stack, in terms of the checks of signatures. For a
threshold of keys, signatures that are valid for some of the keys in the order of the keys are found
to be so although keys are passed over as soon as a signature is not valid for them.

## Main results

* `JointSpend.Evaluation.run_keyHash`, `JointSpend.Evaluation.run_pubkey`,
  `JointSpend.Evaluation.run_multisig` — the scripts of templates.
* `JointSpend.Evaluation.matchSignatures_of_sublist` — matching signatures to keys.
* `JointSpend.Evaluation.run_witnessKeyHash` — a witness program that is run as a script.
-/

namespace JointSpend.Evaluation

variable {check : Bytes → Bytes → Bool}

/-! ## Matching signatures to keys -/

/-- **Passing over keys does no harm**: if signatures are valid, one by one, for some of the keys in
their order, they are matched.

**Proof sketch.** Induction on the keys. If the first signature is valid for the first key, the
other signatures are still valid for keys behind it; if not, the first signature belongs to a later
key. -/
theorem matchSignatures_of_sublist {sigs chosen keys : List Bytes} (hsub : chosen.Sublist keys)
    (hvalid : List.Forall₂ (fun sig key => check sig key = true) sigs chosen) :
    matchSignatures check sigs keys = true := by
  induction keys generalizing sigs chosen with
  | nil =>
    obtain rfl := List.sublist_nil.mp hsub
    cases hvalid
    rfl
  | cons key keys ih =>
    cases hvalid with
    | nil => rfl
    | @cons sig k sigs chosen hsig hrest =>
      rw [matchSignatures]
      split
      · have htail : chosen.Sublist keys :=
          (List.cons_sublist_cons'.mp hsub).elim List.sublist_of_cons_sublist And.right
        exact ih htail hrest
      · next hnot =>
        rcases List.cons_sublist_cons'.mp hsub with hlater | ⟨rfl, -⟩
        · exact ih hlater (.cons hsig hrest)
        · exact absurd hsig hnot

/-! ## Scripts -/

/-- Checking a key hash and a signature leaves the outcome of the check. -/
theorem run_keyHash {hash : Fixed 20} {key : Bytes} (hkey : Hash.hash160 key = hash) (sig : Bytes)
    (stack : Stack) :
    run check [.op 0x76, .op 0xa9, .push hash.bytes, .op 0x88, .op 0xac] (key :: sig :: stack) =
      some (ofBool (check sig key) :: stack) := by
  have hequal : step check (.op 0x88)
      (hash.bytes :: (Hash.hash160 key).bytes :: key :: sig :: stack) =
        some (key :: sig :: stack) := by
    rw [hkey]
    exact if_pos rfl
  simp only [run]
  change (step check (.op 0x88) _).bind _ = _
  rw [hequal]
  rfl

/-- Checking a signature of a key leaves the outcome of the check. -/
theorem run_pubkey (key sig : Bytes) (stack : Stack) :
    run check [.push key, .op Script.checkSig] (sig :: stack) =
      some (ofBool (check sig key) :: stack) :=
  rfl

/-- Checking signatures of a threshold of keys leaves the outcome of the match. -/
theorem run_multisig {threshold : Nat} {keys sigs : List Bytes} (hpos : 0 < threshold)
    (hle : threshold ≤ keys.length) (hmax : keys.length ≤ 16) (hsigs : sigs.length = threshold)
    (stack : Stack) :
    run check (.op (UInt8.ofNat (0x50 + threshold)) :: keys.map .push ++
        [.op (UInt8.ofNat (0x50 + keys.length)), .op Script.checkMultisig])
      (sigs.reverse ++ [] :: stack) =
      some (ofBool (matchSignatures check sigs.reverse keys.reverse) :: stack) := by
  have hcheck : checkMultisig check ([UInt8.ofNat keys.length] :: (keys.reverse ++
      [UInt8.ofNat threshold] :: (sigs.reverse ++ [] :: stack))) =
        some (ofBool (matchSignatures check sigs.reverse keys.reverse) :: stack) := by
    rw [checkMultisig]
    simp only [Option.bind_eq_bind, count?_small hmax, count?_small (hle.trans hmax),
      Option.bind_some, split?_append (@List.length_reverse _ keys),
      split?_append (List.length_reverse.trans hsigs), if_pos hle]
  rw [List.cons_append, run, step_small check hpos (hle.trans hmax), Option.bind_some, run_append,
    run_pushes, Option.bind_some, run, step_small check (by omega) hmax, Option.bind_some, run]
  rw [step_checkMultisig, hcheck]
  rfl

/-- **A witness program that is run as a script** leaves two elements more than there were. -/
theorem run_witnessKeyHash (hash : Fixed 20) (stack : Stack) :
    run check [.push [], .push hash.bytes] stack = some (hash.bytes :: [] :: stack) :=
  rfl

end JointSpend.Evaluation
