import JointSpend.Proofs.Merge.Outcome

set_option autoImplicit false
set_option relaxedAutoImplicit false

/-!
# The order of a merge

Whether two copies can be merged does not depend on their order, but the result can: of two final
copies of an input the first one's remaining signing records are kept, and of two open copies the
first one's empty final scripts. Apart from such leftovers the results are equal.

## Main definitions

* `JointSpend.InputMap.SameLeftovers` — equal values at the records that a merge takes from the
  first copy without looking at the second.

## Main results

* `JointSpend.Psbt.merge_comm_iff` — exactly when the two orders give one result.
* `JointSpend.Psbt.not_merge_comm` — they do not always.
-/

namespace JointSpend

namespace InputMap

/-- Two copies of an input have equal values at the records that a merge takes from the first copy
without looking at the second: whatever is not retained where both are final, and final scripts,
which can only be empty ones, where both are open. -/
def SameLeftovers (a b : InputMap) : Prop :=
  match isFinal a, isFinal b with
  | true, true => ∀ k, InputKey.isRetained k = false → a.get? k = b.get? k
  | false, false => ∀ k, InputKey.isUnited k = false → a.get? k = b.get? k
  | _, _ => True

/-- Compatible copies of an input are joined to the same from both sides exactly when their
leftovers are the same. -/
private theorem joined_comm_iff {a b : InputMap} (h : Compatible a b) :
    joined a b = joined b a ↔ SameLeftovers a b := by
  unfold Compatible at h
  unfold joined SameLeftovers
  revert h
  cases isFinal a <;> cases isFinal b <;> intro h
  case false.false => exact RecordMap.fill_comm_iff h
  case false.true => simp
  case true.false => simp
  case true.true => exact RecordMap.fill_comm_iff h.2

end InputMap

namespace Psbt

/-- Joining position by position gives the same from both sides exactly when it does at every
position. -/
private theorem zipWith_comm_iff {α : Type} {join : α → α → α} {as bs : List α} :
    List.zipWith join as bs = List.zipWith join bs as ↔
      Pointwise (fun a b => join a b = join b a) as bs := by
  constructor
  · intro heq i a b ha hb
    have hget := congrArg (fun cs : List α => cs[i]?) heq
    simpa [List.getElem?_zipWith, ha, hb] using hget
  · intro h
    apply List.ext_getElem?
    intro i
    rw [List.getElem?_zipWith, List.getElem?_zipWith]
    cases ha : as[i]? with
    | none => cases bs[i]? <;> rfl
    | some a =>
      cases hb : bs[i]? with
      | none => rfl
      | some b => simp [h i a b ha hb]

/-- Compatibility does not depend on the order. -/
theorem Compatible.symm {a b : Psbt} (h : Compatible a b) : Compatible b a where
  transaction := h.transaction.symm
  globals := h.globals.symm
  inputs := fun i x y hx hy => (h.inputs i y x hy hx).symm
  outputs := fun i x y hx hy => (h.outputs i y x hy hx).symm

/-- Compatible copies are joined to the same from both sides exactly when the leftovers of their
inputs are the same.

**Proof sketch.** The records of the whole and of the outputs are united entirely, so filling them
from either side gives one map; the inputs are compared one by one. -/
theorem joined_comm_iff {a b : Psbt} (h : Compatible a b) :
    joined a b = joined b a ↔ Pointwise InputMap.SameLeftovers a.inputs b.inputs := by
  have hglobals : a.globals.fill (fun _ => true) b.globals =
      b.globals.fill (fun _ => true) a.globals :=
    (RecordMap.fill_comm_iff h.globals).mpr (by simp)
  have houtputs : List.zipWith (RecordMap.fill fun _ => true) a.outputs b.outputs =
      List.zipWith (RecordMap.fill fun _ => true) b.outputs a.outputs :=
    zipWith_comm_iff.mpr fun i x y hx hy =>
      (RecordMap.fill_comm_iff (h.outputs i x y hx hy)).mpr (by simp)
  have hinputs : Pointwise (fun x y => InputMap.joined x y = InputMap.joined y x)
      a.inputs b.inputs ↔ Pointwise InputMap.SameLeftovers a.inputs b.inputs := by
    constructor
    · intro hj i x y hx hy
      exact (InputMap.joined_comm_iff (h.inputs i x y hx hy)).mp (hj i x y hx hy)
    · intro hs i x y hx hy
      exact (InputMap.joined_comm_iff (h.inputs i x y hx hy)).mpr (hs i x y hx hy)
  simp only [joined, Psbt.mk.injEq, h.transaction, hglobals, houtputs, true_and, and_true]
  rw [zipWith_comm_iff, hinputs]

/-- **The order of a merge.** Two copies that were read can be merged in one order exactly when they
can be in the other. The two results are equal up to the inputs, and equal altogether exactly when
the leftovers of the inputs are the same. -/
theorem merge_comm_iff {a b : Psbt} (ha : a.Decoded) (hb : b.Decoded) :
    ((∃ c, merge a b = .ok c) ↔ ∃ d, merge b a = .ok d) ∧
      ∀ c d, merge a b = .ok c → merge b a = .ok d →
        c.transaction = d.transaction ∧ c.globals = d.globals ∧ c.outputs = d.outputs ∧
          (c = d ↔ Pointwise InputMap.SameLeftovers a.inputs b.inputs) := by
  simp only [merge_eq_ok_iff ha.shaped hb.shaped, merge_eq_ok_iff hb.shaped ha.shaped]
  constructor
  · constructor
    · rintro ⟨-, h, -⟩
      exact ⟨_, h.symm, rfl⟩
    · rintro ⟨-, h, -⟩
      exact ⟨_, h.symm, rfl⟩
  · rintro c d ⟨h, rfl⟩ ⟨-, rfl⟩
    refine ⟨h.transaction, ?_, ?_, joined_comm_iff h⟩
    · exact (RecordMap.fill_comm_iff h.globals).mpr (by simp)
    · exact zipWith_comm_iff.mpr fun i x y hx hy =>
        (RecordMap.fill_comm_iff (h.outputs i x y hx hy)).mpr (by simp)

/-! ## Two copies whose order matters -/

/-- A copy of a small transaction whose only input has the given records. -/
def sampleCopy (input : InputMap) : Psbt :=
  ⟨⟨2, 0, [⟨⟨⟨Fixed.zero 32⟩, 0⟩, .empty, 0xffffffff, []⟩], [⟨1000, ⟨[0x51]⟩⟩]⟩, ∅, [input], [∅]⟩

/-- The copy whose input is final and asks for a sighash type. -/
def finalWithSighash : Psbt :=
  sampleCopy (((∅ : InputMap).insert .finalScriptSig ⟨[0x51]⟩).insert .sighashType 1)

/-- The copy whose input is final and holds nothing else. -/
def finalAlone : Psbt :=
  sampleCopy ((∅ : InputMap).insert .finalScriptSig ⟨[0x51]⟩)

theorem decoded_finalWithSighash : finalWithSighash.Decoded :=
  @Decoded.of_ofBytes? _ finalWithSighash.bytes rfl

theorem decoded_finalAlone : finalAlone.Decoded :=
  @Decoded.of_ofBytes? _ finalAlone.bytes rfl

/-- The order matters for these two copies, as `JointSpend.Psbt.merge_comm_iff` says. -/
theorem merge_comm_iff_finalAlone :
    finalAlone.Decoded ∧ finalWithSighash.Decoded ∧
      ¬ Pointwise InputMap.SameLeftovers finalAlone.inputs finalWithSighash.inputs := by
  refine ⟨decoded_finalAlone, decoded_finalWithSighash, fun h => ?_⟩
  have hboth := (merge_comm_iff decoded_finalAlone decoded_finalWithSighash).2
    finalAlone finalWithSighash rfl rfl
  exact absurd (hboth.2.2.2.mpr h) (by decide)

/-- **Merging is not commutative**: what it makes of two final copies of an input depends on the
order. -/
theorem not_merge_comm :
    ¬ ∀ a b : Psbt, a.Decoded → b.Decoded →
      ((∃ c, merge a b = .ok c) ↔ ∃ d, merge b a = .ok d) ∧
        ∀ c d, merge a b = .ok c → merge b a = .ok d → c = d := by
  intro h
  have heq := (h finalAlone finalWithSighash decoded_finalAlone decoded_finalWithSighash).2
    finalAlone finalWithSighash rfl rfl
  exact absurd heq (by decide)

end Psbt

end JointSpend
