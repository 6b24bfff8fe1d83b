import JointSpend.Proofs.Record.Agreement
import JointSpend.Sign.Commit

set_option autoImplicit false
set_option relaxedAutoImplicit false

/-!
# Kinds of records of an input

The records of an input fall into three groups: those that every input retains, those that an input
drops when it becomes final, and the final scripts. What an operation does to an input is described
group by group.

## Main definitions

* `JointSpend.InputKey.isDropped` — records that an input drops when it becomes final.

## Main results

* `JointSpend.Psbt.spentOutput?_eq_some_iff` — what an input knows of the output that it spends.
* `JointSpend.InputMap.isFinal_congr` — whether an input is final depends on its final scripts.
* `JointSpend.InputMap.get?_applyFinal` — what is left of an input that becomes final.
* `JointSpend.InputMap.isFinal_applyFinal` — it is final unless both of its scripts are empty.
* `JointSpend.Psbt.getElem?_inputs_setInput` — the inputs after one of them was set.
-/

namespace JointSpend

namespace InputKey

/-- Whether a record is dropped when its input becomes final: all but the retained records and the
final scripts themselves. -/
def isDropped (k : InputKey) : Bool :=
  k.isUnited && !k.isRetained

/-- Retained records are united. -/
theorem isUnited_of_isRetained {k : InputKey} (h : k.isRetained = true) : k.isUnited = true := by
  cases k <;> simp_all [isRetained, isUnited]

/-- Records that say where a key comes from are united. -/
theorem isUnited_of_isOrigin {k : InputKey} (h : k.isOrigin = true) : k.isUnited = true := by
  cases k <;> simp_all [isOrigin, isUnited]

/-- Signatures are united. -/
theorem isUnited_of_isSignature {k : InputKey} (h : k.isSignature = true) :
    k.isUnited = true := by
  cases k <;> simp_all [isSignature, isUnited]

/-- Signatures are dropped. -/
theorem isDropped_of_isSignature {k : InputKey} (h : k.isSignature = true) :
    k.isDropped = true := by
  cases k <;> simp_all [isSignature, isDropped, isUnited, isRetained]

/-- A record that is neither retained nor dropped is a final script. -/
theorem isUnited_eq_false {k : InputKey} (hr : k.isRetained = false) (hd : k.isDropped = false) :
    k.isUnited = false := by
  simpa [isDropped, hr] using hd

/-- A final script is not retained. -/
theorem isRetained_eq_false {k : InputKey} (h : k.isUnited = false) : k.isRetained = false := by
  cases hr : k.isRetained with
  | false => rfl
  | true => simp [isUnited_of_isRetained hr] at h

/-- Retained records do not say where a key comes from. -/
theorem isOrigin_eq_false {k : InputKey} (h : k.isRetained = true) : k.isOrigin = false := by
  cases k <;> simp_all [isRetained, isOrigin]

/-- Retained records are no signatures. -/
theorem isSignature_eq_false {k : InputKey} (h : k.isRetained = true) : k.isSignature = false := by
  cases k <;> simp_all [isRetained, isSignature]

/-- Two keys differ if one is united and the other is not. -/
theorem ne_of_isUnited {k k' : InputKey} (h : k.isUnited = true) (h' : k'.isUnited = false) :
    k' ≠ k := by
  rintro rfl
  simp [h] at h'

end InputKey

namespace InputMap

/-- The recorded signatures are those that are found under their keys. -/
theorem mem_partialSigs_iff {input : InputMap} {key : PublicKey} {sig : TypedSignature} :
    (key, sig) ∈ input.partialSigs ↔ input.get? (.partialSig key) = some sig := by
  rw [partialSigs, List.mem_filterMap, ← RecordMap.mem_entries_iff]
  constructor
  · rintro ⟨⟨k, v⟩, hmem, heq⟩
    cases k <;> simp only [Option.some.injEq, reduceCtorEq] at heq
    obtain ⟨rfl, rfl⟩ := Prod.mk.inj heq
    exact hmem
  · intro hmem
    exact ⟨_, hmem, rfl⟩

/-- Whether an input is final depends on its final scripts alone. -/
theorem isFinal_congr {x y : InputMap}
    (h : ∀ k, InputKey.isUnited k = false → x.get? k = y.get? k) : isFinal x = isFinal y := by
  unfold isFinal
  rw [h .finalScriptSig rfl, h .finalScriptWitness rfl]

/-- Filling a map at united keys does not change whether it is final. -/
theorem isFinal_fill {p : InputKey → Bool} (hp : ∀ k, p k = true → k.isUnited = true)
    (x y : InputMap) : isFinal (x.fill p y) = isFinal x := by
  apply isFinal_congr
  intro k hk
  apply RecordMap.get?_fill_of_not
  by_contra h
  simp [hp k (by simpa using h)] at hk

/-- Setting anything but a final script does not change whether an input is final. -/
theorem isFinal_set {x : InputMap} {k : InputKey} (hk : k.isUnited = true) (v : Option k.Value) :
    isFinal (x.set k v) = isFinal x :=
  isFinal_congr fun _ hk' =>
    RecordMap.get?_set_of_ne x (InputKey.ne_of_isUnited hk hk').symm v

/-! ## Becoming final -/

/-- The final script of an input that was made final. -/
theorem get?_applyFinal_scriptSig (x : InputMap) (s : FinalScripts) :
    (applyFinal x s).get? .finalScriptSig =
      if s.scriptSig.isEmpty then none else some s.scriptSig := by
  rw [applyFinal, RecordMap.get?_set_of_ne _ (by simp), RecordMap.get?_set_self]

/-- The final witness of an input that was made final. -/
theorem get?_applyFinal_witness (x : InputMap) (s : FinalScripts) :
    (applyFinal x s).get? .finalScriptWitness =
      if s.witness.isEmpty then none else some s.witness := by
  rw [applyFinal, RecordMap.get?_set_self]

/-- Of the other records of an input that was made final, the retained ones are left. -/
theorem get?_applyFinal {k : InputKey} (hk : k.isUnited = true) (x : InputMap)
    (s : FinalScripts) :
    (applyFinal x s).get? k = if k.isRetained then x.get? k else none := by
  rw [applyFinal, RecordMap.get?_set_of_ne _ (InputKey.ne_of_isUnited hk rfl),
    RecordMap.get?_set_of_ne _ (InputKey.ne_of_isUnited hk rfl), RecordMap.get?_filter]

/-- An input that was made final is final unless both scripts are empty. -/
theorem isFinal_applyFinal (x : InputMap) (s : FinalScripts) :
    isFinal (applyFinal x s) = (!s.scriptSig.isEmpty || !s.witness.isEmpty) := by
  rw [isFinal, get?_applyFinal_scriptSig, get?_applyFinal_witness]
  cases hs : s.scriptSig.isEmpty <;> cases hw : s.witness.isEmpty <;> simp [hs, hw]

end InputMap

/-! ## Spent outputs -/

/-- An input knows the output at a place: as an output of the whole transaction, or alone, where
the whole transaction is not known or does not have it. -/
def InputMap.Knows (input : InputMap) (place : OutPoint) (output : TxOutput) : Prop :=
  (∃ tx, input.get? .nonWitnessUtxo = some tx ∧ tx.outputs[place.vout.toNat]? = some output) ∨
    input.get? .witnessUtxo = some output ∧
      ∀ tx, input.get? .nonWitnessUtxo = some tx → tx.outputs[place.vout.toNat]? = none

namespace Psbt

/-- The output that an input spends is known exactly when the input knows it. -/
theorem spentOutput?_eq_some_iff {p : Psbt} {index : Nat} {output : TxOutput} :
    p.spentOutput? index = some output ↔
      ∃ input txInput, p.inputs[index]? = some input ∧
        p.transaction.inputs[index]? = some txInput ∧
          InputMap.Knows input txInput.previous output := by
  simp only [spentOutput?, Option.bind_eq_bind, Option.bind_eq_some_iff, exists_and_left]
  refine exists_congr fun input => and_congr_right fun _ => exists_congr fun txInput =>
    and_congr_right fun _ => ?_
  unfold InputMap.Knows
  cases hwhole : input.get? .nonWitnessUtxo with
  | none => simp
  | some tx =>
    simp only [Option.or_eq_some_iff, Option.some.injEq, exists_eq_left', forall_eq']
    rw [and_comm (a := input.get? .witnessUtxo = some output)]

/-! ## Copies with another input -/

/-- An input set to itself. -/
theorem setInput_self {p : Psbt} {index : Nat} {x : InputMap} (hx : p.inputs[index]? = some x) :
    p.setInput index x = p := by
  obtain ⟨hlt, rfl⟩ := List.getElem?_eq_some_iff.mp hx
  rw [setInput, List.set_getElem_self]

/-- An input set twice is as it was set last. -/
theorem setInput_setInput (p : Psbt) (index : Nat) (x y : InputMap) :
    (p.setInput index x).setInput index y = p.setInput index y := by
  simp [setInput]

/-- The inputs after one of them was set. -/
@[simp]
theorem getElem?_inputs_setInput (p : Psbt) (index : Nat) (x : InputMap) (i : Nat) :
    (p.setInput index x).inputs[i]? =
      if i = index then (p.inputs[i]?).map fun _ => x else p.inputs[i]? := by
  rw [setInput, List.getElem?_set]
  by_cases hi : i = index
  · subst hi
    rw [if_pos rfl, if_pos rfl]
    split
    · next hlt => rw [List.getElem?_eq_getElem hlt, Option.map_some]
    · next hlt => rw [List.getElem?_eq_none (by omega), Option.map_none]
  · rw [if_neg (Ne.symm hi), if_neg hi]

end Psbt

end JointSpend
