import JointSpend.Proofs.Merge.Commutativity
import JointSpend.Proofs.Psbt.Clean

set_option autoImplicit false
set_option relaxedAutoImplicit false

/-!
# What a merge keeps

A merge fails on conflicts only. What it gives is the union of what the two copies hold, apart from
inputs that are final: the retained records of such an input are united, too, but its other records
are those of the final copy, or of the first one if both are final. Nothing is invented.

## Main definitions

* `JointSpend.Psbt.ConflictFree` — no conflict, record by record, for a given reading of what is a
  conflict between final scripts.
* `JointSpend.InputMap.Merged`, `JointSpend.Psbt.Merged` — what a merge has to give.

## Main results

* `JointSpend.Psbt.conflictFree_iff` — compatibility, record by record.
* `JointSpend.Psbt.merge_exact` — a merge succeeds exactly without conflicts and gives what it has
  to.
* `JointSpend.Psbt.not_merge_of_scriptsAgree` — final scripts have to be the same: it does not
  suffice that those that both copies have are equal.
-/

namespace JointSpend

/-! ## Inputs -/

namespace InputMap

/-- Two copies of an input have the same final scripts. One that a copy does not have, the other
does not have either. -/
def SameScripts (x y : InputMap) : Prop :=
  x.get? .finalScriptSig = y.get? .finalScriptSig ∧
    x.get? .finalScriptWitness = y.get? .finalScriptWitness

/-- The final scripts that both copies of an input have are equal. One copy may have a script that
the other does not have. -/
def ScriptsAgree (x y : InputMap) : Prop :=
  RecordMap.Agree (fun k => !k.isUnited) x y

/-- Compatibility, by groups of records. -/
theorem compatible_iff {x y : InputMap} :
    Compatible x y ↔ RecordMap.Agree InputKey.isRetained x y ∧
      (isFinal x = false → isFinal y = false → RecordMap.Agree InputKey.isDropped x y) ∧
      (isFinal x = true → isFinal y = true → SameScripts x y) := by
  constructor
  · intro h
    refine ⟨h.agree_retained, fun hx hy => ?_, fun hx hy => ?_⟩
    · refine (h.agree_united hx hy).mono fun k hk => ?_
      exact (Bool.and_eq_true_iff.mp hk).1
    · exact ⟨h.scripts_eq hx hy rfl, h.scripts_eq hx hy rfl⟩
  · rintro ⟨hretained, hdropped, hscripts⟩
    refine Compatible.of_agree hretained (fun hx hy k hk => ?_) (fun hx hy k hk => ?_)
    · cases k <;> simp only [InputKey.isUnited, Bool.true_eq_false] at hk
      case finalScriptSig => exact (hscripts hx hy).1
      case finalScriptWitness => exact (hscripts hx hy).2
    · cases hr : k.isRetained with
      | true => exact hretained k hr
      | false => exact hdropped hx hy k (by simp [InputKey.isDropped, hk, hr])

/-- What a merge of two copies of an input has to give. -/
structure Merged (x y z : InputMap) : Prop where
  /-- It is final when one of the copies is. -/
  final : isFinal z = (isFinal x || isFinal y)
  /-- Retained records are united, final or not. -/
  retained : RecordMap.UnionAt InputKey.isRetained x y z
  /-- What signing needs is united where both copies are open. -/
  signing : isFinal x = false → isFinal y = false → RecordMap.UnionAt InputKey.isDropped x y z
  /-- Where the first copy is final, its final scripts and whatever else it does not retain are
  kept. -/
  ofFirst : isFinal x = true → ∀ k, InputKey.isRetained k = false → z.get? k = x.get? k
  /-- Where only the second copy is final, its records are kept in the same way. -/
  ofSecond : isFinal x = false → isFinal y = true →
    ∀ k, InputKey.isRetained k = false → z.get? k = y.get? k
  /-- Where both copies are final, the final scripts are those of both. -/
  scripts : isFinal x = true → isFinal y = true → SameScripts x z ∧ SameScripts y z
  /-- Nothing comes from elsewhere. -/
  source : ∀ k v, z.get? k = some v → x.get? k = some v ∨ y.get? k = some v

/-- Whatever a map holds after filling comes from one of the two maps. -/
private theorem source_of_fill {p : InputKey → Bool} {x y : InputMap} {k : InputKey} {v : k.Value}
    (h : (x.fill p y).get? k = some v) : x.get? k = some v ∨ y.get? k = some v := by
  rw [RecordMap.get?_fill, Option.or_eq_some_iff] at h
  rcases h with h | ⟨-, h⟩
  · exact Or.inl h
  · split at h
    · exact Or.inr h
    · simp at h

/-- **What compatible copies of an input are joined to** is what a merge has to give. -/
theorem merged_joined {x y : InputMap} (h : Compatible x y) : Merged x y (joined x y) := by
  have hunited := fun k => @InputKey.isUnited_of_isRetained k
  have hkept : ∀ (x y : InputMap) (k : InputKey), k.isRetained = false →
      (x.fill InputKey.isRetained y).get? k = x.get? k :=
    fun x y k hk => RecordMap.get?_fill_of_not x y hk
  unfold joined
  cases hx : isFinal x with
  | true =>
    have hscripts : SameScripts x (x.fill InputKey.isRetained y) :=
      ⟨(hkept x y _ rfl).symm, (hkept x y _ rfl).symm⟩
    exact
      { final := by rw [isFinal_fill hunited, hx, Bool.true_or]
        retained := h.agree_retained.unionAt
        signing := by simp [hx]
        ofFirst := fun _ => hkept x y
        ofSecond := by simp [hx]
        scripts := fun _ hy => ⟨hscripts,
          (h.scripts_eq hx hy rfl).symm.trans hscripts.1,
          (h.scripts_eq hx hy rfl).symm.trans hscripts.2⟩
        source := fun _ _ => source_of_fill }
  | false =>
    cases hy : isFinal y with
    | true =>
      exact
        { final := by rw [isFinal_fill hunited, hx, hy]; rfl
          retained := h.agree_retained.symm.unionAt.symm
          signing := by simp [hy]
          ofFirst := by simp [hx]
          ofSecond := fun _ _ => hkept y x
          scripts := by simp [hx]
          source := fun _ _ hv => (source_of_fill hv).symm }
    | false =>
      have hunion := (h.agree_united hx hy).unionAt
      exact
        { final := by rw [isFinal_fill fun _ hk => hk, hx, hy]; rfl
          retained := hunion.mono hunited
          signing := fun _ _ => hunion.mono fun k hk => (Bool.and_eq_true_iff.mp hk).1
          ofFirst := by simp [hx]
          ofSecond := by simp [hy]
          scripts := by simp [hx]
          source := fun _ _ => source_of_fill }

end InputMap

/-! ## The whole -/

namespace Psbt

/-- Two copies have no conflict: they are copies of one transaction, and no record has two different
values. What is a conflict between the final scripts of an input is given. -/
structure ConflictFree (scripts : InputMap → InputMap → Prop) (a b : Psbt) : Prop where
  transaction : a.transaction = b.transaction
  /-- The records of the whole. -/
  globals : RecordMap.Agree (fun _ => true) a.globals b.globals
  /-- The records of the outputs. -/
  outputs : Pointwise (RecordMap.Agree fun _ => true) a.outputs b.outputs
  /-- The retained records of all inputs. -/
  retained : Pointwise (RecordMap.Agree InputKey.isRetained) a.inputs b.inputs
  /-- What signing needs, of the inputs that are open in both copies. -/
  signing : Pointwise (fun x y => InputMap.isFinal x = false → InputMap.isFinal y = false →
    RecordMap.Agree InputKey.isDropped x y) a.inputs b.inputs
  /-- The final scripts of the inputs that are final in both copies. -/
  finalScripts : Pointwise (fun x y => InputMap.isFinal x = true → InputMap.isFinal y = true →
    scripts x y) a.inputs b.inputs

/-- **Compatibility, record by record.** -/
theorem conflictFree_iff {a b : Psbt} : ConflictFree InputMap.SameScripts a b ↔ Compatible a b := by
  constructor
  · intro h
    refine ⟨h.transaction, h.globals, fun i x y hx hy => ?_, h.outputs⟩
    exact InputMap.compatible_iff.mpr
      ⟨h.retained i x y hx hy, h.signing i x y hx hy, h.finalScripts i x y hx hy⟩
  · intro h
    have hinputs := fun i x y hx hy => InputMap.compatible_iff.mp (h.inputs i x y hx hy)
    exact ⟨h.transaction, h.globals, h.outputs, fun i x y hx hy => (hinputs i x y hx hy).1,
      fun i x y hx hy => (hinputs i x y hx hy).2.1, fun i x y hx hy => (hinputs i x y hx hy).2.2⟩

/-- What a merge of two copies has to give. -/
structure Merged (a b c : Psbt) : Prop where
  transaction : c.transaction = a.transaction
  /-- There is one map for each input and one for each output. -/
  shaped : c.Shaped
  globals : RecordMap.UnionAt (fun _ => true) a.globals b.globals c.globals
  inputs : ∀ (i : Nat) (x y z : InputMap), a.inputs[i]? = some x → b.inputs[i]? = some y →
    c.inputs[i]? = some z → InputMap.Merged x y z
  outputs : ∀ (i : Nat) (x y z : OutputMap), a.outputs[i]? = some x → b.outputs[i]? = some y →
    c.outputs[i]? = some z → RecordMap.UnionAt (fun _ => true) x y z

/-- **What compatible copies are joined to** is what a merge has to give. -/
theorem merged_joined {a b : Psbt} (ha : a.Shaped) (hb : b.Shaped) (h : Compatible a b) :
    Merged a b (joined a b) where
  transaction := rfl
  shaped := ha.joined hb h.transaction
  globals := h.globals.unionAt
  inputs := fun i x y z hx hy hz => by
    simp only [joined, List.getElem?_zipWith, hx, hy, Option.some.injEq] at hz
    rw [← hz]
    exact InputMap.merged_joined (h.inputs i x y hx hy)
  outputs := fun i x y z hx hy hz => by
    simp only [joined, List.getElem?_zipWith, hx, hy, Option.some.injEq] at hz
    rw [← hz]
    exact (h.outputs i x y hx hy).unionAt

/-- **What a merge gives.** Two copies that were read can be merged exactly when they have no
conflict, where the final scripts of an input that is final in both have to be the same. The result
holds the union of their records, apart from the records of final inputs that are not retained:
these are the ones of the copy that is final. Where both are final the first copy's are kept, and of
the second one's nothing but the final scripts, which are the same. -/
theorem merge_exact {a b : Psbt} (ha : a.Decoded) (hb : b.Decoded) :
    ((∃ c, merge a b = .ok c) ↔ ConflictFree InputMap.SameScripts a b) ∧
      ∀ c, merge a b = .ok c → Merged a b c := by
  simp only [merge_eq_ok_iff ha.shaped hb.shaped, conflictFree_iff]
  constructor
  · constructor
    · rintro ⟨-, h, -⟩
      exact h
    · intro h
      exact ⟨_, h, rfl⟩
  · rintro c ⟨h, rfl⟩
    exact merged_joined ha.shaped hb.shaped h

/-! ## Open and final copies -/

/-- The copy whose input is open and asks for a sighash type. -/
def openAsking : Psbt :=
  sampleCopy ((∅ : InputMap).insert .sighashType 1)

/-- The copy whose input is open and knows a script. -/
def openKnowing : Psbt :=
  sampleCopy ((∅ : InputMap).insert .redeemScript ⟨[0x51]⟩)

/-- The copy whose input is open and holds both. -/
def openWithBoth : Psbt :=
  sampleCopy (((∅ : InputMap).insert .sighashType 1).insert .redeemScript ⟨[0x51]⟩)

/-- Two open copies give the one with the records of both. -/
theorem merge_exact_openWithBoth :
    openAsking.Decoded ∧ openKnowing.Decoded ∧ merge openAsking openKnowing = .ok openWithBoth ∧
      ConflictFree InputMap.SameScripts openAsking openKnowing ∧
      Merged openAsking openKnowing openWithBoth := by
  have hasking : openAsking.Decoded := @Decoded.of_ofBytes? _ openAsking.bytes rfl
  have hknowing : openKnowing.Decoded := @Decoded.of_ofBytes? _ openKnowing.bytes rfl
  have hmerge : merge openAsking openKnowing = .ok openWithBoth := rfl
  have h := merge_exact hasking hknowing
  exact ⟨hasking, hknowing, hmerge, h.1.mp ⟨_, hmerge⟩, h.2 _ hmerge⟩

/-- The copy whose input has the final script of `JointSpend.Psbt.finalAlone` and a final witness,
too. -/
def finalWithWitness : Psbt :=
  sampleCopy (((∅ : InputMap).insert .finalScriptSig ⟨[0x51]⟩).insert .finalScriptWitness [[1]])

/-- **Final scripts have to be the same.** It does not suffice that the final scripts that both
copies have are equal: a witness that only one of two final copies has is a conflict. -/
theorem not_merge_of_scriptsAgree :
    ¬ ∀ a b : Psbt, a.Decoded → b.Decoded →
      ((∃ c, merge a b = .ok c) ↔ ConflictFree InputMap.ScriptsAgree a b) := by
  intro h
  have hagree : ∀ p, Pointwise (RecordMap.Agree p) finalAlone.inputs finalWithWitness.inputs :=
    fun p => pointwise_cons.mpr ⟨.insert_right p rfl _, fun i x y hx => by simp at hx⟩
  have hfree : ConflictFree InputMap.ScriptsAgree finalAlone finalWithWitness :=
    { transaction := rfl
      globals := .refl _ _
      outputs := pointwise_cons.mpr ⟨.refl _ _, fun i x y hx => by simp at hx⟩
      retained := hagree _
      signing := fun i x y hx hy _ _ => hagree _ i x y hx hy
      finalScripts := fun i x y hx hy _ _ => hagree _ i x y hx hy }
  have hdecoded : finalWithWitness.Decoded := @Decoded.of_ofBytes? _ finalWithWitness.bytes rfl
  obtain ⟨c, hc⟩ := (h _ _ decoded_finalAlone hdecoded).mpr hfree
  have hfails : merge finalAlone finalWithWitness = .error (.conflict (.finalScripts 0)) := rfl
  rw [hfails] at hc
  simp at hc

end Psbt

end JointSpend
