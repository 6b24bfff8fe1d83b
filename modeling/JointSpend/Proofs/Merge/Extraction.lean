import JointSpend.Proofs.Merge.Exactness
import JointSpend.Proofs.Spend.Completeness

set_option autoImplicit false
set_option relaxedAutoImplicit false

/-!
# Merging final copies and their transactions

Copies all of whose inputs are final give a transaction. What is put into it for an input does not
tell an empty final script or witness from none at all, and neither does the question whether the
input is final. A merge does: it compares the records as they are. So copies that can be merged give
one transaction, which is also that of the result, but copies that give one transaction can be
merged only if they spell out what is empty in the same way.

## Main definitions

* `JointSpend.InputMap.SameFinal` — the same final scripts, an empty one being as good as none.
* `JointSpend.InputMap.SameFields` — records for the same final scripts, be they empty or not.
* `JointSpend.Psbt.Undisputed` — no conflict apart from final scripts.

## Main results

* `JointSpend.Psbt.extract_eq_extract_iff` — when final copies give one transaction.
* `JointSpend.Psbt.merge_iff_extract` — when final copies can be merged.
* `JointSpend.Psbt.not_merge_of_extract_eq` — it does not suffice that they give one transaction.
-/

namespace JointSpend

/-! ## Final scripts -/

namespace InputMap

/-- Two copies of an input have the same final scripts, where an empty one is as good as none. -/
def SameFinal (x y : InputMap) : Prop :=
  (x.get? .finalScriptSig).getD .empty = (y.get? .finalScriptSig).getD .empty ∧
    (x.get? .finalScriptWitness).getD [] = (y.get? .finalScriptWitness).getD []

/-- Two copies of an input have records for the same final scripts, be they empty or not. -/
def SameFields (x y : InputMap) : Prop :=
  x.contains .finalScriptSig = y.contains .finalScriptSig ∧
    x.contains .finalScriptWitness = y.contains .finalScriptWitness

/-- **Records of final scripts are the same** when they say the same and are there together. -/
theorem sameScripts_iff {x y : InputMap} : SameScripts x y ↔ SameFinal x y ∧ SameFields x y := by
  have hoption : ∀ {α : Type} (d : α) (o o' : Option α),
      o = o' ↔ o.getD d = o'.getD d ∧ o.isSome = o'.isSome := by
    intro α d o o'
    cases o <;> cases o' <;> simp
  simp only [SameScripts, SameFinal, SameFields, RecordMap.contains_eq_isSome]
  rw [hoption .empty (x.get? .finalScriptSig), hoption [] (x.get? .finalScriptWitness)]
  exact and_and_and_comm

/-- What is put into a transaction for an input are its final scripts. -/
private theorem withFinal_eq_iff (txInput : TxInput) {x y : InputMap} :
    txInput.withFinal x = txInput.withFinal y ↔ SameFinal x y := by
  simp [TxInput.withFinal, SameFinal]

end InputMap

namespace Psbt

variable {a b : Psbt}

/-! ## Position by position -/

/-- Two relations hold position by position when both do. -/
private theorem pointwise_and {α : Type} {r s : α → α → Prop} {as bs : List α} :
    Pointwise (fun x y => r x y ∧ s x y) as bs ↔ Pointwise r as bs ∧ Pointwise s as bs := by
  constructor
  · intro h
    exact ⟨fun i x y hx hy => (h i x y hx hy).1, fun i x y hx hy => (h i x y hx hy).2⟩
  · intro h i x y hx hy
    exact ⟨h.1 i x y hx hy, h.2 i x y hx hy⟩

/-- Lists joined to one list position by position are the same exactly when they are at every
position. -/
private theorem zipWith_eq_zipWith_iff {α β γ : Type} {f : α → β → γ} {r : β → β → Prop}
    (hf : ∀ a x y, f a x = f a y ↔ r x y) {as : List α} {xs ys : List β}
    (hxs : xs.length = as.length) (hys : ys.length = as.length) :
    List.zipWith f as xs = List.zipWith f as ys ↔ Pointwise r xs ys := by
  induction as generalizing xs ys with
  | nil =>
    obtain rfl := List.length_eq_zero_iff.mp hxs
    simp [Pointwise]
  | cons a as ih =>
    cases xs with
    | nil => simp at hxs
    | cons x xs =>
      cases ys with
      | nil => simp at hys
      | cons y ys =>
        rw [List.zipWith_cons_cons, List.zipWith_cons_cons, List.cons.injEq, pointwise_cons, hf,
          ih (by simpa using hxs) (by simpa using hys)]

/-! ## Transactions -/

/-- **Final copies of one transaction give one transaction** exactly when their inputs have the same
final scripts. -/
theorem extract_eq_extract_iff (ha : a.Shaped) (hb : b.Shaped) (hfa : a.allFinal = true)
    (hfb : b.allFinal = true) (htx : a.transaction = b.transaction) :
    a.extract = b.extract ↔ Pointwise InputMap.SameFinal a.inputs b.inputs := by
  rw [(extract_eq_ok_iff ha).mpr ⟨hfa, rfl⟩, (extract_eq_ok_iff hb).mpr ⟨hfb, rfl⟩,
    Except.ok.injEq, Transaction.mk.injEq, ← htx]
  simp only [true_and, and_true]
  apply zipWith_eq_zipWith_iff InputMap.withFinal_eq_iff
  · exact ha.length_inputs
  · rw [hb.length_inputs, htx]

/-! ## Merging -/

/-- Nothing is in the way of a merge, apart from the records of inputs that are not retained. -/
structure Undisputed (a b : Psbt) : Prop where
  transaction : a.transaction = b.transaction
  /-- The records of the whole. -/
  globals : RecordMap.Agree (fun _ => true) a.globals b.globals
  /-- The records of the outputs. -/
  outputs : Pointwise (RecordMap.Agree fun _ => true) a.outputs b.outputs
  /-- The retained records of the inputs. -/
  retained : Pointwise (RecordMap.Agree InputKey.isRetained) a.inputs b.inputs

/-- **Final copies are compatible** when, apart from this, the records of their final scripts are
the same. -/
theorem Undisputed.compatible_iff (h : Undisputed a b) (hfa : a.allFinal = true)
    (hfb : b.allFinal = true) :
    Compatible a b ↔ Pointwise InputMap.SameScripts a.inputs b.inputs := by
  rw [allFinal_iff] at hfa hfb
  rw [← conflictFree_iff]
  constructor
  · intro hfree i x y hx hy
    exact hfree.finalScripts i x y hx hy (hfa i x hx) (hfb i y hy)
  · intro hscripts
    exact
      { transaction := h.transaction
        globals := h.globals
        outputs := h.outputs
        retained := h.retained
        signing := fun i x y hx _ hopen => by simp [hfa i x hx] at hopen
        finalScripts := fun i x y hx hy _ _ => hscripts i x y hx hy }

/-- What final copies are joined to gives the transaction of the first one. -/
private theorem extract_joined (ha : a.Shaped) (hb : b.Shaped) (hfa : a.allFinal = true)
    (h : Compatible a b) : (joined a b).extract = a.extract := by
  have hjoined : ∀ (i : Nat) (z : InputMap), (joined a b).inputs[i]? = some z →
      ∃ x, a.inputs[i]? = some x ∧ InputMap.isFinal x = true ∧
        z.get? .finalScriptSig = x.get? .finalScriptSig ∧
        z.get? .finalScriptWitness = x.get? .finalScriptWitness := by
    intro i z hz
    obtain ⟨x, y, hx, hy, rfl⟩ := List.getElem?_zipWith_eq_some.mp hz
    have hfinal := allFinal_iff.mp hfa i x hx
    have hmerged := InputMap.merged_joined (h.inputs i x y hx hy)
    exact ⟨x, hx, hfinal, hmerged.ofFirst hfinal _ rfl, hmerged.ofFirst hfinal _ rfl⟩
  have hshaped := ha.joined hb h.transaction
  have hfinal : (joined a b).allFinal = true := by
    rw [allFinal_iff]
    intro i z hz
    obtain ⟨x, -, hx, hsig, hwitness⟩ := hjoined i z hz
    unfold InputMap.isFinal at hx ⊢
    rwa [hsig, hwitness]
  rw [extract_eq_extract_iff hshaped ha hfinal hfa rfl]
  intro i z x hz hx
  obtain ⟨x', hx', -, hsig, hwitness⟩ := hjoined i z hz
  obtain rfl := Option.some.inj (hx'.symm.trans hx)
  rw [InputMap.SameFinal, hsig, hwitness]
  exact ⟨rfl, rfl⟩

/-- **When final copies can be merged.** Let two copies that were read have final inputs only, and
nothing in the way of a merge apart from that. They can be merged exactly when they give one
transaction and have records for the same final scripts, be they empty or not. What they are merged
to gives this transaction, too.

**Proof sketch.** A merge compares the records of final scripts. They are equal when they say the
same, which is what the transactions show, and when there are records on both sides or on none,
which the transactions do not show where a record is empty. -/
theorem merge_iff_extract (ha : a.Decoded) (hb : b.Decoded) (hfa : a.allFinal = true)
    (hfb : b.allFinal = true) (h : Undisputed a b) :
    ((∃ c, merge a b = .ok c) ↔
      a.extract = b.extract ∧ Pointwise InputMap.SameFields a.inputs b.inputs) ∧
    ∀ c, merge a b = .ok c → ∃ tx, a.extract = .ok tx ∧ b.extract = .ok tx ∧
      c.extract = .ok tx := by
  have hsame := extract_eq_extract_iff ha.shaped hb.shaped hfa hfb h.transaction
  have hcompatible : Compatible a b ↔
      a.extract = b.extract ∧ Pointwise InputMap.SameFields a.inputs b.inputs := by
    have hscripts : InputMap.SameScripts =
        fun x y => InputMap.SameFinal x y ∧ InputMap.SameFields x y := by
      funext x y
      exact propext InputMap.sameScripts_iff
    rw [h.compatible_iff hfa hfb, hsame, ← pointwise_and, hscripts]
  simp only [merge_eq_ok_iff ha.shaped hb.shaped]
  constructor
  · rw [← hcompatible]
    exact exists_and_left.trans (and_iff_left ⟨_, rfl⟩)
  · intro c hc
    obtain ⟨hab, rfl⟩ := hc
    have htx := (extract_eq_ok_iff ha.shaped).mpr ⟨hfa, rfl⟩
    refine ⟨_, htx, ?_, ?_⟩
    · rw [← (hcompatible.mp hab).1, htx]
    · rw [extract_joined ha.shaped hb.shaped hfa hab, htx]

/-! ## An empty witness -/

/-- A record under a free key does not get in the way of a merge. -/
private theorem undisputed_insert {x : InputMap} {k : InputKey} (hk : x.get? k = none)
    (v : k.Value) : Undisputed (sampleCopy x) (sampleCopy (x.insert k v)) where
  transaction := rfl
  globals := .refl _ _
  outputs := pointwise_cons.mpr ⟨.refl _ _, fun i x y hx => by simp at hx⟩
  retained := pointwise_cons.mpr ⟨.insert_right _ hk v, fun i x y hx => by simp at hx⟩

/-- Two final copies, of which one still asks for a sighash type, can be merged, and they give one
transaction. -/
theorem merge_iff_extract_finalAlone :
    finalAlone.Decoded ∧ finalWithSighash.Decoded ∧ finalAlone.allFinal = true ∧
      finalWithSighash.allFinal = true ∧ Undisputed finalAlone finalWithSighash ∧
      merge finalAlone finalWithSighash = .ok finalAlone ∧
      finalAlone.extract = finalWithSighash.extract ∧ ∃ tx, finalAlone.extract = .ok tx := by
  have hundisputed : Undisputed finalAlone finalWithSighash := undisputed_insert rfl _
  have hmerge : merge finalAlone finalWithSighash = .ok finalAlone := rfl
  have h := merge_iff_extract decoded_finalAlone decoded_finalWithSighash rfl rfl hundisputed
  obtain ⟨tx, htx, -⟩ := h.2 _ hmerge
  exact ⟨decoded_finalAlone, decoded_finalWithSighash, rfl, rfl, hundisputed, hmerge,
    (h.1.mp ⟨_, hmerge⟩).1, tx, htx⟩

/-- The copy whose input has the final script of `JointSpend.Psbt.finalAlone` and a record for a
final witness, which is empty. -/
def finalWithEmptyWitness : Psbt :=
  sampleCopy (((∅ : InputMap).insert .finalScriptSig ⟨[0x51]⟩).insert .finalScriptWitness [])

/-- **An empty record is a conflict**: it does not suffice for a merge that two final copies give
one transaction. -/
theorem not_merge_of_extract_eq :
    ¬ ∀ a b : Psbt, a.Decoded → b.Decoded → a.allFinal = true → b.allFinal = true →
      Undisputed a b → ((∃ c, merge a b = .ok c) ↔ a.extract = b.extract) := by
  intro h
  have hdecoded : finalWithEmptyWitness.Decoded :=
    @Decoded.of_ofBytes? _ finalWithEmptyWitness.bytes rfl
  obtain ⟨c, hc⟩ := (h finalAlone finalWithEmptyWitness decoded_finalAlone hdecoded rfl rfl
    (undisputed_insert rfl _)).mpr rfl
  have hfails : merge finalAlone finalWithEmptyWitness =
      .error (.conflict (.finalScripts 0)) := rfl
  rw [hfails] at hc
  simp at hc

end Psbt

end JointSpend
