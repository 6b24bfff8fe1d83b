import JointSpend.Proofs.Psbt.Inputs
import JointSpend.Proofs.Psbt.Shape
import JointSpend.Proofs.Steps

set_option autoImplicit false
set_option relaxedAutoImplicit false

/-!
# The outcome of merging

Merging is described by two definitions apart from its faults: when two copies are compatible, and
what they are joined to. Nothing later opens the merge itself.

## Main definitions

* `JointSpend.InputMap.Compatible`, `JointSpend.Psbt.Compatible` — nothing in the way of a merge.
* `JointSpend.InputMap.joined`, `JointSpend.Psbt.joined` — what a merge gives.

## Main results

* `JointSpend.InputMap.merge_eq_ok_iff`, `JointSpend.Psbt.merge_eq_ok_iff` — a merge succeeds
  exactly on compatible copies, and gives what they are joined to.
-/

namespace JointSpend

/-! ## Inputs and outputs -/

/-- No element has a least rank exactly when there is none. -/
private theorem firstByRank_eq_none_iff {α : Type} (rank : α → Nat) {as : List α} :
    firstByRank rank as = none ↔ as = [] := by
  cases as with
  | nil => simp [firstByRank]
  | cons a as =>
    rw [firstByRank]
    split
    · simp
    · split <;> simp

namespace InputMap

/-- Uniting succeeds exactly on maps that agree, and fills the first one. -/
theorem unite_eq_ok_iff {p : InputKey → Bool} {index : Nat} {a b c : InputMap} :
    unite p index a b = .ok c ↔ RecordMap.Agree p a b ∧ c = a.fill p b := by
  rw [← RecordMap.conflicts_eq_nil_iff, ← firstByRank_eq_none_iff InputKey.reportRank,
    unite]
  cases firstByRank InputKey.reportRank (a.conflicts p b) with
  | none => simp [eq_comm]
  | some key => simp

/-- Two copies of an input can be merged: final scripts are equal where both are final, and the
records that are united do not conflict. -/
def Compatible (a b : InputMap) : Prop :=
  match isFinal a, isFinal b with
  | true, true =>
    (a.get? .finalScriptSig = b.get? .finalScriptSig ∧
      a.get? .finalScriptWitness = b.get? .finalScriptWitness) ∧
      RecordMap.Agree InputKey.isRetained a b
  | true, false => RecordMap.Agree InputKey.isRetained a b
  | false, true => RecordMap.Agree InputKey.isRetained a b
  | false, false => RecordMap.Agree InputKey.isUnited a b

/-- What two copies of an input are merged to, if they can be. -/
def joined (a b : InputMap) : InputMap :=
  match isFinal a, isFinal b with
  | true, _ => a.fill InputKey.isRetained b
  | false, true => b.fill InputKey.isRetained a
  | false, false => a.fill InputKey.isUnited b

/-- **Merging inputs** succeeds exactly on compatible copies. -/
theorem merge_eq_ok_iff (index : Nat) (a b c : InputMap) :
    merge index a b = .ok c ↔ Compatible a b ∧ c = joined a b := by
  unfold merge Compatible joined
  cases isFinal a <;> cases isFinal b <;> simp only
  case false.false => exact unite_eq_ok_iff
  case false.true =>
    rw [unite_eq_ok_iff]
    exact and_congr_left' ⟨.symm, .symm⟩
  case true.false => exact unite_eq_ok_iff
  case true.true =>
    split
    · next h => rw [unite_eq_ok_iff, and_iff_right h]
    · next h => simp [h]

/-- Compatibility does not depend on the order. -/
theorem Compatible.symm {a b : InputMap} (h : Compatible a b) : Compatible b a := by
  unfold Compatible at h ⊢
  revert h
  cases isFinal a <;> cases isFinal b <;> intro h
  · exact RecordMap.Agree.symm h
  · exact RecordMap.Agree.symm h
  · exact RecordMap.Agree.symm h
  · exact ⟨⟨h.1.1.symm, h.1.2.symm⟩, h.2.symm⟩

/-- Compatible copies agree on the retained records, final or not. -/
theorem Compatible.agree_retained {a b : InputMap} (h : Compatible a b) :
    RecordMap.Agree InputKey.isRetained a b := by
  unfold Compatible at h
  revert h
  cases isFinal a <;> cases isFinal b <;> intro h
  · exact h.mono fun _ => InputKey.isUnited_of_isRetained
  · exact h
  · exact h
  · exact h.2

/-- Compatible copies that are final have the same final scripts. -/
theorem Compatible.scripts_eq {a b : InputMap} (h : Compatible a b) (ha : isFinal a = true)
    (hb : isFinal b = true) {k : InputKey} (hk : k.isUnited = false) : a.get? k = b.get? k := by
  unfold Compatible at h
  rw [ha, hb] at h
  cases k <;> simp only [InputKey.isUnited, Bool.true_eq_false] at hk
  case finalScriptSig => exact h.1.1
  case finalScriptWitness => exact h.1.2

/-- Compatible copies that are open agree on all records that are united. -/
theorem Compatible.agree_united {a b : InputMap} (h : Compatible a b) (ha : isFinal a = false)
    (hb : isFinal b = false) : RecordMap.Agree InputKey.isUnited a b := by
  unfold Compatible at h
  rwa [ha, hb] at h

/-- Copies are compatible when they agree on the retained records, have the same final scripts where
both are final, and agree on all united records where both are open. -/
theorem Compatible.of_agree {a b : InputMap}
    (hretained : RecordMap.Agree InputKey.isRetained a b)
    (hscripts : isFinal a = true → isFinal b = true →
      ∀ k, InputKey.isUnited k = false → a.get? k = b.get? k)
    (hunited : isFinal a = false → isFinal b = false → RecordMap.Agree InputKey.isUnited a b) :
    Compatible a b := by
  unfold Compatible
  cases ha : isFinal a <;> cases hb : isFinal b
  case false.false => exact hunited ha hb
  case false.true => exact hretained
  case true.false => exact hretained
  case true.true =>
    exact ⟨⟨hscripts ha hb .finalScriptSig rfl, hscripts ha hb .finalScriptWitness rfl⟩, hretained⟩

end InputMap

/-- Merging outputs succeeds exactly on copies that agree. -/
private theorem OutputMap.merge_eq_ok_iff (index : Nat) (a b c : OutputMap) :
    merge index a b = .ok c ↔
      RecordMap.Agree (fun _ => true) a b ∧ c = a.fill (fun _ => true) b := by
  rw [← RecordMap.conflicts_eq_nil_iff, ← firstByRank_eq_none_iff OutputKey.reportRank,
    merge]
  cases firstByRank OutputKey.reportRank (a.conflicts (fun _ => true) b) with
  | none => simp [eq_comm]
  | some key => simp

/-- Merging the records of the whole succeeds exactly on copies that agree. -/
private theorem GlobalMap.merge_eq_ok_iff (a b c : GlobalMap) :
    merge a b = .ok c ↔ RecordMap.Agree (fun _ => true) a b ∧ c = a.fill (fun _ => true) b := by
  rw [← RecordMap.conflicts_eq_nil_iff, merge]
  cases a.conflicts (fun _ => true) b with
  | nil => simp [eq_comm]
  | cons key keys => simp

/-! ## The whole -/

namespace Psbt

/-- Two lists agree position by position under a relation. -/
def Pointwise {α : Type} (r : α → α → Prop) (as bs : List α) : Prop :=
  ∀ (i : Nat) (a b : α), as[i]? = some a → bs[i]? = some b → r a b

theorem pointwise_cons {α : Type} {r : α → α → Prop} {a b : α} {as bs : List α} :
    Pointwise r (a :: as) (b :: bs) ↔ r a b ∧ Pointwise r as bs := by
  constructor
  · intro h
    exact ⟨h 0 a b rfl rfl, fun i x y hx hy => h (i + 1) x y hx hy⟩
  · rintro ⟨h, hs⟩ (_ | i) x y hx hy
    · obtain rfl := Option.some.inj hx
      obtain rfl := Option.some.inj hy
      exact h
    · exact hs i x y hx hy

/-- A list agrees with what is made of it when each of its members does. -/
theorem pointwise_mapIdx {α : Type} {r : α → α → Prop} {as : List α} {f : Nat → α → α}
    (h : ∀ (i : Nat) (a : α), as[i]? = some a → r a (f i a)) : Pointwise r as (as.mapIdx f) := by
  intro i a b ha hb
  rw [List.getElem?_mapIdx, ha, Option.map_some, Option.some.injEq] at hb
  rw [← hb]
  exact h i a ha

/-- Merging lists of equal length position by position. -/
private theorem mergeLists_eq_ok_iff {α : Type} {unite : Nat → α → α → Except Fault α}
    {compatible : α → α → Prop} {join : α → α → α}
    (hunite : ∀ index a b c, unite index a b = .ok c ↔ compatible a b ∧ c = join a b)
    (index : Nat) {as bs : List α} (cs : List α) (hlen : as.length = bs.length) :
    mergeLists unite index as bs = .ok cs ↔
      Pointwise compatible as bs ∧ cs = List.zipWith join as bs := by
  induction as generalizing index bs cs with
  | nil =>
    obtain rfl := List.length_eq_zero_iff.mp hlen.symm
    simp [mergeLists, Pointwise, eq_comm]
  | cons a as ih =>
    cases bs with
    | nil => simp at hlen
    | cons b bs =>
      have hlen' : as.length = bs.length := by simpa using hlen
      rw [pointwise_cons, List.zipWith_cons_cons, mergeLists]
      cases hu : unite index a b with
      | error fault =>
        have hnot : ¬ compatible a b := fun h => by
          simpa [hu] using (hunite index a b (join a b)).mpr ⟨h, rfl⟩
        simp [bind, Except.bind, hnot]
      | ok c =>
        obtain ⟨hc, rfl⟩ := (hunite index a b c).mp hu
        cases hm : mergeLists unite (index + 1) as bs with
        | error fault =>
          have hnot : ¬ Pointwise compatible as bs := fun h => by
            simpa [hm] using (ih (index + 1) _ hlen').mpr ⟨h, rfl⟩
          simp [bind, Except.bind, hnot]
        | ok cs' =>
          obtain ⟨hcs, rfl⟩ := (ih (index + 1) _ hlen').mp hm
          simp [bind, Except.bind, pure, Except.pure, hc, hcs, eq_comm]

/-- Two copies can be merged: they are copies of one transaction, and nothing in them conflicts. -/
structure Compatible (a b : Psbt) : Prop where
  transaction : a.transaction = b.transaction
  globals : RecordMap.Agree (fun _ => true) a.globals b.globals
  inputs : Pointwise InputMap.Compatible a.inputs b.inputs
  outputs : Pointwise (RecordMap.Agree fun _ => true) a.outputs b.outputs

/-- What two copies are merged to, if they can be. -/
def joined (a b : Psbt) : Psbt :=
  ⟨a.transaction, a.globals.fill (fun _ => true) b.globals,
    List.zipWith InputMap.joined a.inputs b.inputs,
    List.zipWith (RecordMap.fill fun _ => true) a.outputs b.outputs⟩

/-- **Merging** shaped copies succeeds exactly where they are compatible. -/
theorem merge_eq_ok_iff {a b c : Psbt} (ha : a.Shaped) (hb : b.Shaped) :
    merge a b = .ok c ↔ Compatible a b ∧ c = joined a b := by
  unfold merge
  by_cases htx : a.transaction = b.transaction
  · have hin := fun cs =>
      mergeLists_eq_ok_iff InputMap.merge_eq_ok_iff 0 cs (ha.length_inputs_eq hb htx)
    have hout := fun cs =>
      mergeLists_eq_ok_iff OutputMap.merge_eq_ok_iff 0 cs (ha.length_outputs_eq hb htx)
    simp only [ne_eq, htx, not_true_eq_false, if_false, Steps.bind_eq_ok_iff,
      Steps.pure_eq_ok_iff, GlobalMap.merge_eq_ok_iff, hin, hout]
    constructor
    · rintro ⟨globals, ⟨hg, rfl⟩, inputs, ⟨hi, rfl⟩, outputs, ⟨ho, rfl⟩, rfl⟩
      exact ⟨⟨htx, hg, hi, ho⟩, by rw [joined, htx]⟩
    · rintro ⟨⟨-, hg, hi, ho⟩, rfl⟩
      exact ⟨_, ⟨hg, rfl⟩, _, ⟨hi, rfl⟩, _, ⟨ho, rfl⟩, by rw [joined, htx]⟩
  · have hnot : ¬ Compatible a b := fun h => htx h.transaction
    simp [htx, hnot, bind, Except.bind, throw, throwThe, MonadExceptOf.throw]

end Psbt

end JointSpend
