import JointSpend.Proofs.Merge.Absorption
import JointSpend.Proofs.Workflow.Runs

set_option autoImplicit false
set_option relaxedAutoImplicit false

/-!
# What a machine has assembled

What a machine has assembled is determined by the copies that were taken into the stage of assembly
since it was last emptied. It is what they are merged to, in the order in which they came; nothing
else that happens in a run has any part in it. A copy that has come once can come again, at any
time, and changes nothing.

## Main definitions

* `JointSpend.Workflow.Event.clears` — what is assembled is forgotten.
* `JointSpend.Workflow.contributions` — the copies that came since then.

## Main results

* `JointSpend.Workflow.assembledFrom_of_run` — what is assembled is what they are merged to.
* `JointSpend.Workflow.load_of_absorbed` — loading what is absorbed already.
* `JointSpend.Workflow.run_assembled` — both together, for every run.
-/

namespace JointSpend

/-- Merging one more copy at the end of a list. -/
private theorem Psbt.mergeAll_concat {ps : List Psbt} {q : Psbt} (h : mergeAll ps = .ok q)
    (p : Psbt) : mergeAll (ps ++ [p]) = merge q p := by
  cases ps with
  | nil => simp [mergeAll] at h
  | cons first ps =>
    have h : ps.foldlM merge first = .ok q := h
    change (ps ++ [p]).foldlM merge first = merge q p
    rw [List.foldlM_append, h]
    change (merge q p >>= fun r => pure r) = merge q p
    exact bind_pure _

namespace Workflow

variable {scheme : SignatureScheme} {online : Bool}

/-! ## Contributions -/

namespace Event

/-- Whether what is assembled was forgotten: on demand, or because it was sent. -/
def clears : Event → Bool
  | ⟨.resetAssembly, succeeded⟩ => succeeded
  | ⟨.send _, succeeded⟩ => succeeded
  | _ => false

/-- The copy that was taken into the stage of assembly. -/
def contribution? : Event → Option Psbt
  | ⟨.load .assemble data, true⟩ => (Psbt.decodeAny data).toOption
  | _ => none

/-- A contribution is the copy that the data stands for. -/
private theorem contribution?_eq_some_iff {e : Event} {p : Psbt} :
    e.contribution? = some p ↔
      ∃ data, e = ⟨.load .assemble data, true⟩ ∧ Psbt.decodeAny data = .ok p := by
  unfold contribution?
  split
  · next data =>
    cases hdata : Psbt.decodeAny data <;> simp [Except.toOption, hdata]
  · next hnot =>
    simp only [reduceCtorEq, false_iff, not_exists, not_and]
    rintro data rfl
    exact absurd rfl (hnot data)

/-- What failed has no part in what is assembled. -/
private theorem contribution?_of_failed (action : Action) :
    contribution? ⟨action, false⟩ = none := by
  cases action <;> simp [contribution?]

/-- What failed does not make a machine forget what is assembled. -/
theorem clears_of_failed (action : Action) : clears ⟨action, false⟩ = false := by
  cases action <;> rfl

end Event

/-- The copies that were taken into the stage of assembly since it was last emptied, in the order in
which they came. -/
def contributions (events : List Event) : List Psbt :=
  ((events.takeWhile fun e => !e.clears).filterMap Event.contribution?).reverse

/-- One more action. -/
private theorem contributions_cons (e : Event) (events : List Event) :
    contributions (e :: events) =
      if e.clears then [] else contributions events ++ e.contribution?.toList := by
  unfold contributions
  cases hclears : e.clears with
  | true => simp [hclears]
  | false => cases hc : e.contribution? <;> simp [hclears, hc]

/-- A machine has assembled what some copies are merged to; without any copy it has assembled
nothing. -/
structure AssembledFrom (ps : List Psbt) (w : Workflow) : Prop where
  empty : ps = [] → w.assembled = none
  merged : ps ≠ [] → ∃ q, Psbt.mergeAll ps = .ok q ∧ w.assembled = some q

namespace AssembledFrom

variable {ps : List Psbt} {w : Workflow}

/-- What was forgotten is assembled from nothing. -/
theorem cleared (h : w.assembled = none) : AssembledFrom [] w :=
  ⟨fun _ => h, fun hne => absurd rfl hne⟩

/-- What the other fields are does not matter. -/
theorem congr {w' : Workflow} (h : AssembledFrom ps w) (hsame : w'.assembled = w.assembled) :
    AssembledFrom ps w' :=
  ⟨fun hps => hsame.trans (h.empty hps), fun hps => by rw [hsame]; exact h.merged hps⟩

/-- A machine that has assembled nothing got no copy. -/
theorem eq_nil (h : AssembledFrom ps w) (hempty : w.assembled = none) : ps = [] := by
  by_contra hne
  obtain ⟨q, -, hq⟩ := h.merged hne
  simp [hempty] at hq

/-- What a machine has assembled is what its copies are merged to. -/
theorem mergeAll_eq (h : AssembledFrom ps w) {q : Psbt} (hq : w.assembled = some q) :
    Psbt.mergeAll ps = .ok q := by
  have hne : ps ≠ [] := by
    intro hnil
    simp [h.empty hnil] at hq
  obtain ⟨r, hr, hwr⟩ := h.merged hne
  rwa [Option.some.inj (hq.symm.trans hwr)]

end AssembledFrom

/-! ## Runs -/

/-- **A step** adds its contribution to what is assembled, or empties it. -/
theorem Step.assembledFrom {w next : Workflow} {action : Action} {events : List Event}
    (hstep : Step scheme w action next) (h : AssembledFrom (contributions events) w) :
    AssembledFrom (contributions (⟨action, true⟩ :: events)) next := by
  rw [contributions_cons]
  cases hstep with
  | @loadFirst data p hdata hempty =>
    have hnew := Event.contribution?_eq_some_iff.mpr ⟨data, rfl, hdata⟩
    simp only [Event.clears, Bool.false_eq_true, if_false, hnew, h.eq_nil hempty]
    exact ⟨by simp, fun _ => ⟨p, rfl, rfl⟩⟩
  | @loadMore data p existing merged hdata hassembled hmerge =>
    have hnew := Event.contribution?_eq_some_iff.mpr ⟨data, rfl, hdata⟩
    have hall := Psbt.mergeAll_concat (h.mergeAll_eq hassembled) p
    simp only [Event.clears, Bool.false_eq_true, if_false, hnew]
    exact ⟨by simp, fun _ => ⟨merged, hall.trans hmerge, rfl⟩⟩
  | send hsend hsent => exact .cleared rfl
  | resetAssembly => exact .cleared rfl
  | _ =>
    simp only [Event.clears, Event.contribution?, Bool.false_eq_true, if_false,
      Option.toList_none, List.append_nil]
    exact h.congr rfl

/-- **What is assembled** in a run is what the contributions are merged to. -/
theorem assembledFrom_of_run {events : List Event} {w : Workflow}
    (h : Run scheme online events w) : AssembledFrom (contributions events) w := by
  induction h with
  | new => exact .cleared rfl
  | @step events w run action ih =>
    rcases perform_cases scheme w action with ⟨hevent, hnext⟩ | ⟨hevent, hstep⟩
    · rw [hevent, hnext, contributions_cons, Event.clears_of_failed,
        Event.contribution?_of_failed]
      simpa using ih
    · rw [hevent]
      exact hstep.assembledFrom ih

/-- What a step takes into a stage is in one of the exchange forms. -/
theorem Step.exists_decodeAny {w next : Workflow} {stage : Stage} {data : Bytes}
    (h : Step scheme w (.load stage data) next) : ∃ p, Psbt.decodeAny data = .ok p := by
  cases h with
  | loadCreate hdata => exact ⟨_, hdata⟩
  | loadSign hdata => exact ⟨_, hdata⟩
  | loadFirst hdata _ => exact ⟨_, hdata⟩
  | loadMore hdata _ _ => exact ⟨_, hdata⟩

/-- What was taken into a stage was in one of the exchange forms. -/
private theorem exists_decodeAny_of_run {events : List Event} {w : Workflow}
    (h : Run scheme online events w) {stage : Stage} {data : Bytes}
    (hload : ⟨.load stage data, true⟩ ∈ events) : ∃ p, Psbt.decodeAny data = .ok p := by
  induction h with
  | new => simp at hload
  | @step events w run action ih =>
    rcases List.mem_cons.mp hload with hload | hload
    · rcases perform_cases scheme w action with ⟨hevent, -⟩ | ⟨hevent, hstep⟩
      · simp [hevent] at hload
      · obtain rfl : .load stage data = action := congrArg Event.action (hload.trans hevent)
        exact hstep.exists_decodeAny
    · exact ih hload

/-- Contributions were read. -/
theorem decoded_of_mem_contributions {events : List Event} {p : Psbt}
    (h : p ∈ contributions events) : p.Decoded := by
  rw [contributions, List.mem_reverse, List.mem_filterMap] at h
  obtain ⟨e, -, hp⟩ := h
  obtain ⟨data, -, hdata⟩ := Event.contribution?_eq_some_iff.mp hp
  exact .of_decodeAny hdata

/-- **Loading a copy that is absorbed already** changes nothing but the stage that is looked at. -/
theorem load_of_absorbed {w : Workflow} {p q : Psbt} {data : Bytes} (hq : q.Shaped)
    (hassembled : w.assembled = some q) (hdata : Psbt.decodeAny data = .ok p)
    (h : Psbt.Absorbed p q) :
    w.after (load .assemble data) = ⟨{ w with stage := .assemble }, [], [], .ok ()⟩ := by
  have hmerge := h.merge_eq (Psbt.Decoded.of_decodeAny hdata).shaped hq
  obtain ⟨stage, online, created, signing, assembled, didSign⟩ := w
  obtain rfl : assembled = some q := hassembled
  unfold after load take
  simp only [InPlace.exec_bind, InPlace.exec_lift, exec_current, hdata, hmerge]
  rfl

/-- **What is assembled is what was contributed.** In every run of a machine that started with
nothing: what is assembled is nothing if no copy was taken into the stage of assembly since it was
last emptied, and otherwise what these copies are merged to, in the order in which they came. Each
of them can be loaded again, in any of its exchange forms, which succeeds and changes nothing but
the stage that is looked at.

**Proof sketch.** The first part is an invariant of runs; the only steps that concern it are loading
into the stage of assembly and emptying it. For the second part, a merge absorbs both of its copies
and absorption is transitive, so what is assembled has absorbed everything that came. -/
theorem run_assembled {events : List Event} {w : Workflow} (h : Run scheme online events w) :
    (∀ data, ⟨.load .assemble data, true⟩ ∈ events → ∃ p, Psbt.decodeAny data = .ok p) ∧
      (contributions events = [] → w.assembled = none) ∧
      (contributions events ≠ [] →
        ∃ q, Psbt.mergeAll (contributions events) = .ok q ∧ w.assembled = some q) ∧
      ∀ p ∈ contributions events, ∀ data, Psbt.decodeAny data = .ok p →
        w.after (load .assemble data) = ⟨{ w with stage := .assemble }, [], [], .ok ()⟩ := by
  have hfrom := assembledFrom_of_run h
  refine ⟨fun data => exists_decodeAny_of_run h, hfrom.empty, hfrom.merged,
    fun p hp data hdata => ?_⟩
  obtain ⟨q, hq, hassembled⟩ := hfrom.merged (List.ne_nil_of_mem hp)
  obtain ⟨hshaped, habsorbed⟩ := Psbt.absorbed_of_mergeAll
    (fun x hx => (decoded_of_mem_contributions hx).shaped) hq
  exact load_of_absorbed hshaped hassembled hdata (habsorbed p hp)

/-- An open and a final copy come, with other actions in between. The open copy is absorbed though
its input is final meanwhile. -/
theorem run_assembled_sample : ∃ events w, Run Curve.secp256k1 true events w ∧
    contributions events = [Psbt.openAsking, Psbt.finalAlone] ∧
    (∃ q, Psbt.mergeAll [Psbt.openAsking, Psbt.finalAlone] = .ok q ∧ w.assembled = some q) ∧
    w.after (load .assemble Psbt.openAsking.bytes) =
      ⟨{ w with stage := .assemble }, [], [], .ok ()⟩ := by
  have hnew : Run Curve.secp256k1 true [] (Workflow.new true) := .new
  have hrun := ((((hnew.step (.load .assemble Psbt.openAsking.bytes)).step
    (.send fun _ => .error .emptyEncoding)).step (.load .assemble Psbt.finalAlone.bytes)).step
    (.load .assemble [0])).step .prevStage
  obtain ⟨-, -, hmerged, hagain⟩ := run_assembled hrun
  exact ⟨_, _, hrun, rfl, hmerged (List.cons_ne_nil _ _),
    hagain Psbt.openAsking List.mem_cons_self _ rfl⟩

end Workflow

end JointSpend
