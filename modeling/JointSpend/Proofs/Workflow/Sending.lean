import JointSpend.Proofs.Spend.Independence
import JointSpend.Proofs.Workflow.Contributions

set_option autoImplicit false
set_option relaxedAutoImplicit false

/-!
# What a machine sends

Whether a machine can send is judged by a dry run of what it has assembled, and what it sends is put
together from a copy that was really made final. The two never disagree: a node is called exactly
when the machine is online and says that it can send, and it is called once, with the transaction of
what is assembled and the scripts that the dry run promised. An attempt that fails loses nothing.

## Main definitions

* `JointSpend.Workflow.Continues` — what was done from some state on.
* `JointSpend.Workflow.Sends` — the rules of sending.

## Main results

* `JointSpend.Workflow.shaped_of_run` — what is assembled has as many inputs and outputs as its
  transaction.
* `JointSpend.Workflow.handedOver_send` — what is handed over by sending.
* `JointSpend.Workflow.assembled_of_continues` — what is left of what is assembled, as long as
  nothing is taken in.
* `JointSpend.Workflow.run_sends` — every machine sends by the rules.
-/

namespace JointSpend.Workflow

variable {scheme : SignatureScheme} {online : Bool} {w w' : Workflow} {p : Psbt}

/-! ## One attempt -/

/-- What is assembled has as many inputs and outputs as its transaction. -/
theorem shaped_of_run {events : List Event} (h : Run scheme online events w)
    (hp : w.assembled = some p) : p.Shaped :=
  (Psbt.absorbed_of_mergeAll (fun _ hx => (decoded_of_mem_contributions hx).shaped)
    ((assembledFrom_of_run h).mergeAll_eq hp)).1

/-- What is handed over is the transaction of what is assembled, if there is one. -/
theorem handedOver_send (w : Workflow) (broadcaster : Broadcaster) :
    (w.after (send scheme broadcaster)).handedOver = (w.toSend? scheme).toList :=
  handedOver_of_perform w (.send broadcaster)

/-- There is a transaction to be handed over exactly when a machine is online and can send. -/
private theorem isSome_toSend?_iff (hshaped : ∀ p, w.assembled = some p → p.Shaped) :
    (w.toSend? scheme).isSome = true ↔
      w.online = true ∧ w.assembled.isSome = true ∧ w.canSend scheme = true := by
  unfold toSend? canSend
  cases w.online with
  | false => simp
  | true =>
    cases hassembled : w.assembled with
    | none => simp
    | some p =>
      have hcomplete : (p.finalTransaction scheme).toBool = p.isComplete scheme :=
        Psbt.toBool_finalTransaction (hshaped p hassembled)
      cases htx : p.finalTransaction scheme <;>
        simp_all [Except.toBool, Except.toOption]

/-- After a success what is assembled is forgotten. -/
private theorem next_of_sent {broadcaster : Broadcaster} {txid : TxId}
    (h : (w.after (send scheme broadcaster)).answer = .ok txid) :
    (w.after (send scheme broadcaster)).next = { w with assembled := none } := by
  cases hsend : w.toSend? scheme with
  | none =>
    obtain ⟨fault, hfails⟩ := after_send_of_toSend?_eq_none hsend
    simp [hfails] at h
  | some tx =>
    rw [after_send_of_toSend? hsend] at h ⊢
    rw [show broadcaster tx = .ok txid from h]
    rfl

/-- After a failure everything is as before. -/
private theorem next_of_not_sent {broadcaster : Broadcaster} {fault : Fault}
    (h : (w.after (send scheme broadcaster)).answer = .error fault) :
    (w.after (send scheme broadcaster)).next = w := by
  have hanswer : (w.perform scheme (.send broadcaster)).answer = .error fault :=
    congrArg (Except.map Answer.sent) h
  exact next_of_error hanswer

/-! ## Another attempt -/

variable (scheme) in
/-- What was done from some state on, the last at the head, and the state that it ends in. -/
inductive Continues (w : Workflow) : List Event → Workflow → Prop where
  /-- Nothing was done. -/
  | nothing : Continues w [] w
  /-- One more action. -/
  | step {events : List Event} {w' : Workflow} (before : Continues w events w') (action : Action) :
      Continues w (w'.event scheme action :: events) (w'.perform scheme action).next

/-- A step that takes nothing in leaves what is assembled or empties it. -/
theorem Step.assembled_eq {action : Action} (h : Step scheme w action w')
    (hload : Event.loadedInto .assemble ⟨action, true⟩ = false) :
    w'.assembled = if Event.clears ⟨action, true⟩ then none else w.assembled := by
  cases h with
  | loadFirst => simp [Event.loadedInto] at hload
  | loadMore => simp [Event.loadedInto] at hload
  | _ => rfl

/-- **What is assembled stays**, as long as nothing is taken in and it is not emptied. -/
theorem assembled_of_continues {events : List Event} (h : Continues scheme w events w')
    (hload : ∀ e ∈ events, e.loadedInto .assemble = false) :
    w'.assembled = if events.any Event.clears then none else w.assembled := by
  induction h with
  | nothing => rfl
  | @step events w' before action ih =>
    rw [List.forall_mem_cons] at hload
    have hbefore := ih hload.2
    rcases perform_cases scheme w' action with ⟨hevent, hnext⟩ | ⟨hevent, hstep⟩
    · rw [hevent, hnext, List.any_cons, Event.clears_of_failed, Bool.false_or, hbefore]
    · rw [hevent] at hload ⊢
      rw [hstep.assembled_eq hload.1, hbefore, List.any_cons]
      cases Event.clears ⟨action, true⟩ <;> simp

/-- What is handed over online is up to what is assembled. -/
private theorem toSend?_of_online (h : w.online = true) :
    w.toSend? scheme = w.assembled.bind fun p => (p.finalTransaction scheme).toOption :=
  if_pos h

/-! ## The rules -/

variable (scheme w) in
/-- The rules of sending from a state. -/
structure Sends : Prop where
  /-- A node is called exactly when the machine is online, has assembled something and can send. -/
  called : ∀ broadcaster, (w.after (send scheme broadcaster)).handedOver ≠ [] ↔
    w.online = true ∧ w.assembled.isSome = true ∧ w.canSend scheme = true
  /-- It is then called once, with the transaction of what is assembled. -/
  once : ∀ p, w.online = true → w.assembled = some p → w.canSend scheme = true →
    ∃ tx, p.SentAs scheme tx ∧ Calls scheme w tx ∧
      ∀ broadcaster, (w.after (send scheme broadcaster)).handedOver = [tx] ∧
        (w.after (send scheme broadcaster)).answer = broadcaster tx
  /-- If it cannot send, the first input that lacks something is reported. -/
  lacking : ∀ p, w.online = true → w.assembled = some p → w.canSend scheme = false →
    ∃ i, IsLeast {i | p.Lacks scheme i} i ∧
      ∀ broadcaster, (w.after (send scheme broadcaster)).handedOver = [] ∧
        (w.after (send scheme broadcaster)).answer = .error (.inputNotFinal i)
  /-- After a success what is assembled is forgotten. -/
  sent : ∀ broadcaster txid, (w.after (send scheme broadcaster)).answer = .ok txid →
    (w.after (send scheme broadcaster)).next = { w with assembled := none }
  /-- After a failure everything is as before. -/
  failed : ∀ broadcaster fault, (w.after (send scheme broadcaster)).answer = .error fault →
    (w.after (send scheme broadcaster)).next = w
  /-- Another attempt, with no copy taken in since one failed, hands over the same transaction,
  unless what is assembled was forgotten meanwhile. -/
  again : ∀ broadcaster fault, (w.after (send scheme broadcaster)).answer = .error fault →
    ∀ events w', Continues scheme (w.after (send scheme broadcaster)).next events w' →
      (∀ e ∈ events, e.loadedInto .assemble = false) → w.online = true → w'.online = true →
        ∀ other, (w'.after (send scheme other)).handedOver =
          if events.any Event.clears then []
          else (w.after (send scheme broadcaster)).handedOver

/-- **A machine sends the right transaction, once.** In every state that a machine can come to, from
a start with nothing: a node is called exactly when the machine is online, has assembled something
and can send. It is then called once, with the transaction of what is assembled, every input with
the scripts that were recorded for it if it was final and otherwise with those that it can be given.
If the machine cannot send what it has assembled, the first input is reported that is open and lacks
something. After a success what is assembled is forgotten; after a failure it is as before, and
another attempt hands over the same transaction as long as no copy comes in between.

**Proof sketch.** What is assembled is a merge of copies that were read, so it has one input and one
output map for each input and output. For such a copy the transaction exists exactly when the dry
run finds it complete, and each of its inputs is what the dry run makes of it. What is assembled
changes by taking a copy in or by being emptied only, which is an induction on what was done since. -/
theorem run_sends {events : List Event} (h : Run scheme online events w) : Sends scheme w := by
  have hshaped : ∀ p, w.assembled = some p → p.Shaped := fun p => shaped_of_run h
  refine
    { called := fun broadcaster => ?_
      once := fun p honline hassembled hcan => ?_
      lacking := fun p honline hassembled hcan => ?_
      sent := fun _ _ => next_of_sent
      failed := fun _ _ => next_of_not_sent
      again := fun _ _ hfailed newer w' hcontinues hload honline honline' other => ?_ }
  · rw [handedOver_send, ← isSome_toSend?_iff hshaped]
    cases w.toSend? scheme <;> simp
  · obtain ⟨tx, hsend⟩ := Option.isSome_iff_exists.mp
      ((isSome_toSend?_iff hshaped).mpr ⟨honline, by simp [hassembled], hcan⟩)
    obtain ⟨-, q, hq, htx⟩ := toSend?_eq_some_iff.mp hsend
    obtain rfl := Option.some.inj (hassembled.symm.trans hq)
    exact ⟨tx, Psbt.sentAs_of_finalTransaction (hshaped p hassembled) htx, calls_iff.mpr hsend,
      fun broadcaster => by rw [after_send_of_toSend? hsend]; exact ⟨rfl, rfl⟩⟩
  · have hincomplete : (p.finalTransaction scheme).toBool = false := by
      rw [Psbt.toBool_finalTransaction (hshaped p hassembled)]
      rwa [canSend, hassembled, Option.any_some] at hcan
    cases htx : p.finalTransaction scheme with
    | ok tx => simp [htx, Except.toBool] at hincomplete
    | error fault =>
      obtain ⟨i, hleast, rfl⟩ := Psbt.isLeast_of_finalTransaction (hshaped p hassembled) htx
      refine ⟨i, hleast, fun broadcaster => ?_⟩
      rw [after_send_of_finalTransaction honline hassembled htx]
      exact ⟨rfl, rfl⟩
  · rw [next_of_not_sent hfailed] at hcontinues
    rw [handedOver_send, handedOver_send, toSend?_of_online honline', toSend?_of_online honline,
      assembled_of_continues hcontinues hload]
    cases newer.any Event.clears <;> rfl

/-- A machine that has assembled a final copy. -/
def sampleReady : Workflow :=
  { Workflow.new true with assembled := some Psbt.finalAlone, stage := .assemble }

/-- A machine is refused by a node, goes offline and comes back. It then hands the same transaction
over. -/
theorem run_sends_sample : ∃ events newer w' tx, Run Curve.secp256k1 true events sampleReady ∧
    Psbt.finalAlone.SentAs Curve.secp256k1 tx ∧
    (∀ broadcaster, (sampleReady.after (send Curve.secp256k1 broadcaster)).handedOver = [tx] ∧
      (sampleReady.after (send Curve.secp256k1 broadcaster)).answer = broadcaster tx) ∧
    Continues Curve.secp256k1
      (sampleReady.after (send Curve.secp256k1 fun _ => .error .emptyEncoding)).next newer w' ∧
    newer.map Event.succeeded = [true, true] ∧
    ∀ other, (w'.after (send Curve.secp256k1 other)).handedOver = [tx] := by
  have hnew : Run Curve.secp256k1 true [] (Workflow.new true) := .new
  have hrun : Run Curve.secp256k1 true _ sampleReady :=
    hnew.step (.load .assemble Psbt.finalAlone.bytes)
  have hrules := run_sends hrun
  obtain ⟨tx, hsentAs, -, hsending⟩ := hrules.once Psbt.finalAlone rfl rfl rfl
  have hrefused := (hsending fun _ => .error .emptyEncoding).2
  have hstart : Continues Curve.secp256k1
      (sampleReady.after (send Curve.secp256k1 fun _ => .error .emptyEncoding)).next [] _ :=
    .nothing
  have hcontinues := (hstart.step (.setOnline false)).step (.setOnline true)
  have hagain := hrules.again _ _ hrefused _ _ hcontinues
    (by simp [event, Event.loadedInto]) rfl rfl
  exact ⟨_, _, _, tx, hrun, hsentAs, hsending, hcontinues, rfl,
    fun other => (hagain other).trans (hsending _).1⟩

end JointSpend.Workflow
