import JointSpend.Curve.Secp256k1
import JointSpend.Proofs.Merge.Commutativity
import JointSpend.Proofs.Sign.Commit
import JointSpend.Workflow

set_option autoImplicit false
set_option relaxedAutoImplicit false

/-!
# Runs of a machine

A machine goes through one action after another, some of which fail. Signers and nodes are functions
that come with the actions, so nothing is assumed of them. What they are asked is on record, and the
outcome depends on what they answer to that and on nothing else of them.

## Main definitions

* `JointSpend.Workflow.Action`, `JointSpend.Workflow.perform` — what is done, and what comes of it.
* `JointSpend.Workflow.Event`, `JointSpend.Workflow.Run` — what was done in a run.
* `JointSpend.Workflow.Since` — something happened in a run, and something else has not since.
* `JointSpend.Workflow.toSign?`, `JointSpend.Workflow.toSend?` — what there is to ask of a signer or
  a node.
* `JointSpend.Workflow.Heeds`, `JointSpend.Workflow.Calls` — the outcome depends on what a signer or
  a node answers.
* `JointSpend.Workflow.Step` — what an action that succeeds makes of the state.
* `JointSpend.Workflow.Gated` — the rules that every single action obeys.

## Main results

* `JointSpend.Workflow.next_of_error` — an action that fails leaves the state.
* `JointSpend.Workflow.mem_asked_iff`, `JointSpend.Workflow.mem_handedOver_iff` — when signers and
  nodes are asked, and what.
* `JointSpend.Workflow.heeds_iff`, `JointSpend.Workflow.calls_iff` — the outcome depends on what
  they answer to that.
* `JointSpend.Workflow.perform_cases` — an action fails and leaves the state, or makes a step.
* `JointSpend.Workflow.didSign_iff_since` — when a machine has signed.
* `JointSpend.Workflow.run_gated` — the rules of every action, at every point of every run.
-/

namespace JointSpend.Workflow

/-! ## Actions -/

/-- What can be done with a machine. -/
inductive Action where
  /-- Begins with a copy that was just created. -/
  | start (p : Psbt)
  /-- Takes a copy in either exchange form into a stage. -/
  | load (stage : Stage) (data : Bytes)
  /-- Passes on the copy of a stage. -/
  | exportAs (stage : Stage) (form : ExchangeForm)
  /-- Has the loaded copy signed. -/
  | sign (signer : Signer) (options : SignOptions)
  /-- Sends what is assembled. -/
  | send (broadcaster : Broadcaster)
  /-- Goes online or offline. -/
  | setOnline (online : Bool)
  /-- Goes to the next stage. -/
  | nextStage
  /-- Goes to the stage before. -/
  | prevStage
  /-- Forgets what is assembled. -/
  | resetAssembly

/-- What an action that succeeds answers. -/
inductive Answer where
  /-- Nothing but the success. -/
  | done
  /-- The data to pass on. -/
  | exported (data : Bytes)
  /-- Whether all inputs are final or can be made so. -/
  | signed (complete : Bool)
  /-- The identifier of the transaction. -/
  | sent (txid : TxId)
  deriving DecidableEq

/-- What comes of something, with another answer if it succeeds. -/
def Outcome.map {α β : Type} (f : α → β) (outcome : Outcome α) : Outcome β :=
  { outcome with answer := outcome.answer.map f }

variable (scheme : SignatureScheme)

/-- Performs an action. -/
def perform (w : Workflow) : Action → Outcome Answer
  | .start p => (w.after (change fun w => w.start p)).map fun _ => .done
  | .load stage data => (w.after (load stage data)).map fun _ => .done
  | .exportAs stage form => (w.after (exportAs stage form)).map .exported
  | .sign signer options => (w.after (sign scheme signer options)).map .signed
  | .send broadcaster => (w.after (send scheme broadcaster)).map .sent
  | .setOnline online => (w.after (change fun w => w.setOnline online)).map fun _ => .done
  | .nextStage => (w.after (change nextStage)).map fun _ => .done
  | .prevStage => (w.after (change prevStage)).map fun _ => .done
  | .resetAssembly => (w.after (change resetAssembly)).map fun _ => .done

/-! ## Runs -/

/-- What was done, and whether it succeeded. -/
structure Event where
  action : Action
  succeeded : Bool

/-- An action on a machine as it is recorded. -/
def event (w : Workflow) (action : Action) : Event :=
  ⟨action, (w.perform scheme action).answer.toBool⟩

/-- Runs of a machine that starts with nothing, with what was done last at the head, and the states
that they end in. -/
inductive Run (online : Bool) : List Event → Workflow → Prop where
  /-- Nothing was done. -/
  | new : Run online [] (Workflow.new online)
  /-- One more action. -/
  | step {events : List Event} {w : Workflow} (run : Run online events w) (action : Action) :
      Run online (w.event scheme action :: events) (w.perform scheme action).next

namespace Event

/-- Whether a copy was taken into a stage. -/
def loadedInto (stage : Stage) : Event → Bool
  | ⟨.load stage' _, succeeded⟩ => stage' = stage && succeeded
  | _ => false

/-- Whether a copy was signed. -/
def signed : Event → Bool
  | ⟨.sign _ _, succeeded⟩ => succeeded
  | _ => false

/-- What failed was no signature. -/
private theorem signed_of_failed (action : Action) : signed ⟨action, false⟩ = false := by
  cases action <;> rfl

/-- What failed took no copy into a stage. -/
private theorem loadedInto_of_failed (stage : Stage) (action : Action) :
    loadedInto stage ⟨action, false⟩ = false := by
  cases action <;> simp [loadedInto]

end Event

/-- Something happened in a run, and something else has not happened since. -/
def Since (happened ended : Event → Bool) (events : List Event) : Prop :=
  ∃ newer e older, events = newer ++ e :: older ∧ happened e = true ∧
    ∀ e' ∈ newer, ended e' = false

/-- Nothing happened before the first action. -/
private theorem not_since_nil (happened ended : Event → Bool) : ¬ Since happened ended [] := by
  rintro ⟨newer, e, older, h, -⟩
  simp at h

/-- One more action. -/
private theorem since_cons {happened ended : Event → Bool} {e : Event} {events : List Event} :
    Since happened ended (e :: events) ↔
      happened e = true ∨ ended e = false ∧ Since happened ended events := by
  constructor
  · rintro ⟨newer, e', older, heq, he', hnewer⟩
    cases newer with
    | nil =>
      obtain ⟨rfl, -⟩ := List.cons.inj heq
      exact Or.inl he'
    | cons e'' newer =>
      obtain ⟨rfl, rfl⟩ := List.cons.inj heq
      exact Or.inr ⟨hnewer e List.mem_cons_self, newer, e', older, rfl, he',
        fun x hx => hnewer x (List.mem_cons_of_mem _ hx)⟩
  · rintro (he | ⟨he, newer, e', older, rfl, he', hnewer⟩)
    · exact ⟨[], e, events, rfl, he, by simp⟩
    · exact ⟨e :: newer, e', older, rfl, he', List.forall_mem_cons.mpr ⟨he, hnewer⟩⟩

/-! ## Taking copies in and passing them on -/

open InPlace

variable {scheme} {w : Workflow} {α : Type}

/-- Steps that fail leave the state if they are atomic for it. -/
private theorem next_of_atomic {x : InPlace Session α} (hx : Atomic Session.machine x)
    {fault : Fault} (h : (w.after x).answer = .error fault) : (w.after x).next = w := by
  unfold after at h ⊢
  cases hexec : x.exec ⟨w, [], []⟩ with
  | mk answer s =>
    rw [hexec] at h
    obtain rfl : answer = .error fault := h
    exact hx.part_eq hexec

/-- What a machine has asked of others. -/
private def Session.requests (s : Session) : List (Psbt × SignOptions) × List Transaction :=
  (s.asked, s.handedOver)

/-- Steps that ask nothing of others. -/
private theorem requests_of_keeps {x : InPlace Session α} (hx : Keeps Session.requests x) :
    ((w.after x).asked, (w.after x).handedOver) = ([], []) := by
  unfold after
  cases hexec : x.exec ⟨w, [], []⟩ with
  | mk answer s => exact hx.part_eq hexec

/-- Looking at the state of the machine changes nothing. -/
theorem exec_current (s : Session) : current.exec s = (.ok s.machine, s) :=
  rfl

/-- Looking at the state of the machine keeps all of it. -/
private theorem keeps_current {τ : Type} (part : Session → τ) : Keeps part current :=
  (keeps_get part).bind fun _ => keeps_lift part (.ok _)

/-- A machine can always be changed. -/
private theorem succeeds_change (f : Workflow → Workflow) : Succeeds (change f) :=
  succeeds_modify _

/-- Changing the machine asks nothing of others. -/
private theorem keeps_change (f : Workflow → Workflow) : Keeps Session.requests (change f) :=
  keeps_modify fun _ => rfl

/-- **Taking a copy in** leaves the state if it cannot be united with what is assembled. -/
theorem atomic_take (p : Psbt) (stage : Stage) : Atomic Session.machine (take p stage) := by
  cases stage with
  | create =>
    rw [take]
    exact (succeeds_change _).atomic
  | sign =>
    rw [take]
    exact (succeeds_change _).atomic
  | assemble =>
    refine (keeps_current _).bind_atomic fun w => ?_
    cases w.assembled with
    | none => exact (succeeds_change _).atomic
    | some existing =>
      exact (keeps_lift _ _).bind_atomic fun merged => (succeeds_change _).atomic

/-- **Loading a copy** leaves the state if the copy cannot be read or taken in. -/
theorem atomic_load (stage : Stage) (data : Bytes) : Atomic Session.machine (load stage data) :=
  (keeps_lift _ _).bind_atomic fun p =>
    (atomic_take p stage).bind_succeeds fun _ => succeeds_change _

/-- Loading a copy asks nothing of others. -/
private theorem keeps_load (stage : Stage) (data : Bytes) :
    Keeps Session.requests (load stage data) := by
  refine (keeps_lift _ _).bind fun p => Keeps.bind ?_ fun _ => keeps_change _
  cases stage with
  | create =>
    rw [take]
    exact keeps_change _
  | sign =>
    rw [take]
    exact keeps_change _
  | assemble =>
    refine (keeps_current _).bind fun w => ?_
    cases w.assembled with
    | none => exact keeps_change _
    | some existing => exact (keeps_lift _ _).bind fun merged => keeps_change _

/-- Passing a copy on leaves the state in any case. -/
private theorem keeps_exportAs {τ : Type} (part : Session → τ) (stage : Stage)
    (form : ExchangeForm) : Keeps part (exportAs stage form) := by
  refine (keeps_current part).bind fun w => ?_
  cases w.psbt? stage with
  | none => exact keeps_lift part (.error _)
  | some p => exact keeps_lift part (.ok _)

/-! ## Signing and sending -/

/-- The copy that a signer is asked to sign, if it comes to that. -/
def toSign? (w : Workflow) (options : SignOptions) : Option Psbt :=
  if w.online then none
  else w.signing.filter fun p => options.scope.firstBeyond? p.inputs.length = none

/-- A signer is asked offline, for the copy that was loaded, if the scope is in range. -/
private theorem toSign?_eq_some_iff {options : SignOptions} {p : Psbt} :
    w.toSign? options = some p ↔ w.online = false ∧ w.signing = some p ∧
      options.scope.firstBeyond? p.inputs.length = none := by
  unfold toSign?
  cases w.online <;> simp [Option.filter_eq_some_iff]

/-- Working on the copy that is to be signed ends as the work ends. -/
private theorem exec_onSigning {p : Psbt} {x : InPlace Signing α} {result : Except Fault α}
    {signing : Signing} (h : x.exec ⟨p, []⟩ = (result, signing)) (s : Session) :
    (onSigning p x).exec s = (result, ⟨{ s.machine with signing := some signing.copy },
      s.asked ++ signing.asked, s.handedOver⟩) := by
  unfold onSigning
  rw [h]
  rfl

/-- **Signing when a signer is asked** for a copy: the machine holds the signed copy, or what it
held before. -/
theorem after_sign_of_toSign? {options : SignOptions} {p : Psbt}
    (h : w.toSign? options = some p) (signer : Signer) :
    w.after (sign scheme signer options) =
      match p.sign scheme signer options with
      | .ok (q, complete) =>
        ⟨{ w with signing := some q, didSign := true }, [(p, options)], [], .ok complete⟩
      | .error fault => ⟨w, [(p, options)], [], .error fault⟩ := by
  obtain ⟨honline, hsigning, hscope⟩ := toSign?_eq_some_iff.mp h
  obtain ⟨stage, online, created, signing, assembled, didSign⟩ := w
  obtain rfl : online = false := honline
  obtain rfl : signing = some p := hsigning
  unfold after sign
  simp only [exec_bind, exec_current, Bool.false_eq_true, if_false]
  cases hsign : p.sign scheme signer options with
  | ok result =>
    rw [exec_onSigning (Psbt.exec_of_sign_eq_ok hsign)]
    rfl
  | error fault =>
    rw [exec_onSigning (Psbt.exec_of_sign_eq_error hsign), if_pos hscope]
    rfl

/-- **Signing when no signer is asked** fails in the same way whoever signs, and leaves the
state. -/
theorem after_sign_of_toSign?_eq_none (scheme : SignatureScheme) {options : SignOptions}
    (h : w.toSign? options = none) :
    ∃ fault, ∀ signer, w.after (sign scheme signer options) = ⟨w, [], [], .error fault⟩ := by
  obtain ⟨stage, online, created, signing, assembled, didSign⟩ := w
  cases online with
  | true => exact ⟨.workflow .signOnline, fun _ => rfl⟩
  | false =>
    cases signing with
    | none => exact ⟨.workflow .nothingToSign, fun _ => rfl⟩
    | some p =>
      cases hscope : options.scope.firstBeyond? p.inputs.length with
      | none => simp [toSign?, hscope] at h
      | some index =>
        refine ⟨.noSuchInput index p.inputs.length, fun signer => ?_⟩
        have hsign := Psbt.exec_of_sign_eq_error (Psbt.sign_of_firstBeyond? scheme signer hscope)
        unfold after sign
        simp only [exec_bind, exec_current, Bool.false_eq_true, if_false]
        rw [exec_onSigning hsign, if_neg (by simp [hscope])]
        rfl

/-- The transaction that is handed to a node, if it comes to that. -/
def toSend? (scheme : SignatureScheme) (w : Workflow) : Option Transaction :=
  if w.online then w.assembled.bind fun p => (p.finalTransaction scheme).toOption else none

/-- A node is called online, with the transaction of what is assembled. -/
theorem toSend?_eq_some_iff {w : Workflow} {tx : Transaction} :
    w.toSend? scheme = some tx ↔
      w.online = true ∧ ∃ p, w.assembled = some p ∧ p.finalTransaction scheme = .ok tx := by
  unfold toSend?
  cases w.online with
  | false => simp
  | true =>
    simp only [if_true, Option.bind_eq_some_iff, true_and]
    refine exists_congr fun p => and_congr_right fun _ => ?_
    cases p.finalTransaction scheme <;> simp [Except.toOption]

/-- **Sending when there is a transaction** hands it over. After a success what is assembled is
forgotten. -/
theorem after_send_of_toSend? {tx : Transaction} (h : w.toSend? scheme = some tx)
    (broadcaster : Broadcaster) :
    w.after (send scheme broadcaster) =
      ⟨if (broadcaster tx).toBool then w.resetAssembly else w, [], [tx], broadcaster tx⟩ := by
  obtain ⟨honline, p, hassembled, htx⟩ := toSend?_eq_some_iff.mp h
  obtain ⟨stage, online, created, signing, assembled, didSign⟩ := w
  obtain rfl : online = true := honline
  obtain rfl : assembled = some p := hassembled
  unfold after send Psbt.send
  simp only [exec_bind, exec_current, htx, Bool.not_true, Bool.false_eq_true, if_false]
  cases broadcaster tx <;> rfl

/-- **Sending when some input lacks something** reports that, whatever the node says, and leaves the
state. -/
theorem after_send_of_finalTransaction {p : Psbt} {fault : Fault} (honline : w.online = true)
    (hassembled : w.assembled = some p) (htx : p.finalTransaction scheme = .error fault)
    (broadcaster : Broadcaster) :
    w.after (send scheme broadcaster) = ⟨w, [], [], .error fault⟩ := by
  obtain ⟨stage, online, created, signing, assembled, didSign⟩ := w
  obtain rfl : online = true := honline
  obtain rfl : assembled = some p := hassembled
  unfold after send Psbt.send
  simp only [exec_bind, exec_current, htx, Bool.not_true, Bool.false_eq_true, if_false]
  rfl

/-- **Sending when there is none** fails in the same way whatever the node says, and leaves the
state. -/
theorem after_send_of_toSend?_eq_none (h : w.toSend? scheme = none) :
    ∃ fault, ∀ broadcaster, w.after (send scheme broadcaster) = ⟨w, [], [], .error fault⟩ := by
  obtain ⟨stage, online, created, signing, assembled, didSign⟩ := w
  cases online with
  | false => exact ⟨.workflow .sendOffline, fun _ => rfl⟩
  | true =>
    cases assembled with
    | none => exact ⟨.workflow .nothingAssembled, fun _ => rfl⟩
    | some p =>
      cases htx : p.finalTransaction scheme with
      | error fault => exact ⟨fault, after_send_of_finalTransaction rfl rfl htx⟩
      | ok tx => simp [toSend?, htx, Except.toOption] at h

/-! ## What is asked of others -/

/-- Signing asks the one question that there is to ask, sending hands over the one transaction that
there is to hand over, and no other action asks anything of others. -/
private theorem requests_of_perform (w : Workflow) (action : Action) :
    ((w.perform scheme action).asked, (w.perform scheme action).handedOver) =
      match action with
      | .sign _ options => (((w.toSign? options).map fun p => (p, options)).toList, [])
      | .send _ => ([], (w.toSend? scheme).toList)
      | _ => ([], []) := by
  cases action with
  | load stage data => exact requests_of_keeps (keeps_load stage data)
  | exportAs stage form =>
    exact requests_of_keeps (x := exportAs stage form) (keeps_exportAs _ stage form)
  | sign signer options =>
    cases hask : w.toSign? options with
    | none =>
      obtain ⟨fault, hfails⟩ := after_sign_of_toSign?_eq_none scheme hask
      simp [perform, Outcome.map, hfails, hask]
    | some p =>
      simp only [perform, Outcome.map, after_sign_of_toSign? hask, hask]
      cases p.sign scheme signer options <;> rfl
  | send broadcaster =>
    cases hsend : w.toSend? scheme with
    | none =>
      obtain ⟨fault, hfails⟩ := after_send_of_toSend?_eq_none hsend
      simp [perform, Outcome.map, hfails]
    | some tx => simp [perform, Outcome.map, after_send_of_toSend? hsend]
  | _ => rfl

/-- **What an action asks signers.** -/
theorem asked_of_perform (w : Workflow) (action : Action) :
    (w.perform scheme action).asked =
      match action with
      | .sign _ options => ((w.toSign? options).map fun p => (p, options)).toList
      | _ => [] := by
  have h := congrArg Prod.fst (@requests_of_perform scheme w action)
  cases action <;> exact h

/-- **What an action hands to nodes.** -/
theorem handedOver_of_perform (w : Workflow) (action : Action) :
    (w.perform scheme action).handedOver =
      match action with
      | .send _ => (w.toSend? scheme).toList
      | _ => [] := by
  have h := congrArg Prod.snd (@requests_of_perform scheme w action)
  cases action <;> exact h

/-- **Signers are asked** by signing only, offline, about the copy that was loaded, if the scope is
in range. -/
theorem mem_asked_iff {action : Action} {p : Psbt} {options : SignOptions} :
    (p, options) ∈ (w.perform scheme action).asked ↔
      (∃ signer, action = .sign signer options) ∧ w.toSign? options = some p := by
  rw [asked_of_perform]
  cases action with
  | sign signer options' =>
    rw [Option.mem_toList, Option.map_eq_some_iff]
    constructor
    · rintro ⟨q, hq, heq⟩
      obtain ⟨rfl, rfl⟩ := Prod.mk.inj heq
      exact ⟨⟨signer, rfl⟩, hq⟩
    · rintro ⟨⟨_, haction⟩, hp⟩
      obtain ⟨-, rfl⟩ := Action.sign.inj haction
      exact ⟨p, hp, rfl⟩
  | _ => simp

/-- No action asks signers more than once. -/
private theorem length_asked_le (w : Workflow) (action : Action) :
    (w.perform scheme action).asked.length ≤ 1 := by
  rw [asked_of_perform]
  cases action with
  | sign signer options => cases w.toSign? options <;> simp
  | _ => simp

/-- **Nodes are handed transactions** by sending only, online, and only the one of what is
assembled. -/
theorem mem_handedOver_iff {action : Action} {tx : Transaction} :
    tx ∈ (w.perform scheme action).handedOver ↔
      (∃ broadcaster, action = .send broadcaster) ∧ w.toSend? scheme = some tx := by
  rw [handedOver_of_perform]
  cases action <;> simp

/-! ## What their answers matter -/

variable (scheme)

/-- A machine heeds what a signer answers about a copy when the outcome depends on it: two signers
that differ there alone have different outcomes. -/
def Heeds (w : Workflow) (options : SignOptions) (p : Psbt) : Prop :=
  ∃ signer other : Signer, (∀ q o, (q, o) ≠ (p, options) → signer q o = other q o) ∧
    w.perform scheme (.sign signer options) ≠ w.perform scheme (.sign other options)

/-- A node is called with a transaction when the outcome depends on what it answers for that
transaction: two nodes that differ there alone have different outcomes. -/
def Calls (w : Workflow) (tx : Transaction) : Prop :=
  ∃ broadcaster other : Broadcaster, (∀ t, t ≠ tx → broadcaster t = other t) ∧
    w.perform scheme (.send broadcaster) ≠ w.perform scheme (.send other)

variable {scheme}

/-- **What a signer answers matters** exactly for the copy that it is asked about. -/
theorem heeds_iff {options : SignOptions} {p : Psbt} :
    Heeds scheme w options p ↔ w.toSign? options = some p := by
  constructor
  · rintro ⟨signer, other, hsame, hdiffer⟩
    by_contra hne
    apply hdiffer
    cases hask : w.toSign? options with
    | none =>
      obtain ⟨fault, hfails⟩ := after_sign_of_toSign?_eq_none scheme hask
      simp only [perform, hfails]
    | some q =>
      have hq : signer q options = other q options :=
        hsame q options fun h => hne (hask.trans (congrArg some (Prod.mk.inj h).1))
      simp only [perform, after_sign_of_toSign? hask, Psbt.sign_congr hq]
  · intro hask
    -- One signer always fails; the other fails otherwise, for this copy alone.
    let signer : Signer := fun _ _ => .error .emptyEncoding
    let other : Signer := fun q o =>
      if (q, o) = (p, options) then .error .malformedEncoding else .error .emptyEncoding
    refine ⟨signer, other, fun q o hqo => by simp only [signer, other, if_neg hqo], fun heq => ?_⟩
    obtain ⟨-, -, hscope⟩ := toSign?_eq_some_iff.mp hask
    have hsign : ∀ (s : Signer) (fault : Fault), s p options = .error fault →
        (w.perform scheme (.sign s options)).answer = .error fault := by
      intro s fault hs
      simp only [perform, after_sign_of_toSign? hask, Psbt.sign_of_signer_error hscope hs]
      rfl
    have hanswers := (hsign signer .emptyEncoding rfl).symm.trans
      ((congrArg Outcome.answer heq).trans (hsign other .malformedEncoding (if_pos rfl)))
    simp at hanswers

/-- **A node is called** with the transaction of what is assembled, online. -/
theorem calls_iff {tx : Transaction} : Calls scheme w tx ↔ w.toSend? scheme = some tx := by
  constructor
  · rintro ⟨broadcaster, other, hsame, hdiffer⟩
    by_contra hne
    apply hdiffer
    cases hsend : w.toSend? scheme with
    | none =>
      obtain ⟨fault, hfails⟩ := after_send_of_toSend?_eq_none hsend
      simp only [perform, hfails]
    | some t =>
      have ht : broadcaster t = other t :=
        hsame t fun h => hne (hsend.trans (congrArg some h))
      simp only [perform, after_send_of_toSend? hsend, ht]
  · intro hsend
    let broadcaster : Broadcaster := fun _ => .error .emptyEncoding
    let other : Broadcaster := fun t =>
      if t = tx then .error .malformedEncoding else .error .emptyEncoding
    refine ⟨broadcaster, other, fun t ht => by simp only [broadcaster, other, if_neg ht],
      fun heq => ?_⟩
    have hanswers := congrArg Outcome.answer heq
    simp [perform, after_send_of_toSend? hsend, broadcaster, other, Outcome.map, Except.map]
      at hanswers

/-! ## Single actions -/

/-- An action that fails does so because its steps fail. -/
private theorem answer_of_map_error {α β : Type} {f : α → β} {outcome : Outcome α} {fault : Fault}
    (h : (outcome.map f).answer = .error fault) : outcome.answer = .error fault := by
  unfold Outcome.map at h
  cases hanswer : outcome.answer with
  | error fault' => simpa [hanswer, Except.map] using h
  | ok a => simp [hanswer, Except.map] at h

/-- **What fails leaves the state.** -/
theorem next_of_error {action : Action} {fault : Fault}
    (h : (w.perform scheme action).answer = .error fault) :
    (w.perform scheme action).next = w := by
  cases action with
  | load stage data => exact next_of_atomic (atomic_load stage data) (answer_of_map_error h)
  | exportAs stage form =>
    have hatomic := (keeps_exportAs Session.machine stage form).atomic
    exact next_of_atomic (x := exportAs stage form) hatomic (answer_of_map_error h)
  | sign signer options =>
    have hanswer := answer_of_map_error h
    change (w.after (sign scheme signer options)).next = w
    cases hask : w.toSign? options with
    | none =>
      obtain ⟨_, hfails⟩ := after_sign_of_toSign?_eq_none scheme hask
      rw [hfails]
    | some p =>
      rw [after_sign_of_toSign? hask] at hanswer ⊢
      cases hsign : p.sign scheme signer options with
      | error _ => rfl
      | ok result => simp [hsign] at hanswer
  | send broadcaster =>
    have hanswer := answer_of_map_error h
    change (w.after (send scheme broadcaster)).next = w
    cases hsend : w.toSend? scheme with
    | none =>
      obtain ⟨_, hfails⟩ := after_send_of_toSend?_eq_none hsend
      rw [hfails]
    | some tx =>
      rw [after_send_of_toSend? hsend] at hanswer ⊢
      have hfails : broadcaster tx = .error fault := hanswer
      rw [hfails]
      rfl
  | _ => cases h

variable (scheme)

/-- What an action that succeeds makes of the state. -/
inductive Step (w : Workflow) : Action → Workflow → Prop where
  | start (p : Psbt) : Step w (.start p) (w.start p)
  | loadCreate {data : Bytes} {p : Psbt} (hdata : Psbt.decodeAny data = .ok p) :
      Step w (.load .create data) { w with created := some p, stage := .create }
  | loadSign {data : Bytes} {p : Psbt} (hdata : Psbt.decodeAny data = .ok p) :
      Step w (.load .sign data) { w with signing := some p, didSign := false, stage := .sign }
  | loadFirst {data : Bytes} {p : Psbt} (hdata : Psbt.decodeAny data = .ok p)
      (hempty : w.assembled = none) :
      Step w (.load .assemble data) { w with assembled := some p, stage := .assemble }
  | loadMore {data : Bytes} {p existing merged : Psbt} (hdata : Psbt.decodeAny data = .ok p)
      (hassembled : w.assembled = some existing) (hmerge : existing.merge p = .ok merged) :
      Step w (.load .assemble data) { w with assembled := some merged, stage := .assemble }
  | exportAs (stage : Stage) (form : ExchangeForm) : Step w (.exportAs stage form) w
  | sign {signer : Signer} {options : SignOptions} {p q : Psbt} {complete : Bool}
      (honline : w.online = false) (hsigning : w.signing = some p)
      (hsign : p.sign scheme signer options = .ok (q, complete)) :
      Step w (.sign signer options) { w with signing := some q, didSign := true }
  | send {broadcaster : Broadcaster} {tx : Transaction} {txid : TxId}
      (hsend : w.toSend? scheme = some tx) (hsent : broadcaster tx = .ok txid) :
      Step w (.send broadcaster) w.resetAssembly
  | setOnline (online : Bool) : Step w (.setOnline online) (w.setOnline online)
  | nextStage : Step w .nextStage w.nextStage
  | prevStage : Step w .prevStage w.prevStage
  | resetAssembly : Step w .resetAssembly w.resetAssembly

variable {scheme}

/-- An action that succeeds does so because its steps do. -/
private theorem exists_of_map_ok {β : Type} {f : α → β} {outcome : Outcome α} {b : β}
    (h : (outcome.map f).answer = .ok b) : ∃ a, outcome.answer = .ok a := by
  obtain ⟨a, ha, -⟩ := Steps.map_eq_ok_iff.mp h
  exact ⟨a, ha⟩

/-- What steps that succeed make of the state. -/
private theorem exists_exec_of_ok {x : InPlace Session α} {a : α} (h : (w.after x).answer = .ok a) :
    ∃ s, x.exec ⟨w, [], []⟩ = (.ok a, s) ∧ (w.after x).next = s.machine := by
  unfold after at h ⊢
  cases hexec : x.exec ⟨w, [], []⟩ with
  | mk answer s =>
    rw [hexec] at h
    obtain rfl : answer = .ok a := h
    exact ⟨s, rfl, rfl⟩

/-- What loading makes of the state. -/
private theorem step_of_load {stage : Stage} {data : Bytes} {done : Unit}
    (h : (w.after (load stage data)).answer = .ok done) :
    Step scheme w (.load stage data) (w.after (load stage data)).next := by
  obtain ⟨s, hexec, hnext⟩ := exists_exec_of_ok h
  rw [hnext]
  simp only [load, exec_bind_eq_ok_iff, exec_lift, Prod.mk.injEq] at hexec
  obtain ⟨p, _, ⟨hdata, rfl⟩, _, mid, htake, hlook⟩ := hexec
  obtain ⟨-, rfl⟩ := Prod.mk.inj hlook
  cases stage with
  | create =>
    obtain ⟨-, rfl⟩ := Prod.mk.inj htake
    exact .loadCreate hdata
  | sign =>
    obtain ⟨-, rfl⟩ := Prod.mk.inj htake
    exact .loadSign hdata
  | assemble =>
    rw [take, exec_bind, exec_current] at htake
    dsimp only at htake
    cases hassembled : w.assembled with
    | none =>
      rw [hassembled] at htake
      obtain ⟨-, rfl⟩ := Prod.mk.inj htake
      exact .loadFirst hdata hassembled
    | some existing =>
      simp only [hassembled, exec_bind_eq_ok_iff, exec_lift, Prod.mk.injEq] at htake
      obtain ⟨merged, _, ⟨hmerge, rfl⟩, htake⟩ := htake
      obtain ⟨-, rfl⟩ := Prod.mk.inj htake
      exact .loadMore hdata hassembled hmerge

/-- What an action that succeeds does is a step. -/
private theorem step_of_ok {action : Action} {answer : Answer}
    (h : (w.perform scheme action).answer = .ok answer) :
    Step scheme w action (w.perform scheme action).next := by
  cases action with
  | start p => exact .start p
  | load stage data =>
    obtain ⟨_, hload⟩ := exists_of_map_ok h
    exact step_of_load hload
  | exportAs stage form =>
    obtain ⟨_, hexport⟩ := exists_of_map_ok h
    obtain ⟨s, hexec, hnext⟩ := exists_exec_of_ok hexport
    have hsame : (w.perform scheme (.exportAs stage form)).next = w :=
      hnext.trans ((keeps_exportAs Session.machine stage form).part_eq hexec)
    rw [hsame]
    exact .exportAs stage form
  | sign signer options =>
    obtain ⟨complete, hsign⟩ := exists_of_map_ok h
    change Step scheme w _ (w.after (sign scheme signer options)).next
    cases hask : w.toSign? options with
    | none =>
      obtain ⟨fault, hfails⟩ := after_sign_of_toSign?_eq_none scheme hask
      simp [hfails] at hsign
    | some p =>
      obtain ⟨honline, hsigning, -⟩ := toSign?_eq_some_iff.mp hask
      rw [after_sign_of_toSign? hask] at hsign ⊢
      cases hq : p.sign scheme signer options with
      | error fault => simp [hq] at hsign
      | ok result => exact .sign honline hsigning hq
  | send broadcaster =>
    obtain ⟨txid, hsent⟩ := exists_of_map_ok h
    change Step scheme w _ (w.after (send scheme broadcaster)).next
    cases hsend : w.toSend? scheme with
    | none =>
      obtain ⟨fault, hfails⟩ := after_send_of_toSend?_eq_none hsend
      simp [hfails] at hsent
    | some tx =>
      rw [after_send_of_toSend? hsend] at hsent ⊢
      have hsent : broadcaster tx = .ok txid := hsent
      rw [hsent]
      exact .send hsend hsent
  | setOnline online => exact .setOnline online
  | nextStage => exact .nextStage
  | prevStage => exact .prevStage
  | resetAssembly => exact .resetAssembly

/-- **An action** fails and leaves the state, or succeeds with a step. -/
theorem perform_cases (scheme : SignatureScheme) (w : Workflow) (action : Action) :
    w.event scheme action = ⟨action, false⟩ ∧ (w.perform scheme action).next = w ∨
      w.event scheme action = ⟨action, true⟩ ∧
        Step scheme w action (w.perform scheme action).next := by
  unfold event
  cases h : (w.perform scheme action).answer with
  | error fault => exact Or.inl ⟨rfl, next_of_error h⟩
  | ok answer => exact Or.inr ⟨rfl, step_of_ok h⟩

/-- What a step does to the copy that is to be signed: it leaves it, loads another one, or has it
signed. -/
theorem Step.signing {w next : Workflow} {action : Action} (h : Step scheme w action next) :
    next.signing = w.signing ∨
      (∃ data p, action = .load .sign data ∧ Psbt.decodeAny data = .ok p ∧
        next.signing = some p) ∨
      ∃ signer options p q complete, action = .sign signer options ∧ w.online = false ∧
        w.signing = some p ∧ p.sign scheme signer options = .ok (q, complete) ∧
        next.signing = some q := by
  cases h with
  | loadSign hdata => exact Or.inr (Or.inl ⟨_, _, rfl, hdata, rfl⟩)
  | sign honline hsigning hsign =>
    exact Or.inr (Or.inr ⟨_, _, _, _, _, rfl, honline, hsigning, hsign, rfl⟩)
  | _ => exact Or.inl rfl

/-- After a step a machine has signed if the step was a signature, or if it had signed before and
the step did not load another copy. -/
theorem Step.didSign {w next : Workflow} {action : Action} (h : Step scheme w action next) :
    next.didSign = true ↔ Event.signed ⟨action, true⟩ = true ∨
      Event.loadedInto .sign ⟨action, true⟩ = false ∧ w.didSign = true := by
  cases h <;> simp [Event.signed, Event.loadedInto, Workflow.start, Workflow.setOnline,
    Workflow.nextStage, Workflow.prevStage, Workflow.resetAssembly]

/-- The rules that every action on a machine obeys. -/
structure Gated (scheme : SignatureScheme) (w : Workflow) : Prop where
  /-- What fails leaves the whole state. -/
  failed : ∀ action fault, (w.perform scheme action).answer = .error fault →
    (w.perform scheme action).next = w
  /-- A signer is asked by signing only, offline only, and only about the copy that was loaded. -/
  asked : ∀ action p options, (p, options) ∈ (w.perform scheme action).asked ↔
    (∃ signer, action = .sign signer options) ∧ w.online = false ∧ w.signing = some p ∧
      options.scope.firstBeyond? p.inputs.length = none
  /-- A signer is asked at most once. -/
  askedOnce : ∀ action, (w.perform scheme action).asked.length ≤ 1
  /-- The outcome depends on what a signer answers about a copy only where it is asked about it. -/
  heeds : ∀ options p, Heeds scheme w options p ↔ w.online = false ∧ w.signing = some p ∧
    options.scope.firstBeyond? p.inputs.length = none
  /-- A node is handed a transaction by sending only, online only, and only the transaction of what
  is assembled. -/
  handedOver : ∀ action tx, tx ∈ (w.perform scheme action).handedOver ↔
    (∃ broadcaster, action = .send broadcaster) ∧ w.online = true ∧
      ∃ p, w.assembled = some p ∧ p.finalTransaction scheme = .ok tx
  /-- The outcome depends on what a node answers to a transaction only where it is handed over. -/
  calls : ∀ tx, Calls scheme w tx ↔
    w.online = true ∧ ∃ p, w.assembled = some p ∧ p.finalTransaction scheme = .ok tx
  /-- The copy that is to be signed changes only when another one is loaded, or when it is signed
  offline. -/
  signing : ∀ action, (w.perform scheme action).next.signing ≠ w.signing →
    (w.event scheme action).succeeded = true ∧
      ((∃ data p, action = .load .sign data ∧ Psbt.decodeAny data = .ok p ∧
          (w.perform scheme action).next.signing = some p) ∨
        ∃ signer options p q complete, action = .sign signer options ∧ w.online = false ∧
          w.signing = some p ∧ p.sign scheme signer options = .ok (q, complete) ∧
          (w.perform scheme action).next.signing = some q)

/-- Every machine obeys the rules. -/
private theorem gated (scheme : SignatureScheme) (w : Workflow) : Gated scheme w where
  failed _ _ := next_of_error
  asked _ _ _ := mem_asked_iff.trans (and_congr_right fun _ => toSign?_eq_some_iff)
  askedOnce := length_asked_le w
  heeds _ _ := heeds_iff.trans toSign?_eq_some_iff
  handedOver _ _ := mem_handedOver_iff.trans (and_congr_right fun _ => toSend?_eq_some_iff)
  calls _ := calls_iff.trans toSend?_eq_some_iff
  signing action hne := by
    rcases perform_cases scheme w action with ⟨-, hnext⟩ | ⟨hevent, hstep⟩
    · exact absurd (congrArg Workflow.signing hnext) hne
    · exact ⟨by rw [hevent], hstep.signing.resolve_left hne⟩

/-! ## Whole runs -/

/-- **A machine has signed** exactly when some signature was made and no copy was loaded since. -/
theorem didSign_iff_since {online : Bool} {events : List Event} {w : Workflow}
    (h : Run scheme online events w) :
    w.didSign = true ↔ Since Event.signed (Event.loadedInto .sign) events := by
  induction h with
  | new => simp [Workflow.new, not_since_nil]
  | @step events w run action ih =>
    rw [since_cons]
    rcases perform_cases scheme w action with ⟨hevent, hnext⟩ | ⟨hevent, hstep⟩
    · rw [hevent, hnext, Event.signed_of_failed, Event.loadedInto_of_failed, ih]
      simp
    · rw [hevent, hstep.didSign, ih]

/-- **Runs are transactional and gated.** At every point of every run of a machine that started with
nothing: an action that fails leaves the whole state; signers are asked offline only and nodes are
called online only; the copy that is to be signed changes only when another one is loaded or
when it is signed offline; and the machine has signed exactly when some signature was made and no
copy was loaded to be signed since.

**Proof sketch.** The rules of single actions hold in every state. Whether the machine has signed
follows by induction on the run, with what a step does as the inductive step. -/
theorem run_gated {online : Bool} {events : List Event} {w : Workflow}
    (h : Run scheme online events w) :
    Gated scheme w ∧ (w.didSign = true ↔ Since Event.signed (Event.loadedInto .sign) events) :=
  ⟨gated scheme w, didSign_iff_since h⟩

/-- A machine that loads a copy, is refused to sign it online, goes offline, asks a signer in vain
and then another one has signed. -/
theorem run_gated_sample : ∃ events w, Run Curve.secp256k1 true events w ∧ w.didSign = true ∧
    events.map Event.succeeded = [true, false, true, false, true] ∧ Gated Curve.secp256k1 w ∧
    Since Event.signed (Event.loadedInto .sign) events := by
  have hnew : Run Curve.secp256k1 true [] (Workflow.new true) := .new
  have honline := (hnew.step (.load .sign Psbt.finalAlone.bytes)).step
    (.sign (fun p _ => .ok p) .default)
  have hrun := ((honline.step (.setOnline false)).step
    (.sign (fun _ _ => .error .emptyEncoding) .default)).step (.sign (fun p _ => .ok p) .default)
  obtain ⟨hgated, hsigned⟩ := run_gated hrun
  exact ⟨_, _, hrun, rfl, rfl, hgated, hsigned.mp rfl⟩

end JointSpend.Workflow
