import JointSpend.Proofs.InPlace
import JointSpend.Proofs.Merge.Outcome

set_option autoImplicit false
set_option relaxedAutoImplicit false

/-!
# What a commit can do

The steps of taking over a signer's copy, stated once: an input is left as it is, gets the origins
of keys, or gets origins and signatures. Whoever needs to know what signing can do to a copy finds
it here, input by input, and does not open the commit. All of it is done to a staged copy, so that
signing either takes place as a whole or leaves the copy as it was.

## Main definitions

* `JointSpend.InputMap.TakenOver` — what a commit can make of an input.
* `JointSpend.Psbt.CommittedFrom` — what a commit can make of a copy.

## Main results

* `JointSpend.InputMap.TakenOver.kept`, `JointSpend.InputMap.TakenOver.gained` — what an input that
  stays open keeps and gains.
* `JointSpend.Psbt.commitInput_cases` — what becomes of one input.
* `JointSpend.Psbt.atomic_signInPlace` — signing that fails leaves the copy as it was.
* `JointSpend.Psbt.asked_signInPlace` — what a signer is asked.
* `JointSpend.Psbt.sign_eq_ok_iff` — signing as a sequence of steps.
-/

namespace JointSpend

/-! ## One input -/

namespace InputMap

/-- Final scripts that a signer made are taken over, and nothing else makes an input final. -/
theorem isFinal_commitSignatures (x w : InputMap) :
    isFinal (commitSignatures x w).1 = (isFinal w || isFinal x) := by
  unfold commitSignatures
  cases hw : isFinal w with
  | true =>
    rw [if_pos rfl, isFinal_applyFinal, Bool.true_or, ← hw, isFinal]
    cases w.get? .finalScriptSig <;> cases w.get? .finalScriptWitness <;>
      simp [Script.empty, Script.isEmpty]
  | false =>
    rw [if_neg (by simp), isFinal_fill (fun _ => InputKey.isUnited_of_isSignature)]
    rfl

/-- Retained records stay as they are. -/
private theorem get?_commitSignatures (x w : InputMap) {k : InputKey} (hk : k.isRetained = true) :
    (commitSignatures x w).1.get? k = x.get? k := by
  unfold commitSignatures
  split
  · rw [get?_applyFinal (InputKey.isUnited_of_isRetained hk), if_pos hk]
  · exact RecordMap.get?_fill_of_not x w (InputKey.isSignature_eq_false hk)

/-- What a commit can make of an input, given the signer's copy of it. -/
inductive TakenOver (options : SignOptions) (index : Nat) (x w : InputMap) : InputMap → Prop where
  /-- Nothing is taken over. -/
  | skipped : TakenOver options index x w x
  /-- The origins of keys are taken over. -/
  | origins (hopen : isFinal x = false) (hscope : options.scope.contains index = true) :
      TakenOver options index x w (x.fill InputKey.isOrigin w)
  /-- Signatures, or final scripts, are taken over, too. -/
  | signatures (hopen : isFinal x = false) (hscope : options.scope.contains index = true) :
      TakenOver options index x w (commitSignatures (x.fill InputKey.isOrigin w) w).1

namespace TakenOver

variable {options : SignOptions} {index : Nat} {x w y : InputMap}

/-- Retained records stay as they are. -/
theorem retained (h : TakenOver options index x w y) {k : InputKey} (hk : k.isRetained = true) :
    y.get? k = x.get? k := by
  have horigin := RecordMap.get?_fill_of_not x w (InputKey.isOrigin_eq_false hk)
  cases h with
  | skipped => rfl
  | origins _ _ => exact horigin
  | signatures _ _ => rw [get?_commitSignatures _ w hk, horigin]

/-- A final input stays as it is. -/
theorem eq_of_isFinal (h : TakenOver options index x w y) (hx : isFinal x = true) : y = x := by
  cases h with
  | skipped => rfl
  | origins hopen _ => simp [hx] at hopen
  | signatures hopen _ => simp [hx] at hopen

/-- An input out of scope stays as it is. -/
theorem eq_of_not_contains (h : TakenOver options index x w y)
    (hscope : options.scope.contains index = false) : y = x := by
  cases h with
  | skipped => rfl
  | origins _ hin => simp [hscope] at hin
  | signatures _ hin => simp [hscope] at hin

/-- An input that stays open keeps every record. -/
theorem kept (h : TakenOver options index x w y) (hy : isFinal y = false) {k : InputKey}
    {v : k.Value} (hv : x.get? k = some v) : y.get? k = some v := by
  have hfill : ∀ (p : InputKey → Bool) (z : InputMap), z.get? k = some v →
      (z.fill p w).get? k = some v := fun p z hz => by rw [RecordMap.get?_fill, hz, Option.some_or]
  cases h with
  | skipped => exact hv
  | origins _ _ => exact hfill _ x hv
  | signatures _ _ =>
    rw [isFinal_commitSignatures, Bool.or_eq_false_iff] at hy
    rw [commitSignatures, if_neg (by simp [hy.1])]
    exact hfill _ _ (hfill _ x hv)

/-- An input that stays open gains only origins and signatures of the signer's copy. -/
theorem gained (h : TakenOver options index x w y) (hy : isFinal y = false) {k : InputKey}
    (hfree : x.get? k = none) {v : k.Value} (hv : y.get? k = some v) :
    (k.isOrigin = true ∨ k.isSignature = true) ∧ w.get? k = some v := by
  have horigin : (x.fill InputKey.isOrigin w).get? k = some v →
      k.isOrigin = true ∧ w.get? k = some v := by
    rw [RecordMap.get?_fill, hfree, Option.none_or]
    intro hv
    split at hv
    · next hk => exact ⟨hk, hv⟩
    · simp at hv
  cases h with
  | skipped => simp [hfree] at hv
  | origins _ _ => exact (horigin hv).imp Or.inl id
  | signatures _ _ =>
    rw [isFinal_commitSignatures, Bool.or_eq_false_iff] at hy
    rw [commitSignatures, if_neg (by simp [hy.1]), RecordMap.get?_fill, Option.or_eq_some_iff] at hv
    rcases hv with hv | ⟨-, hv⟩
    · exact (horigin hv).imp Or.inl id
    · split at hv
      · next hk => exact ⟨Or.inr hk, hv⟩
      · simp at hv

end TakenOver

end InputMap

namespace Psbt

variable {scheme : SignatureScheme} {options : SignOptions} {p q : Psbt}

/-- **One step of a commit**: nothing happens to inputs that are final, missing or out of scope; of
the others the origins of keys are united, and the signatures are taken over or not. -/
theorem commitInput_cases {index : Nat} {filled : InputMap}
    (h : p.commitInput scheme options index filled = .ok q) :
    q = p ∨ ∃ x, p.inputs[index]? = some x ∧ InputMap.isFinal x = false ∧
      options.scope.contains index = true ∧ RecordMap.Agree InputKey.isOrigin x filled ∧
      (q = p.setInput index (x.fill InputKey.isOrigin filled) ∨
        q = p.setInput index
          (InputMap.commitSignatures (x.fill InputKey.isOrigin filled) filled).1) := by
  unfold commitInput at h
  split at h
  · exact Or.inl (Except.ok.inj h).symm
  · next x hx =>
    split at h
    · exact Or.inl (Except.ok.inj h).symm
    · next hskip =>
      simp only [Bool.or_eq_true, Bool.not_eq_true', not_or, Bool.not_eq_true,
        Bool.not_eq_false] at hskip
      obtain ⟨known, hknown, h⟩ := Steps.bind_eq_ok_iff.mp h
      obtain ⟨hagree, rfl⟩ := InputMap.unite_eq_ok_iff.mp hknown
      refine Or.inr ⟨x, hx, hskip.1, hskip.2, hagree, ?_⟩
      have h := Except.ok.inj h
      split at h
      · exact Or.inr h.symm
      · exact Or.inl h.symm

/-- What a commit of the signer's inputs from an index on can make of a copy. -/
structure CommittedFrom (options : SignOptions) (index : Nat) (filled : List InputMap)
    (p q : Psbt) : Prop where
  transaction : q.transaction = p.transaction
  globals : q.globals = p.globals
  outputs : q.outputs = p.outputs
  length : q.inputs.length = p.inputs.length
  inputs : ∀ (i : Nat) (x y : InputMap), p.inputs[i]? = some x → q.inputs[i]? = some y →
    y = x ∨ ∃ w, index ≤ i ∧ filled[i - index]? = some w ∧
      InputMap.TakenOver options i x w y

/-! ## Signing in place -/

open InPlace

/-- Asking a signer changes no copy. -/
private theorem keeps_ask (signer : Signer) (working : Psbt) (options : SignOptions) :
    Keeps Signing.copy (Signing.ask signer working options) :=
  Keeps.bind (keeps_modify fun _ => rfl) fun _ => keeps_lift _ _

/-- **Signing that fails leaves the copy**: the staged copy takes its place in the only step that
writes it, and no step that can fail comes after that. -/
theorem atomic_signInPlace (signer : Signer) :
    Atomic Signing.copy (signInPlace scheme signer options) := by
  unfold signInPlace
  refine (keeps_get _).bind_atomic fun s => ?_
  dsimp only
  cases options.scope.firstBeyond? s.copy.inputs.length with
  | some index => exact (keeps_throw_bind _ _ _).atomic
  | none =>
    refine (keeps_ask signer s.copy options).bind_atomic fun working => ?_
    split
    · exact (keeps_throw_bind _ _ _).atomic
    · refine (keeps_lift _ _).bind_atomic fun staged => ?_
      exact ((succeeds_modify _).bind fun _ => succeeds_pure _).atomic

/-- How signing in place ends, step by step. -/
private theorem exec_signInPlace (signer : Signer) (s : Signing) :
    (signInPlace scheme signer options).exec s =
      match options.scope.firstBeyond? s.copy.inputs.length with
      | some index => (.error (.noSuchInput index s.copy.inputs.length), s)
      | none =>
        let asked := s.asked ++ [(s.copy, options)]
        match signer s.copy options with
        | .error fault => (.error fault, ⟨s.copy, asked⟩)
        | .ok working =>
          if working.transaction ≠ s.copy.transaction ∨
              working.inputs.length ≠ s.copy.inputs.length then
            (.error (.internal .transactionChanged), ⟨s.copy, asked⟩)
          else
            match commitFrom scheme options 0 working.inputs s.copy with
            | .error fault => (.error fault, ⟨s.copy, asked⟩)
            | .ok committed =>
              let q := if options.finalize then committed.finalize scheme else committed
              (.ok (q.isComplete scheme), ⟨q, asked⟩) := by
  unfold signInPlace Signing.ask
  rw [exec_bind, exec_get]
  dsimp only
  cases options.scope.firstBeyond? s.copy.inputs.length with
  | some index => rfl
  | none =>
    simp only [exec_bind, exec_modify, exec_lift]
    cases signer s.copy options with
    | error fault => rfl
    | ok working =>
      dsimp only
      split
      · rfl
      · cases commitFrom scheme options 0 working.inputs s.copy <;> rfl

/-- **A signer is asked once** if the scope is in range, and gets a copy of the copy. Otherwise it
is not asked. -/
theorem asked_signInPlace {signer : Signer} {s t : Signing} {result : Except Fault Bool}
    (h : (signInPlace scheme signer options).exec s = (result, t)) :
    t.asked = s.asked ++ if options.scope.firstBeyond? s.copy.inputs.length = none then
      [(s.copy, options)] else [] := by
  obtain rfl := congrArg Prod.snd h
  rw [exec_signInPlace]
  cases options.scope.firstBeyond? s.copy.inputs.length with
  | some index => simp
  | none =>
    rw [if_pos rfl]
    dsimp only
    cases signer s.copy options with
    | error fault => rfl
    | ok working =>
      dsimp only
      split
      · rfl
      · cases commitFrom scheme options 0 working.inputs s.copy <;> rfl

/-- Signing in place succeeds when the scope is in range, the signer succeeds without changing the
transaction or the number of inputs, and its copy can be taken over. -/
theorem exec_signInPlace_eq_ok_iff {signer : Signer} {complete : Bool} {s t : Signing} :
    (signInPlace scheme signer options).exec s = (.ok complete, t) ↔
      options.scope.firstBeyond? s.copy.inputs.length = none ∧
      ∃ working, signer s.copy options = .ok working ∧
        working.transaction = s.copy.transaction ∧
        working.inputs.length = s.copy.inputs.length ∧
        ∃ committed, commitFrom scheme options 0 working.inputs s.copy = .ok committed ∧
          t = ⟨if options.finalize then committed.finalize scheme else committed,
            s.asked ++ [(s.copy, options)]⟩ ∧ complete = t.copy.isComplete scheme := by
  rw [exec_signInPlace]
  constructor
  · intro h
    cases hscope : options.scope.firstBeyond? s.copy.inputs.length with
    | some index => simp [hscope] at h
    | none =>
      cases hworking : signer s.copy options with
      | error fault => simp [hscope, hworking] at h
      | ok working =>
        by_cases hsame : working.transaction ≠ s.copy.transaction ∨
            working.inputs.length ≠ s.copy.inputs.length
        · simp [hscope, hworking, hsame] at h
        · cases hcommit : commitFrom scheme options 0 working.inputs s.copy with
          | error fault => simp [hscope, hworking, hsame, hcommit] at h
          | ok committed =>
            simp only [hscope, hworking, hcommit, if_neg hsame] at h
            obtain ⟨hcomplete, rfl⟩ := Prod.mk.inj h
            rw [not_or, not_not, not_not] at hsame
            exact ⟨rfl, working, rfl, hsame.1, hsame.2, committed, hcommit, rfl,
              (Except.ok.inj hcomplete).symm⟩
  · rintro ⟨hscope, working, hworking, htx, hlen, committed, hcommit, rfl, rfl⟩
    simp [hscope, hworking, htx, hlen, hcommit]

/-- Signing succeeds as it does in place. -/
private theorem sign_eq_ok_iff_exec {signer : Signer} {complete : Bool} :
    p.sign scheme signer options = .ok (q, complete) ↔
      ∃ asked, (signInPlace scheme signer options).exec ⟨p, []⟩ = (.ok complete, ⟨q, asked⟩) := by
  unfold sign
  rcases (signInPlace scheme signer options).exec ⟨p, []⟩ with ⟨result, t⟩
  cases result with
  | error fault => simp
  | ok complete' =>
    constructor
    · intro h
      obtain ⟨rfl, rfl⟩ := Prod.mk.inj (Except.ok.inj h)
      exact ⟨t.asked, rfl⟩
    · rintro ⟨asked, h⟩
      obtain ⟨hcomplete, rfl⟩ := Prod.mk.inj h
      rw [Except.ok.inj hcomplete]

/-- Signing succeeds when its scope is in range, the signer succeeds without changing the
transaction or the number of inputs, and its copy can be taken over. -/
theorem sign_eq_ok_iff {signer : Signer} {complete : Bool} :
    p.sign scheme signer options = .ok (q, complete) ↔
      options.scope.firstBeyond? p.inputs.length = none ∧
      ∃ working, signer p options = .ok working ∧
        working.transaction = p.transaction ∧ working.inputs.length = p.inputs.length ∧
        ∃ committed, commitFrom scheme options 0 working.inputs p = .ok committed ∧
          q = (if options.finalize then committed.finalize scheme else committed) ∧
          complete = q.isComplete scheme := by
  simp only [sign_eq_ok_iff_exec, exec_signInPlace_eq_ok_iff, Signing.mk.injEq]
  constructor
  · rintro ⟨_, hscope, working, hworking, htx, hlen, committed, hcommit, ⟨hq, -⟩, hcomplete⟩
    exact ⟨hscope, working, hworking, htx, hlen, committed, hcommit, hq, hcomplete⟩
  · rintro ⟨hscope, working, hworking, htx, hlen, committed, hcommit, hq, hcomplete⟩
    exact ⟨_, hscope, working, hworking, htx, hlen, committed, hcommit, ⟨hq, rfl⟩, hcomplete⟩

/-- Where the scope is out of range, signing fails whoever signs. -/
theorem sign_of_firstBeyond? (scheme : SignatureScheme) (signer : Signer) {index : Nat}
    (h : options.scope.firstBeyond? p.inputs.length = some index) :
    p.sign scheme signer options = .error (.noSuchInput index p.inputs.length) := by
  rw [sign, exec_signInPlace]
  simp only [h]

/-- A signer that fails is why signing fails. -/
theorem sign_of_signer_error {signer : Signer} {fault : Fault}
    (hscope : options.scope.firstBeyond? p.inputs.length = none)
    (h : signer p options = .error fault) : p.sign scheme signer options = .error fault := by
  rw [sign, exec_signInPlace]
  simp only [hscope, h]

/-- Two signers that answer alike to what they are asked sign alike. -/
theorem sign_congr {signer other : Signer} (h : signer p options = other p options) :
    p.sign scheme signer options = p.sign scheme other options := by
  rw [sign, sign, exec_signInPlace, exec_signInPlace, h]

/-- Signing in place that succeeds, if nothing was asked before. -/
theorem exec_of_sign_eq_ok {signer : Signer} {complete : Bool}
    (h : p.sign scheme signer options = .ok (q, complete)) :
    (signInPlace scheme signer options).exec ⟨p, []⟩ = (.ok complete, ⟨q, [(p, options)]⟩) := by
  obtain ⟨asked, hexec⟩ := sign_eq_ok_iff_exec.mp h
  have hasked := asked_signInPlace hexec
  rw [if_pos (sign_eq_ok_iff.mp h).1] at hasked
  rw [hexec]
  exact congrArg (fun asked => (Except.ok complete, Signing.mk q asked)) hasked

/-- Signing in place that fails, if nothing was asked before. -/
theorem exec_of_sign_eq_error {signer : Signer} {fault : Fault}
    (h : p.sign scheme signer options = .error fault) :
    (signInPlace scheme signer options).exec ⟨p, []⟩ =
      (.error fault, ⟨p, if options.scope.firstBeyond? p.inputs.length = none then
        [(p, options)] else []⟩) := by
  unfold sign at h
  cases hexec : (signInPlace scheme signer options).exec ⟨p, []⟩ with
  | mk result t =>
    rw [hexec] at h
    cases result with
    | ok complete => simp at h
    | error fault' =>
      obtain rfl := Except.error.inj h
      have hcopy : t.copy = p := (atomic_signInPlace signer).part_eq hexec
      have hasked : t.asked = _ := asked_signInPlace hexec
      obtain ⟨copy, asked⟩ := t
      obtain rfl : copy = p := hcopy
      exact congrArg (fun asked => (Except.error fault', Signing.mk copy asked)) hasked

end Psbt

end JointSpend
