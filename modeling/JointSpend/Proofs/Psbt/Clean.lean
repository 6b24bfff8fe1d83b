import JointSpend.Proofs.Funding.Creation
import JointSpend.Proofs.Sign.Commit
import JointSpend.Psbt.Update

set_option autoImplicit false
set_option relaxedAutoImplicit false

/-!
# Clean copies

A copy is clean when no input holds leftovers: final inputs hold nothing that is dropped on becoming
final, and open inputs hold no final scripts, not even empty ones. Reading a binary form can give
copies that are not clean, but every copy that was made from an unsigned transaction by creating,
updating, signing, merging and finalizing is clean, whoever signs.

## Main definitions

* `JointSpend.InputMap.Clean`, `JointSpend.Psbt.Clean` — no leftovers.
* `JointSpend.Psbt.Tidy` — shaped and clean.
* `JointSpend.Psbt.Made` — made from an unsigned transaction by the operations on copies.

## Main results

* `JointSpend.Psbt.Made.tidy` — such copies are shaped and clean.
-/

namespace JointSpend

namespace InputMap

/-- An input without leftovers. -/
structure Clean (x : InputMap) : Prop where
  /-- A final input holds nothing that is dropped on becoming final. -/
  dropped : isFinal x = true → ∀ k, InputKey.isDropped k = true → x.get? k = none
  /-- An open input holds no final scripts. -/
  unfinished : isFinal x = false → ∀ k, InputKey.isUnited k = false → x.get? k = none

/-- An input without final scripts is open and clean. -/
theorem Clean.of_no_scripts {x : InputMap}
    (h : ∀ k, InputKey.isUnited k = false → x.get? k = none) :
    Clean x := by
  have hopen : isFinal x = false := by
    rw [isFinal, h .finalScriptSig rfl, h .finalScriptWitness rfl]
    rfl
  exact ⟨fun hfinal => by simp [hopen] at hfinal, fun _ => h⟩

/-- An open clean input stays clean when its final scripts are not touched. -/
theorem Clean.of_same_scripts {x y : InputMap} (hx : Clean x) (hopen : isFinal x = false)
    (h : ∀ k, InputKey.isUnited k = false → y.get? k = x.get? k) : Clean y :=
  .of_no_scripts fun k hk => by rw [h k hk, hx.unfinished hopen k hk]

/-- Filling an open clean input at united keys keeps it clean. -/
theorem Clean.fill {x : InputMap} (hx : Clean x) (hopen : isFinal x = false)
    {p : InputKey → Bool} (hp : ∀ k, p k = true → k.isUnited = true) (y : InputMap) :
    Clean (x.fill p y) := by
  refine hx.of_same_scripts hopen fun k hk => RecordMap.get?_fill_of_not x y ?_
  by_contra h
  simp [hp k (by simpa using h)] at hk

/-- Filling a clean input at retained keys keeps it clean, final or not. -/
theorem Clean.fill_retained {x : InputMap} (hx : Clean x) (y : InputMap) :
    Clean (x.fill InputKey.isRetained y) := by
  cases hfinal : isFinal x with
  | false => exact hx.fill hfinal (fun _ => InputKey.isUnited_of_isRetained) y
  | true =>
    have hfill := isFinal_fill (fun _ => InputKey.isUnited_of_isRetained) x y
    rw [hfinal] at hfill
    refine ⟨fun _ k hk => ?_, fun hopen => by simp [hfill] at hopen⟩
    have hr : k.isRetained = false := by
      simp only [InputKey.isDropped, Bool.and_eq_true, Bool.not_eq_true'] at hk
      exact hk.2
    rw [RecordMap.get?_fill_of_not x y hr, hx.dropped hfinal k hk]

/-- Making an input final leaves a clean one, also if both scripts are empty. -/
private theorem clean_applyFinal (x : InputMap) (s : FinalScripts) : Clean (applyFinal x s) := by
  constructor
  · intro _ k hk
    simp only [InputKey.isDropped, Bool.and_eq_true, Bool.not_eq_true'] at hk
    rw [get?_applyFinal hk.1, hk.2]
    rfl
  · intro hopen
    rw [isFinal_applyFinal] at hopen
    simp only [Bool.or_eq_false_iff, Bool.not_eq_false'] at hopen
    intro k hk
    cases k <;> simp only [InputKey.isUnited, Bool.true_eq_false] at hk
    case finalScriptSig => rw [get?_applyFinal_scriptSig, hopen.1, if_pos rfl]
    case finalScriptWitness => rw [get?_applyFinal_witness, hopen.2, if_pos rfl]

/-- Joining clean copies of an input gives a clean one. -/
theorem Clean.joined {x y : InputMap} (hx : Clean x) (hy : Clean y) : Clean (joined x y) := by
  unfold InputMap.joined
  cases hfx : isFinal x with
  | true => exact hx.fill_retained y
  | false =>
    cases isFinal y with
    | true => exact hy.fill_retained x
    | false => exact hx.fill hfx (fun _ hk => hk) y

end InputMap

namespace Psbt

/-- A copy all of whose inputs are clean. -/
def Clean (p : Psbt) : Prop :=
  ∀ x ∈ p.inputs, x.Clean

/-- Replacing an input by a clean one keeps a copy clean. -/
theorem Clean.setInput {p : Psbt} (hp : p.Clean) (index : Nat) {x : InputMap} (hx : x.Clean) :
    (p.setInput index x).Clean := by
  intro y hy
  rcases List.mem_or_eq_of_mem_set hy with hy | rfl
  · exact hp y hy
  · exact hx

/-- Replacing an input keeps a copy shaped. -/
theorem Shaped.setInput {p : Psbt} (hp : p.Shaped) (index : Nat) (x : InputMap) :
    (p.setInput index x).Shaped :=
  ⟨by simp [Psbt.setInput, hp.length_inputs], hp.length_outputs⟩

/-- Lists joined position by position consist of what was joined. -/
theorem exists_of_mem_zipWith {α : Type} {f : α → α → α} {as bs : List α} {c : α}
    (h : c ∈ List.zipWith f as bs) : ∃ a ∈ as, ∃ b ∈ bs, c = f a b := by
  rw [← List.map_uncurry_zip_eq_zipWith] at h
  obtain ⟨⟨a, b⟩, hab, rfl⟩ := List.mem_map.mp h
  exact ⟨a, (List.of_mem_zip hab).1, b, (List.of_mem_zip hab).2, rfl⟩

/-- Joining clean copies gives a clean one. -/
theorem Clean.joined {p q : Psbt} (hp : p.Clean) (hq : q.Clean) : (joined p q).Clean := by
  intro z hz
  obtain ⟨x, hx, y, hy, rfl⟩ := exists_of_mem_zipWith hz
  exact (hp x hx).joined (hq y hy)

/-- Joining shaped copies of one transaction gives a shaped one. -/
theorem Shaped.joined {p q : Psbt} (hp : p.Shaped) (hq : q.Shaped)
    (h : p.transaction = q.transaction) : (joined p q).Shaped := by
  constructor
  · simp [Psbt.joined, hp.length_inputs, hq.length_inputs, h]
  · simp [Psbt.joined, hp.length_outputs, hq.length_outputs, h]

/-! ## Operations -/

/-- A record is set in an open input. -/
theorem record_eq_ok {p q : Psbt} {index : Nat} {k : InputKey} {v : k.Value}
    (h : p.record index k v = .ok q) : ∃ x, p.inputs[index]? = some x ∧
      InputMap.isFinal x = false ∧ q = p.setInput index (x.insert k v) := by
  unfold record at h
  split at h
  · simp at h
  · next x hx =>
    split at h
    · simp at h
    · next hopen => exact ⟨x, hx, by simpa using hopen, (Except.ok.inj h).symm⟩

/-- A transaction that passes the checks is recorded. -/
theorem record_of_setNonWitnessUtxo {p q : Psbt} {index : Nat} {tx : Transaction}
    (h : p.setNonWitnessUtxo index tx = .ok q) : p.record index .nonWitnessUtxo tx = .ok q := by
  unfold setNonWitnessUtxo at h
  split at h
  · simp at h
  · dsimp only at h
    split at h
    · simp at h
    · split at h
      · simp at h
      · exact h

/-- Shaped copies without leftovers. -/
def Tidy (p : Psbt) : Prop :=
  p.Shaped ∧ p.Clean

namespace Tidy

variable {p q : Psbt}

theorem setInput (hp : p.Tidy) (index : Nat) {x : InputMap} (hx : x.Clean) :
    (p.setInput index x).Tidy :=
  ⟨hp.1.setInput index x, hp.2.setInput index hx⟩

/-- Creating a copy. -/
theorem create {tx : Transaction} (h : Psbt.create tx = .ok p) : p.Tidy := by
  simp only [Psbt.create, ofTransaction?] at h
  split at h
  · next p' hp' =>
    split at hp'
    · obtain rfl := Except.ok.inj h
      obtain rfl := Option.some.inj hp'
      refine ⟨⟨by simp, by simp⟩, fun x hx => ?_⟩
      obtain rfl : x = ∅ := by simp at hx; exact hx.2
      exact .of_no_scripts fun _ _ => rfl
    · simp at hp'
  · simp at h

/-- Carrying out a plan. -/
theorem createPlan {plan : SpendPlan} {network : Network} (h : plan.create network = .ok p) :
    p.Tidy := by
  obtain ⟨b, -, rfl⟩ := SpendPlan.create_eq_ok_iff.mp h
  refine ⟨⟨by simp [SpendPlan.assembled, SpendPlan.unsigned, SpendPlan.transaction],
    by simp [SpendPlan.assembled, SpendPlan.unsigned, SpendPlan.transaction]⟩, fun x hx => ?_⟩
  obtain ⟨coin, -, rfl⟩ := List.mem_map.mp hx
  refine .of_no_scripts fun k hk => coin.get?_records_eq_none ?_ ?_ ?_ ?_
  · exact InputKey.ne_of_isUnited rfl hk
  · exact InputKey.ne_of_isUnited rfl hk
  · exact InputKey.ne_of_isUnited rfl hk
  · exact InputKey.ne_of_isUnited rfl hk

/-- Recording anything but a final script. -/
theorem record (hp : p.Tidy) {index : Nat} {k : InputKey} {v : k.Value}
    (hk : k.isUnited = true) (h : p.record index k v = .ok q) : q.Tidy := by
  obtain ⟨x, hx, hopen, rfl⟩ := record_eq_ok h
  refine hp.setInput index ((hp.2 x (List.mem_of_getElem? hx)).of_same_scripts hopen
    fun k' hk' => ?_)
  exact RecordMap.get?_insert_of_ne x (InputKey.ne_of_isUnited hk hk').symm v

/-- Merging with a tidy copy. -/
theorem merge (hp : p.Tidy) {r : Psbt} (hq : q.Tidy) (h : Psbt.merge p q = .ok r) : r.Tidy := by
  obtain ⟨hc, rfl⟩ := (merge_eq_ok_iff hp.1 hq.1).mp h
  exact ⟨hp.1.joined hq.1 hc.transaction, hp.2.joined hq.2⟩

variable (scheme : SignatureScheme)

/-- Making one input final. -/
theorem finalizeStep (hp : p.Tidy) (index : Nat) : (p.finalizeStep scheme index).Tidy := by
  unfold Psbt.finalizeStep
  split
  · exact hp
  · split
    · exact hp
    · split
      · exact hp.setInput index (InputMap.clean_applyFinal _ _)
      · exact hp

/-- Making all inputs final that can be. -/
theorem finalize (hp : p.Tidy) : (p.finalize scheme).Tidy := by
  unfold Psbt.finalize
  generalize List.range p.inputs.length = indexes
  induction indexes generalizing p with
  | nil => exact hp
  | cons index indexes ih => exact ih (hp.finalizeStep scheme index)

/-- Taking over what a signer added to an input. -/
theorem commitInput (hp : p.Tidy) {options : SignOptions} {index : Nat} {filled : InputMap}
    (h : p.commitInput scheme options index filled = .ok q) : q.Tidy := by
  rcases commitInput_cases h with rfl | ⟨x, hx, hopen, -, -, hq⟩
  · exact hp
  · have hx' : InputMap.Clean x := hp.2 x (List.mem_of_getElem? hx)
    have hknown : InputMap.Clean (x.fill InputKey.isOrigin filled) :=
      hx'.fill hopen (fun _ => InputKey.isUnited_of_isOrigin) filled
    have hopen' : InputMap.isFinal (x.fill InputKey.isOrigin filled) = false := by
      rw [InputMap.isFinal_fill (fun _ => InputKey.isUnited_of_isOrigin), hopen]
    rcases hq with rfl | rfl
    · exact hp.setInput index hknown
    · apply hp.setInput index
      unfold InputMap.commitSignatures
      split
      · exact InputMap.clean_applyFinal _ _
      · exact hknown.fill hopen' (fun _ => InputKey.isUnited_of_isSignature) filled

/-- Taking over what a signer added. -/
theorem commitFrom (hp : p.Tidy) {options : SignOptions} {filled : List InputMap} {index : Nat}
    (h : Psbt.commitFrom scheme options index filled p = .ok q) : q.Tidy := by
  induction filled generalizing index p with
  | nil =>
    obtain rfl := Except.ok.inj h
    exact hp
  | cons x xs ih =>
    obtain ⟨p', hstep, hrest⟩ := Steps.bind_eq_ok_iff.mp h
    exact ih (hp.commitInput scheme hstep) hrest

/-- Having a copy signed, by any signer. -/
theorem sign (hp : p.Tidy) {signer : Signer} {options : SignOptions} {complete : Bool}
    (h : p.sign scheme signer options = .ok (q, complete)) : q.Tidy := by
  obtain ⟨-, working, -, -, -, committed, hcommit, rfl, -⟩ := sign_eq_ok_iff.mp h
  have hcommitted := hp.commitFrom scheme hcommit
  split
  · exact hcommitted.finalize scheme
  · exact hcommitted

end Tidy

/-! ## Copies made by the operations -/

/-- **Made copies.** The copies of unsigned transactions, and what becomes of them by recording what
is known, merging, signing and finalizing. A signer is any function, trusted or not. -/
inductive Made (scheme : SignatureScheme) : Psbt → Prop where
  /-- The copy for an unsigned transaction. -/
  | create {tx : Transaction} {p : Psbt} (h : Psbt.create tx = .ok p) : Made scheme p
  /-- The copy that a plan describes. -/
  | createPlan {plan : SpendPlan} {network : Network} {p : Psbt} (h : plan.create network = .ok p) :
      Made scheme p
  /-- A copy with a record set that is not a final script. -/
  | record {p q : Psbt} (hp : Made scheme p) {index : Nat} {k : InputKey} {v : k.Value}
      (hk : k.isUnited = true) (h : p.record index k v = .ok q) : Made scheme q
  /-- A union of two copies. -/
  | merge {p q r : Psbt} (hp : Made scheme p) (hq : Made scheme q) (h : Psbt.merge p q = .ok r) :
      Made scheme r
  /-- A copy that was signed. -/
  | sign {p q : Psbt} (hp : Made scheme p) {signer : Signer} {options : SignOptions}
      {complete : Bool} (h : p.sign scheme signer options = .ok (q, complete)) : Made scheme q
  /-- A copy whose inputs were made final as far as possible. -/
  | finalize {p : Psbt} (hp : Made scheme p) : Made scheme (p.finalize scheme)

namespace Made

variable {scheme : SignatureScheme} {p q : Psbt}

/-- The records of an input that are set one at a time keep a copy made. -/
theorem setWitnessUtxo (hp : Made scheme p) {index : Nat} {output : TxOutput}
    (h : p.setWitnessUtxo index output = .ok q) : Made scheme q :=
  hp.record rfl h

theorem setNonWitnessUtxo (hp : Made scheme p) {index : Nat} {tx : Transaction}
    (h : p.setNonWitnessUtxo index tx = .ok q) : Made scheme q :=
  hp.record rfl (record_of_setNonWitnessUtxo h)

theorem setRedeemScript (hp : Made scheme p) {index : Nat} {script : Script}
    (h : p.setRedeemScript index script = .ok q) : Made scheme q :=
  hp.record rfl h

theorem setWitnessScript (hp : Made scheme p) {index : Nat} {script : Script}
    (h : p.setWitnessScript index script = .ok q) : Made scheme q :=
  hp.record rfl h

theorem addDerivation (hp : Made scheme p) {index : Nat} {key : Curve.Point} {source : KeySource}
    (h : p.addDerivation index key source = .ok q) : Made scheme q :=
  hp.record rfl h

/-- Uniting a list of made copies gives a made one. -/
theorem mergeAll {ps : List Psbt} (hps : ∀ p ∈ ps, Made scheme p) (h : Psbt.mergeAll ps = .ok q) :
    Made scheme q := by
  cases ps with
  | nil => simp [Psbt.mergeAll] at h
  | cons p ps =>
    rw [Psbt.mergeAll] at h
    have hp : Made scheme p := hps p (List.mem_cons_self ..)
    have hrest : ∀ r ∈ ps, Made scheme r := fun r hr => hps r (List.mem_cons_of_mem _ hr)
    clear hps
    induction ps generalizing p with
    | nil =>
      obtain rfl := Except.ok.inj h
      exact hp
    | cons r ps ih =>
      rw [List.foldlM_cons] at h
      obtain ⟨p', hmerge, h⟩ := Steps.bind_eq_ok_iff.mp h
      exact ih p' h (hp.merge (hrest r (List.mem_cons_self ..)) hmerge)
        fun s hs => hrest s (List.mem_cons_of_mem _ hs)

/-- Made copies are shaped and have no leftovers. -/
theorem tidy (hp : Made scheme p) : p.Tidy := by
  induction hp with
  | create h => exact .create h
  | createPlan h => exact .createPlan h
  | record _ hk h ih => exact ih.record hk h
  | merge _ _ h ihp ihq => exact ihp.merge ihq h
  | sign _ h ih => exact ih.sign scheme h
  | finalize _ ih => exact ih.finalize scheme

end Made

end Psbt

end JointSpend
