import JointSpend.Proofs.Sign.Commit
import JointSpend.Proofs.Spend.Finalizing

set_option autoImplicit false
set_option relaxedAutoImplicit false

/-!
# What a commit makes of each input

Inputs are taken over from a signer's copy one after another, and where partial signatures are not
allowed each is tried on the copy that the inputs before it have left. What comes of an input can
nevertheless be told from the copy as it was: retained records stay as they are, and on nothing else
does an input depend that is outside of it. So a commit is given exactly, all inputs at once.

## Main definitions

* `JointSpend.Psbt.takenInput` — what a commit makes of an input.
* `JointSpend.Psbt.takenFrom` — what a commit makes of a copy.
* `JointSpend.InputMap.Admits` — an input can be taken over.

## Main results

* `JointSpend.Psbt.commitInput_eq_ok_iff`, `JointSpend.Psbt.commitFrom_eq_ok_iff` — a commit
  succeeds exactly if all inputs can be taken over, and makes these of them.
* `JointSpend.Psbt.commitFrom_committed` — what can become of each input.
* `JointSpend.Psbt.sign_eq_ok_iff_taken` — having a copy signed, input by input.
-/

namespace JointSpend

/-- An input can be taken over: if it is open and to be signed, its origins of keys are those of the
signer's copy where both have one. -/
def InputMap.Admits (options : SignOptions) (index : Nat) (x w : InputMap) : Prop :=
  isFinal x = false → options.scope.contains index = true → RecordMap.Agree InputKey.isOrigin x w

namespace Psbt

/-- The inputs of a copy can be taken over from the signer's inputs from an index on. -/
def AdmitsFrom (options : SignOptions) (index : Nat) (filled : List InputMap) (p : Psbt) : Prop :=
  ∀ i x w, p.inputs[index + i]? = some x → filled[i]? = some w →
    InputMap.Admits options (index + i) x w

section Taking

variable (scheme : SignatureScheme) (options : SignOptions) (p : Psbt)

/-- **What a commit makes of an input**, given the signer's copy of it. -/
def takenInput (index : Nat) (x w : InputMap) : InputMap :=
  if InputMap.isFinal x || !options.scope.contains index then x
  else
    let known := x.fill InputKey.isOrigin w
    let signed := InputMap.commitSignatures known w
    if signed.2 && (options.allowPartial || InputMap.isFinal signed.1 ||
      ((p.setInput index signed.1).finalizeInput scheme index).toBool) then signed.1
    else known

/-- **What a commit makes of a copy**, given the signer's inputs from an index on. -/
def takenFrom (index : Nat) (filled : List InputMap) : Psbt :=
  { p with inputs := p.inputs.mapIdx fun i x =>
      if index ≤ i then (filled[i - index]?).elim x (takenInput scheme options p i x) else x }

@[simp]
theorem getElem?_inputs_takenFrom (index : Nat) (filled : List InputMap) (i : Nat) :
    (p.takenFrom scheme options index filled).inputs[i]? = (p.inputs[i]?).map fun x =>
      if index ≤ i then (filled[i - index]?).elim x (takenInput scheme options p i x) else x := by
  simp [takenFrom]

end Taking

variable {scheme : SignatureScheme} {options : SignOptions} {p q : Psbt} {index : Nat}
  {x w : InputMap}

/-! ## One input -/

/-- An input that is final or out of scope is not taken over. -/
theorem takenInput_of_skipped
    (h : InputMap.isFinal x = true ∨ options.scope.contains index = false) :
    takenInput scheme options p index x w = x := by
  unfold takenInput
  exact if_pos (by simpa using h)

/-- What becomes of an input that is taken over. -/
private theorem takenOver_takenInput (scheme : SignatureScheme) (options : SignOptions) (p : Psbt)
    (index : Nat) (x w : InputMap) :
    InputMap.TakenOver options index x w (takenInput scheme options p index x w) := by
  by_cases hskip : InputMap.isFinal x = true ∨ options.scope.contains index = false
  · rw [takenInput_of_skipped hskip]
    exact .skipped
  · rw [not_or, Bool.not_eq_true, Bool.not_eq_false] at hskip
    unfold takenInput
    rw [if_neg (by simp [hskip])]
    dsimp only
    split
    · exact .signatures hskip.1 hskip.2
    · exact .origins hskip.1 hskip.2

/-- **An input is taken over** exactly if it can be. -/
theorem commitInput_eq_ok_iff (hx : p.inputs[index]? = some x) :
    p.commitInput scheme options index w = .ok q ↔
      InputMap.Admits options index x w ∧
        q = p.setInput index (takenInput scheme options p index x w) := by
  unfold commitInput
  rw [hx]
  by_cases hskip : InputMap.isFinal x = true ∨ options.scope.contains index = false
  · have hadmits : InputMap.Admits options index x w := by
      intro hopen hscope
      simp [hopen, hscope] at hskip
    rw [takenInput_of_skipped hskip, setInput_self hx]
    dsimp only
    rw [if_pos (by simpa using hskip), Except.ok.injEq, eq_comm]
    exact (and_iff_right hadmits).symm
  · rw [not_or, Bool.not_eq_true, Bool.not_eq_false] at hskip
    have hopen : ¬ (InputMap.isFinal x || !options.scope.contains index) = true := by
      simp [hskip]
    unfold takenInput
    dsimp only
    rw [if_neg hopen, if_neg hopen]
    constructor
    · intro h
      obtain ⟨known, hknown, h⟩ := Steps.bind_eq_ok_iff.mp h
      obtain ⟨hagree, rfl⟩ := InputMap.unite_eq_ok_iff.mp hknown
      refine ⟨fun _ _ => hagree, ?_⟩
      rw [← Except.ok.inj h]
      split <;> rfl
    · rintro ⟨hagree, rfl⟩
      refine Steps.bind_eq_ok_iff.mpr ⟨_,
        InputMap.unite_eq_ok_iff.mpr ⟨hagree hskip.1 hskip.2, rfl⟩, congrArg Except.ok ?_⟩
      split <;> rfl

/-- A copy spends like the one that an input of it was taken over in. -/
theorem spendsAlike_takenInput (hx : p.inputs[index]? = some x) :
    SpendsAlike p (p.setInput index (takenInput scheme options p index x w)) :=
  .setInput_retained hx fun _ hk => (takenOver_takenInput scheme options p index x w).retained hk

/-- **What becomes of an input does not depend on the others**, as far as copies spend alike. -/
theorem SpendsAlike.takenInput_eq (h : SpendsAlike p q) (index : Nat) (x w : InputMap) :
    takenInput scheme options p index x w = takenInput scheme options q index x w := by
  have hfinal : ∀ y, (p.setInput index y).finalizeInput scheme index =
      (q.setInput index y).finalizeInput scheme index := fun y =>
    (h.setInput index y).finalizeInput_eq (by simp [Psbt.setInput, List.getElem?_set, h.length])
  simp only [takenInput, hfinal]

/-! ## All inputs -/

/-- An input that is taken over, and then those behind it. -/
private theorem takenFrom_cons {filled : List InputMap} (hx : p.inputs[index]? = some x) :
    (p.setInput index (takenInput scheme options p index x w)).takenFrom scheme options (index + 1)
      filled = p.takenFrom scheme options index (w :: filled) := by
  refine ext_inputs rfl rfl rfl fun i => ?_
  have hother : ∀ i, takenInput scheme options
      (p.setInput index (takenInput scheme options p index x w)) i =
        takenInput scheme options p i := fun i =>
    funext fun y => funext fun z => ((spendsAlike_takenInput hx).takenInput_eq i y z).symm
  simp only [getElem?_inputs_takenFrom, getElem?_inputs_setInput, hother]
  rcases Nat.lt_trichotomy i index with hi | rfl | hi
  · simp [show i ≠ index by omega, show ¬ index + 1 ≤ i by omega, show ¬ index ≤ i by omega]
  · simp [hx]
  · simp [show i ≠ index by omega, show index + 1 ≤ i by omega, show index ≤ i by omega,
      show i - index = i - (index + 1) + 1 by omega]

/-- Beyond the inputs that there are, nothing is taken over. -/
private theorem takenFrom_of_length_le {filled : List InputMap} (h : p.inputs.length ≤ index) :
    p.takenFrom scheme options index filled = p := by
  refine ext_inputs rfl rfl rfl fun i => ?_
  rw [getElem?_inputs_takenFrom]
  cases hx : p.inputs[i]? with
  | none => rfl
  | some x =>
    have hi := (List.getElem?_eq_some_iff.mp hx).1
    rw [Option.map_some, if_neg (by omega)]

/-- The first input of those that can be taken over, and those behind it. -/
private theorem admitsFrom_cons {filled : List InputMap} (hx : p.inputs[index]? = some x)
    (y : InputMap) :
    AdmitsFrom options index (w :: filled) p ↔
      InputMap.Admits options index x w ∧
        AdmitsFrom options (index + 1) filled (p.setInput index y) := by
  have hbehind : ∀ i, (p.setInput index y).inputs[index + 1 + i]? =
      p.inputs[index + (i + 1)]? := fun i => by
    rw [getElem?_inputs_setInput, if_neg (by omega), Nat.add_right_comm, Nat.add_assoc]
  unfold AdmitsFrom
  rw [← Nat.and_forall_add_one]
  refine and_congr ?_ (forall_congr' fun i => ?_)
  · simp [hx]
  · rw [hbehind, List.getElem?_cons_succ, Nat.add_right_comm, Nat.add_assoc]

/-- **All inputs are taken over** exactly if each of them can be, and each as if it were alone.

**Proof sketch.** Induction on the signer's inputs. Once the first of them has been taken over, the
copy spends as before, so what becomes of the others is the same. -/
theorem commitFrom_eq_ok_iff {filled : List InputMap} :
    commitFrom scheme options index filled p = .ok q ↔
      AdmitsFrom options index filled p ∧ q = p.takenFrom scheme options index filled := by
  induction filled generalizing index p with
  | nil =>
    have hsame : p.takenFrom scheme options index [] = p :=
      ext_inputs rfl rfl rfl fun i => by simp
    simp [commitFrom, AdmitsFrom, hsame, eq_comm]
  | cons w ws ih =>
    rw [commitFrom, Steps.bind_eq_ok_iff]
    cases hx : p.inputs[index]? with
    | none =>
      have hlen : p.inputs.length ≤ index := List.getElem?_eq_none_iff.mp hx
      have hbeyond : ∀ {start : Nat} {filled : List InputMap}, index ≤ start →
          AdmitsFrom options start filled p := by
        intro start filled hstart i x' w' hx'
        rw [List.getElem?_eq_none (by omega)] at hx'
        simp at hx'
      have hstep : p.commitInput scheme options index w = .ok p := by
        unfold commitInput
        rw [hx]
      simp only [hstep, Except.ok.injEq, exists_eq_left', ih,
        takenFrom_of_length_le (Nat.le_succ_of_le hlen), takenFrom_of_length_le hlen,
        hbeyond (Nat.le_refl _), hbeyond (Nat.le_succ _)]
    | some x =>
      simp only [commitInput_eq_ok_iff hx, ih, admitsFrom_cons hx
        (takenInput scheme options p index x w), ← takenFrom_cons hx]
      constructor
      · rintro ⟨_, ⟨hadmits, rfl⟩, hrest, rfl⟩
        exact ⟨⟨hadmits, hrest⟩, rfl⟩
      · rintro ⟨⟨hadmits, hrest⟩, rfl⟩
        exact ⟨_, ⟨hadmits, rfl⟩, hrest, rfl⟩

/-- A copy spends like what a commit makes of it. -/
theorem spendsAlike_takenFrom (scheme : SignatureScheme) (options : SignOptions) (p : Psbt)
    (index : Nat) (filled : List InputMap) :
    SpendsAlike p (p.takenFrom scheme options index filled) := by
  refine .of_retained rfl (by simp [takenFrom]) (pointwise_mapIdx fun i x hx k hk => ?_)
  split
  · cases filled[i - index]? with
    | none => rfl
    | some w => exact (takenOver_takenInput scheme options p i x w).retained hk
  · rfl

/-- What becomes of an input is what a commit can make of it. -/
theorem takenOver_takenFrom {filled : List InputMap} {i : Nat} {y : InputMap}
    (hx : p.inputs[i]? = some x)
    (hy : (p.takenFrom scheme options index filled).inputs[i]? = some y) :
    y = x ∨ ∃ w, index ≤ i ∧ filled[i - index]? = some w ∧ InputMap.TakenOver options i x w y := by
  rw [getElem?_inputs_takenFrom, hx, Option.map_some, Option.some.injEq] at hy
  subst hy
  split
  · next hi =>
    cases hw : filled[i - index]? with
    | none => exact .inl rfl
    | some w => exact .inr ⟨w, hi, rfl, takenOver_takenInput scheme options p i x w⟩
  · exact .inl rfl

/-- What a commit can make of a copy, said of each input. -/
theorem commitFrom_committed {filled : List InputMap}
    (h : commitFrom scheme options index filled p = .ok q) :
    CommittedFrom options index filled p q := by
  obtain ⟨-, rfl⟩ := commitFrom_eq_ok_iff.mp h
  exact ⟨rfl, rfl, rfl, by simp [takenFrom], fun _ _ _ => takenOver_takenFrom⟩

/-- **Having a copy signed, input by input**: it succeeds when the scope is in range, the signer
succeeds without changing the transaction or the number of inputs, and all inputs can be taken over.
-/
theorem sign_eq_ok_iff_taken {signer : Signer} {complete : Bool} :
    p.sign scheme signer options = .ok (q, complete) ↔
      options.scope.firstBeyond? p.inputs.length = none ∧
      ∃ working, signer p options = .ok working ∧
        working.transaction = p.transaction ∧ working.inputs.length = p.inputs.length ∧
        AdmitsFrom options 0 working.inputs p ∧
        q = (if options.finalize then (p.takenFrom scheme options 0 working.inputs).finalize scheme
          else p.takenFrom scheme options 0 working.inputs) ∧
        complete = q.isComplete scheme := by
  rw [sign_eq_ok_iff]
  simp only [commitFrom_eq_ok_iff, and_assoc, exists_and_left, exists_eq_left]

end Psbt

end JointSpend
