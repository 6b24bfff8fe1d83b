import JointSpend.Proofs.Sign.Containment
import JointSpend.Proofs.Sign.Taking
import JointSpend.Proofs.Spend.Completeness
import JointSpend.Proofs.Spend.Readiness

set_option autoImplicit false
set_option relaxedAutoImplicit false

/-!
# Signing without partial signatures

Where partial signatures are not allowed, signatures that do not suffice are left out again. What is
then signed is what would be signed otherwise, filtered input by input: an input is kept as it is
with all its signatures if they suffice, and otherwise as it was, with the origins of keys that the
signer added. No input depends on another in this, and nothing else is lost.

## Main definitions

* `JointSpend.Psbt.KeptWhole` — an input is kept with all its signatures.
* `JointSpend.Psbt.Filtered` — a copy is what another one becomes without partial signatures.

## Main results

* `JointSpend.Psbt.takenInput_strict` — the filter for an input.
* `JointSpend.Psbt.isComplete_takenFrom` — filtering changes nothing about completeness.
* `JointSpend.Psbt.sign_strict` — signing without partial signatures is filtered signing.
-/

namespace JointSpend

namespace SignOptions

/-- The options where signatures that do not suffice are kept, or are not. -/
def partially (options : SignOptions) (allowed : Bool) : SignOptions :=
  { options with allowPartial := allowed }

end SignOptions

/-- An input has no signature and no final script that another one does not have, and the same where
that one has some. -/
def InputMap.NothingSigned (x y : InputMap) : Prop :=
  ∀ k, (InputKey.isSignature k = true ∨ InputKey.isUnited k = false) → y.get? k = x.get? k

namespace Psbt

variable {scheme : SignatureScheme} {options : SignOptions} {p q s : Psbt} {index : Nat}
  {x y z w : InputMap}

variable (scheme q index x y) in
/-- **An input is kept with all its signatures**: it is final or can be made so, or nothing was
signed. -/
def KeptWhole : Prop :=
  InputMap.isFinal y = true ∨ (∃ scripts, q.finalizeInput scheme index = .ok scripts) ∨
    InputMap.NothingSigned x y

/-- Of an open input that was taken over without partial signatures, a new signature is found in the
copy of it that has them. -/
private theorem not_nothingSigned (hadded : (InputMap.commitSignatures x w).2 = true)
    (hopen : InputMap.isFinal (InputMap.commitSignatures x w).1 = false) :
    ¬ InputMap.NothingSigned x (InputMap.commitSignatures x w).1 := by
  rw [InputMap.isFinal_commitSignatures, Bool.or_eq_false_iff] at hopen
  unfold InputMap.commitSignatures at hadded ⊢
  rw [if_neg (by simp [hopen.1])] at hadded ⊢
  intro hnone
  have hcount : InputMap.countNewSignatures x w ≠ 0 := by simpa using hadded
  obtain ⟨⟨k, v⟩, hmem, hfree⟩ := List.countP_pos_iff.mp (Nat.pos_of_ne_zero hcount)
  rw [RecordMap.mem_entries_iff, RecordMap.get?_filter] at hmem
  split at hmem
  · next hk =>
    have hx : x.get? k = none := by simpa [RecordMap.contains_eq_isSome] using hfree
    have hsame := hnone k (.inl hk)
    rw [RecordMap.get?_fill, if_pos hk, hx, hmem] at hsame
    simp at hsame
  · simp at hmem

/-- Origins of keys are neither signatures nor final scripts. -/
private theorem nothingSigned_fill_origins :
    InputMap.NothingSigned x (x.fill InputKey.isOrigin w) := by
  intro k hk
  refine RecordMap.get?_fill_of_not x w ?_
  cases k <;> simp [InputKey.isSignature, InputKey.isUnited, InputKey.isOrigin] at hk ⊢

/-- Origins of keys that were taken over are those of the input that they were taken over in, with
signatures or without. -/
private theorem fill_origins_taken (hopen : InputMap.isFinal
      (InputMap.commitSignatures (x.fill InputKey.isOrigin w) w).1 = false) :
    x.fill InputKey.isOrigin (InputMap.commitSignatures (x.fill InputKey.isOrigin w) w).1 =
      x.fill InputKey.isOrigin w := by
  rw [InputMap.isFinal_commitSignatures, Bool.or_eq_false_iff] at hopen
  rw [InputMap.commitSignatures, if_neg (by simp [hopen.1])]
  refine RecordMap.ext_get? fun k => ?_
  simp only [RecordMap.get?_fill]
  cases horigin : InputKey.isOrigin k with
  | false => simp
  | true =>
    have hsig : InputKey.isSignature k = false := by
      cases k <;> simp [InputKey.isSignature, InputKey.isOrigin] at horigin ⊢
    cases x.get? k <;> cases w.get? k <;> simp [hsig]

/-- **The filter for an input**: what a commit makes of it without partial signatures is what it
makes of it with them, if that is kept, and otherwise the input with its new origins of keys. -/
theorem takenInput_strict (hy : takenInput scheme (options.partially true) p index x w = y)
    (hq : q.finalizeInput scheme index = (p.setInput index y).finalizeInput scheme index) :
    (KeptWhole scheme q index x y →
      takenInput scheme (options.partially false) p index x w = y) ∧
    (¬ KeptWhole scheme q index x y →
      takenInput scheme (options.partially false) p index x w = x.fill InputKey.isOrigin y) := by
  unfold KeptWhole
  rw [hq]
  by_cases hskip : InputMap.isFinal x = true ∨ options.scope.contains index = false
  · have hsame : ∀ allowed, takenInput scheme (options.partially allowed) p index x w = x :=
      fun allowed => takenInput_of_skipped hskip
    rw [hsame] at hy ⊢
    subst hy
    exact ⟨fun _ => rfl, fun h => absurd (.inr (.inr fun _ _ => rfl)) h⟩
  · rw [not_or, Bool.not_eq_true, Bool.not_eq_false] at hskip
    have hguard : ¬ (InputMap.isFinal x || !options.scope.contains index) = true := by
      simp [hskip]
    unfold takenInput at hy ⊢
    rw [SignOptions.partially, if_neg hguard] at hy ⊢
    cases hadded : (InputMap.commitSignatures (x.fill InputKey.isOrigin w) w).2 with
    | false =>
      -- there is nothing new, and both make the same of the input
      have hknown : x.fill InputKey.isOrigin w = y := by simpa [hadded] using hy
      subst hknown
      simp only [hadded, Bool.false_and, Bool.false_eq_true, if_false]
      exact ⟨fun _ => trivial, fun h => absurd (.inr (.inr nothingSigned_fill_origins)) h⟩
    | true =>
      have hsigned : (InputMap.commitSignatures (x.fill InputKey.isOrigin w) w).1 = y := by
        simpa [hadded] using hy
      simp only [hadded, hsigned, Bool.true_and, Bool.false_or]
      cases hfinal : InputMap.isFinal y with
      | true => simp
      | false =>
        have hnew : ¬ InputMap.NothingSigned x y := by
          intro hnone
          refine not_nothingSigned hadded (by rw [hsigned, hfinal]) fun k hk => ?_
          rw [hsigned, hnone k hk, nothingSigned_fill_origins k hk]
        have horigins := fill_origins_taken (x := x) (w := w) (by rw [hsigned, hfinal])
        rw [hsigned] at horigins
        cases hinput : (p.setInput index y).finalizeInput scheme index with
        | ok scripts => simp [Except.toBool]
        | error missing => simp [Except.toBool, hnew, horigins]

/-! ## Filtered copies -/

variable (scheme p q s) in
/-- **A copy is filtered**: input by input it is what another one has, if that is kept, and
otherwise what a first one had, with the origins of keys of the other one. -/
structure Filtered : Prop where
  transaction : s.transaction = q.transaction
  globals : s.globals = q.globals
  outputs : s.outputs = q.outputs
  length : s.inputs.length = q.inputs.length
  kept : ∀ (i : Nat) (x y : InputMap), p.inputs[i]? = some x → q.inputs[i]? = some y →
    KeptWhole scheme q i x y → s.inputs[i]? = some y
  restored : ∀ (i : Nat) (x y : InputMap), p.inputs[i]? = some x → q.inputs[i]? = some y →
    ¬ KeptWhole scheme q i x y → s.inputs[i]? = some (x.fill InputKey.isOrigin y)

/-- What a commit makes of an input, or the input where the signer's copy has none. -/
private theorem getElem?_inputs_taken {filled : List InputMap} (hx : p.inputs[index]? = some x) :
    (p.takenFrom scheme options 0 filled).inputs[index]? =
      some ((filled[index]?).elim x (takenInput scheme options p index x)) := by
  simp [hx]

/-- **A commit without partial signatures is a filtered commit.** -/
theorem filtered_takenFrom (scheme : SignatureScheme) (options : SignOptions) (p : Psbt)
    (filled : List InputMap) :
    Filtered scheme p (p.takenFrom scheme (options.partially true) 0 filled)
      (p.takenFrom scheme (options.partially false) 0 filled) := by
  have hinput : ∀ (i : Nat) (x y : InputMap), p.inputs[i]? = some x →
      (p.takenFrom scheme (options.partially true) 0 filled).inputs[i]? = some y →
        (KeptWhole scheme (p.takenFrom scheme (options.partially true) 0 filled) i x y →
          (p.takenFrom scheme (options.partially false) 0 filled).inputs[i]? = some y) ∧
        (¬ KeptWhole scheme (p.takenFrom scheme (options.partially true) 0 filled) i x y →
          (p.takenFrom scheme (options.partially false) 0 filled).inputs[i]? =
            some (x.fill InputKey.isOrigin y)) := by
    intro i x y hx hy
    have hmade := hy
    rw [getElem?_inputs_taken hx, Option.some.injEq] at hmade
    rw [getElem?_inputs_taken hx, Option.some.injEq, Option.some.injEq]
    cases hw : filled[i]? with
    | none =>
      rw [hw] at hmade
      obtain rfl : x = y := hmade
      exact ⟨fun _ => rfl, fun h => absurd (.inr (.inr fun _ _ => rfl)) h⟩
    | some w =>
      rw [hw] at hmade
      refine takenInput_strict hmade ?_
      have halike : SpendsAlike p
          (p.setInput i (takenInput scheme (options.partially true) p i x w)) :=
        spendsAlike_takenInput hx
      rw [show takenInput scheme (options.partially true) p i x w = y from hmade] at halike
      refine ((spendsAlike_takenFrom scheme _ p 0 filled).symm.trans halike).finalizeInput_eq ?_
      rw [hy, getElem?_inputs_setInput, if_pos rfl, hx]
      rfl
  exact ⟨rfl, rfl, rfl, by simp [takenFrom], fun i x y hx hy => (hinput i x y hx hy).1,
    fun i x y hx hy => (hinput i x y hx hy).2⟩

/-- An input that is not kept lacks something with all its signatures. -/
private theorem inputComplete_of_not_keptWhole (hy : q.inputs[index]? = some y)
    (h : ¬ KeptWhole scheme q index x y) : q.inputComplete scheme index = false := by
  simp only [KeptWhole, not_or, Bool.not_eq_true] at h
  rw [inputComplete, hy, Option.any_some, h.1, Bool.false_or, ← Bool.not_eq_true,
    Steps.toBool_eq_true_iff]
  exact h.2.1

/-- **An input that is restored lacks something**: all that it has, it has with its signatures,
too. -/
theorem inputComplete_of_restored (halike : SpendsAlike s q)
    (hover : InputMap.TakenOver options index x w y) (hy : q.inputs[index]? = some y)
    (hz : s.inputs[index]? = some (x.fill InputKey.isOrigin y))
    (h : ¬ KeptWhole scheme q index x y) : s.inputComplete scheme index = false := by
  simp only [KeptWhole, not_or, Bool.not_eq_true] at h
  have hopen : InputMap.isFinal x = false := by
    by_contra hfinal
    rw [Bool.not_eq_false] at hfinal
    rw [hover.eq_of_isFinal hfinal, hfinal] at h
    exact absurd h.1 (by simp)
  have hkept : ∀ k v, (x.fill InputKey.isOrigin y).get? k = some v → y.get? k = some v := by
    intro k v hv
    rw [RecordMap.get?_fill, Option.or_eq_some_iff] at hv
    rcases hv with hv | ⟨-, hv⟩
    · exact hover.kept h.1 hv
    · split at hv
      · exact hv
      · simp at hv
  rw [inputComplete, hz, Option.any_some,
    InputMap.isFinal_fill fun _ => InputKey.isUnited_of_isOrigin, hopen, Bool.false_or,
    ← Bool.not_eq_true, Steps.toBool_eq_true_iff]
  exact fun hfinal =>
    h.2.1 (halike.extends.exists_finalizeInput hz hy (fun k _ => hkept k) hfinal)

/-- **Filtering changes nothing about completeness**: an input that is restored could not be made
final with all signatures, and with fewer it cannot either. -/
theorem isComplete_takenFrom (scheme : SignatureScheme) (options : SignOptions) (p : Psbt)
    (filled : List InputMap) :
    (p.takenFrom scheme (options.partially false) 0 filled).isComplete scheme =
      (p.takenFrom scheme (options.partially true) 0 filled).isComplete scheme := by
  have hfiltered := filtered_takenFrom scheme options p filled
  have halike : SpendsAlike (p.takenFrom scheme (options.partially false) 0 filled)
      (p.takenFrom scheme (options.partially true) 0 filled) :=
    (spendsAlike_takenFrom scheme _ p 0 filled).symm.trans
      (spendsAlike_takenFrom scheme _ p 0 filled)
  have hcomplete : ∀ i ∈ List.range p.inputs.length,
      (p.takenFrom scheme (options.partially false) 0 filled).inputComplete scheme i = true ↔
        (p.takenFrom scheme (options.partially true) 0 filled).inputComplete scheme i = true := by
    intro i hi
    obtain ⟨x, hx⟩ : ∃ x, p.inputs[i]? = some x :=
      ⟨_, List.getElem?_eq_getElem (List.mem_range.mp hi)⟩
    obtain ⟨y, hy⟩ : ∃ y, (p.takenFrom scheme (options.partially true) 0 filled).inputs[i]? =
        some y :=
      ⟨_, getElem?_inputs_taken hx⟩
    obtain ⟨w, hover⟩ : ∃ w, InputMap.TakenOver (options.partially true) i x w y := by
      rcases takenOver_takenFrom hx hy with rfl | ⟨w, -, -, hover⟩
      · exact ⟨y, .skipped⟩
      · exact ⟨w, hover⟩
    by_cases hkept : KeptWhole scheme (p.takenFrom scheme (options.partially true) 0 filled) i x y
    · have hz := hfiltered.kept i x y hx hy hkept
      rw [inputComplete, inputComplete, hz, hy, halike.finalizeInput_eq (hz.trans hy.symm)]
    · have hz := hfiltered.restored i x y hx hy hkept
      rw [inputComplete_of_not_keptWhole hy hkept,
        inputComplete_of_restored halike hover hy hz hkept]
  have hlength : (p.takenFrom scheme (options.partially true) 0 filled).inputs.length =
      p.inputs.length := by
    simp [takenFrom]
  rw [isComplete, isComplete, hfiltered.length, hlength, Bool.eq_iff_iff, List.all_eq_true,
    List.all_eq_true]
  exact forall₂_congr hcomplete

/-! ## Signing -/

/-- **Signing without partial signatures is filtered signing.** Of a signer for whom it does not
matter whether partial signatures are allowed, and where inputs are not made final afterwards: a
copy is signed without partial signatures exactly when it is signed with them, and then the one is
the other, filtered input by input, and one is complete exactly when the other is.

**Proof sketch.** A commit treats inputs alike, whether or not partial signatures are allowed, but
for leaving signatures out. Whether those of an input suffice is judged on a copy that spends as the
first one does, as all copies on the way do. -/
theorem sign_strict {signer : Signer}
    (hsigner : ∀ (r : Psbt) (given : SignOptions) (allowed : Bool),
      signer r (given.partially allowed) = signer r given)
    (hfinalize : options.finalize = false) :
    ((∃ r, p.sign scheme signer (options.partially false) = .ok r) ↔
      ∃ r, p.sign scheme signer (options.partially true) = .ok r) ∧
    ∀ s b q c, p.sign scheme signer (options.partially false) = .ok (s, b) →
      p.sign scheme signer (options.partially true) = .ok (q, c) →
        b = c ∧ Filtered scheme p q s := by
  have hsign : ∀ {allowed : Bool} {r : Psbt} {complete : Bool},
      p.sign scheme signer (options.partially allowed) = .ok (r, complete) ↔
        options.scope.firstBeyond? p.inputs.length = none ∧
        ∃ working, signer p options = .ok working ∧
          working.transaction = p.transaction ∧ working.inputs.length = p.inputs.length ∧
          AdmitsFrom options 0 working.inputs p ∧
          r = p.takenFrom scheme (options.partially allowed) 0 working.inputs ∧
          complete = r.isComplete scheme := by
    intro allowed r complete
    rw [sign_eq_ok_iff_taken, hsigner]
    simp only [SignOptions.partially, hfinalize, Bool.false_eq_true, if_false]
    rfl
  have hsucceeds : ∀ allowed, (∃ r, p.sign scheme signer (options.partially allowed) = .ok r) ↔
      options.scope.firstBeyond? p.inputs.length = none ∧
        ∃ working, signer p options = .ok working ∧
          working.transaction = p.transaction ∧ working.inputs.length = p.inputs.length ∧
          AdmitsFrom options 0 working.inputs p := by
    intro allowed
    simp only [Prod.exists, hsign]
    constructor
    · rintro ⟨r, complete, hscope, working, hworking, htx, hlen, hadmits, -, -⟩
      exact ⟨hscope, working, hworking, htx, hlen, hadmits⟩
    · rintro ⟨hscope, working, hworking, htx, hlen, hadmits⟩
      exact ⟨_, _, hscope, working, hworking, htx, hlen, hadmits, rfl, rfl⟩
  refine ⟨(hsucceeds false).trans (hsucceeds true).symm, fun s b q c hs hq => ?_⟩
  obtain ⟨-, working, hworking, -, -, -, rfl, rfl⟩ := hsign.mp hs
  obtain ⟨-, working', hworking', -, -, -, rfl, rfl⟩ := hsign.mp hq
  obtain rfl := Except.ok.inj (hworking.symm.trans hworking')
  exact ⟨isComplete_takenFrom scheme options p _, filtered_takenFrom scheme options p _⟩

/-- A signature that does not suffice is kept where partial signatures are allowed, and left out
again where they are not. -/
theorem sign_strict_sampleSigner :
    ∃ q s y z, openAsking.sign Curve.secp256k1 sampleSigner (SignOptions.default.partially true) =
        .ok (q, false) ∧
      openAsking.sign Curve.secp256k1 sampleSigner (SignOptions.default.partially false) =
        .ok (s, false) ∧
      Filtered Curve.secp256k1 openAsking q s ∧
      q.inputs[0]? = some y ∧ y.get? (.partialSig sampleKey) = some sampleSignature ∧
      s.inputs[0]? = some z ∧ z.get? (.partialSig sampleKey) = none := by
  have hstrict := @sign_strict Curve.secp256k1 .default openAsking sampleSigner
    (fun _ _ _ => rfl) rfl
  have hq : openAsking.sign Curve.secp256k1 sampleSigner (SignOptions.default.partially true) =
      .ok (_, false) := rfl
  obtain ⟨⟨s, b⟩, hs⟩ := hstrict.1.mpr ⟨_, hq⟩
  obtain ⟨rfl, hfiltered⟩ := hstrict.2 s b _ _ hs hq
  have hsigned : ∀ y : InputMap, y.get? (.partialSig sampleKey) = some sampleSignature →
      ¬ InputMap.NothingSigned ((∅ : InputMap).insert .sighashType 1) y := by
    intro y hy hnone
    rw [hnone _ (.inl rfl)] at hy
    exact absurd hy (by decide)
  refine ⟨_, s, _, _, hq, hs, hfiltered, rfl, by decide +kernel,
    hfiltered.restored 0 _ _ rfl rfl ?_, by decide +kernel⟩
  rintro (hfinal | ⟨scripts, hscripts⟩ | hnone)
  · exact absurd hfinal (by decide +kernel)
  · have hcan : _ = true := congrArg Except.toBool hscripts
    exact absurd hcan (by decide +kernel)
  · exact hsigned _ (by decide +kernel) hnone

end Psbt

end JointSpend
