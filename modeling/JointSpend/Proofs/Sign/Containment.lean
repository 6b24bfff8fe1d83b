import JointSpend.Proofs.Merge.Exactness
import JointSpend.Proofs.Sign.Taking

set_option autoImplicit false
set_option relaxedAutoImplicit false

/-!
# Signers are contained

A signer gets a working copy and may hand back anything: records changed, dropped or made up.
Signing takes over origins of keys and signatures at free places, and final scripts, all in open
inputs that are in scope. Everything else of the copy stays, and a failure changes nothing.

## Main definitions

* `JointSpend.InputMap.Extends` — an input with additions from the signer's copy of it.
* `JointSpend.Psbt.Contained` — a copy with what a signer can get into it.

## Main results

* `JointSpend.Psbt.CommittedFrom.contained` — taking over a signer's copy is contained.
* `JointSpend.Psbt.Contained.finalize` — making all inputs final afterwards keeps it so.
* `JointSpend.Psbt.sign_contained` — signing is contained, whoever signs.
-/

namespace JointSpend

/-- An input with additions: every record is kept, and what is new are origins of keys and
signatures of the signer's copy. -/
structure InputMap.Extends (x w y : InputMap) : Prop where
  kept : ∀ (k : InputKey) (v : k.Value), x.get? k = some v → y.get? k = some v
  gained : ∀ (k : InputKey) (v : k.Value), x.get? k = none → y.get? k = some v →
    (k.isOrigin = true ∨ k.isSignature = true) ∧ w.get? k = some v

namespace Psbt

/-- A copy with what a signer can get into it, given the signer's working copy and the copy whose
inputs stand out of scope. -/
structure Contained (scope : SignScope) (p working outside q : Psbt) : Prop where
  transaction : q.transaction = p.transaction
  globals : q.globals = p.globals
  outputs : q.outputs = p.outputs
  length : q.inputs.length = p.inputs.length
  /-- What is known about spent outputs and what other applications recorded stays. -/
  retained : Pointwise (fun x y => ∀ k, InputKey.isRetained k = true → y.get? k = x.get? k)
    p.inputs q.inputs
  /-- Final inputs stay as they are. -/
  final : ∀ (i : Nat) (x : InputMap), p.inputs[i]? = some x → InputMap.isFinal x = true →
    q.inputs[i]? = some x
  /-- Nothing that the signer did to inputs out of scope is taken over. -/
  outOfScope : ∀ i : Nat, scope.contains i = false → q.inputs[i]? = outside.inputs[i]?
  /-- Inputs that stay open are extended. -/
  inScope : ∀ (i : Nat) (x y : InputMap), p.inputs[i]? = some x → q.inputs[i]? = some y →
    scope.contains i = true → InputMap.isFinal x = false → InputMap.isFinal y = false →
      ∃ w, working.inputs[i]? = some w ∧ x.Extends w y

variable {scheme : SignatureScheme} {options : SignOptions} {p working q : Psbt}

/-- **Taking over a signer's copy is contained.** -/
theorem CommittedFrom.contained (hlen : working.inputs.length = p.inputs.length)
    (h : CommittedFrom options 0 working.inputs p q) :
    Contained options.scope p working p q := by
  -- the inputs are taken over one by one, each from the signer's copy of it
  have htaken : ∀ (i : Nat) (x : InputMap), p.inputs[i]? = some x → ∃ w y : InputMap,
      working.inputs[i]? = some w ∧ q.inputs[i]? = some y ∧
        InputMap.TakenOver options i x w y := by
    intro i x hx
    have hlt : i < p.inputs.length := (List.getElem?_eq_some_iff.mp hx).1
    have hw := List.getElem?_eq_getElem (hlen ▸ hlt)
    have hy := List.getElem?_eq_getElem (h.length ▸ hlt)
    refine ⟨_, _, hw, hy, ?_⟩
    rcases h.inputs i x _ hx hy with heq | ⟨w, -, hw', htaken⟩
    · rw [heq]
      exact .skipped
    · obtain rfl := Option.some.inj (hw.symm.trans hw')
      exact htaken
  refine ⟨h.transaction, h.globals, h.outputs, h.length, fun i x y hx hy k hk => ?_,
    fun i x hx hfinal => ?_, fun i hscope => ?_, fun i x y hx hy _ _ hopen => ?_⟩
  · obtain ⟨w, y', -, hy', htaken⟩ := htaken i x hx
    obtain rfl := Option.some.inj (hy.symm.trans hy')
    exact htaken.retained hk
  · obtain ⟨w, y, -, hy, htaken⟩ := htaken i x hx
    rw [hy, htaken.eq_of_isFinal hfinal]
  · cases hx : p.inputs[i]? with
    | none =>
      rw [List.getElem?_eq_none_iff] at hx ⊢
      rw [h.length]
      exact hx
    | some x =>
      obtain ⟨w, y, -, hy, htaken⟩ := htaken i x hx
      rw [hy, htaken.eq_of_not_contains hscope]
  · obtain ⟨w, y', hw, hy', htaken⟩ := htaken i x hx
    obtain rfl := Option.some.inj (hy.symm.trans hy')
    exact ⟨w, hw, fun _ _ => htaken.kept hopen, fun _ _ hfree => htaken.gained hopen hfree⟩

/-- **Making all inputs final afterwards** keeps a signer contained.

**Proof sketch.** The signed copy spends alike, so that inputs out of scope become final on it with
the same scripts as on the first copy. An input that stays open is not touched. -/
theorem Contained.finalize {scope : SignScope} (h : Contained scope p working p q) :
    Contained scope p working (p.finalize scheme) (q.finalize scheme) := by
  have halike : SpendsAlike p q := .of_retained h.transaction.symm h.length.symm h.retained
  rw [finalize_eq_dryRun, finalize_eq_dryRun]
  refine ⟨h.transaction, h.globals, h.outputs, ?_, fun i x z hx hz k hk => ?_,
    fun i x hx hfinal => ?_, fun i hscope => ?_, fun i x z hx hz hscope hopen hopen' => ?_⟩
  · simpa [dryRun] using h.length
  · rw [getElem?_inputs_dryRun, Option.map_eq_some_iff] at hz
    obtain ⟨y, hy, rfl⟩ := hz
    rw [get?_dryRunInput y _ hk, h.retained i x y hx hy k hk]
  · rw [getElem?_inputs_dryRun, h.final i x hx hfinal, Option.map_some,
      dryRunInput_of_isFinal hfinal]
  · have hsame := h.outOfScope i hscope
    rw [getElem?_inputs_dryRun, getElem?_inputs_dryRun, hsame]
    simp only [halike.outcome_eq hsame.symm]
  · rw [getElem?_inputs_dryRun, Option.map_eq_some_iff] at hz
    obtain ⟨y, hy, rfl⟩ := hz
    have hsame := dryRunInput_of_open hopen'
    rw [hsame] at hopen' ⊢
    exact h.inScope i x y hx hy hscope hopen hopen'

/-- **Signers are contained.** Whatever a signer does with its working copy: if signing fails, the
copy that was to be signed is left as it was, and if it succeeds, that copy has everything that it
had but for what a signer can get into it. Inputs out of scope are as they were, made final if that
was asked for.

**Proof sketch.** What is taken over goes to a staged copy, and the one step that puts the staged
copy in place comes when nothing can fail any more. -/
theorem sign_contained (scheme : SignatureScheme) (signer : Signer) (options : SignOptions)
    (s t : Signing) :
    (∀ fault, (signInPlace scheme signer options).exec s = (.error fault, t) →
      t.copy = s.copy) ∧
    ∀ complete, (signInPlace scheme signer options).exec s = (.ok complete, t) →
      ∃ working, signer s.copy options = .ok working ∧
        Contained options.scope s.copy working
          (if options.finalize then s.copy.finalize scheme else s.copy) t.copy := by
  refine ⟨fun fault h => (atomic_signInPlace signer).part_eq h, fun complete h => ?_⟩
  obtain ⟨-, working, hworking, -, hlen, committed, hcommit, rfl, -⟩ :=
    exec_signInPlace_eq_ok_iff.mp h
  refine ⟨working, hworking, ?_⟩
  have hcontained := (commitFrom_committed hcommit).contained hlen
  dsimp only
  split
  · exact hcontained.finalize
  · exact hcontained

/-- A signer that puts the sample signature into every input and drops what else is there. -/
def sampleSigner : Signer := fun p _ =>
  .ok { p with inputs := p.inputs.map fun _ =>
    (∅ : InputMap).insert (.partialSig sampleKey) sampleSignature }

/-- A copy of a small transaction that spends two outputs. It says for the second input where a key
comes from. -/
def openTwo : Psbt :=
  ⟨⟨2, 0, [⟨⟨⟨Fixed.zero 32⟩, 0⟩, .empty, 0xffffffff, []⟩,
      ⟨⟨⟨Fixed.zero 32⟩, 1⟩, .empty, 0xffffffff, []⟩], [⟨1000, ⟨[0x51]⟩⟩]⟩, ∅,
    [∅, (∅ : InputMap).insert (.derivation Curve.generatorPoint) ⟨Fixed.zero 4, []⟩], [∅]⟩

/-- A signer that signs the first input and says for the second that the key comes from somewhere
else. -/
def contrarySigner : Signer := fun p _ =>
  .ok { p with inputs := [(∅ : InputMap).insert (.partialSig sampleKey) sampleSignature,
    (∅ : InputMap).insert (.derivation Curve.generatorPoint) ⟨Fixed.zero 4, [1]⟩] }

/-- The signature is taken over and what the signer dropped is still there. If a signer contradicts
the copy at its second input, the copy is as it was though the first input had been signed. -/
theorem sign_contained_sampleSigner :
    (∃ fault t, (signInPlace Curve.secp256k1 contrarySigner .default).exec ⟨openTwo, []⟩ =
        (.error fault, t) ∧ t.copy = openTwo) ∧
    ∃ complete t working y, (signInPlace Curve.secp256k1 sampleSigner .default).exec
        ⟨openAsking, []⟩ = (.ok complete, t) ∧
      Contained .all openAsking working openAsking t.copy ∧ t.copy.inputs[0]? = some y ∧
      y.get? .sighashType = some 1 ∧ y.get? (.partialSig sampleKey) = some sampleSignature := by
  have hfails : (signInPlace Curve.secp256k1 contrarySigner .default).exec ⟨openTwo, []⟩ =
      (.error _, _) := rfl
  have hsigns : (signInPlace Curve.secp256k1 sampleSigner .default).exec ⟨openAsking, []⟩ =
      (.ok _, _) := rfl
  have hkept := (sign_contained Curve.secp256k1 contrarySigner .default _ _).1 _ hfails
  obtain ⟨working, -, hcontained⟩ :=
    (sign_contained Curve.secp256k1 sampleSigner .default _ _).2 _ hsigns
  exact ⟨⟨_, _, hfails, hkept⟩, _, _, working, _, hsigns, hcontained, rfl, by decide +kernel,
    by decide +kernel⟩

end Psbt

end JointSpend
