import JointSpend.Proofs.Merge.Exactness

set_option autoImplicit false
set_option relaxedAutoImplicit false

/-!
# Merging what is there already

A copy that was merged into another one is absorbed by it: merging it once more changes nothing.
This stays so whatever is merged in between, also when an input becomes final meanwhile and drops
records of the absorbed copy. Unlike the order of merges, it does not take clean copies.

## Main definitions

* `JointSpend.RecordMap.Within` — one map holds the entries of another at the keys that pass a test.
* `JointSpend.InputMap.Absorbed`, `JointSpend.Psbt.Absorbed` — a copy has nothing to add to another.

## Main results

* `JointSpend.InputMap.Absorbed.joined_eq`, `JointSpend.Psbt.Absorbed.merge_eq` — merging an
  absorbed copy changes nothing.
* `JointSpend.InputMap.Absorbed.trans`, `JointSpend.Psbt.Absorbed.trans` — absorption is transitive.
* `JointSpend.Psbt.absorbed_of_merge` — a merge absorbs both copies.
* `JointSpend.Psbt.absorbed_of_mergeAll` — merging a list absorbs every copy in it.
-/

namespace JointSpend

/-! ## Records -/

namespace RecordMap

variable {κ : Type} [DecidableEq κ] [Ranked κ] {β : κ → Type}

/-- At the keys that pass a test, the entries of one map are entries of another. -/
def Within (p : κ → Bool) (a b : RecordMap κ β) : Prop :=
  ∀ k, p k = true → ∀ v, a.get? k = some v → b.get? k = some v

namespace Within

variable {p q : κ → Bool} {a b c : RecordMap κ β}

theorem refl (p : κ → Bool) (a : RecordMap κ β) : Within p a a :=
  fun _ _ _ hv => hv

theorem trans (hab : Within p a b) (hbc : Within p b c) : Within p a c :=
  fun k hk v hv => hbc k hk v (hab k hk v hv)

/-- A map agrees with one that holds its entries. -/
theorem agree (h : Within p a b) : Agree p b a :=
  fun k hk _ w hv hw => Option.some.inj (hv.symm.trans (h k hk w hw))

/-- Filling from a map whose entries are there already changes nothing. -/
theorem fill_eq (h : Within p a b) : b.fill p a = b := by
  apply ext_get?
  intro k
  rw [get?_fill]
  split
  · next hk =>
    cases ha : a.get? k with
    | none => rw [Option.or_none]
    | some v => rw [h k hk v ha, Option.some_or]
  · rw [Option.or_none]

end Within

/-- A union holds the entries of the first map. -/
theorem UnionAt.within_first {p : κ → Bool} {a b c : RecordMap κ β} (h : UnionAt p a b c) :
    Within p a c :=
  fun k hk v hv => (h k hk v).mpr (Or.inl hv)

/-- A union holds the entries of the second map. -/
theorem UnionAt.within_second {p : κ → Bool} {a b c : RecordMap κ β} (h : UnionAt p a b c) :
    Within p b c :=
  fun k hk v hv => (h k hk v).mpr (Or.inr hv)

end RecordMap

/-! ## Inputs -/

namespace InputMap

/-- A copy of an input has nothing to add to another one. -/
structure Absorbed (x m : InputMap) : Prop where
  /-- Its retained records are there. -/
  retained : RecordMap.Within InputKey.isRetained x m
  /-- If it is final, the other one is final with the same final scripts. -/
  final : isFinal x = true → isFinal m = true ∧ SameScripts x m
  /-- Where the other one is open, all of its records are there but for the final scripts. -/
  united : isFinal m = false → RecordMap.Within InputKey.isUnited x m

namespace Absorbed

variable {x y z m : InputMap}

theorem refl (x : InputMap) : Absorbed x x :=
  ⟨.refl _ x, fun hx => ⟨hx, rfl, rfl⟩, fun _ => .refl _ x⟩

/-- What an open input absorbs is open. -/
theorem open_of_open (h : Absorbed x m) (hm : isFinal m = false) : isFinal x = false := by
  cases hx : isFinal x with
  | false => rfl
  | true => exact absurd (h.final hx).1 (by simp [hm])

/-- **Absorption is transitive**, also over an input that became final meanwhile. -/
theorem trans (hxy : Absorbed x y) (hyz : Absorbed y z) : Absorbed x z where
  retained := hxy.retained.trans hyz.retained
  final hx := by
    obtain ⟨hy, hxy'⟩ := hxy.final hx
    obtain ⟨hz, hyz'⟩ := hyz.final hy
    exact ⟨hz, hxy'.1.trans hyz'.1, hxy'.2.trans hyz'.2⟩
  united hz := (hxy.united (hyz.open_of_open hz)).trans (hyz.united hz)

/-- An input is compatible with what it absorbs. -/
theorem compatible (h : Absorbed x m) : Compatible m x := by
  refine compatible_iff.mpr ⟨h.retained.agree, fun hm _ => ?_, fun _ hx => ?_⟩
  · exact (h.united hm).agree.mono fun k hk => (Bool.and_eq_true_iff.mp hk).1
  · obtain ⟨-, hscripts⟩ := h.final hx
    exact ⟨hscripts.1.symm, hscripts.2.symm⟩

/-- **An input joined with what it absorbs** stays as it is. -/
theorem joined_eq (h : Absorbed x m) : joined m x = m := by
  unfold joined
  cases hm : isFinal m with
  | true => exact h.retained.fill_eq
  | false =>
    rw [h.open_of_open hm]
    exact (h.united hm).fill_eq

end Absorbed

/-- Where a merge leaves an input open, it unites everything but final scripts. -/
theorem Merged.united_of_open {x y z : InputMap} (h : Merged x y z) (hz : isFinal z = false) :
    RecordMap.UnionAt InputKey.isUnited x y z := by
  obtain ⟨hx, hy⟩ := Bool.or_eq_false_iff.mp (h.final.symm.trans hz)
  intro k hk
  cases hr : k.isRetained with
  | true => exact h.retained k hr
  | false => exact h.signing hx hy k (by simp [InputKey.isDropped, hk, hr])

/-- A merge absorbs the first copy of an input. -/
theorem Merged.absorbed_first {x y z : InputMap} (h : Merged x y z) : Absorbed x z where
  retained := h.retained.within_first
  final hx := by
    refine ⟨by rw [h.final, hx, Bool.true_or], ?_, ?_⟩
    · exact (h.ofFirst hx .finalScriptSig rfl).symm
    · exact (h.ofFirst hx .finalScriptWitness rfl).symm
  united hz := (h.united_of_open hz).within_first

/-- A merge absorbs the second copy of an input. -/
theorem Merged.absorbed_second {x y z : InputMap} (h : Merged x y z) : Absorbed y z where
  retained := h.retained.within_second
  final hy := by
    refine ⟨by rw [h.final, hy, Bool.or_true], ?_⟩
    cases hx : isFinal x with
    | true => exact (h.scripts hx hy).2
    | false =>
      exact ⟨(h.ofSecond hx hy .finalScriptSig rfl).symm,
        (h.ofSecond hx hy .finalScriptWitness rfl).symm⟩
  united hz := (h.united_of_open hz).within_second

end InputMap

/-! ## The whole -/

namespace Psbt

/-- A copy has nothing to add to another one. -/
structure Absorbed (p q : Psbt) : Prop where
  transaction : p.transaction = q.transaction
  globals : RecordMap.Within (fun _ => true) p.globals q.globals
  inputs : Pointwise InputMap.Absorbed p.inputs q.inputs
  outputs : Pointwise (RecordMap.Within fun _ => true) p.outputs q.outputs

/-- Pointwise relations over lists compose where the middle list is as long as the last one. -/
theorem Pointwise.trans {α : Type} {r : α → α → Prop} (hr : ∀ {a b c}, r a b → r b c → r a c)
    {as bs cs : List α} (hlen : bs.length = cs.length) (hab : Pointwise r as bs)
    (hbc : Pointwise r bs cs) : Pointwise r as cs := by
  intro i a c ha hc
  have hi : i < bs.length := by
    rw [hlen]
    exact (List.getElem?_eq_some_iff.mp hc).1
  have hb := List.getElem?_eq_getElem hi
  exact hr (hab i a _ ha hb) (hbc i _ c hb hc)

/-- Joining position by position with what changes nothing at any position changes nothing. -/
private theorem zipWith_eq_left {α : Type} {r : α → α → Prop} {join : α → α → α}
    (hjoin : ∀ {a b}, r a b → join b a = b) {as bs : List α} (hlen : as.length = bs.length)
    (h : Pointwise r as bs) : List.zipWith join bs as = bs := by
  refine List.ext_getElem (by simp [hlen]) fun i hi hi' => ?_
  rw [List.getElem_zipWith]
  exact hjoin (h i _ _ (List.getElem?_eq_getElem _) (List.getElem?_eq_getElem _))

namespace Absorbed

variable {p q r : Psbt}

theorem refl (p : Psbt) : Absorbed p p where
  transaction := rfl
  globals := .refl _ _
  inputs := fun _ x _ hx hy => Option.some.inj (hx.symm.trans hy) ▸ .refl x
  outputs := fun _ x _ hx hy => Option.some.inj (hx.symm.trans hy) ▸ .refl _ x

/-- **Absorption is transitive.** -/
theorem trans (hq : q.Shaped) (hr : r.Shaped) (hpq : Absorbed p q) (hqr : Absorbed q r) :
    Absorbed p r where
  transaction := hpq.transaction.trans hqr.transaction
  globals := hpq.globals.trans hqr.globals
  inputs := hpq.inputs.trans .trans (hq.length_inputs_eq hr hqr.transaction) hqr.inputs
  outputs := hpq.outputs.trans .trans (hq.length_outputs_eq hr hqr.transaction) hqr.outputs

/-- A copy is compatible with what it absorbs. -/
theorem compatible (h : Absorbed p q) : Compatible q p where
  transaction := h.transaction.symm
  globals := h.globals.agree
  inputs := fun i x y hx hy => (h.inputs i y x hy hx).compatible
  outputs := fun i x y hx hy => (h.outputs i y x hy hx).agree

/-- **Merging an absorbed copy** changes nothing. -/
theorem merge_eq (hp : p.Shaped) (hq : q.Shaped) (h : Absorbed p q) : merge q p = .ok q := by
  refine (merge_eq_ok_iff hq hp).mpr ⟨h.compatible, ?_⟩
  have hinputs : List.zipWith InputMap.joined q.inputs p.inputs = q.inputs :=
    zipWith_eq_left InputMap.Absorbed.joined_eq (hp.length_inputs_eq hq h.transaction) h.inputs
  have houtputs : List.zipWith (RecordMap.fill fun _ => true) q.outputs p.outputs = q.outputs :=
    zipWith_eq_left RecordMap.Within.fill_eq (hp.length_outputs_eq hq h.transaction) h.outputs
  rw [joined, h.globals.fill_eq, hinputs, houtputs]

end Absorbed

/-- **A merge absorbs both copies.** -/
theorem absorbed_of_merge {p q r : Psbt} (hp : p.Shaped) (hq : q.Shaped)
    (h : merge p q = .ok r) : r.Shaped ∧ Absorbed p r ∧ Absorbed q r := by
  obtain ⟨hc, rfl⟩ := (merge_eq_ok_iff hp hq).mp h
  have hmerged := merged_joined hp hq hc
  refine ⟨hmerged.shaped, ⟨rfl, hmerged.globals.within_first, fun i x z hx hz => ?_,
      fun i x z hx hz => ?_⟩,
    ⟨hc.transaction.symm, hmerged.globals.within_second, fun i y z hy hz => ?_,
      fun i y z hy hz => ?_⟩⟩
  · obtain ⟨-, y, -, hy, -⟩ := List.getElem?_zipWith_eq_some.mp hz
    exact (hmerged.inputs i x y z hx hy hz).absorbed_first
  · obtain ⟨-, y, -, hy, -⟩ := List.getElem?_zipWith_eq_some.mp hz
    exact (hmerged.outputs i x y z hx hy hz).within_first
  · obtain ⟨x, -, hx, -, -⟩ := List.getElem?_zipWith_eq_some.mp hz
    exact (hmerged.inputs i x y z hx hy hz).absorbed_second
  · obtain ⟨x, -, hx, -, -⟩ := List.getElem?_zipWith_eq_some.mp hz
    exact (hmerged.outputs i x y z hx hy hz).within_second

/-- Merging one copy after another into a copy absorbs all of them. -/
private theorem absorbed_of_foldlM {p q : Psbt} {ps : List Psbt} (hp : p.Shaped)
    (hps : ∀ x ∈ ps, x.Shaped) (h : ps.foldlM merge p = .ok q) :
    q.Shaped ∧ Absorbed p q ∧ ∀ x ∈ ps, Absorbed x q := by
  induction ps generalizing p with
  | nil =>
    obtain rfl := Except.ok.inj h
    exact ⟨hp, .refl p, by simp⟩
  | cons x ps ih =>
    rw [List.foldlM_cons] at h
    obtain ⟨r, hr, h⟩ := Steps.bind_eq_ok_iff.mp h
    have hx := hps x List.mem_cons_self
    obtain ⟨hrs, hpr, hxr⟩ := absorbed_of_merge hp hx hr
    obtain ⟨hqs, hrq, hrest⟩ := ih hrs (fun y hy => hps y (List.mem_cons_of_mem _ hy)) h
    refine ⟨hqs, hpr.trans hrs hqs hrq, List.forall_mem_cons.mpr ⟨hxr.trans hrs hqs hrq, hrest⟩⟩

/-- **Merging a list absorbs every copy in it.** -/
theorem absorbed_of_mergeAll {q : Psbt} {ps : List Psbt} (hps : ∀ x ∈ ps, x.Shaped)
    (h : mergeAll ps = .ok q) : q.Shaped ∧ ∀ x ∈ ps, Absorbed x q := by
  cases ps with
  | nil => simp [mergeAll] at h
  | cons p ps =>
    obtain ⟨hq, hpq, hrest⟩ := absorbed_of_foldlM (hps p List.mem_cons_self)
      (fun x hx => hps x (List.mem_cons_of_mem _ hx)) h
    exact ⟨hq, List.forall_mem_cons.mpr ⟨hpq, hrest⟩⟩

end Psbt

end JointSpend
