import JointSpend.InPlace

set_option autoImplicit false
set_option relaxedAutoImplicit false

/-!
# Rows of steps

A row of steps that fails leaves the state as the steps before the failure have made it. Such a row
is atomic for a part of the state if that part is then as it was. There are two ways to get there:
steps that keep the part may come before others that are atomic, and steps that cannot fail may come
after them.

## Main definitions

* `JointSpend.InPlace.Keeps` — however the steps end, a part of the state is as it was.
* `JointSpend.InPlace.Atomic` — if the steps fail, a part of the state is as it was.
* `JointSpend.InPlace.Succeeds` — the steps cannot fail.

## Main results

* `JointSpend.InPlace.exec_bind_eq_iff` — how two steps end.
* `JointSpend.InPlace.Keeps.bind`, `JointSpend.InPlace.Keeps.mapM` — one step after another that
  keeps a part of the state.
* `JointSpend.InPlace.Keeps.bind_atomic`, `JointSpend.InPlace.Atomic.bind_succeeds` — what may come
  before steps that are atomic, and what may come after them.
-/

namespace JointSpend.InPlace

variable {σ τ α β : Type}

/-! ## How steps end -/

@[simp]
theorem exec_lift (result : Except Fault α) (s : σ) :
    (liftM result : InPlace σ α).exec s = (result, s) :=
  rfl

@[simp]
theorem exec_pure (a : α) (s : σ) : (pure a : InPlace σ α).exec s = (.ok a, s) :=
  rfl

@[simp]
theorem exec_throw (fault : Fault) (s : σ) :
    (throw fault : InPlace σ α).exec s = (.error fault, s) :=
  rfl

@[simp]
theorem exec_get (s : σ) : (get : InPlace σ σ).exec s = (.ok s, s) :=
  rfl

@[simp]
theorem exec_modify (f : σ → σ) (s : σ) : (modify f : InPlace σ Unit).exec s = (.ok (), f s) :=
  rfl

/-- Of two steps the second is done only if the first succeeds. -/
theorem exec_bind (x : InPlace σ α) (f : α → InPlace σ β) (s : σ) :
    (x >>= f).exec s =
      match x.exec s with
      | (.ok a, t) => (f a).exec t
      | (.error fault, t) => (.error fault, t) := by
  simp only [exec, ExceptT.run_bind, StateT.run_bind]
  rcases StateT.run (ExceptT.run x) s with ⟨result, t⟩
  cases result <;> rfl

/-- **How two steps end**: with the failure of the first, or as the second ends where the first has
come to. -/
theorem exec_bind_eq_iff {x : InPlace σ α} {f : α → InPlace σ β} {s t : σ}
    {result : Except Fault β} :
    (x >>= f).exec s = (result, t) ↔
      (∃ fault, x.exec s = (.error fault, t) ∧ result = .error fault) ∨
        ∃ a mid, x.exec s = (.ok a, mid) ∧ (f a).exec mid = (result, t) := by
  rw [exec_bind]
  rcases x.exec s with ⟨first, mid⟩
  cases first with
  | error fault =>
    simp only [Prod.mk.injEq, Except.error.injEq, reduceCtorEq, false_and, exists_false, or_false]
    constructor
    · rintro ⟨rfl, rfl⟩
      exact ⟨fault, ⟨rfl, rfl⟩, rfl⟩
    · rintro ⟨_, ⟨rfl, rfl⟩, rfl⟩
      exact ⟨rfl, rfl⟩
  | ok a =>
    simp only [Prod.mk.injEq, reduceCtorEq, false_and, exists_false, false_or, Except.ok.injEq]
    constructor
    · intro h
      exact ⟨a, mid, ⟨rfl, rfl⟩, h⟩
    · rintro ⟨_, _, ⟨rfl, rfl⟩, h⟩
      exact h

/-- Two steps succeed when the first does, and the second does where the first has come to. -/
theorem exec_bind_eq_ok_iff {x : InPlace σ α} {f : α → InPlace σ β} {s t : σ} {b : β} :
    (x >>= f).exec s = (.ok b, t) ↔
      ∃ a mid, x.exec s = (.ok a, mid) ∧ (f a).exec mid = (.ok b, t) := by
  simp [exec_bind_eq_iff]

/-! ## Steps that keep a part of the state -/

/-- However the steps end, a part of the state is as it was. -/
structure Keeps (part : σ → τ) (x : InPlace σ α) : Prop where
  part_eq : ∀ {s t : σ} {result : Except Fault α}, x.exec s = (result, t) → part t = part s

variable {part : σ → τ}

/-- Computing keeps the whole state, whether it succeeds or not. -/
theorem keeps_lift (part : σ → τ) (result : Except Fault α) :
    Keeps part (liftM result : InPlace σ α) where
  part_eq h := by
    obtain ⟨-, rfl⟩ := Prod.mk.inj h
    rfl

/-- What fails at once keeps the whole state, whatever was to come. -/
theorem keeps_throw_bind (part : σ → τ) (fault : Fault) (f : α → InPlace σ β) :
    Keeps part (throw fault >>= f) where
  part_eq h := by
    obtain ⟨-, rfl⟩ := Prod.mk.inj h
    rfl

/-- Looking at the state keeps it. -/
theorem keeps_get (part : σ → τ) : Keeps part (get : InPlace σ σ) where
  part_eq h := by
    obtain ⟨-, rfl⟩ := Prod.mk.inj h
    rfl

/-- A change to other parts of the state. -/
theorem keeps_modify {f : σ → σ} (hf : ∀ s, part (f s) = part s) :
    Keeps part (modify f : InPlace σ Unit) where
  part_eq {s t result} h := by
    obtain ⟨-, rfl⟩ := Prod.mk.inj h
    exact hf s

/-- **One step after another** that keeps a part of the state. -/
theorem Keeps.bind {x : InPlace σ α} {f : α → InPlace σ β} (hx : Keeps part x)
    (hf : ∀ a, Keeps part (f a)) : Keeps part (x >>= f) where
  part_eq h := by
    rcases exec_bind_eq_iff.mp h with ⟨_, hfails, -⟩ | ⟨a, mid, hmid, hrest⟩
    · exact hx.part_eq hfails
    · exact ((hf a).part_eq hrest).trans (hx.part_eq hmid)

/-- One such step for each element of a list, however many are done before one fails. -/
theorem Keeps.mapM {f : α → InPlace σ β} (hf : ∀ a, Keeps part (f a)) (as : List α) :
    Keeps part (as.mapM f) := by
  induction as with
  | nil => exact keeps_lift part (.ok [])
  | cons a as ih =>
    rw [List.mapM_cons]
    exact (hf a).bind fun b => ih.bind fun bs => keeps_lift part (.ok (b :: bs))

/-! ## Atomic steps -/

/-- If the steps fail, a part of the state is as it was. -/
structure Atomic (part : σ → τ) (x : InPlace σ α) : Prop where
  part_eq : ∀ {s t : σ} {fault : Fault}, x.exec s = (.error fault, t) → part t = part s

/-- Steps that keep a part of the state are atomic for it. -/
theorem Keeps.atomic {x : InPlace σ α} (hx : Keeps part x) : Atomic part x where
  part_eq h := hx.part_eq h

/-- **Before atomic steps** there may be steps that fail, if they keep the part. -/
theorem Keeps.bind_atomic {x : InPlace σ α} {f : α → InPlace σ β} (hx : Keeps part x)
    (hf : ∀ a, Atomic part (f a)) : Atomic part (x >>= f) where
  part_eq h := by
    rcases exec_bind_eq_iff.mp h with ⟨_, hfails, -⟩ | ⟨a, mid, hmid, hrest⟩
    · exact hx.part_eq hfails
    · exact ((hf a).part_eq hrest).trans (hx.part_eq hmid)

/-- The steps cannot fail. -/
def Succeeds (x : InPlace σ α) : Prop :=
  ∀ (s t : σ) (fault : Fault), x.exec s ≠ (.error fault, t)

/-- A result that is there already. -/
theorem succeeds_pure (a : α) : Succeeds (pure a : InPlace σ α) := by
  intro s t fault h
  cases h

/-- A change to the state. -/
theorem succeeds_modify (f : σ → σ) : Succeeds (modify f : InPlace σ Unit) := by
  intro s t fault h
  cases h

/-- One step after another that cannot fail. -/
theorem Succeeds.bind {x : InPlace σ α} {f : α → InPlace σ β} (hx : Succeeds x)
    (hf : ∀ a, Succeeds (f a)) : Succeeds (x >>= f) := by
  intro s t fault h
  rcases exec_bind_eq_iff.mp h with ⟨_, hfails, -⟩ | ⟨a, mid, -, hrest⟩
  · exact hx _ _ _ hfails
  · exact hf a _ _ _ hrest

/-- Steps that cannot fail are atomic. -/
theorem Succeeds.atomic {x : InPlace σ α} (hx : Succeeds x) : Atomic part x where
  part_eq h := absurd h (hx _ _ _)

/-- **After atomic steps** there may be steps that change the part, if they cannot fail. -/
theorem Atomic.bind_succeeds {x : InPlace σ α} {f : α → InPlace σ β} (hx : Atomic part x)
    (hf : ∀ a, Succeeds (f a)) : Atomic part (x >>= f) where
  part_eq h := by
    rcases exec_bind_eq_iff.mp h with ⟨_, hfails, -⟩ | ⟨a, mid, -, hrest⟩
    · exact hx.part_eq hfails
    · exact absurd hrest (hf a _ _ _)

end JointSpend.InPlace
