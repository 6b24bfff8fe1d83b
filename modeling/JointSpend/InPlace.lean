import JointSpend.Fault

set_option autoImplicit false
set_option relaxedAutoImplicit false

/-!
# Working in place

A row of steps works on a state in place and ends at the first step that fails. A failure does not
bring the state back: whatever was done before it stays done. A row of steps that is to leave the
state as it was when it fails has to see to that itself.

## Main definitions

* `JointSpend.InPlace` — steps on a state, which may fail.
* `JointSpend.InPlace.exec` — does the steps.
-/

namespace JointSpend

/-- Steps on a state. Those before a step that fails have been done. -/
abbrev InPlace (σ : Type) :=
  ExceptT Fault (StateM σ)

/-- Does the steps: what comes of them, and the state that they leave. -/
def InPlace.exec {σ α : Type} (x : InPlace σ α) (s : σ) : Except Fault α × σ :=
  StateT.run (ExceptT.run x) s

end JointSpend
