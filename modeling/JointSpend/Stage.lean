set_option autoImplicit false
set_option relaxedAutoImplicit false

/-!
# Stages of a joint spend

An online machine creates the transaction, offline machines sign it, and an online machine
assembles the signed copies and sends the result.

## Main definitions

* `JointSpend.Stage` — the three stages.
* `JointSpend.Stage.next`, `JointSpend.Stage.prev` — the neighbouring stages.
-/

namespace JointSpend

/-- The stages of a joint spend. -/
inductive Stage where
  | create
  | sign
  | assemble
  deriving DecidableEq

namespace Stage

/-- The following stage; the last one follows itself. -/
def next : Stage → Stage
  | create => sign
  | sign => assemble
  | assemble => assemble

/-- The stage before; the first one precedes itself. -/
def prev : Stage → Stage
  | create => create
  | sign => create
  | assemble => sign

/-- The place of a stage among the three. -/
def rank : Stage → Nat
  | create => 0
  | sign => 1
  | assemble => 2

/-- The name of a stage in messages. -/
def title : Stage → String
  | create => "Create"
  | sign => "Sign"
  | assemble => "Assemble"

end Stage

end JointSpend
