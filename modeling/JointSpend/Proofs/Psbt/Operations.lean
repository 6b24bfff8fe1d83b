import JointSpend.Proofs.Psbt.Shape
import JointSpend.Psbt.Update
import JointSpend.Sign.Commit

set_option autoImplicit false
set_option relaxedAutoImplicit false

/-!
# Runs of operations

Whoever works on a joint spend holds one copy and does one thing after another to it: records what
is known, merges with copies that others sent, has it signed, makes inputs final. What fails leaves
the copy as it is.

## Main definitions

* `JointSpend.Operation` — what can be done to a copy.
* `JointSpend.Operation.attempt`, `JointSpend.Operation.perform` — doing it, and what is held then.
* `JointSpend.Psbt.run` — one operation after another.

## Main results

* `JointSpend.Psbt.run_induction` — what every success keeps, every run keeps.
-/

namespace JointSpend

/-- What can be done to a copy. -/
inductive Operation where
  /-- Records the output that an input spends. -/
  | setWitnessUtxo (index : Nat) (output : TxOutput)
  /-- Records the transaction whose output an input spends. -/
  | setNonWitnessUtxo (index : Nat) (tx : Transaction)
  /-- Records the script behind a script hash. -/
  | setRedeemScript (index : Nat) (script : Script)
  /-- Records the script behind a witness script hash. -/
  | setWitnessScript (index : Nat) (script : Script)
  /-- Records the source of a key. -/
  | addDerivation (index : Nat) (key : Curve.Point) (source : KeySource)
  /-- Merges with a copy that was read, which comes second. -/
  | mergeSecond (other : { p : Psbt // p.Decoded })
  /-- Merges with a copy that was read, which comes first. -/
  | mergeFirst (other : { p : Psbt // p.Decoded })
  /-- Has the copy signed, by whatever signer. -/
  | sign (signer : Signer) (options : SignOptions)
  /-- Makes all inputs final that can be. -/
  | finalize

variable (scheme : SignatureScheme)

namespace Operation

/-- What comes of an operation on a copy. -/
def attempt (p : Psbt) : Operation → Except Fault Psbt
  | setWitnessUtxo index output => p.setWitnessUtxo index output
  | setNonWitnessUtxo index tx => p.setNonWitnessUtxo index tx
  | setRedeemScript index script => p.setRedeemScript index script
  | setWitnessScript index script => p.setWitnessScript index script
  | addDerivation index key source => p.addDerivation index key source
  | mergeSecond other => p.merge other.1
  | mergeFirst other => other.1.merge p
  | sign signer options => (p.sign scheme signer options).map Prod.fst
  | finalize => .ok (p.finalize scheme)

/-- The copy that is held after an operation: what comes of it, or the copy as it was if the
operation failed. -/
def perform (p : Psbt) (op : Operation) : Psbt :=
  match op.attempt scheme p with
  | .ok q => q
  | .error _ => p

end Operation

namespace Psbt

/-- Does one operation after another. -/
def run (ops : List Operation) (p : Psbt) : Psbt :=
  ops.foldl (Operation.perform scheme) p

theorem run_append (ops later : List Operation) (p : Psbt) :
    p.run scheme (ops ++ later) = (p.run scheme ops).run scheme later :=
  List.foldl_append

variable {scheme}

/-- **What every success keeps, every run keeps.** -/
theorem run_induction {motive : Psbt → Prop}
    (step : ∀ {p q : Psbt} {op : Operation}, motive p → op.attempt scheme p = .ok q → motive q)
    {p : Psbt} (hp : motive p) (ops : List Operation) : motive (p.run scheme ops) := by
  induction ops generalizing p with
  | nil => exact hp
  | cons op ops ih =>
    have hfirst : motive (op.perform scheme p) := by
      unfold Operation.perform
      split
      · next q hq => exact step hp hq
      · exact hp
    exact ih hfirst

end Psbt

end JointSpend
