set_option autoImplicit false
set_option relaxedAutoImplicit false

/-!
# Modular arithmetic

Numbers modulo the two primes of the curve `y² = x³ + 7` are kept as natural numbers below the
modulus.

## Main definitions

* `JointSpend.Curve.fieldPrime`, `JointSpend.Curve.groupOrder` — the two moduli.
* `JointSpend.Curve.power` — powers modulo a number.
* `JointSpend.Curve.inverse` — inverses modulo a prime.
* `JointSpend.Curve.root` — a square root modulo `fieldPrime`, if there is one.
-/

namespace JointSpend.Curve

/-- The prime modulus of the coordinates. -/
def fieldPrime : Nat :=
  0xfffffffffffffffffffffffffffffffffffffffffffffffffffffffefffffc2f

/-- The prime order of the group of points, the modulus of the scalars. -/
def groupOrder : Nat :=
  0xfffffffffffffffffffffffffffffffebaaedce6af48a03bbfd25e8cd0364141

theorem groupOrder_pos : 0 < groupOrder := by
  decide

/-- The power of `base` modulo `m` whose exponent has the lowest `bits` bits of `exponent`. -/
def powerBits (m : Nat) : Nat → Nat → Nat → Nat
  | 0, _, _ => 1 % m
  | bits + 1, base, exponent =>
    let r := powerBits m bits (base * base % m) (exponent / 2)
    if exponent % 2 = 1 then r * base % m else r

/-- The power of `base` modulo `m`, for exponents below `2 ^ 256`. -/
def power (m base exponent : Nat) : Nat :=
  powerBits m 256 (base % m) exponent

/-- The inverse modulo a prime of a number that the prime does not divide. -/
def inverse (m a : Nat) : Nat :=
  power m a (m - 2)

/-- The difference modulo `m` of two numbers, the second below `m`. -/
def sub (m a b : Nat) : Nat :=
  (a + (m - b)) % m

/-- A square root of `a` modulo `fieldPrime`, if `a` has one. -/
def root (a : Nat) : Nat :=
  power fieldPrime a ((fieldPrime + 1) / 4)

/-- The right side of the curve equation. -/
def cubic (x : Nat) : Nat :=
  (x * x % fieldPrime * x + 7) % fieldPrime

end JointSpend.Curve
