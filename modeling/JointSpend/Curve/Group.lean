import JointSpend.Curve.Point

set_option autoImplicit false
set_option relaxedAutoImplicit false

/-!
# The group of points

Sums and multiples of points in projective coordinates `(X, Y, Z)`, which stand for the point
`(X / Z², Y / Z³)`, or for the point at infinity when `Z = 0`.

## Main definitions

* `JointSpend.Curve.Projective` — a point of the group, infinity included.
* `JointSpend.Curve.Projective.add`, `JointSpend.Curve.Projective.multiple` — the group operations.
* `JointSpend.Curve.generator`, `JointSpend.Curve.generatorPoint` — the generator of the group.
-/

namespace JointSpend.Curve

/-- A point in projective coordinates. -/
structure Projective where
  x : Nat
  y : Nat
  z : Nat
  deriving DecidableEq

namespace Projective

/-- The neutral element. -/
def infinity : Projective := ⟨1, 1, 0⟩

/-- A point in projective coordinates. -/
def ofPoint (p : Point) : Projective := ⟨p.x, p.y, 1⟩

/-- Twice a point. -/
def double (p : Projective) : Projective :=
  if p.z = 0 ∨ p.y = 0 then infinity
  else
    let m := fieldPrime
    let yy := p.y * p.y % m
    let s := 4 * p.x * yy % m
    let t := 3 * p.x * p.x % m
    let x := sub m (t * t % m) (2 * s % m)
    let y := sub m (t * (sub m s x) % m) (8 * yy * yy % m)
    ⟨x, y, 2 * p.y * p.z % m⟩

/-- The sum of two points. -/
def add (p q : Projective) : Projective :=
  if p.z = 0 then q
  else if q.z = 0 then p
  else
    let m := fieldPrime
    let pzz := p.z * p.z % m
    let qzz := q.z * q.z % m
    let u1 := p.x * qzz % m
    let u2 := q.x * pzz % m
    let s1 := p.y * qzz % m * q.z % m
    let s2 := q.y * pzz % m * p.z % m
    if u1 = u2 then
      if s1 = s2 then double p else infinity
    else
      let h := sub m u2 u1
      let r := sub m s2 s1
      let hh := h * h % m
      let hhh := h * hh % m
      let v := u1 * hh % m
      let x := sub m (sub m (r * r % m) hhh) (2 * v % m)
      let y := sub m (r * sub m v x % m) (s1 * hhh % m)
      ⟨x, y, h * p.z % m * q.z % m⟩

/-- The multiple of a point by the lowest `bits` bits of `k`. -/
def multipleBits (p : Projective) : Nat → Nat → Projective
  | 0, _ => infinity
  | bits + 1, k =>
    let d := double (multipleBits p bits (k / 2))
    if k % 2 = 1 then add d p else d

/-- The multiple of a point by a scalar below `2 ^ 256`. -/
def multiple (p : Projective) (k : Nat) : Projective :=
  multipleBits p 256 k

/-- The two coordinates, unless the point is at infinity. -/
def coordinates? (p : Projective) : Option (Nat × Nat) :=
  if p.z = 0 then none
  else
    let i := inverse fieldPrime p.z
    let ii := i * i % fieldPrime
    some (p.x * ii % fieldPrime, p.y * (ii * i % fieldPrime) % fieldPrime)

/-- The point with the coordinates, unless it is at infinity. -/
def point? (p : Projective) : Option Point := do
  let (x, y) ← p.coordinates?
  Point.lift? x (y % 2 == 1)

end Projective

/-- The generator of the group. -/
def generator : Projective :=
  ⟨0x79be667ef9dcbbac55a06295ce870b07029bfcdb2dce28d959f2815b16f81798,
    0x483ada7726a3c4655da4fbfc0e1108a8fd17b448a68554199c47d08ffb10d4b8, 1⟩

set_option maxRecDepth 100000 in
/-- The generator lies on the curve. -/
private theorem isAbscissa_generator : isAbscissa generator.x = true := by
  decide +kernel

/-- The generator as a point. -/
def generatorPoint : Point :=
  ⟨generator.x, false, isAbscissa_generator⟩

instance : Inhabited Point := ⟨generatorPoint⟩

end JointSpend.Curve
