import JointSpend.Curve.Field
import JointSpend.Bytes

set_option autoImplicit false
set_option relaxedAutoImplicit false

/-!
# Points of the curve

A point is kept as its first coordinate and the parity of the second, with a proof that the first
coordinate belongs to a point. This is the content of the short serialized form, so that equal
points are equal values, and a value of the type needs no further check.

## Main definitions

* `JointSpend.Curve.Point` — a point other than the point at infinity.
* `JointSpend.Curve.Point.ofShort?`, `JointSpend.Curve.Point.ofLong?` — from the serialized forms.
* `JointSpend.Curve.XOnly` — a point with even second coordinate, given by the first.
-/

namespace JointSpend.Curve

/-- Whether a number is the first coordinate of a point. -/
def isAbscissa (x : Nat) : Bool :=
  let y := root (cubic x)
  x < fieldPrime && y != 0 && y * y % fieldPrime == cubic x

/-- A point of the curve other than the point at infinity. -/
structure Point where
  /-- The first coordinate. -/
  x : Nat
  /-- Whether the second coordinate is odd. -/
  odd : Bool
  /-- The first coordinate belongs to a point. -/
  onCurve : isAbscissa x = true
  deriving DecidableEq

namespace Point

/-- The second coordinate. -/
def y (p : Point) : Nat :=
  let r := root (cubic p.x)
  if (r % 2 == 1) == p.odd then r else fieldPrime - r

/-- The point with the given first coordinate and parity. -/
def lift? (x : Nat) (odd : Bool) : Option Point :=
  if h : isAbscissa x = true then some ⟨x, odd, h⟩ else none

/-- The point with the given coordinates, if they satisfy the equation. -/
def ofCoordinates? (x y : Nat) : Option Point :=
  if y < fieldPrime ∧ y * y % fieldPrime = cubic x then lift? x (y % 2 == 1) else none

/-- The short form: the parity and the first coordinate in 33 bytes. -/
def shortBytes (p : Point) : Bytes :=
  (if p.odd then 3 else 2) :: Bytes.bigEndian 32 p.x

/-- The long form: both coordinates in 65 bytes. -/
def longBytes (p : Point) : Bytes :=
  4 :: Bytes.bigEndian 32 p.x ++ Bytes.bigEndian 32 p.y

/-- Reads the short form. -/
def ofShort? : Bytes → Option Point
  | [] => none
  | b :: xs =>
    if xs.length ≠ 32 then none
    else if b = 2 then lift? (Bytes.ofBigEndian xs) false
    else if b = 3 then lift? (Bytes.ofBigEndian xs) true
    else none

/-- Reads the long form behind its first byte. -/
def ofLong? (coordinates : Bytes) : Option Point :=
  if coordinates.length = 64 then
    ofCoordinates? (Bytes.ofBigEndian (coordinates.take 32))
      (Bytes.ofBigEndian (coordinates.drop 32))
  else none

/-- Reads any serialized form: the short one, the long one, and the long one whose first byte
repeats the parity. -/
def ofBytes? : Bytes → Option Point
  | [] => none
  | b :: rest =>
    if rest.length = 32 then ofShort? (b :: rest)
    else if b = 4 then ofLong? rest
    else if b = 6 then (ofLong? rest).filter fun p => !p.odd
    else if b = 7 then (ofLong? rest).filter fun p => p.odd
    else none

/-- Points are ordered as their short forms are. -/
def ranks (p : Point) : List Nat :=
  [if p.odd then 3 else 2, p.x]

theorem ranks_injective {p q : Point} (h : p.ranks = q.ranks) : p = q := by
  obtain ⟨px, po, hp⟩ := p
  obtain ⟨qx, qo, hq⟩ := q
  cases po <;> cases qo <;> simp_all [ranks]

end Point

/-- The first coordinate of a point whose second coordinate is even. -/
structure XOnly where
  /-- The coordinate. -/
  x : Nat
  /-- It belongs to a point. -/
  onCurve : isAbscissa x = true
  deriving DecidableEq

namespace XOnly

theorem ext_x {a b : XOnly} (h : a.x = b.x) : a = b := by
  cases a
  cases b
  simp_all

/-- The coordinate in 32 bytes. -/
def bytes (k : XOnly) : Bytes :=
  Bytes.bigEndian 32 k.x

/-- Reads a coordinate of 32 bytes. -/
def ofBytes? (bs : Bytes) : Option XOnly :=
  if bs.length = 32 then
    let x := Bytes.ofBigEndian bs
    if h : isAbscissa x = true then some ⟨x, h⟩ else none
  else none

/-- The point with even second coordinate. -/
def point (k : XOnly) : Point :=
  ⟨k.x, false, k.onCurve⟩

end XOnly

/-- The point without the parity of its second coordinate. -/
def Point.xOnly (p : Point) : XOnly :=
  ⟨p.x, p.onCurve⟩

end JointSpend.Curve
