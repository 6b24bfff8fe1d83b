set_option autoImplicit false
set_option relaxedAutoImplicit false

/-!
# The shortest decimal of a floating-point number

A finite binary floating-point number stands for all reals that round to it. Of the decimals among
them, those with the fewest digits are considered, and of these the one nearest to the number is
its text. Everything is computed with natural numbers, scaled so that no fraction is left.

## Main definitions

* `JointSpend.Text.Binary` — a positive number with the reals that round to it.
* `JointSpend.Text.Binary.shortest` — its shortest decimal.
* `JointSpend.Text.floatText` — the text of a floating-point number.
-/

namespace JointSpend.Text

/-- The number `value / scale` and the bounds `low / scale` and `high / scale` of the reals that
round to it. -/
structure Binary where
  value : Nat
  low : Nat
  high : Nat
  scale : Nat
  /-- Whether the bounds round to the number as well. -/
  closed : Bool
  deriving DecidableEq

/-- The number `digits * 10 ^ exponent`. -/
structure Decimal where
  digits : Nat
  exponent : Int
  deriving DecidableEq

namespace Binary

/-- The number with significand `m` and exponent `e`, where `m * 2 ^ e` is the value. The gap below
a power of two is half the gap above it, except for the least exponent. -/
def ofParts (m : Nat) (e : Int) (narrow : Bool) : Binary :=
  let up := Nat.pow 2 e.toNat
  let down := Nat.pow 2 (-e).toNat
  { value := 4 * m * up
    low := (4 * m - (if narrow then 1 else 2)) * up
    high := (4 * m + 2) * up
    scale := 4 * down
    closed := m % 2 == 0 }

/-- Whether `n * unit / scale` rounds to the number. -/
def covers (b : Binary) (n unit scale : Nat) : Bool :=
  let x := n * unit * b.scale
  if b.closed then b.low * scale ≤ x && x ≤ b.high * scale
  else b.low * scale < x && x < b.high * scale

/-- The multiple of `unit / scale` that is nearest to the number, among the two next to it that
round to it. -/
def nearest? (b : Binary) (unit scale : Nat) : Option Nat :=
  let n := b.value * scale / (b.scale * unit)
  let below := b.value * scale - n * unit * b.scale
  let above := (n + 1) * unit * b.scale - b.value * scale
  match b.covers n unit scale, b.covers (n + 1) unit scale with
  | true, true =>
    if below < above then some n
    else if above < below then some (n + 1)
    else if n % 2 = 0 then some n
    else some (n + 1)
  | true, false => some n
  | false, true => some (n + 1)
  | false, false => none

/-- The nearest multiple of `10 ^ exponent`. -/
def atExponent? (b : Binary) (exponent : Int) : Option Decimal :=
  (b.nearest? (Nat.pow 10 exponent.toNat) (Nat.pow 10 (-exponent).toNat)).map fun n => ⟨n, exponent⟩

/-- The first decimal, going down from an exponent. -/
def search (b : Binary) : Nat → Int → Decimal
  | 0, exponent =>
    ⟨b.value * Nat.pow 10 (-exponent).toNat / (b.scale * Nat.pow 10 exponent.toNat), exponent⟩
  | fuel + 1, exponent =>
    match b.atExponent? exponent with
    | some d => if d.digits = 0 then search b fuel (exponent - 1) else d
    | none => search b fuel (exponent - 1)

/-- The shortest decimal. No finite number reaches the greatest exponent, and no number needs an
exponent beyond the last one. -/
def shortest (b : Binary) : Decimal :=
  b.search 700 310

end Binary

namespace Decimal

/-- The text of a decimal: with a point where that is short, and otherwise with an exponent. -/
def text (d : Decimal) : String :=
  let digits := Nat.toDigits 10 d.digits
  let count := digits.length
  let point := (count : Int) + d.exponent
  let zeros (n : Int) := List.replicate n.toNat '0'
  String.ofList <|
    if 0 ≤ d.exponent ∧ point ≤ 16 then digits ++ zeros d.exponent ++ ['.', '0']
    else if 0 < point ∧ point ≤ 16 then
      digits.take point.toNat ++ '.' :: digits.drop point.toNat
    else if -5 < point ∧ point ≤ 0 then '0' :: '.' :: zeros (-point) ++ digits
    else
      digits.take 1 ++ (if count = 1 then [] else '.' :: digits.drop 1) ++
        'e' :: (toString (point - 1)).toList

end Decimal

/-- The text of a finite floating-point number: its shortest decimal. -/
def floatText (x : Float) : String :=
  let bits : Nat := x.toBits.toNat
  let sign := if bits < 0x8000000000000000 then "" else "-"
  let fraction : Nat := bits % 0x10000000000000
  let exponent : Nat := bits / 0x10000000000000 % 0x800
  sign ++
    if fraction = 0 ∧ exponent = 0 then "0.0"
    else if exponent = 0 then (Binary.ofParts fraction (-1074) false).shortest.text
    else
      (Binary.ofParts (0x10000000000000 + fraction) ((exponent : Int) - 1075)
        (fraction == 0 && 1 < exponent)).shortest.text

end JointSpend.Text
