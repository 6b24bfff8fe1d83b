import JointSpend.Bytes
import Mathlib.Data.List.Basic
import Mathlib.Tactic.Ring

set_option autoImplicit false
set_option relaxedAutoImplicit false

/-!
# Numbers as byte strings

Fixed-width digits base 256 are read back as the number they were written for, and a byte string in
front of others is split off again.

## Main results

* `JointSpend.Bytes.ofLittleEndian_littleEndian`, `JointSpend.Bytes.ofBigEndian_bigEndian` — digits
  and their values.
* `JointSpend.Bytes.ofBigEndian_minimalBigEndian` — leading zeros do not matter.
* `JointSpend.Bytes.splitExact_append` — splitting off a beginning.
-/

namespace JointSpend

namespace Bytes

/-- Splitting off as many bytes as the first of two byte strings has. -/
theorem splitExact_append {n : Nat} {front : Bytes} (h : front.length = n) (rest : Bytes) :
    splitExact n (front ++ rest) = some (front, rest) := by
  simp [splitExact, ← h]

/-- What is left when bytes are split off is no longer than before. -/
theorem length_le_of_splitExact {n : Nat} {bs : Bytes} {r : Bytes × Bytes}
    (h : splitExact n bs = some r) : r.2.length ≤ bs.length := by
  unfold splitExact at h
  dsimp only at h
  split at h
  · obtain rfl := Option.some.inj h
    simp
  · simp at h

@[simp]
theorem length_littleEndian (n v : Nat) : (littleEndian n v).length = n := by
  induction n generalizing v with
  | zero => rfl
  | succ n ih => rw [littleEndian, List.length_cons, ih]

@[simp]
theorem length_bigEndian (n v : Nat) : (bigEndian n v).length = n := by
  rw [bigEndian, List.length_reverse, length_littleEndian]

/-- A number that fits is read back from its digits. -/
theorem ofLittleEndian_littleEndian {n v : Nat} (h : v < 256 ^ n) :
    ofLittleEndian (littleEndian n v) = v := by
  induction n generalizing v with
  | zero =>
    obtain rfl : v = 0 := by simpa using h
    rfl
  | succ n ih =>
    have hdiv : v / 256 < 256 ^ n := by
      rw [Nat.div_lt_iff_lt_mul (by decide)]
      rwa [Nat.pow_succ] at h
    have hdigit : (UInt8.ofNat (v % 256)).toNat = v % 256 := by
      rw [UInt8.toNat_ofNat']
      omega
    rw [littleEndian, ofLittleEndian, ih hdiv, hdigit]
    omega

/-- The value of digits does not depend on which end one starts from. -/
theorem ofBigEndian_eq (bs : Bytes) : ofBigEndian bs = ofLittleEndian bs.reverse := by
  have hfold : ∀ (cs : Bytes) (acc : Nat),
      cs.reverse.foldl (fun acc b => acc * 256 + b.toNat) acc =
        ofLittleEndian cs + 256 ^ cs.length * acc := by
    intro cs
    induction cs with
    | nil => simp [ofLittleEndian]
    | cons c cs ih =>
      intro acc
      rw [List.reverse_cons, List.foldl_append, ih, ofLittleEndian, List.length_cons, Nat.pow_succ]
      simp only [List.foldl_cons, List.foldl_nil]
      ring
  have h := hfold bs.reverse 0
  rw [List.reverse_reverse] at h
  rw [ofBigEndian, h, Nat.mul_zero, Nat.add_zero]

theorem ofBigEndian_bigEndian {n v : Nat} (h : v < 256 ^ n) : ofBigEndian (bigEndian n v) = v := by
  rw [ofBigEndian_eq, bigEndian, List.reverse_reverse, ofLittleEndian_littleEndian h]

/-- A leading zero does not change the value. -/
theorem ofBigEndian_zero_cons (bs : Bytes) : ofBigEndian (0 :: bs) = ofBigEndian bs :=
  rfl

/-- Leading zeros do not change the value. -/
private theorem ofBigEndian_dropWhile (bs : Bytes) :
    ofBigEndian (bs.dropWhile (· == 0)) = ofBigEndian bs := by
  induction bs with
  | nil => rfl
  | cons b bs ih =>
    by_cases hb : b = 0
    · subst hb
      rw [List.dropWhile_cons_of_pos (by simp), ih, ofBigEndian_zero_cons]
    · rw [List.dropWhile_cons_of_neg (by simpa using hb)]

theorem ofBigEndian_minimalBigEndian {n v : Nat} (h : v < 256 ^ n) :
    ofBigEndian (minimalBigEndian n v) = v := by
  rw [minimalBigEndian, ofBigEndian_dropWhile, ofBigEndian_bigEndian h]

theorem length_minimalBigEndian_le (n v : Nat) : (minimalBigEndian n v).length ≤ n := by
  have h := (List.dropWhile_suffix (l := bigEndian n v) (· == 0)).length_le
  rwa [length_bigEndian] at h

/-- The first of the digits without leading zeros is not zero. -/
theorem ne_zero_of_minimalBigEndian {n v : Nat} {b : UInt8} {bs : Bytes}
    (h : minimalBigEndian n v = b :: bs) : b ≠ 0 := by
  have hhead := List.head?_dropWhile_not (fun b : UInt8 => b == 0) (bigEndian n v)
  rw [← minimalBigEndian, h] at hhead
  simpa using hhead

end Bytes

/-- The bytes of a byte string of known length have that length. -/
theorem Fixed.ofBytes?_bytes {n : Nat} (d : Fixed n) : Fixed.ofBytes? n d.bytes = some d := by
  rw [Fixed.ofBytes?, dif_pos d.length_eq]

end JointSpend
