set_option autoImplicit false
set_option relaxedAutoImplicit false

/-!
# Byte strings

Byte strings are lists of bytes. A reader takes a byte string and returns what it read together
with the unread tail, so that readers chain by plain pattern matching.

## Main definitions

* `JointSpend.Bytes` — a byte string.
* `JointSpend.Fixed` — a byte string of known length: digests, fingerprints, chain codes.
* `JointSpend.Bytes.splitExact` — the next `n` bytes and the rest, if there are `n`.
* `JointSpend.Bytes.littleEndian`, `JointSpend.Bytes.bigEndian` — fixed-width digits base 256.
* `JointSpend.Bytes.ofLittleEndian`, `JointSpend.Bytes.ofBigEndian` — their values.
-/

namespace JointSpend

/-- A byte string. -/
abbrev Bytes := List UInt8

/-- A reader consumes a beginning of its input and returns the unread tail. -/
abbrev Reader (α : Type) := Bytes → Option (α × Bytes)

namespace Bytes

/-- The next `n` bytes and the rest, or nothing when fewer than `n` are left. -/
def splitExact (n : Nat) (bs : Bytes) : Option (Bytes × Bytes) :=
  let front := bs.take n
  if front.length = n then some (front, bs.drop n) else none

/-- The `n` lowest digits of `v` base 256, least significant first. -/
def littleEndian : Nat → Nat → Bytes
  | 0, _ => []
  | n + 1, v => UInt8.ofNat (v % 256) :: littleEndian n (v / 256)

/-- The number whose digits base 256 are given, least significant first. -/
def ofLittleEndian : Bytes → Nat
  | [] => 0
  | b :: bs => b.toNat + 256 * ofLittleEndian bs

/-- The `n` lowest digits of `v` base 256, most significant first. -/
def bigEndian (n v : Nat) : Bytes :=
  (littleEndian n v).reverse

/-- The number whose digits base 256 are given, most significant first. -/
def ofBigEndian (bs : Bytes) : Nat :=
  bs.foldl (fun acc b => acc * 256 + b.toNat) 0

/-- The digits of `v` base 256 without leading zeros, most significant first; `v` has at most `n`
digits. Zero has none. -/
def minimalBigEndian (n v : Nat) : Bytes :=
  (bigEndian n v).dropWhile (· == 0)

/-- The bytes as numbers; byte strings are ordered through this list. -/
def ranks (bs : Bytes) : List Nat :=
  bs.map UInt8.toNat

theorem ranks_injective {a b : Bytes} (h : ranks a = ranks b) : a = b :=
  List.map_inj_right (fun _ _ => UInt8.toNat_inj.mp) |>.mp h

/-- Splits a byte string whose length is a multiple of `n` into pieces of `n` bytes. -/
def chunks (n : Nat) (bs : Bytes) : List Bytes :=
  go (bs.length / n) bs
where
  /-- The first `k` pieces. -/
  go : Nat → Bytes → List Bytes
    | 0, _ => []
    | k + 1, bs => bs.take n :: go k (bs.drop n)

/-- Reads one byte. -/
def readByte : Reader UInt8
  | [] => none
  | b :: rest => some (b, rest)

/-- Reads a number of `n` bytes, least significant first. -/
def readLittleEndian (n : Nat) : Reader Nat := fun bs => do
  let (digits, rest) ← splitExact n bs
  return (ofLittleEndian digits, rest)

/-- Reads a 32-bit word, least significant byte first. -/
def readUInt32 : Reader UInt32 := fun bs => do
  let (v, rest) ← readLittleEndian 4 bs
  return (UInt32.ofNat v, rest)

/-- Reads a 64-bit word, least significant byte first. -/
def readUInt64 : Reader UInt64 := fun bs => do
  let (v, rest) ← readLittleEndian 8 bs
  return (UInt64.ofNat v, rest)

/-- A 32-bit word, least significant byte first. -/
def ofUInt32 (w : UInt32) : Bytes :=
  littleEndian 4 w.toNat

/-- A 64-bit word, least significant byte first. -/
def ofUInt64 (w : UInt64) : Bytes :=
  littleEndian 8 w.toNat

/-- Runs a reader that has to consume its whole input. -/
def readAll {α : Type} (reader : Reader α) (bs : Bytes) : Option α :=
  match reader bs with
  | some (a, []) => some a
  | _ => none

/-- Runs a reader `n` times in a row. -/
def readMany {α : Type} (reader : Reader α) : Nat → Reader (List α)
  | 0, bs => some ([], bs)
  | n + 1, bs => do
    let (a, bs) ← reader bs
    let (as, bs) ← readMany reader n bs
    return (a :: as, bs)

end Bytes

/-- A byte string of exactly `n` bytes. -/
structure Fixed (n : Nat) where
  /-- The bytes. -/
  bytes : Bytes
  /-- There are `n` of them. -/
  length_eq : bytes.length = n
  deriving DecidableEq

namespace Fixed

variable {n : Nat}

/-- A byte string as one of `n` bytes, if it has that length. -/
def ofBytes? (n : Nat) (bs : Bytes) : Option (Fixed n) :=
  if h : bs.length = n then some ⟨bs, h⟩ else none

/-- The next `n` bytes. -/
def read (n : Nat) : Reader (Fixed n) := fun bs =>
  if h : (bs.take n).length = n then some (⟨bs.take n, h⟩, bs.drop n) else none

/-- The number whose big-endian digits are the bytes. -/
def toNat (d : Fixed n) : Nat :=
  Bytes.ofBigEndian d.bytes

/-- The first `n` bytes of a byte string, filled up with zeros on the right. -/
def ofPrefix (n : Nat) (bs : Bytes) : Fixed n :=
  ⟨(bs ++ List.replicate n 0).take n, by simp⟩

/-- All bytes zero. -/
def zero (n : Nat) : Fixed n :=
  ⟨List.replicate n 0, by simp⟩

/-- The bytes as numbers. -/
def ranks (d : Fixed n) : List Nat :=
  Bytes.ranks d.bytes

theorem length_ranks (d : Fixed n) : d.ranks.length = n := by
  simp [ranks, Bytes.ranks, d.length_eq]

theorem ranks_injective {a b : Fixed n} (h : a.ranks = b.ranks) : a = b := by
  obtain ⟨as, ha⟩ := a
  obtain ⟨bs, hb⟩ := b
  obtain rfl := Bytes.ranks_injective h
  rfl

theorem flatMap_ranks_injective {as bs : List (Fixed (n + 1))}
    (h : as.flatMap ranks = bs.flatMap ranks) : as = bs := by
  induction as generalizing bs with
  | nil =>
    cases bs with
    | nil => rfl
    | cons b bs =>
      have := congrArg List.length h
      simp [length_ranks] at this
      omega
  | cons a as ih =>
    cases bs with
    | nil =>
      have := congrArg List.length h
      simp [length_ranks] at this
    | cons b bs =>
      rw [List.flatMap_cons, List.flatMap_cons] at h
      obtain ⟨h1, h2⟩ := List.append_inj h (by rw [length_ranks, length_ranks])
      rw [ranks_injective h1, ih h2]

instance : Inhabited (Fixed n) := ⟨zero n⟩

end Fixed

end JointSpend
