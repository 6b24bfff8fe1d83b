import JointSpend.CompactSize
import JointSpend.Curve.Point
import JointSpend.Hash.Derived
import JointSpend.Script.Basic

set_option autoImplicit false
set_option relaxedAutoImplicit false

/-!
# Script trees

The scripts that a taproot output commits to are the leaves of a binary tree. The digest of a
branch does not depend on the order of its two sides, so a tree is kept with the side of the lesser
digest first.

## Main definitions

* `JointSpend.LeafVersion`, `JointSpend.LeafScript` — a script with the version of its rules.
* `JointSpend.TapTree` — a tree of leaves.
* `JointSpend.TapTree.bytes`, `JointSpend.TapTree.ofBytes?` — the leaves with their depths.
* `JointSpend.ControlBlock` — the proof that a leaf belongs to an output.
-/

namespace JointSpend

/-- The version of the rules for a leaf: an even byte other than `50`. -/
structure LeafVersion where
  /-- The byte. -/
  byte : UInt8
  /-- It is even and not the mark of an annex. -/
  valid : byte % 2 = 0 ∧ byte ≠ 0x50
  deriving DecidableEq

namespace LeafVersion

/-- The version with the given byte. -/
def ofByte? (b : UInt8) : Option LeafVersion :=
  if h : b % 2 = 0 ∧ b ≠ 0x50 then some ⟨b, h⟩ else none

/-- The version of tapscript comes before all others. -/
def rank (v : LeafVersion) : Nat :=
  if v.byte = 0xc0 then 0 else 1 + v.byte.toNat

private theorem rank_injective {a b : LeafVersion} (h : a.rank = b.rank) : a = b := by
  obtain ⟨a, ha⟩ := a
  obtain ⟨b, hb⟩ := b
  simp only [rank] at h
  split at h <;> split at h
  · simp_all
  · omega
  · omega
  · obtain rfl := UInt8.toNat_inj.mp (Nat.add_left_cancel h)
    rfl

end LeafVersion

/-- A script with the version of its rules. -/
structure LeafScript where
  script : Script
  version : LeafVersion
  deriving DecidableEq

namespace LeafScript

/-- The written form: the script and the byte of the version. -/
def bytes (l : LeafScript) : Bytes :=
  l.script.bytes ++ [l.version.byte]

/-- Reads a leaf that fills the byte string. -/
def ofBytes? (bs : Bytes) : Option LeafScript := do
  let last ← bs.getLast?
  let version ← LeafVersion.ofByte? last
  return ⟨⟨bs.dropLast⟩, version⟩

/-- The digest of a leaf. -/
def digest (l : LeafScript) : Fixed 32 :=
  Hash.tagged "TapLeaf" (l.version.byte :: CompactSize.writeBytes l.script.bytes)

end LeafScript

/-- A tree of leaves. -/
inductive TapTree where
  | leaf (l : LeafScript)
  | branch (left right : TapTree)
  deriving DecidableEq

namespace TapTree

/-- The digest of a branch whose sides have the given digests, the lesser one first. -/
def branchDigest (a b : Fixed 32) : Fixed 32 :=
  Hash.tagged "TapBranch" (a.bytes ++ b.bytes)

/-- A tree with its digest. -/
abbrev Measured := TapTree × Fixed 32

/-- Joins two trees, the one with the lesser digest first. -/
def join (a b : Measured) : Measured :=
  if Bytes.ranks b.2.bytes < Bytes.ranks a.2.bytes then
    (.branch b.1 a.1, branchDigest b.2 a.2)
  else (.branch a.1 b.1, branchDigest a.2 b.2)

/-- The leaves from left to right with their depths, in a tree whose root has the given depth. -/
def leaves (depth : Nat) : TapTree → List (Nat × LeafScript)
  | .leaf l => [(depth, l)]
  | .branch a b => leaves (depth + 1) a ++ leaves (depth + 1) b

/-- The tree whose root has the given depth and whose leaves are at the beginning of a list, and
the rest of the list. No leaf is deeper than `room` below the root. -/
def ofLeaves? : Nat → Nat → List (Nat × LeafScript) → Option (Measured × List (Nat × LeafScript))
  | _, _, [] => none
  | room, depth, (d, l) :: rest =>
    if d = depth then some ((.leaf l, l.digest), rest)
    else
      match room with
      | 0 => none
      | room + 1 => do
        let (a, rest) ← ofLeaves? room (depth + 1) ((d, l) :: rest)
        let (b, rest) ← ofLeaves? room (depth + 1) rest
        return (join a b, rest)

/-- The greatest depth of a leaf. -/
def maxDepth : Nat := 128

/-- The written form of a leaf in a tree: depth, version, script. -/
def leafBytes (l : Nat × LeafScript) : Bytes :=
  UInt8.ofNat l.1 :: l.2.version.byte :: CompactSize.writeBytes l.2.script.bytes

/-- Reads a leaf with its depth. -/
def readLeaf : Reader (Nat × LeafScript) := fun bs => do
  let (depth, bs) ← Bytes.readByte bs
  let (byte, bs) ← Bytes.readByte bs
  let (script, bs) ← CompactSize.readBytes bs
  let version ← LeafVersion.ofByte? byte
  return ((depth.toNat, ⟨⟨script⟩, version⟩), bs)

/-- Reads at most `bound` leaves that fill the byte string. -/
def readLeaves : Nat → Bytes → Option (List (Nat × LeafScript))
  | _, [] => some []
  | 0, _ :: _ => none
  | bound + 1, b :: bs => do
    let (l, rest) ← readLeaf (b :: bs)
    let ls ← readLeaves bound rest
    return l :: ls

/-- The written form: the leaves with their depths. -/
def bytes (t : TapTree) : Bytes :=
  (t.leaves 0).flatMap leafBytes

/-- Reads the leaves of one whole tree, in any order of the sides of its branches. -/
def ofBytes? (bs : Bytes) : Option TapTree := do
  let ls ← readLeaves bs.length bs
  match ← ofLeaves? maxDepth 0 ls with
  | ((t, _), []) => return t
  | _ => none

end TapTree

/-- The proof that a leaf belongs to an output: the internal key and the digests of the other sides
on the way to the root. -/
structure ControlBlock where
  /-- The version of the leaf. -/
  version : LeafVersion
  /-- Whether the second coordinate of the output key is odd. -/
  odd : Bool
  /-- The internal key. -/
  key : Curve.XOnly
  /-- The digests of the other sides. -/
  path : List (Fixed 32)
  /-- There are at most 128 of them. -/
  path_le : path.length ≤ 128
  deriving DecidableEq

namespace ControlBlock

/-- The written form. -/
def bytes (c : ControlBlock) : Bytes :=
  (c.version.byte + (if c.odd then 1 else 0)) :: c.key.bytes ++ c.path.flatMap (·.bytes)

/-- Reads a control block that fills the byte string. -/
def ofBytes? : Bytes → Option ControlBlock
  | [] => none
  | b :: rest => do
    let version ← LeafVersion.ofByte? (b - b % 2)
    let key ← Curve.XOnly.ofBytes? (rest.take 32)
    let tail := rest.drop 32
    if tail.length % 32 = 0 then
      let path ← (Bytes.chunks 32 tail).mapM (Fixed.ofBytes? 32)
      if h : path.length ≤ 128 then return ⟨version, b % 2 == 1, key, path, h⟩ else none
    else none

/-- Control blocks are ordered by version, parity, key and path. -/
def ranks (c : ControlBlock) : List Nat :=
  c.version.rank :: (if c.odd then 1 else 0) :: c.key.x :: c.path.flatMap Fixed.ranks

theorem ranks_injective {a b : ControlBlock} (h : a.ranks = b.ranks) : a = b := by
  obtain ⟨av, ao, ⟨ax, hax⟩, ap, hap⟩ := a
  obtain ⟨bv, bo, ⟨bx, hbx⟩, bp, hbp⟩ := b
  simp only [ranks, List.cons.injEq] at h
  obtain ⟨hv, ho, rfl, hp⟩ := h
  obtain rfl := LeafVersion.rank_injective hv
  obtain rfl := Fixed.flatMap_ranks_injective hp
  cases ao <;> cases bo <;> simp_all

end ControlBlock

end JointSpend
