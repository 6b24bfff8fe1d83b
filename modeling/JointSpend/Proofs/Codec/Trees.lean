import JointSpend.Proofs.Codec.Values

set_option autoImplicit false
set_option relaxedAutoImplicit false

/-!
# Script trees are read back

A script tree is written as its leaves with their depths, from left to right. The reader accepts the
two sides of a branch in either order and keeps the side of the lesser digest first, so one tree has
many spellings, and only trees in this order are read back as they are. All trees that were read are
in this order.

## Main definitions

* `JointSpend.TapTree.digest`, `JointSpend.TapTree.height` — digest and greatest depth of a tree.
* `JointSpend.TapTree.Ordered` — at each branch, the side of the lesser digest comes first.

## Main results

* `JointSpend.TapTree.ofLeaves?_leaves` — an ordered tree is found again from its leaves.
* `JointSpend.TapTree.spec_of_ofLeaves?` — what is found from leaves is an ordered tree of these
  leaves.
* `JointSpend.TapTree.kept` — script trees are kept.
-/

namespace JointSpend.TapTree

open CompactSize (maxLength Takeable)

/-! ## Trees and their leaves -/

/-- The digest of a tree. -/
def digest : TapTree → Fixed 32
  | .leaf l => l.digest
  | .branch a b => branchDigest a.digest b.digest

/-- The greatest depth of a leaf below the root. -/
def height : TapTree → Nat
  | .leaf _ => 0
  | .branch a b => max a.height b.height + 1

/-- At each branch, the side of the lesser digest comes first. -/
def Ordered : TapTree → Prop
  | .leaf _ => True
  | .branch a b =>
    ¬ Bytes.ranks b.digest.bytes < Bytes.ranks a.digest.bytes ∧ a.Ordered ∧ b.Ordered

/-- Joining trees gives the digest of the branch. -/
private theorem snd_join (a b : TapTree) :
    (join (a, a.digest) (b, b.digest)).2 = (join (a, a.digest) (b, b.digest)).1.digest := by
  unfold join
  split <;> rfl

/-- The first leaf of a tree is not above its root. -/
private theorem exists_leaves_eq_cons (t : TapTree) (depth : Nat) :
    ∃ d l ls, t.leaves depth = (d, l) :: ls ∧ depth ≤ d := by
  induction t generalizing depth with
  | leaf l => exact ⟨depth, l, [], rfl, le_rfl⟩
  | branch a b iha _ =>
    obtain ⟨d, l, ls, hls, hd⟩ := iha (depth + 1)
    exact ⟨d, l, ls ++ b.leaves (depth + 1), by rw [leaves, hls, List.cons_append], by omega⟩

/-- No leaf is deeper than the height of the tree. -/
private theorem le_of_mem_leaves {t : TapTree} {depth : Nat} {l : Nat × LeafScript}
    (h : l ∈ t.leaves depth) : l.1 ≤ depth + t.height := by
  induction t generalizing depth with
  | leaf l' =>
    obtain rfl := List.mem_singleton.mp h
    exact Nat.le_add_right _ _
  | branch a b iha ihb =>
    rw [leaves, List.mem_append] at h
    rw [height]
    rcases h with h | h
    · have := iha h
      omega
    · have := ihb h
      omega

/-- A leaf at the depth of the root is the whole tree. -/
private theorem ofLeaves?_self (room depth : Nat) (l : LeafScript) (ls : List (Nat × LeafScript)) :
    ofLeaves? room depth ((depth, l) :: ls) = some ((.leaf l, l.digest), ls) := by
  cases room <;> rw [ofLeaves?, if_pos rfl]

/-- Below a root that is no leaf, both sides are looked for. -/
private theorem ofLeaves?_of_lt {room depth d : Nat} {l : LeafScript} {ls : List (Nat × LeafScript)}
    (hd : d ≠ depth) : ofLeaves? (room + 1) depth ((d, l) :: ls) =
      (ofLeaves? room (depth + 1) ((d, l) :: ls)).bind fun (a, rest) =>
        (ofLeaves? room (depth + 1) rest).bind fun (b, rest) => some (join a b, rest) := by
  rw [ofLeaves?, if_neg hd]
  rfl

/-- **An ordered tree is found again** from its leaves. -/
theorem ofLeaves?_leaves {t : TapTree} (ht : t.Ordered) {room : Nat} (hroom : t.height ≤ room)
    (depth : Nat) (rest : List (Nat × LeafScript)) :
    ofLeaves? room depth (t.leaves depth ++ rest) = some ((t, t.digest), rest) := by
  induction t generalizing room depth rest with
  | leaf l =>
    rw [leaves, List.singleton_append, ofLeaves?_self]
    rfl
  | branch a b iha ihb =>
    obtain ⟨hle, ha, hb⟩ := ht
    rw [height] at hroom
    obtain ⟨room, rfl⟩ : ∃ n, room = n + 1 := ⟨room - 1, by omega⟩
    obtain ⟨d, l, ls, hls, hd⟩ := exists_leaves_eq_cons a (depth + 1)
    have hroom' : a.height ≤ room ∧ b.height ≤ room := by omega
    have hfirst := iha ha hroom'.1 (depth + 1) (b.leaves (depth + 1) ++ rest)
    have hsecond := ihb hb hroom'.2 (depth + 1) rest
    rw [leaves, List.append_assoc]
    rw [hls, List.cons_append] at hfirst ⊢
    rw [ofLeaves?_of_lt (by omega), hfirst, Option.bind_some]
    dsimp only
    rw [hsecond, Option.bind_some]
    dsimp only
    rw [join, if_neg hle]
    rfl

/-- What is found from leaves: an ordered tree with its digest, not higher than there is room, made
of the leaves that are gone. -/
structure Found (room depth : Nat) (ls : List (Nat × LeafScript)) (t : Measured)
    (rest : List (Nat × LeafScript)) : Prop where
  digest : t.2 = t.1.digest
  ordered : t.1.Ordered
  height_le : t.1.height ≤ room
  perm : (t.1.leaves depth ++ rest).Perm ls

/-- Two trees found one after another are joined. -/
theorem Found.join {room depth : Nat} {ls ls' rest : List (Nat × LeafScript)} {a b : Measured}
    (ha : Found room (depth + 1) ls a ls') (hb : Found room (depth + 1) ls' b rest) :
    Found (room + 1) depth ls (join a b) rest := by
  obtain ⟨a, da⟩ := a
  obtain ⟨b, db⟩ := b
  obtain rfl : da = a.digest := ha.digest
  obtain rfl : db = b.digest := hb.digest
  have hheights : max a.height b.height ≤ room := max_le ha.height_le hb.height_le
  have hperm : (a.leaves (depth + 1) ++ (b.leaves (depth + 1) ++ rest)).Perm ls :=
    (hb.perm.append_left _).trans ha.perm
  refine ⟨snd_join a b, ?_, ?_, ?_⟩
  · unfold TapTree.join
    split
    · next hlt => exact ⟨List.lt_asymm hlt, hb.ordered, ha.ordered⟩
    · next hge => exact ⟨hge, ha.ordered, hb.ordered⟩
  · unfold TapTree.join
    split
    · rw [height, max_comm]
      exact Nat.succ_le_succ hheights
    · rw [height]
      exact Nat.succ_le_succ hheights
  · unfold TapTree.join
    split
    · rw [leaves, List.append_assoc]
      refine List.Perm.trans ?_ hperm
      rw [← List.append_assoc, ← List.append_assoc]
      exact (List.perm_append_comm).append_right rest
    · rw [leaves, List.append_assoc]
      exact hperm

/-- **What is found from leaves** is an ordered tree of these leaves. -/
theorem spec_of_ofLeaves? {room depth : Nat} {ls rest : List (Nat × LeafScript)} {t : Measured}
    (h : ofLeaves? room depth ls = some (t, rest)) : Found room depth ls t rest := by
  induction room generalizing depth ls t rest with
  | zero =>
    cases ls with
    | nil => simp [ofLeaves?] at h
    | cons head ls =>
      obtain ⟨d, l⟩ := head
      rw [ofLeaves?] at h
      split at h
      · next hd =>
        obtain ⟨rfl, rfl⟩ := Prod.mk.inj (Option.some.inj h)
        exact ⟨rfl, trivial, le_rfl, by rw [hd]; exact .refl _⟩
      · simp at h
  | succ room ih =>
    cases ls with
    | nil => simp [ofLeaves?] at h
    | cons head ls =>
      obtain ⟨d, l⟩ := head
      by_cases hd : d = depth
      · subst hd
        rw [ofLeaves?_self] at h
        obtain ⟨rfl, rfl⟩ := Prod.mk.inj (Option.some.inj h)
        exact ⟨rfl, trivial, Nat.zero_le _, .refl _⟩
      · rw [ofLeaves?_of_lt hd] at h
        simp only [Option.bind_eq_some_iff, Option.some.injEq, Prod.mk.injEq, Prod.exists] at h
        obtain ⟨a, da, ls', ha, b, db, rest', hb, rfl, rfl⟩ := h
        exact (ih ha).join (ih hb)

/-! ## Reading the leaves -/

/-- A leaf that can be written and read. -/
private def ReadableLeaf (l : Nat × LeafScript) : Prop :=
  l.1 < 256 ∧ Takeable l.2.script.bytes

/-- Leaves are read as they are written. -/
private theorem reads_leaf : Reads readLeaf ReadableLeaf leafBytes := by
  rintro bs ⟨depth, ⟨script, version⟩⟩ rest
  simp only [readLeaf, Option.bind_eq_bind, Option.bind_eq_some_iff, Option.pure_def,
    Option.some.injEq, Prod.mk.injEq, Prod.exists, Bytes.readByte_eq_some_iff,
    CompactSize.reads_bytes _ _ _]
  constructor
  · rintro ⟨depth', r, rfl, byte, s, rfl, script', t, ⟨hscript, rfl⟩, version', hversion,
      ⟨rfl, hleaf⟩, rfl⟩
    obtain ⟨rfl, rfl⟩ := LeafScript.mk.inj hleaf
    refine ⟨⟨depth'.toNat_lt, hscript⟩, ?_⟩
    rw [leafBytes, LeafVersion.byte_of_ofByte? hversion, UInt8.ofNat_toNat]
    rfl
  · rintro ⟨⟨hdepth, hscript⟩, rfl⟩
    refine ⟨UInt8.ofNat depth, _, rfl, version.byte, _, rfl, script.bytes, rest,
      ⟨hscript, rfl⟩, version, version.ofByte?_byte, ⟨?_, rfl⟩, rfl⟩
    exact UInt8.toNat_ofNat_of_lt' hdepth

/-- Leaves that fill a byte string are read as they are written. -/
private theorem readLeaves_eq_some_iff {bound : Nat} {bs : Bytes} {ls : List (Nat × LeafScript)} :
    readLeaves bound bs = some ls ↔
      ls.length ≤ bound ∧ (∀ l ∈ ls, ReadableLeaf l) ∧ bs = ls.flatMap leafBytes := by
  have hwritten : ∀ (l : Nat × LeafScript) (ls : List (Nat × LeafScript)),
      (l :: ls).flatMap leafBytes = UInt8.ofNat l.1 :: (l.2.version.byte ::
        CompactSize.writeBytes l.2.script.bytes ++ ls.flatMap leafBytes) := fun _ _ => rfl
  induction bound generalizing bs ls with
  | zero =>
    constructor
    · intro h
      cases bs with
      | nil =>
        obtain rfl := Option.some.inj h
        simp
      | cons b bs => simp [readLeaves] at h
    · rintro ⟨hlen, -, rfl⟩
      obtain rfl := List.length_eq_zero_iff.mp (Nat.le_zero.mp hlen)
      rfl
  | succ bound ih =>
    cases bs with
    | nil =>
      constructor
      · intro h
        obtain rfl := Option.some.inj h
        simp
      · rintro ⟨-, -, hnil⟩
        cases ls with
        | nil => rfl
        | cons l ls => simp [hwritten] at hnil
    | cons b bs =>
      simp only [readLeaves, Option.bind_eq_bind, Option.bind_eq_some_iff, Option.pure_def,
        Option.some.injEq, Prod.exists, reads_leaf _ ⟨_, _⟩ _, ih]
      constructor
      · rintro ⟨d, l, rest, ⟨hl, hb⟩, ls', ⟨hlen, hls, rfl⟩, rfl⟩
        refine ⟨by rw [List.length_cons]; omega, List.forall_mem_cons.mpr ⟨hl, hls⟩, ?_⟩
        rw [hb, List.flatMap_cons]
      · rintro ⟨hlen, hls, hb⟩
        cases ls with
        | nil => simp at hb
        | cons l ls =>
          obtain ⟨hl, hls⟩ := List.forall_mem_cons.mp hls
          rw [List.flatMap_cons] at hb
          rw [List.length_cons] at hlen
          exact ⟨l.1, l.2, ls.flatMap leafBytes, ⟨hl, hb⟩, ls, ⟨by omega, hls, rfl⟩, rfl⟩

/-- Reading a tree: its leaves in some order of the sides of its branches. -/
private theorem ofBytes?_eq_some_iff {bs : Bytes} {t : TapTree} :
    ofBytes? bs = some t ↔ ∃ ls d, (∀ l ∈ ls, ReadableLeaf l) ∧ bs = ls.flatMap leafBytes ∧
      ofLeaves? maxDepth 0 ls = some ((t, d), []) := by
  have hcount : ∀ ls : List (Nat × LeafScript), ls.length ≤ (ls.flatMap leafBytes).length :=
    Bytes.length_le_length_flatMap fun l => List.cons_ne_nil _ _
  simp only [ofBytes?, Option.bind_eq_bind, Option.bind_eq_some_iff, readLeaves_eq_some_iff]
  constructor
  · rintro ⟨ls, ⟨-, hls, rfl⟩, ⟨m, rest⟩, hm, h⟩
    split at h
    · next t' d heq =>
      obtain ⟨rfl, rfl⟩ := Prod.mk.inj heq
      obtain rfl := Option.some.inj h
      exact ⟨ls, d, hls, rfl, hm⟩
    · simp at h
  · rintro ⟨ls, d, hls, rfl, hm⟩
    exact ⟨ls, ⟨hcount ls, hls, rfl⟩, _, hm, rfl⟩

/-- **Script trees are kept**, if they are ordered and not too high.

**Proof sketch.** An ordered tree is found again from its leaves in the order in which they are
written. Whatever order they were read in, the tree that was found is ordered and has the same
leaves, so that it is written in as many bytes. -/
theorem kept : Kept ofBytes? (fun t => t.Ordered ∧ t.height ≤ maxDepth) bytes where
  read := by
    rintro t ⟨hordered, hheight⟩ hlen
    have hfound := ofLeaves?_leaves hordered hheight 0 []
    rw [List.append_nil] at hfound
    refine ofBytes?_eq_some_iff.mpr ⟨t.leaves 0, t.digest, ?_, rfl, hfound⟩
    intro l hl
    refine ⟨?_, ?_⟩
    · have hdepth := le_of_mem_leaves hl
      unfold maxDepth at hheight
      omega
    · have hleaf := (Bytes.length_le_length_flatMap_of_mem leafBytes hl).trans hlen
      rw [leafBytes, List.length_cons, List.length_cons] at hleaf
      unfold Takeable
      omega
  test := by
    intro bs t h _
    obtain ⟨ls, d, -, -, hfound⟩ := ofBytes?_eq_some_iff.mp h
    exact ⟨(spec_of_ofLeaves? hfound).ordered, (spec_of_ofLeaves? hfound).height_le⟩
  length_le := by
    intro bs t h
    obtain ⟨ls, d, -, rfl, hfound⟩ := ofBytes?_eq_some_iff.mp h
    have hperm := (spec_of_ofLeaves? hfound).perm
    rw [List.append_nil] at hperm
    rw [bytes, (hperm.flatMap_right leafBytes).length_eq]
    exact le_max_left _ _

end JointSpend.TapTree
