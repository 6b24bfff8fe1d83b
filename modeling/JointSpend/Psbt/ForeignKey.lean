import JointSpend.CompactSize

set_option autoImplicit false
set_option relaxedAutoImplicit false

/-!
# Records of other applications

Records of kinds that this library gives no meaning to are kept as they are. One kind is reserved
for records whose key names their owner.

## Main definitions

* `JointSpend.ProprietaryKey` — the key of a record that belongs to a named owner.
* `JointSpend.ForeignKey` — the key of a record of a kind without meaning here.
-/

namespace JointSpend

/-- The kind of records with a named owner. -/
def proprietaryKind : UInt8 := 0xfc

/-- The key of a record with a named owner. -/
structure ProprietaryKey where
  /-- The name of the owner. -/
  owner : Bytes
  /-- The kind of the record among those of its owner. -/
  subtype : UInt8
  /-- The rest of the key. -/
  data : Bytes
  /-- The rest is not longer than a reader accepts. -/
  data_le : data.length ≤ 1024
  deriving DecidableEq

namespace ProprietaryKey

/-- The written form of the key. -/
def bytes (k : ProprietaryKey) : Bytes :=
  CompactSize.writeBytes k.owner ++ k.subtype :: k.data

/-- Reads a key that fills the byte string. -/
def ofBytes? (bs : Bytes) : Option ProprietaryKey := do
  let (owner, bs) ← CompactSize.readBytes bs
  let (subtype, data) ← Bytes.readByte bs
  if h : data.length ≤ 1024 then return ⟨owner, subtype, data, h⟩ else none

/-- Keys are ordered by owner, kind and the rest; an owner comes before all that it begins. -/
def ranks (k : ProprietaryKey) : List Nat :=
  k.owner.map (fun b => b.toNat + 1) ++ 0 :: k.subtype.toNat :: Bytes.ranks k.data

theorem ranks_injective {a b : ProprietaryKey} (h : a.ranks = b.ranks) : a = b := by
  obtain ⟨ao, as, ad, ha⟩ := a
  obtain ⟨bo, bs, bd, hb⟩ := b
  simp only [ranks] at h
  have key : ao = bo ∧ as.toNat = bs.toNat ∧ Bytes.ranks ad = Bytes.ranks bd := by
    clear ha hb
    induction ao generalizing bo with
    | nil =>
      cases bo with
      | nil => simpa using h
      | cons y ys => simp at h
    | cons x xs ih =>
      cases bo with
      | nil => simp at h
      | cons y ys =>
        simp only [List.map_cons, List.cons_append, List.cons.injEq, Nat.add_right_cancel_iff] at h
        obtain ⟨h1, h2, h3⟩ := ih ys h.2
        exact ⟨by rw [h1, UInt8.toNat_inj.mp h.1], h2, h3⟩
  obtain ⟨rfl, h2, h3⟩ := key
  obtain rfl := UInt8.toNat_inj.mp h2
  obtain rfl := Bytes.ranks_injective h3
  rfl

end ProprietaryKey

/-- The key of a record of a kind without meaning here. -/
structure ForeignKey (known : UInt8 → Bool) where
  /-- The kind of the record. -/
  kind : UInt8
  /-- The rest of the key. -/
  data : Bytes
  /-- The kind has no meaning here. -/
  foreign : known kind = false
  deriving DecidableEq

namespace ForeignKey

variable {known : UInt8 → Bool}

/-- Keys are ordered by kind and the rest. -/
def ranks (k : ForeignKey known) : List Nat :=
  k.kind.toNat :: Bytes.ranks k.data

theorem ranks_injective {a b : ForeignKey known} (h : a.ranks = b.ranks) : a = b := by
  obtain ⟨ak, ad, ha⟩ := a
  obtain ⟨bk, bd, hb⟩ := b
  simp only [ranks, List.cons.injEq] at h
  obtain rfl := UInt8.toNat_inj.mp h.1
  obtain rfl := Bytes.ranks_injective h.2
  rfl

end ForeignKey

end JointSpend
