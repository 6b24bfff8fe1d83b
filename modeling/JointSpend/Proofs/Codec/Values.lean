import JointSpend.Proofs.Codec.Transactions
import JointSpend.Proofs.Curve.Lengths
import JointSpend.Proofs.Steps
import JointSpend.Proofs.Transaction.Size
import JointSpend.Psbt.ForeignKey
import JointSpend.Psbt.KeySource
import JointSpend.Psbt.TapTree

set_option autoImplicit false
set_option relaxedAutoImplicit false

/-!
# Keys and values of records are read back

Most keys and values have one spelling. Some have several: a signature whose integers are out of
range is read as if they were zero, a signature may name the default type, the point of a derivation
may be written in the long form. What is written for a value that was read is short or no longer
than what was read then, so that it can be read again.

## Main definitions

* `JointSpend.Kept` — what is written for a value is read back, also after the value was read in
  another spelling.
* `JointSpend.SpelledOnce` — what is written for a value is read back, and was read.

## Main results

* `JointSpend.SpelledOnce.kept` — values with one spelling are kept.
* `JointSpend.KeySource.spells`, `JointSpend.TaprootKeyOrigin.once`,
  `JointSpend.ExtendedKey.spells`, `JointSpend.ProprietaryKey.once`,
  `JointSpend.LeafScript.spells`, `JointSpend.ControlBlock.spells` — values with one spelling.
* `JointSpend.Curve.Point.kept`, `JointSpend.PublicKey.kept`, `JointSpend.TypedSignature.kept`,
  `JointSpend.TaprootSignature.kept` — the others.
-/

namespace JointSpend

open CompactSize (maxLength Takeable)

/-! ## Values with more than one spelling -/

/-- The length up to which a written form counts as short. -/
def shortLength : Nat := 5000

/-- What is short can be taken at once. -/
theorem takeable_of_short {bs : Bytes} (h : bs.length ≤ shortLength) : Takeable bs := by
  have hlen := CompactSize.length_write_le bs.length
  unfold shortLength at h
  rw [Takeable, CompactSize.writeBytes, List.length_append, maxLength]
  omega

/-- What is written for a value that passes a test is read back, unless it is too long. A value that
was read passes the test, and what is written for it is short or no longer than what was read. -/
structure Kept {α : Type} (reader : Bytes → Option α) (test : α → Prop) (writer : α → Bytes) :
    Prop where
  read : ∀ a, test a → (writer a).length ≤ maxLength → reader (writer a) = some a
  test : ∀ bs a, reader bs = some a → bs.length ≤ maxLength → test a
  length_le : ∀ bs a, reader bs = some a → (writer a).length ≤ max bs.length shortLength

namespace Kept

variable {α : Type} {reader : Bytes → Option α} {test : α → Prop} {writer : α → Bytes}

/-- Values whose written form is always short, and always read back. -/
theorem of_short (hread : ∀ a, reader (writer a) = some a)
    (hlength : ∀ a, (writer a).length ≤ shortLength) :
    Kept reader (fun _ => True) writer where
  read a _ _ := hread a
  test _ _ _ _ := trivial
  length_le _ a _ := (hlength a).trans (le_max_right _ _)

/-- What is written for a value that was read can be taken at once. -/
theorem takeable_writer (h : Kept reader test writer) {bs : Bytes} {a : α}
    (hread : reader bs = some a) (hbs : Takeable bs) : Takeable (writer a) := by
  rcases le_max_iff.mp (h.length_le bs a hread) with hle | hshort
  · exact (CompactSize.length_writeBytes_mono hle).trans hbs
  · exact takeable_of_short hshort

end Kept

/-- What is written for a value is read back, unless it is too long, and a value that was read was
written like that. -/
structure SpelledOnce {α : Type} (reader : Bytes → Option α) (writer : α → Bytes) : Prop where
  read : ∀ a, (writer a).length ≤ maxLength → reader (writer a) = some a
  writer_eq : ∀ bs a, reader bs = some a → writer a = bs

/-- Values with one spelling are kept. -/
theorem SpelledOnce.kept {α : Type} {reader : Bytes → Option α} {writer : α → Bytes}
    (h : SpelledOnce reader writer) : Kept reader (fun _ => True) writer where
  read a _ := h.read a
  test _ _ _ _ := trivial
  length_le bs a hread := by
    rw [h.writer_eq bs a hread]
    exact le_max_left _ _

/-- Values that are read from what is written, if those that are not too long can be read. -/
theorem Spells.once {α : Type} {reader : Bytes → Option α} {test : α → Prop} {writer : α → Bytes}
    (h : Spells reader test writer) (htest : ∀ a, (writer a).length ≤ maxLength → test a) :
    SpelledOnce reader writer where
  read _ hlen := h.read (htest _ hlen)
  writer_eq bs a hread := ((h bs a).mp hread).2.symm

/-- Values that can all be read. -/
theorem Spells.once_all {α : Type} {reader : Bytes → Option α} {writer : α → Bytes}
    (h : Spells reader (fun _ => True) writer) : SpelledOnce reader writer :=
  h.once fun _ _ => trivial

/-! ## Keys -/

/-- A byte string of known length. -/
theorem Fixed.spells (n : Nat) : Spells (Fixed.ofBytes? n) (fun _ => True) Fixed.bytes := by
  intro bs d
  rw [true_and]
  constructor
  · intro h
    unfold ofBytes? at h
    split at h
    · rw [← Option.some.inj h]
    · simp at h
  · rintro rfl
    exact ofBytes?_bytes d

namespace Curve

/-- The short form of a point. -/
theorem Point.spells_short : Spells ofShort? (fun _ => True) shortBytes := by
  intro bs p
  rw [true_and]
  constructor
  · intro h
    cases bs with
    | nil => simp [ofShort?] at h
    | cons b xs =>
      rw [ofShort?] at h
      split at h
      · simp at h
      · next hlen =>
        rw [not_not] at hlen
        have hxs : Bytes.bigEndian 32 (Bytes.ofBigEndian xs) = xs := by
          rw [← hlen, Bytes.bigEndian_ofBigEndian]
        unfold lift? at h
        split at h
        · next hb =>
          split at h
          · rw [← Option.some.inj h, hb, shortBytes, hxs]
            rfl
          · simp at h
        · split at h
          · next hb =>
            split at h
            · rw [← Option.some.inj h, hb, shortBytes, hxs]
              rfl
            · simp at h
          · simp at h
  · rintro rfl
    exact ofShort?_shortBytes p

/-- The short form of a point has 33 bytes. -/
theorem Point.length_shortBytes (p : Point) : p.shortBytes.length = 33 := by
  rw [shortBytes, List.length_cons, Bytes.length_bigEndian]

/-- Points are read in any form and written in the short one. -/
theorem Point.kept : Kept ofBytes? (fun _ => True) shortBytes :=
  .of_short (fun p => PublicKey.point_ofBytes?_bytes ⟨p, true⟩) fun p => by
    rw [p.length_shortBytes]
    decide

/-- A first coordinate. -/
theorem XOnly.spells : Spells ofBytes? (fun _ => True) bytes := by
  intro bs k
  rw [true_and]
  constructor
  · intro h
    unfold ofBytes? at h
    split at h
    · next hlen =>
      dsimp only at h
      split at h
      · rw [← Option.some.inj h, bytes, ← hlen, Bytes.bigEndian_ofBigEndian]
      · simp at h
    · simp at h
  · rintro rfl
    have hx : Bytes.ofBigEndian (Bytes.bigEndian 32 k.x) = k.x :=
      Bytes.ofBigEndian_bigEndian (Point.x_lt k.point)
    rw [ofBytes?, bytes, if_pos (Bytes.length_bigEndian 32 k.x)]
    simp only [hx, k.onCurve, dif_pos]

theorem XOnly.length_bytes (k : XOnly) : k.bytes.length = 32 :=
  Bytes.length_bigEndian 32 k.x

end Curve

/-- A key is read back in the form in which it is written. -/
theorem PublicKey.ofBytes?_bytes (key : PublicKey) : ofBytes? key.bytes = some key := by
  obtain ⟨point, compressed⟩ := key
  cases compressed with
  | true =>
    have h := Curve.Point.ofShort?_shortBytes point
    simp only [bytes, if_true]
    unfold Curve.Point.shortBytes at h ⊢
    rw [ofBytes?, if_pos (Bytes.length_bigEndian 32 _), h]
    rfl
  | false =>
    simp only [bytes, Bool.false_eq_true, if_false, Curve.Point.longBytes, List.cons_append]
    rw [ofBytes?, if_neg (by simp [Bytes.length_bigEndian]), if_pos rfl,
      Curve.Point.ofLong?_longBytes]
    rfl

/-- Keys. -/
theorem PublicKey.kept : Kept ofBytes? (fun _ => True) bytes :=
  .of_short ofBytes?_bytes fun key => key.length_bytes_le.trans (by decide)

/-! ## Origins of keys -/

/-- Steps of a derivation are their bytes. -/
private theorem Bytes.ofUInt32_ofNat {c : Bytes} (h : c.length = 4) :
    ofUInt32 (UInt32.ofNat (ofLittleEndian c)) = c := by
  have hlt := ofLittleEndian_lt c
  rw [h] at hlt
  rw [ofUInt32, UInt32.toNat_ofNat_of_lt' hlt, ← h, littleEndian_ofLittleEndian]

private theorem Bytes.ofNat_ofUInt32 (w : UInt32) :
    UInt32.ofNat (ofLittleEndian (ofUInt32 w)) = w := by
  rw [ofUInt32, ofLittleEndian_littleEndian w.toNat_lt, UInt32.ofNat_toNat]

theorem Bytes.length_ofUInt32 (w : UInt32) : (ofUInt32 w).length = 4 :=
  length_littleEndian 4 _

/-- Sources of keys. -/
theorem KeySource.spells : Spells ofBytes? (fun _ => True) bytes := by
  intro bs s
  simp only [ofBytes?, Option.bind_eq_bind, Option.bind_eq_some_iff, Prod.exists,
    Fixed.reads 4 _ _ _, true_and]
  constructor
  · rintro ⟨fingerprint, rest, rfl, h⟩
    split at h
    · next hlen =>
      rw [← Option.some.inj h, bytes, List.flatMap_map]
      congr 1
      have hpieces : ∀ c ∈ Bytes.chunks 4 rest,
          Bytes.ofUInt32 (UInt32.ofNat (Bytes.ofLittleEndian c)) = id c :=
        fun c hc => Bytes.ofUInt32_ofNat (Bytes.length_of_mem_chunks hc)
      rw [List.flatMap_congr hpieces, List.flatMap_id, Bytes.flatten_chunks hlen]
    · simp at h
  · rintro rfl
    refine ⟨s.fingerprint, _, rfl, ?_⟩
    have hlen := Bytes.length_flatMap_of_length Bytes.length_ofUInt32 s.path
    rw [if_pos (by omega), Bytes.chunks_flatMap (by decide) Bytes.length_ofUInt32, List.map_map]
    have hsteps : (fun step => UInt32.ofNat (Bytes.ofLittleEndian step)) ∘ Bytes.ofUInt32 = id :=
      funext Bytes.ofNat_ofUInt32
    rw [hsteps, List.map_id]
    rfl

/-- Origins of taproot keys, with a number of leaves that can be written. -/
private theorem TaprootKeyOrigin.spells :
    Spells ofBytes? (fun o => o.leaves.length < 2 ^ 64) bytes := by
  have hleaves := CompactSize.reads_list (Fixed.reads 32) fun d h => by
    have := d.length_eq
    rw [h] at this
    simp at this
  intro bs o
  simp only [ofBytes?, Option.bind_eq_bind, Option.bind_eq_some_iff, Option.pure_def,
    Option.some.injEq, Prod.exists, hleaves _ _ _, KeySource.spells _ _, true_and, implies_true,
    and_true]
  constructor
  · rintro ⟨leaves, rest, ⟨hcount, rfl⟩, source, rfl, rfl⟩
    exact ⟨hcount, rfl⟩
  · rintro ⟨hcount, rfl⟩
    exact ⟨o.leaves, _, ⟨hcount, rfl⟩, o.source, rfl, rfl⟩

/-- Origins of taproot keys have one spelling. -/
theorem TaprootKeyOrigin.once : SpelledOnce ofBytes? bytes :=
  spells.once fun o h => by
    rw [bytes, List.length_append] at h
    refine CompactSize.length_lt_of_writeList (fun d h => ?_) (le_of_add_le_left h)
    have := d.length_eq
    rw [h] at this
    simp at this

namespace ExtendedKey

/-- The kind of network that a version stands for. -/
private def test? (version : Bytes) : Option Bool :=
  if version = versionBytes false then some false
  else if version = versionBytes true then some true
  else none

private theorem test?_eq_some_iff {version : Bytes} {test : Bool} :
    test? version = some test ↔ version = versionBytes test := by
  have hne : versionBytes true ≠ versionBytes false := by decide
  unfold test?
  constructor
  · intro h
    split at h
    · next hversion => rw [hversion, Option.some.inj h]
    · split at h
      · next hversion => rw [hversion, Option.some.inj h]
      · simp at h
  · rintro rfl
    cases test with
    | false => rw [if_pos rfl]
    | true => rw [if_neg hne, if_pos rfl]

/-- Reading an extended key, with the version read first. -/
private theorem ofBytes?_eq (bs : Bytes) : ofBytes? bs = do
    let (version, bs) ← Bytes.splitExact 4 bs
    let test ← test? version
    let (depth, bs) ← Bytes.readByte bs
    let (parent, bs) ← Fixed.read 4 bs
    let (child, bs) ← Bytes.splitExact 4 bs
    let (chainCode, bs) ← Fixed.read 32 bs
    let key ← Curve.Point.ofShort? bs
    return ⟨test, depth, parent, UInt32.ofNat (Bytes.ofBigEndian child), chainCode, key⟩ := by
  unfold ofBytes? test?
  congr 1
  funext ⟨version, rest⟩
  dsimp only
  split_ifs <;> rfl

/-- Extended keys. -/
theorem spells : Spells ofBytes? (fun _ => True) bytes := by
  intro bs k
  simp only [ofBytes?_eq, Option.bind_eq_bind, Option.bind_eq_some_iff, Option.pure_def,
    Option.some.injEq, Prod.exists, Bytes.splitExact_eq_some_iff, test?_eq_some_iff,
    Bytes.readByte_eq_some_iff, Fixed.reads _ _ _ _, Curve.Point.spells_short _ _, true_and]
  constructor
  · rintro ⟨version, r, ⟨-, rfl⟩, test, rfl, depth, s, rfl, parent, t, rfl, child, u,
      ⟨hchild, rfl⟩, chainCode, v, rfl, key, rfl, rfl⟩
    have hlt := Bytes.ofBigEndian_lt child
    rw [hchild] at hlt
    have hstep : Bytes.bigEndian 4 (UInt32.ofNat (Bytes.ofBigEndian child)).toNat = child := by
      rw [UInt32.toNat_ofNat_of_lt' hlt, ← hchild, Bytes.bigEndian_ofBigEndian]
    rw [bytes, hstep]
    simp only [List.append_assoc, List.cons_append]
  · rintro rfl
    refine ⟨versionBytes k.test, _, ⟨?_, ?_⟩, k.test, rfl, k.depth, _, rfl, k.parent, _, rfl,
      Bytes.bigEndian 4 k.child.toNat, _, ⟨Bytes.length_bigEndian 4 _, rfl⟩, k.chainCode, _, rfl,
      k.key, rfl, ?_⟩
    · cases k.test <;> rfl
    · simp only [bytes, List.append_assoc, List.cons_append]
    · rw [Bytes.ofBigEndian_bigEndian k.child.toNat_lt, UInt32.ofNat_toNat]

end ExtendedKey

/-! ## Records with a named owner -/

/-- Keys of records with a named owner. -/
private theorem ProprietaryKey.spells : Spells ofBytes? (fun k => Takeable k.owner) bytes := by
  intro bs k
  simp only [ofBytes?, Option.bind_eq_bind, Option.bind_eq_some_iff, Prod.exists,
    CompactSize.reads_bytes _ _ _, Bytes.readByte_eq_some_iff]
  constructor
  · rintro ⟨owner, r, ⟨howner, rfl⟩, subtype, data, rfl, h⟩
    split at h
    · rw [← Option.some.inj h]
      exact ⟨howner, rfl⟩
    · simp at h
  · rintro ⟨howner, rfl⟩
    refine ⟨k.owner, _, ⟨howner, rfl⟩, k.subtype, k.data, rfl, ?_⟩
    rw [dif_pos k.data_le]
    rfl

/-- Keys of records with a named owner have one spelling. -/
theorem ProprietaryKey.once : SpelledOnce ofBytes? bytes :=
  spells.once fun k h => by
    rw [bytes, List.length_append] at h
    exact le_of_add_le_left h

/-! ## Leaves -/

namespace LeafVersion

theorem ofByte?_byte (v : LeafVersion) : ofByte? v.byte = some v := by
  rw [ofByte?, dif_pos v.valid]

theorem byte_of_ofByte? {b : UInt8} {v : LeafVersion} (h : ofByte? b = some v) : v.byte = b := by
  unfold ofByte? at h
  split at h
  · rw [← Option.some.inj h]
  · simp at h

end LeafVersion

/-- Scripts of leaves. -/
theorem LeafScript.spells : Spells ofBytes? (fun _ => True) bytes := by
  intro bs l
  simp only [ofBytes?, Option.bind_eq_bind, Option.bind_eq_some_iff, Option.pure_def,
    Option.some.injEq, true_and]
  constructor
  · rintro ⟨last, hlast, version, hversion, rfl⟩
    rw [bytes, LeafVersion.byte_of_ofByte? hversion]
    exact (List.dropLast_append_getLast? last hlast).symm
  · rintro rfl
    refine ⟨l.version.byte, by simp [bytes], l.version, l.version.ofByte?_byte, ?_⟩
    simp [bytes]

/-! ## Control blocks -/

namespace ControlBlock

/-- The byte that says the version and the parity says either. -/
private theorem parity_byte (v : LeafVersion) (odd : Bool) :
    (v.byte + if odd then 1 else 0) % 2 = (if odd then 1 else 0) ∧
      (v.byte + if odd then 1 else 0) - (if odd then 1 else 0) = v.byte := by
  have heven := congrArg UInt8.toNat v.valid.1
  have hlt := v.byte.toNat_lt
  simp only [UInt8.toNat_mod, UInt8.reduceToNat] at heven
  cases odd with
  | false => simp [v.valid.1]
  | true =>
    refine ⟨?_, ?_⟩
    · rw [← UInt8.toNat_inj]
      simp only [if_true, UInt8.toNat_mod, UInt8.toNat_add, UInt8.reduceToNat]
      omega
    · simp

/-- A byte is its even part and its parity. -/
private theorem even_add_parity (b : UInt8) : b - b % 2 + (if b % 2 == 1 then 1 else 0) = b := by
  have hparity : b % 2 = 0 ∨ b % 2 = 1 := by
    simp only [← UInt8.toNat_inj, UInt8.toNat_mod, UInt8.reduceToNat]
    omega
  rcases hparity with h | h
  · simp [h]
  · simp [h]

/-- Digests one after another. -/
private theorem mapM_ofBytes?_eq_some_iff {cs : List Bytes} {path : List (Fixed 32)} :
    cs.mapM (Fixed.ofBytes? 32) = some path ↔ cs = path.map (·.bytes) := by
  have heq : List.Forall₂ (fun c (d : Fixed 32) => c = d.bytes) cs path ↔
      cs = path.map (·.bytes) := by
    rw [← List.forall₂_map_right_iff, List.forall₂_eq_eq_eq]
  rw [Steps.mapM_eq_some_iff, ← heq]
  simp only [Fixed.spells 32 _ _, true_and]

/-- Control blocks. -/
theorem spells : Spells ofBytes? (fun _ => True) bytes := by
  intro bs c
  rw [true_and]
  constructor
  · intro h
    cases bs with
    | nil => simp [ofBytes?] at h
    | cons b rest =>
      simp only [ofBytes?, Option.bind_eq_bind, Option.bind_eq_some_iff,
        Curve.XOnly.spells _ _, true_and] at h
      obtain ⟨version, hversion, key, hkey, h⟩ := h
      split at h
      · next hlen =>
        simp only [Option.bind_eq_some_iff, mapM_ofBytes?_eq_some_iff] at h
        obtain ⟨path, hpath, h⟩ := h
        split at h
        · have hrest : rest = key.bytes ++ path.flatMap (·.bytes) := by
            rw [List.flatMap_def, ← hpath, Bytes.flatten_chunks hlen, ← hkey,
              List.take_append_drop]
          rw [← Option.some.inj h, bytes, LeafVersion.byte_of_ofByte? hversion,
            even_add_parity, hrest, List.cons_append]
        · simp at h
      · simp at h
  · rintro rfl
    obtain ⟨hparity, hversion⟩ := parity_byte c.version c.odd
    have htake : (c.key.bytes ++ c.path.flatMap (·.bytes)).take 32 = c.key.bytes :=
      List.take_left' c.key.length_bytes
    have hdrop : (c.key.bytes ++ c.path.flatMap (·.bytes)).drop 32 = c.path.flatMap (·.bytes) :=
      List.drop_left' c.key.length_bytes
    have hlen : (c.path.flatMap (·.bytes)).length = c.path.length * 32 :=
      Bytes.length_flatMap_of_length Fixed.length_eq c.path
    rw [bytes, List.cons_append, ofBytes?, hparity, hversion, LeafVersion.ofByte?_byte, htake,
      hdrop, Curve.XOnly.spells.read trivial]
    simp only [Option.bind_eq_bind, Option.bind_some]
    rw [if_pos (by omega), Bytes.chunks_flatMap (by decide) Fixed.length_eq,
      mapM_ofBytes?_eq_some_iff.mpr rfl]
    simp only [Option.bind_some, c.path_le, dif_pos]
    obtain ⟨version, odd, key, path, hle⟩ := c
    cases odd <;> rfl

end ControlBlock

/-! ## Signatures -/

/-- Pushed ECDSA signatures. -/
theorem TypedSignature.kept : Kept ofBytes? (fun _ => True) bytes :=
  .of_short ofBytes?_bytes fun sig => sig.length_bytes_le.trans (by decide)

/-- Pushed taproot signatures. -/
theorem TaprootSignature.kept : Kept ofBytes? (fun _ => True) bytes :=
  .of_short ofBytes?_bytes fun sig => sig.length_bytes_le.trans (by decide)

end JointSpend
