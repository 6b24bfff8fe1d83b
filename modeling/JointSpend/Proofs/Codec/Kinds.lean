import JointSpend.Proofs.Codec.Records
import JointSpend.Proofs.Codec.Trees
import JointSpend.Psbt.Basic

set_option autoImplicit false
set_option relaxedAutoImplicit false

/-!
# Records of each kind are read back

A record of the whole, of an input or of an output is read back if its key and its value are, and
each kind of key and of value is. A record is verbatim if it has one spelling, as all records of the
whole have. Among the records of outputs, a script tree has to be ordered.

## Main definitions

* `JointSpend.InputKey.isVerbatim`, `JointSpend.OutputKey.isVerbatim` — records with one spelling.
* `JointSpend.OutputKey.Ordered` — the test for the entries of an output.

## Main results

* `JointSpend.Wired.kept_of_parts` — records whose keys and values are kept.
* `JointSpend.GlobalKey.kept`, `JointSpend.InputKey.kept`, `JointSpend.OutputKey.kept` — the three
  kinds of map.
-/

namespace JointSpend

open CompactSize (maxLength Takeable)

/-! ## Records from keys and values -/

/-- A key that was read from the kind and the key data of a record is of this kind. Its own data is
short or no longer than what was read, and what was read if the key is verbatim. -/
structure KeyRead (verbatim : Prop) (c kind : UInt8) (data keyData : Bytes) : Prop where
  kind_eq : kind = c
  length_le : keyData.length ≤ max data.length shortLength
  keyData_eq : verbatim → keyData = data

/-- A key whose data is what was read. -/
theorem KeyRead.same {verbatim : Prop} {c : UInt8} {data keyData : Bytes} (h : keyData = data) :
    KeyRead verbatim c c data keyData :=
  ⟨rfl, h ▸ le_max_left _ _, fun _ => h⟩

section

variable {κ : Type} {β : κ → Type} [Wired κ β] {verbatim : κ → Bool} {test : Sigma β → Prop}

/-- **Records whose keys and values are kept.** -/
theorem Wired.kept_of_parts {kind : κ → UInt8} {keyData : κ → Bytes}
    {valueBytes : (k : κ) → β k → Bytes} {ofKind? : UInt8 → Bytes → Option κ}
    {value? : (k : κ) → Bytes → Option (β k)}
    (hto : ∀ k v, (Wired.toRecord k v : RawRecord) = ⟨kind k, keyData k, valueBytes k v⟩)
    (hof : ∀ r : RawRecord, Wired.ofRecord? r = (ofKind? r.kind r.keyData).bind fun k =>
      (value? k r.value).bind fun v => some ⟨k, v⟩)
    (hkey : ∀ k, (keyData k).length ≤ maxLength → ofKind? (kind k) (keyData k) = some k)
    (hread : ∀ c data k, ofKind? c data = some k →
      KeyRead (verbatim k = true) c (kind k) data (keyData k))
    (honce : ∀ k, verbatim k = true → SpelledOnce (value? k) (valueBytes k))
    (hvalue : ∀ k, JointSpend.Kept (value? k) (fun v => test ⟨k, v⟩) (valueBytes k)) :
    Wired.Kept κ β verbatim test := by
  have hparts : ∀ (r : RawRecord) (k : κ) (v : β k), Wired.ofRecord? r = some ⟨k, v⟩ →
      ofKind? r.kind r.keyData = some k ∧ value? k r.value = some v := by
    intro r k v h
    simp only [hof, Option.bind_eq_some_iff, Option.some.injEq, Sigma.mk.injEq] at h
    obtain ⟨k', hk, v', hv, rfl, hvv⟩ := h
    obtain rfl := eq_of_heq hvv
    exact ⟨hk, hv⟩
  have hrecord : ∀ (k : κ) (v : β k),
      Wired.record (⟨k, v⟩ : Sigma β) = ⟨kind k, keyData k, valueBytes k v⟩ := hto
  refine ⟨?read, ?test, ?fits, ?readAs⟩
  case read =>
    rintro ⟨k, v⟩ htest hfits
    rw [hrecord] at hfits ⊢
    rw [hof, hkey k hfits.keyData_le, Option.bind_some,
      (hvalue k).read v htest hfits.value.length_le, Option.bind_some]
  case test =>
    rintro r ⟨k, v⟩ h hr
    obtain ⟨-, hv⟩ := hparts r k v h
    exact (hvalue k).test _ _ hv hr.value.length_le
  case fits =>
    rintro r ⟨k, v⟩ h hr
    obtain ⟨hk, hv⟩ := hparts r k v h
    rw [hrecord]
    exact ⟨(hread _ _ _ hk).length_le.trans (max_le hr.keyData_le (by decide)),
      (hvalue k).takeable_writer hv hr.value⟩
  case readAs =>
    rintro r ⟨k, v⟩ h
    obtain ⟨hk, hv⟩ := hparts r k v h
    have hkread := hread _ _ _ hk
    refine ⟨h, ?_, fun hverbatim => ?_⟩
    · rw [hrecord]
      exact hkread.kind_eq
    · rw [hrecord, hkread.kind_eq, hkread.keyData_eq hverbatim,
        (honce k hverbatim).writer_eq _ _ hv]

end

/-! ## Values that are their bytes -/

/-- Byte strings. -/
private theorem Bytes.spells : Spells (fun bs : Bytes => some bs) (fun _ => True) id :=
  fun bs a => by simp

/-- Scripts. -/
private theorem Script.spells :
    Spells (fun bs => some (⟨bs⟩ : Script)) (fun _ => True) Script.bytes := by
  intro bs s
  rw [Option.some.injEq, true_and]
  exact ⟨fun h => h ▸ rfl, fun h => h ▸ rfl⟩

/-- Byte strings with a given digest. -/
private theorem InputKey.spells_preimage {n : Nat} (hash : Bytes → Fixed n) (digest : Fixed n) :
    Spells (preimage? hash digest) (fun _ => True) Subtype.val := by
  rintro bs ⟨content, hcontent⟩
  rw [true_and]
  constructor
  · intro h
    unfold preimage? at h
    split at h
    · exact congrArg Subtype.val (Option.some.inj h)
    · simp at h
  · rintro rfl
    exact dif_pos hcontent

/-! ## Records of the whole -/

namespace GlobalKey

/-- The key of a record is read back. -/
private theorem ofKind?_keyData (k : GlobalKey) (h : k.keyData.length ≤ maxLength) :
    ofKind? k.kind k.keyData = some k := by
  cases k with
  | extendedKey key => exact congrArg (Option.map extendedKey) (ExtendedKey.spells.read trivial)
  | proprietary key =>
    exact congrArg (Option.map proprietary) (ProprietaryKey.once.read key h)
  | foreign key =>
    have hforeign := key.foreign
    simp only [kind, keyData]
    unfold ofKind?
    split
    · next heq => rw [heq] at hforeign; simp [knownKind] at hforeign
    · next heq => rw [heq] at hforeign; simp [knownKind, proprietaryKind] at hforeign
    · exact dif_pos hforeign

/-- The key of a record is what is written for it. -/
private theorem keyRead {verbatim : Prop} (c : UInt8) (data : Bytes) (k : GlobalKey)
    (h : ofKind? c data = some k) : KeyRead verbatim c k.kind data k.keyData := by
  unfold ofKind? at h
  split at h
  · obtain ⟨key, hkey, rfl⟩ := Option.map_eq_some_iff.mp h
    exact .same (ExtendedKey.spells.once_all.writer_eq _ _ hkey)
  · obtain ⟨key, hkey, rfl⟩ := Option.map_eq_some_iff.mp h
    exact .same (ProprietaryKey.once.writer_eq _ _ hkey)
  · split at h
    · obtain rfl := Option.some.inj h
      exact .same rfl
    · simp at h

/-- Values. -/
private theorem once_value (k : GlobalKey) : SpelledOnce (value? k) (valueBytes k) := by
  cases k with
  | extendedKey _ => exact KeySource.spells.once_all
  | proprietary _ => exact Bytes.spells.once_all
  | foreign _ => exact Bytes.spells.once_all

/-- **Records of the whole are kept**, and all of them are verbatim. -/
theorem kept : Wired.Kept GlobalKey Value (fun _ => true) (fun _ => True) :=
  Wired.kept_of_parts (fun _ _ => rfl) (fun _ => rfl) ofKind?_keyData keyRead
    (fun k _ => once_value k) fun k => (once_value k).kept

/-- The transaction and the version have records of their own. -/
theorem kind_ne (k : GlobalKey) : k.kind ≠ transactionKind ∧ k.kind ≠ versionKind := by
  cases k with
  | extendedKey _ => exact ⟨by simp [kind, transactionKind], by simp [kind, versionKind]⟩
  | proprietary _ =>
    exact ⟨by simp [kind, proprietaryKind, transactionKind],
      by simp [kind, proprietaryKind, versionKind]⟩
  | foreign key =>
    have hforeign := key.foreign
    refine ⟨?_, ?_⟩
    all_goals
      intro heq
      rw [kind] at heq
      rw [heq] at hforeign
      exact absurd hforeign (by decide)

end GlobalKey

/-! ## Records of an input -/

namespace InputKey

/-- A key without data. -/
private theorem plain?_eq_some_iff {k k' : InputKey} {data : Bytes} :
    plain? k data = some k' ↔ data = [] ∧ k = k' := by
  unfold plain?
  split_ifs with h <;> simp [h]

/-- The key of a record is read back. -/
private theorem ofKind?_keyData (k : InputKey) (h : k.keyData.length ≤ maxLength) :
    ofKind? k.kind k.keyData = some k := by
  cases k with
  | partialSig key => exact congrArg (Option.map partialSig) key.ofBytes?_bytes
  | derivation key =>
    exact congrArg (Option.map derivation) (PublicKey.point_ofBytes?_bytes ⟨key, true⟩)
  | ripemd160Preimage digest =>
    exact congrArg (Option.map ripemd160Preimage) digest.ofBytes?_bytes
  | sha256Preimage digest => exact congrArg (Option.map sha256Preimage) digest.ofBytes?_bytes
  | hash160Preimage digest => exact congrArg (Option.map hash160Preimage) digest.ofBytes?_bytes
  | hash256Preimage digest => exact congrArg (Option.map hash256Preimage) digest.ofBytes?_bytes
  | tapScriptSig key leaf =>
    have htake : (key.bytes ++ leaf.bytes).take 32 = key.bytes := List.take_left' key.length_bytes
    have hdrop : (key.bytes ++ leaf.bytes).drop 32 = leaf.bytes := List.drop_left' key.length_bytes
    have hparts : ∀ data, ofKind? 0x14 data = (Curve.XOnly.ofBytes? (data.take 32)).bind fun key =>
        (Fixed.ofBytes? 32 (data.drop 32)).bind fun leaf => some (tapScriptSig key leaf) :=
      fun _ => rfl
    change ofKind? 0x14 (key.bytes ++ leaf.bytes) = _
    rw [hparts, htake, hdrop, Curve.XOnly.spells.read trivial, leaf.ofBytes?_bytes]
    rfl
  | tapScript control => exact congrArg (Option.map tapScript) (ControlBlock.spells.read trivial)
  | tapKeyOrigin key => exact congrArg (Option.map tapKeyOrigin) (Curve.XOnly.spells.read trivial)
  | proprietary key =>
    exact congrArg (Option.map proprietary) (ProprietaryKey.once.read key h)
  | foreign key =>
    have hforeign := key.foreign
    simp only [kind, keyData]
    unfold ofKind?
    split
    case h_21 => exact dif_pos hforeign
    all_goals
      next heq =>
      rw [heq] at hforeign
      exact absurd hforeign (by decide)
  | _ => rfl

/-- Whether records are verbatim: they have one spelling. Signatures have several, and the key of a
derivation. -/
def isVerbatim : InputKey → Bool
  | partialSig _ => false
  | derivation _ => false
  | tapKeySig => false
  | tapScriptSig _ _ => false
  | _ => true

/-- The key of a record that was read. -/
private theorem keyRead (c : UInt8) (data : Bytes) (k : InputKey) (h : ofKind? c data = some k) :
    KeyRead (k.isVerbatim = true) c k.kind data k.keyData := by
  unfold ofKind? at h
  split at h
  all_goals try
    obtain ⟨rfl, rfl⟩ := plain?_eq_some_iff.mp h
    exact .same rfl
  · obtain ⟨key, hkey, rfl⟩ := Option.map_eq_some_iff.mp h
    exact ⟨rfl, PublicKey.kept.length_le _ _ hkey, by simp [isVerbatim]⟩
  · obtain ⟨key, hkey, rfl⟩ := Option.map_eq_some_iff.mp h
    exact ⟨rfl, Curve.Point.kept.length_le _ _ hkey, by simp [isVerbatim]⟩
  · obtain ⟨digest, hdigest, rfl⟩ := Option.map_eq_some_iff.mp h
    exact .same ((Fixed.spells 20).once_all.writer_eq _ _ hdigest)
  · obtain ⟨digest, hdigest, rfl⟩ := Option.map_eq_some_iff.mp h
    exact .same ((Fixed.spells 32).once_all.writer_eq _ _ hdigest)
  · obtain ⟨digest, hdigest, rfl⟩ := Option.map_eq_some_iff.mp h
    exact .same ((Fixed.spells 20).once_all.writer_eq _ _ hdigest)
  · obtain ⟨digest, hdigest, rfl⟩ := Option.map_eq_some_iff.mp h
    exact .same ((Fixed.spells 32).once_all.writer_eq _ _ hdigest)
  · simp only [Option.bind_eq_bind, Option.bind_eq_some_iff, Option.pure_def,
      Option.some.injEq, Curve.XOnly.spells _ _, Fixed.spells 32 _ _, true_and] at h
    obtain ⟨key, hkey, leaf, hleaf, rfl⟩ := h
    exact .same (by rw [keyData, ← hkey, ← hleaf, List.take_append_drop])
  · obtain ⟨control, hcontrol, rfl⟩ := Option.map_eq_some_iff.mp h
    exact .same (ControlBlock.spells.once_all.writer_eq _ _ hcontrol)
  · obtain ⟨key, hkey, rfl⟩ := Option.map_eq_some_iff.mp h
    exact .same (Curve.XOnly.spells.once_all.writer_eq _ _ hkey)
  · obtain ⟨key, hkey, rfl⟩ := Option.map_eq_some_iff.mp h
    exact .same (ProprietaryKey.once.writer_eq _ _ hkey)
  · split at h
    · obtain rfl := Option.some.inj h
      exact .same rfl
    · simp at h

/-- Values of verbatim records have one spelling. -/
private theorem once_value (k : InputKey) (h : k.isVerbatim = true) :
    SpelledOnce (value? k) (valueBytes k) := by
  cases k with
  | partialSig _ => simp [isVerbatim] at h
  | derivation _ => simp [isVerbatim] at h
  | tapKeySig => simp [isVerbatim] at h
  | tapScriptSig _ _ => simp [isVerbatim] at h
  | nonWitnessUtxo => exact Transaction.reads.readAll.once fun _ => Transaction.readable_of_bytes
  | witnessUtxo => exact TxOutput.reads.readAll.once fun _ => TxOutput.takeable
  | sighashType => exact Bytes.reads_uint32.readAll.once_all
  | redeemScript => exact Script.spells.once_all
  | witnessScript => exact Script.spells.once_all
  | finalScriptSig => exact Script.spells.once_all
  | finalScriptWitness => exact Witness.reads.readAll.once fun _ => Witness.readable_of_length_le
  | ripemd160Preimage digest => exact (spells_preimage Hash.ripemd160 digest).once_all
  | sha256Preimage digest => exact (spells_preimage Hash.sha256 digest).once_all
  | hash160Preimage digest => exact (spells_preimage Hash.hash160 digest).once_all
  | hash256Preimage digest => exact (spells_preimage Hash.hash256 digest).once_all
  | tapScript _ => exact LeafScript.spells.once_all
  | tapKeyOrigin _ => exact TaprootKeyOrigin.once
  | tapInternalKey => exact Curve.XOnly.spells.once_all
  | tapMerkleRoot => exact (Fixed.spells 32).once_all
  | proprietary _ => exact Bytes.spells.once_all
  | foreign _ => exact Bytes.spells.once_all

/-- Values. -/
private theorem kept_value (k : InputKey) : Kept (value? k) (fun _ => True) (valueBytes k) := by
  cases k with
  | partialSig _ => exact TypedSignature.kept
  | derivation _ => exact KeySource.spells.once_all.kept
  | tapKeySig => exact TaprootSignature.kept
  | tapScriptSig _ _ => exact TaprootSignature.kept
  | _ => exact (once_value _ rfl).kept

/-- **Records of an input are kept.** -/
theorem kept : Wired.Kept InputKey Value isVerbatim (fun _ => True) :=
  Wired.kept_of_parts (fun _ _ => rfl) (fun _ => rfl) ofKind?_keyData keyRead once_value kept_value

end InputKey

/-! ## Records of an output -/

namespace OutputKey

/-- A script tree has to be ordered and not too high. -/
def Ordered : Sigma Value → Prop
  | ⟨.tapTree, tree⟩ => tree.Ordered ∧ tree.height ≤ TapTree.maxDepth
  | _ => True

/-- A key without data. -/
private theorem plain?_eq_some_iff {k k' : OutputKey} {data : Bytes} :
    plain? k data = some k' ↔ data = [] ∧ k = k' := by
  unfold plain?
  split_ifs with h <;> simp [h]

/-- The key of a record is read back. -/
private theorem ofKind?_keyData (k : OutputKey) (h : k.keyData.length ≤ maxLength) :
    ofKind? k.kind k.keyData = some k := by
  cases k with
  | derivation key =>
    exact congrArg (Option.map derivation) (PublicKey.point_ofBytes?_bytes ⟨key, true⟩)
  | tapKeyOrigin key => exact congrArg (Option.map tapKeyOrigin) (Curve.XOnly.spells.read trivial)
  | proprietary key =>
    exact congrArg (Option.map proprietary) (ProprietaryKey.once.read key h)
  | foreign key =>
    have hforeign := key.foreign
    simp only [kind, keyData]
    unfold ofKind?
    split
    case h_8 => exact dif_pos hforeign
    all_goals
      next heq =>
      rw [heq] at hforeign
      exact absurd hforeign (by decide)
  | _ => rfl

/-- Whether records are verbatim: they have one spelling. The key of a derivation has several, and a
script tree. -/
def isVerbatim : OutputKey → Bool
  | derivation _ => false
  | tapTree => false
  | _ => true

/-- The key of a record that was read. -/
private theorem keyRead (c : UInt8) (data : Bytes) (k : OutputKey) (h : ofKind? c data = some k) :
    KeyRead (k.isVerbatim = true) c k.kind data k.keyData := by
  unfold ofKind? at h
  split at h
  all_goals try
    obtain ⟨rfl, rfl⟩ := plain?_eq_some_iff.mp h
    exact .same rfl
  · obtain ⟨key, hkey, rfl⟩ := Option.map_eq_some_iff.mp h
    exact ⟨rfl, Curve.Point.kept.length_le _ _ hkey, by simp [isVerbatim]⟩
  · obtain ⟨key, hkey, rfl⟩ := Option.map_eq_some_iff.mp h
    exact .same (Curve.XOnly.spells.once_all.writer_eq _ _ hkey)
  · obtain ⟨key, hkey, rfl⟩ := Option.map_eq_some_iff.mp h
    exact .same (ProprietaryKey.once.writer_eq _ _ hkey)
  · split at h
    · obtain rfl := Option.some.inj h
      exact .same rfl
    · simp at h

/-- Values of verbatim records have one spelling. -/
private theorem once_value (k : OutputKey) (h : k.isVerbatim = true) :
    SpelledOnce (value? k) (valueBytes k) := by
  cases k with
  | derivation _ => simp [isVerbatim] at h
  | tapTree => simp [isVerbatim] at h
  | redeemScript => exact Script.spells.once_all
  | witnessScript => exact Script.spells.once_all
  | tapInternalKey => exact Curve.XOnly.spells.once_all
  | tapKeyOrigin _ => exact TaprootKeyOrigin.once
  | proprietary _ => exact Bytes.spells.once_all
  | foreign _ => exact Bytes.spells.once_all

/-- Values. -/
private theorem kept_value (k : OutputKey) :
    Kept (value? k) (fun v => Ordered ⟨k, v⟩) (valueBytes k) := by
  cases k with
  | derivation _ => exact KeySource.spells.once_all.kept
  | tapTree => exact TapTree.kept
  | _ => exact (once_value _ rfl).kept

/-- **Records of an output are kept**, if script trees are ordered. -/
theorem kept : Wired.Kept OutputKey Value isVerbatim Ordered :=
  Wired.kept_of_parts (fun _ _ => rfl) (fun _ => rfl) ofKind?_keyData keyRead once_value kept_value

end OutputKey

end JointSpend
