import JointSpend.Text.Utf8
import Mathlib.Data.List.Basic

set_option autoImplicit false
set_option relaxedAutoImplicit false

/-!
# Bytes that are text

A byte string is text exactly when it is the UTF-8 form of one, which is then the only one. Bytes
below 128 are always text. The byte 255 is never part of a text, which keeps binary forms that have
it from being taken for text.

## Main results

* `JointSpend.Text.ofUtf8?_eq_some_iff` — which text a byte string spells.
* `JointSpend.Text.ofUtf8?_of_ascii` — bytes below 128 are text.
* `JointSpend.Text.ofUtf8?_eq_none` — bytes with 255 among them are not.
-/

namespace JointSpend.Text

/-- The bytes of a text are its UTF-8 form. -/
private theorem toByteArray_eq (s : String) : s.toByteArray = ⟨(utf8 s).toArray⟩ := by
  rw [← String.utf8Encode_toList, List.utf8Encode]
  refine ByteArray.ext (Array.toList_inj.mp ?_)
  rw [List.toList_data_toByteArray, utf8]

/-- **A byte string spells a text** when it is its UTF-8 form. -/
theorem ofUtf8?_eq_some_iff {bs : Bytes} {s : String} : ofUtf8? bs = some s ↔ bs = utf8 s := by
  unfold ofUtf8? String.fromUTF8?
  split
  · next hvalid =>
    rw [Option.some.injEq]
    constructor
    · rintro rfl
      have hbytes := toByteArray_eq (String.fromUTF8 ⟨bs.toArray⟩ hvalid)
      exact List.toArray_inj (ByteArray.mk.inj hbytes)
    · rintro rfl
      exact String.toByteArray_inj.mp (toByteArray_eq s).symm
  · next hinvalid =>
    simp only [reduceCtorEq, false_iff]
    rintro rfl
    exact hinvalid (toByteArray_eq s ▸ s.isValidUTF8)

/-- The UTF-8 form of an ASCII character. -/
private theorem utf8EncodeChar_of_ascii {b : UInt8} (h : b.toNat < 128) :
    String.utf8EncodeChar (Char.ofNat b.toNat) = [b] := by
  have hval : (Char.ofNat b.toNat).val.toNat = b.toNat := by
    rw [Char.ofNat, dif_pos (Or.inl (by omega))]
    rfl
  rw [String.utf8EncodeChar, hval]
  simp only [if_pos (Nat.le_of_lt_succ h), UInt8.ofNat_toNat]

/-- Bytes below 128 are their own UTF-8 form. -/
theorem utf8_ofAscii {bs : Bytes} (h : ∀ b ∈ bs, b.toNat < 128) : utf8 (ofAscii bs) = bs := by
  rw [utf8, ofAscii, String.toList_ofList, List.flatMap_map]
  induction bs with
  | nil => rfl
  | cons b bs ih =>
    obtain ⟨hb, hbs⟩ := List.forall_mem_cons.mp h
    rw [List.flatMap_cons, utf8EncodeChar_of_ascii hb, ih hbs, List.singleton_append]

/-- **Bytes below 128 are text.** -/
theorem ofUtf8?_of_ascii {bs : Bytes} (h : ∀ b ∈ bs, b.toNat < 128) :
    ofUtf8? bs = some (ofAscii bs) :=
  ofUtf8?_eq_some_iff.mpr (utf8_ofAscii h).symm

/-- The byte 255 is not part of any character. -/
private theorem ne_of_mem_utf8EncodeChar {b : UInt8} {c : Char} (h : b ∈ String.utf8EncodeChar c) :
    b ≠ 0xff := by
  rintro rfl
  rw [String.utf8EncodeChar] at h
  split_ifs at h <;>
    simp only [List.mem_cons, List.not_mem_nil, or_false, ← UInt8.toNat_inj, UInt8.toNat_ofNat',
      UInt8.reduceToNat] at h <;> omega

/-- **Bytes with 255 among them are not text.** -/
theorem ofUtf8?_eq_none {bs : Bytes} (h : 0xff ∈ bs) : ofUtf8? bs = none := by
  cases htext : ofUtf8? bs with
  | none => rfl
  | some s =>
    rw [ofUtf8?_eq_some_iff.mp htext, utf8] at h
    obtain ⟨c, -, hc⟩ := List.mem_flatMap.mp h
    exact absurd rfl (ne_of_mem_utf8EncodeChar hc)

end JointSpend.Text
