import JointSpend.CompactSize
import JointSpend.Proofs.Digits

set_option autoImplicit false
set_option relaxedAutoImplicit false

/-!
# Readers and writers

A reader and a writer belong together when the reader takes exactly what the writer writes and
leaves the rest. Most forms here have one spelling only, so this is an equivalence: whatever is read
was written in this form, and whatever is written in it is read. The values that can be read are
those that pass a test, which is about lengths most of the time.

## Main definitions

* `JointSpend.Reads`, `JointSpend.Spells` — a reader takes exactly what a writer writes, from the
  beginning of its input or as the whole of it.
* `JointSpend.CompactSize.Takeable` — a byte string that is not too long to be read.

## Main results

* `JointSpend.Bytes.reads_littleEndian`, `JointSpend.Bytes.reads_uint32`,
  `JointSpend.Bytes.reads_uint64`, `JointSpend.Fixed.reads` — numbers and byte strings of known
  length.
* `JointSpend.CompactSize.reads`, `JointSpend.CompactSize.reads_bytes`,
  `JointSpend.CompactSize.reads_list` — what stands behind a length.
* `JointSpend.Reads.many`, `JointSpend.Reads.readAll` — items in a row, and the whole input.
* `JointSpend.Bytes.flatten_chunks`, `JointSpend.Bytes.chunks_flatMap` — pieces of known length.
-/

namespace JointSpend

/-- A reader takes exactly what a writer writes for the values that pass a test, and leaves the
rest. -/
def Reads {α : Type} (reader : Reader α) (test : α → Prop) (writer : α → Bytes) : Prop :=
  ∀ bs a rest, reader bs = some (a, rest) ↔ test a ∧ bs = writer a ++ rest

/-- A reader of whole byte strings takes exactly what a writer writes for the values that pass a
test. -/
def Spells {α : Type} (reader : Bytes → Option α) (test : α → Prop) (writer : α → Bytes) : Prop :=
  ∀ bs a, reader bs = some a ↔ test a ∧ bs = writer a

/-- What is written is read. -/
theorem Spells.read {α : Type} {reader : Bytes → Option α} {test : α → Prop} {writer : α → Bytes}
    (h : Spells reader test writer) {a : α} (ha : test a) : reader (writer a) = some a :=
  (h _ _).mpr ⟨ha, rfl⟩

/-! ## Readers that are put together -/

namespace Reads

variable {α : Type} {reader : Reader α} {test : α → Prop} {writer : α → Bytes}

/-- What is written is read. -/
theorem append (h : Reads reader test writer) {a : α} (ha : test a) (rest : Bytes) :
    reader (writer a ++ rest) = some (a, rest) :=
  (h _ _ _).mpr ⟨ha, rfl⟩

/-- The whole input is read when it is what is written. -/
theorem readAll (h : Reads reader test writer) : Spells (Bytes.readAll reader) test writer := by
  intro bs a
  have hread := h bs a []
  rw [List.append_nil] at hread
  rw [← hread, Bytes.readAll]
  split
  · next b hb => simp [hb]
  · next hnot =>
    simp only [reduceCtorEq, false_iff]
    exact fun hr => hnot a hr

/-- Items in a row are read when they are what is written, one after another. -/
theorem many (h : Reads reader test writer) (n : Nat) :
    Reads (Bytes.readMany reader n) (fun as => as.length = n ∧ ∀ a ∈ as, test a)
      (List.flatMap writer) := by
  induction n with
  | zero =>
    intro bs as rest
    rw [Bytes.readMany, Option.some.injEq, Prod.mk.injEq]
    constructor
    · rintro ⟨rfl, rfl⟩
      simp
    · rintro ⟨⟨has, -⟩, rfl⟩
      obtain rfl := List.length_eq_zero_iff.mp has
      simp
  | succ n ih =>
    intro bs as rest
    simp only [Bytes.readMany, Option.bind_eq_bind, Option.bind_eq_some_iff, Option.pure_def,
      Option.some.injEq, Prod.mk.injEq, Prod.exists, h _ _ _, ih _ _ _]
    constructor
    · rintro ⟨a, r, ⟨ha, rfl⟩, as', r', ⟨⟨hlen, has⟩, rfl⟩, rfl, rfl⟩
      refine ⟨⟨by rw [List.length_cons, hlen], List.forall_mem_cons.mpr ⟨ha, has⟩⟩, ?_⟩
      rw [List.flatMap_cons, List.append_assoc]
    · rintro ⟨⟨hlen, has⟩, rfl⟩
      cases as with
      | nil => simp at hlen
      | cons a as =>
        obtain ⟨ha, has⟩ := List.forall_mem_cons.mp has
        refine ⟨a, _, ⟨ha, ?_⟩, as, _, ⟨⟨by simpa using hlen, has⟩, rfl⟩, rfl, rfl⟩
        rw [List.flatMap_cons, List.append_assoc]

end Reads

/-! ## Numbers and byte strings of known length -/

namespace Bytes

/-- Splitting off a beginning of known length. -/
theorem splitExact_eq_some_iff {n : Nat} {bs front rest : Bytes} :
    splitExact n bs = some (front, rest) ↔ front.length = n ∧ bs = front ++ rest := by
  constructor
  · intro h
    unfold splitExact at h
    dsimp only at h
    split at h
    · next hlen =>
      obtain ⟨rfl, rfl⟩ := Prod.mk.inj (Option.some.inj h)
      exact ⟨hlen, (List.take_append_drop n bs).symm⟩
    · simp at h
  · rintro ⟨hlen, rfl⟩
    exact splitExact_append hlen rest

/-- One byte. -/
theorem readByte_eq_some_iff {bs rest : Bytes} {b : UInt8} :
    readByte bs = some (b, rest) ↔ bs = b :: rest := by
  cases bs with
  | nil => simp [readByte]
  | cons c cs => simp [readByte]

/-- A number is less than what its digits can say. -/
theorem ofLittleEndian_lt (bs : Bytes) : ofLittleEndian bs < 256 ^ bs.length := by
  induction bs with
  | nil => simp [ofLittleEndian]
  | cons b bs ih =>
    have hb := b.toNat_lt
    rw [ofLittleEndian, List.length_cons, Nat.pow_succ]
    omega

/-- Digits are those of their number. -/
theorem littleEndian_ofLittleEndian (bs : Bytes) :
    littleEndian bs.length (ofLittleEndian bs) = bs := by
  induction bs with
  | nil => rfl
  | cons b bs ih =>
    have hb := b.toNat_lt
    have hdigit : (b.toNat + 256 * ofLittleEndian bs) % 256 = b.toNat := by omega
    have hrest : (b.toNat + 256 * ofLittleEndian bs) / 256 = ofLittleEndian bs := by omega
    rw [ofLittleEndian, List.length_cons, littleEndian, hdigit, hrest, ih, UInt8.ofNat_toNat]

/-- A number is less than what its digits can say. -/
theorem ofBigEndian_lt (bs : Bytes) : ofBigEndian bs < 256 ^ bs.length := by
  rw [ofBigEndian_eq, ← List.length_reverse]
  exact ofLittleEndian_lt bs.reverse

/-- Digits are those of their number. -/
theorem bigEndian_ofBigEndian (bs : Bytes) : bigEndian bs.length (ofBigEndian bs) = bs := by
  rw [bigEndian, ofBigEndian_eq, ← List.length_reverse, littleEndian_ofLittleEndian,
    List.reverse_reverse]

/-- Numbers of a fixed width. -/
theorem reads_littleEndian (n : Nat) :
    Reads (readLittleEndian n) (· < 256 ^ n) (littleEndian n) := by
  intro bs v rest
  simp only [readLittleEndian, Option.bind_eq_bind, Option.bind_eq_some_iff, Option.pure_def,
    Option.some.injEq, Prod.mk.injEq, Prod.exists, splitExact_eq_some_iff]
  constructor
  · rintro ⟨digits, r, ⟨rfl, rfl⟩, rfl, rfl⟩
    exact ⟨ofLittleEndian_lt digits, by rw [littleEndian_ofLittleEndian]⟩
  · rintro ⟨hv, rfl⟩
    exact ⟨_, _, ⟨length_littleEndian n v, rfl⟩, ofLittleEndian_littleEndian hv, rfl⟩

/-- Words of 32 bits. -/
theorem reads_uint32 : Reads readUInt32 (fun _ => True) ofUInt32 := by
  intro bs w rest
  simp only [readUInt32, Option.bind_eq_bind, Option.bind_eq_some_iff, Option.pure_def,
    Option.some.injEq, Prod.mk.injEq, Prod.exists, reads_littleEndian 4 _ _ _, true_and]
  constructor
  · rintro ⟨v, r, ⟨hv, rfl⟩, rfl, rfl⟩
    rw [ofUInt32, UInt32.toNat_ofNat_of_lt' hv]
  · rintro rfl
    exact ⟨_, _, ⟨w.toNat_lt, rfl⟩, UInt32.ofNat_toNat, rfl⟩

/-- Words of 64 bits. -/
theorem reads_uint64 : Reads readUInt64 (fun _ => True) ofUInt64 := by
  intro bs w rest
  simp only [readUInt64, Option.bind_eq_bind, Option.bind_eq_some_iff, Option.pure_def,
    Option.some.injEq, Prod.mk.injEq, Prod.exists, reads_littleEndian 8 _ _ _, true_and]
  constructor
  · rintro ⟨v, r, ⟨hv, rfl⟩, rfl, rfl⟩
    rw [ofUInt64, UInt64.toNat_ofNat_of_lt' hv]
  · rintro rfl
    exact ⟨_, _, ⟨w.toNat_lt, rfl⟩, UInt64.ofNat_toNat, rfl⟩

/-- No item is longer than all items together. -/
theorem length_le_length_flatMap_of_mem {α : Type} (writer : α → Bytes) {a : α} {as : List α}
    (ha : a ∈ as) : (writer a).length ≤ (as.flatMap writer).length := by
  rw [List.flatMap_def]
  exact (List.sublist_flatten_of_mem (List.mem_map_of_mem ha)).length_le

/-- Items together are no shorter than their number, if no item is written as nothing. -/
theorem length_le_length_flatMap {α : Type} {writer : α → Bytes} (h : ∀ a, writer a ≠ [])
    (as : List α) : as.length ≤ (as.flatMap writer).length := by
  induction as with
  | nil => simp
  | cons a as ih =>
    have hpos := List.length_pos_iff.mpr (h a)
    rw [List.flatMap_cons, List.length_append, List.length_cons]
    omega

end Bytes

/-- Byte strings of known length. -/
theorem Fixed.reads (n : Nat) : Reads (Fixed.read n) (fun _ => True) Fixed.bytes := by
  intro bs d rest
  rw [true_and, Fixed.read]
  constructor
  · intro h
    split at h
    · obtain ⟨rfl, rfl⟩ := Prod.mk.inj (Option.some.inj h)
      exact (List.take_append_drop n bs).symm
    · simp at h
  · rintro rfl
    have htake : (d.bytes ++ rest).take n = d.bytes := List.take_left' d.length_eq
    have hdrop : (d.bytes ++ rest).drop n = rest := List.drop_left' d.length_eq
    rw [dif_pos (by rw [htake, d.length_eq])]
    simp only [htake, hdrop]

/-! ## Pieces of known length -/

namespace Bytes

/-- Pieces are what the byte string is made of. -/
theorem flatten_chunks {n : Nat} {bs : Bytes} (h : bs.length % n = 0) :
    (chunks n bs).flatten = bs := by
  have hgo : ∀ k (bs : Bytes), bs.length = n * k → (chunks.go n k bs).flatten = bs := by
    intro k
    induction k with
    | zero =>
      intro bs hlen
      rw [chunks.go, List.flatten_nil, List.length_eq_zero_iff.mp hlen]
    | succ k ih =>
      intro bs hlen
      rw [chunks.go, List.flatten_cons, ih, List.take_append_drop]
      rw [List.length_drop, hlen, Nat.mul_succ, Nat.add_sub_cancel]
  exact hgo _ bs (Nat.mul_div_cancel' (Nat.dvd_of_mod_eq_zero h)).symm

/-- Each piece has the length that was asked for. -/
theorem length_of_mem_chunks {n : Nat} {bs c : Bytes} (h : c ∈ chunks n bs) : c.length = n := by
  have hgo : ∀ k (bs : Bytes), n * k ≤ bs.length → ∀ c ∈ chunks.go n k bs, c.length = n := by
    intro k
    induction k with
    | zero => simp [chunks.go]
    | succ k ih =>
      intro bs hlen
      rw [Nat.mul_succ] at hlen
      rw [chunks.go, List.forall_mem_cons]
      refine ⟨by rw [List.length_take]; omega, ih _ ?_⟩
      rw [List.length_drop]
      omega
  exact hgo _ bs (Nat.mul_div_le _ _) c h

/-- Items that are written in one length. -/
theorem length_flatMap_of_length {α : Type} {n : Nat} {writer : α → Bytes}
    (h : ∀ a, (writer a).length = n) (as : List α) :
    (as.flatMap writer).length = as.length * n := by
  induction as with
  | nil => simp
  | cons a as ih =>
    rw [List.flatMap_cons, List.length_append, h, ih, List.length_cons, Nat.succ_mul, Nat.add_comm]

/-- Items that are written in one length are the pieces of what is written for all. -/
theorem chunks_flatMap {α : Type} {n : Nat} (hn : 0 < n) {writer : α → Bytes}
    (h : ∀ a, (writer a).length = n) (as : List α) :
    chunks n (as.flatMap writer) = as.map writer := by
  rw [chunks, length_flatMap_of_length h, Nat.mul_div_cancel _ hn]
  induction as with
  | nil => rfl
  | cons a as ih =>
    rw [List.length_cons, chunks.go, List.flatMap_cons, List.take_left' (h a),
      List.drop_left' (h a), ih, List.map_cons]

end Bytes

/-! ## What stands behind a length -/

namespace CompactSize

/-- The wider forms of a number. -/
private theorem reads_wide (n least : Nat) :
    Reads (readWide n least) (fun v => least ≤ v ∧ v < 256 ^ n) (Bytes.littleEndian n) := by
  intro bs v rest
  simp only [readWide, Option.bind_eq_bind, Option.bind_eq_some_iff, Prod.exists,
    Bytes.reads_littleEndian n _ _ _]
  constructor
  · rintro ⟨w, r, ⟨hw, rfl⟩, h⟩
    split at h
    · simp at h
    · next hleast =>
      obtain ⟨rfl, rfl⟩ := Prod.mk.inj (Option.some.inj h)
      exact ⟨⟨not_lt.mp hleast, hw⟩, rfl⟩
  · rintro ⟨⟨hleast, hv⟩, rfl⟩
    exact ⟨v, rest, ⟨hv, rfl⟩, if_neg (not_lt.mpr hleast)⟩

/-- A single byte that is no marker stands for itself. -/
private theorem read_small {b : UInt8} (hb : b.toNat < 0xfd) (rest : Bytes) :
    read (b :: rest) = some (b.toNat, rest) := by
  have hne : ∀ marker : UInt8, 0xfd ≤ marker.toNat → b ≠ marker := by
    rintro marker hmarker rfl
    omega
  rw [read, if_neg (hne 0xfd (by decide)), if_neg (hne 0xfe (by decide)),
    if_neg (hne 0xff (by decide))]

/-- **Numbers in their shortest form.**

**Proof sketch.** The first byte tells which of the four forms is used. Each of the wider ones is
refused for numbers that a shorter one holds, so that the form follows from the number. -/
theorem reads : Reads read (· < 2 ^ 64) write := by
  intro bs n rest
  constructor
  · intro h
    cases bs with
    | nil => simp [read] at h
    | cons b bs =>
      by_cases hb : b.toNat < 0xfd
      · rw [read_small hb] at h
        obtain ⟨rfl, rfl⟩ := Prod.mk.inj (Option.some.inj h)
        refine ⟨by omega, ?_⟩
        rw [write, if_pos hb, UInt8.ofNat_toNat]
        rfl
      · rw [read] at h
        split at h
        · next hmarker =>
          obtain ⟨⟨hleast, hlt⟩, rfl⟩ := (reads_wide 2 0xfd _ _ _).mp h
          refine ⟨by omega, ?_⟩
          rw [hmarker, write, if_neg (by omega), if_pos (by omega)]
          rfl
        · split at h
          · next hmarker =>
            obtain ⟨⟨hleast, hlt⟩, rfl⟩ := (reads_wide 4 0x10000 _ _ _).mp h
            refine ⟨by omega, ?_⟩
            rw [hmarker, write, if_neg (by omega), if_neg (by omega), if_pos (by omega)]
            rfl
          · split at h
            · next hmarker =>
              obtain ⟨⟨hleast, hlt⟩, rfl⟩ := (reads_wide 8 0x100000000 _ _ _).mp h
              refine ⟨by omega, ?_⟩
              rw [hmarker, write, if_neg (by omega), if_neg (by omega), if_neg (by omega)]
              rfl
            · next hfd hfe hff =>
              have hlt := b.toNat_lt
              simp only [← UInt8.toNat_inj] at hfd hfe hff
              simp only [UInt8.reduceToNat] at hfd hfe hff
              omega
  · rintro ⟨hn, rfl⟩
    unfold write
    split_ifs with h1 h2 h3
    · have hbyte : (UInt8.ofNat n).toNat = n := by
        rw [UInt8.toNat_ofNat']
        omega
      rw [List.singleton_append, read_small (by omega), hbyte]
    · rw [List.cons_append, read, if_pos rfl]
      exact (reads_wide 2 0xfd).append ⟨by omega, by omega⟩ rest
    · rw [List.cons_append, read, if_neg (by decide), if_pos rfl]
      exact (reads_wide 4 0x10000).append ⟨by omega, by omega⟩ rest
    · rw [List.cons_append, read, if_neg (by decide), if_neg (by decide), if_pos rfl]
      exact (reads_wide 8 0x100000000).append ⟨by omega, by omega⟩ rest

/-- Whether a byte string can be taken at once, together with its length. -/
def Takeable (bs : Bytes) : Prop :=
  (writeBytes bs).length ≤ maxLength

/-- What can be taken at once is not too long. -/
theorem Takeable.length_le {bs : Bytes} (h : Takeable bs) : bs.length ≤ maxLength := by
  rw [Takeable, writeBytes, List.length_append] at h
  omega

/-- Byte strings behind their length. -/
theorem reads_bytes : Reads readBytes Takeable writeBytes := by
  intro bs content rest
  simp only [readBytes, Option.bind_eq_bind, Option.bind_eq_some_iff, Prod.exists, reads _ _ _]
  constructor
  · rintro ⟨n, r, ⟨-, rfl⟩, h⟩
    split at h
    · next hle =>
      obtain ⟨rfl, rfl⟩ := Bytes.splitExact_eq_some_iff.mp h
      exact ⟨by rwa [Takeable, writeBytes, List.length_append],
        by rw [writeBytes, List.append_assoc]⟩
    · simp at h
  · rintro ⟨hle, rfl⟩
    have hlt : content.length < 2 ^ 64 := lt_of_le_of_lt hle.length_le (by decide)
    rw [Takeable, writeBytes, List.length_append] at hle
    refine ⟨content.length, content ++ rest, ⟨hlt, by rw [writeBytes, List.append_assoc]⟩, ?_⟩
    rw [if_pos hle]
    exact Bytes.splitExact_append rfl rest

/-- No number is written as nothing. -/
theorem write_ne_nil (n : Nat) : write n ≠ [] := by
  unfold write
  split_ifs <;> exact List.cons_ne_nil _ _

/-- No byte string is written as nothing. -/
theorem writeBytes_ne_nil (bs : Bytes) : writeBytes bs ≠ [] :=
  List.append_ne_nil_of_left_ne_nil (write_ne_nil _) _

/-- No item of a list is longer than the written form of the list. -/
theorem length_item_le {α : Type} (writer : α → Bytes) {a : α} {as : List α} (ha : a ∈ as) :
    (writer a).length ≤ (writeList writer as).length := by
  have hitem := Bytes.length_le_length_flatMap_of_mem writer ha
  rw [writeList, List.length_append]
  omega

/-- A list whose written form is not too long has not too many items. -/
theorem length_lt_of_writeList {α : Type} {writer : α → Bytes} (hwriter : ∀ a, writer a ≠ [])
    {as : List α} (h : (writeList writer as).length ≤ maxLength) : as.length < 2 ^ 64 := by
  have hcount := Bytes.length_le_length_flatMap hwriter as
  rw [writeList, List.length_append] at h
  unfold maxLength at h
  omega

/-- Lists behind their length, if no item is written as nothing. -/
theorem reads_list {α : Type} {reader : Reader α} {test : α → Prop} {writer : α → Bytes}
    (h : Reads reader test writer) (hwriter : ∀ a, writer a ≠ []) :
    Reads (readList reader) (fun as => as.length < 2 ^ 64 ∧ ∀ a ∈ as, test a)
      (writeList writer) := by
  intro bs as rest
  simp only [readList, Option.bind_eq_bind, Option.bind_eq_some_iff, Prod.exists, reads _ _ _]
  constructor
  · rintro ⟨n, r, ⟨hn, rfl⟩, hr⟩
    split at hr
    · obtain ⟨⟨rfl, has⟩, rfl⟩ := (h.many n _ _ _).mp hr
      exact ⟨⟨hn, has⟩, by rw [writeList, List.append_assoc]⟩
    · simp at hr
  · rintro ⟨⟨hn, has⟩, rfl⟩
    refine ⟨as.length, as.flatMap writer ++ rest, ⟨hn, by rw [writeList, List.append_assoc]⟩, ?_⟩
    have hle : as.length ≤ (as.flatMap writer ++ rest).length := by
      rw [List.length_append]
      have := Bytes.length_le_length_flatMap hwriter as
      omega
    rw [if_pos hle]
    exact (h.many as.length).append ⟨rfl, has⟩ rest

end CompactSize

end JointSpend
