import JointSpend.Json.Reader
import JointSpend.Proofs.Codec.Framing
import JointSpend.Proofs.Codec.Texts
import Mathlib.Data.List.TakeDrop

set_option autoImplicit false
set_option relaxedAutoImplicit false

/-!
# Exchange forms are told apart

Both forms of a copy are read as its binary form is, by a reader that does not know which form it
has. The binary form is never taken for text, as its mark is not UTF-8. What is read is the copy, if
anything is: a copy with something in it that is too long is refused, and never mistaken for another
one.

## Main definitions

* `JointSpend.Psbt.SaidAsText` — what data says as text.

## Main results

* `JointSpend.Psbt.decodeAny_exportAs` — both forms are read as the binary form.
* `JointSpend.Psbt.decodeAny_unambiguous` — data of unknown form is read in one way.
* `JointSpend.Psbt.fits_of_decode_bytes` — a copy with something too long is not read at all.
* `JointSpend.Psbt.decode_bytes_eq_ok_iff` — what is read of it.
-/

namespace JointSpend

/-- No JSON text begins with the letter that the base64 forms of all copies begin with. -/
private theorem Json.parse?_eq_none {text : String} {rest : List Char}
    (h : text.toList = 'c' :: rest) : Json.parse? text = none := by
  have hspaces : Json.skipSpaces ('c' :: rest) = 'c' :: rest := by
    simp [Json.skipSpaces, Json.isSpace]
  have hdigits : Json.scanDigits ('c' :: rest) = none := by
    have hspan : ('c' :: rest).span Char.isDigit = ([], 'c' :: rest) := by
      simp [List.span_eq_takeWhile_dropWhile]
    rw [Json.scanDigits, hspan]
    rfl
  have hnumber : Json.scanNumber ('c' :: rest) = none := by
    simp [Json.scanNumber, Json.scanUnsigned, Json.scanWhole, hdigits]
  have hvalue : Json.scanValue (('c' :: rest).length + 1) ('c' :: rest) = none := by
    simp [Json.scanValue, hspaces, hnumber]
  rw [Json.parse?, h]
  simp only [Option.bind_eq_bind, hvalue]
  rfl

namespace Psbt

variable {p q : Psbt}

/-! ## Both forms -/

/-- The binary form is not text. -/
private theorem ofUtf8?_bytes (p : Psbt) : Text.ofUtf8? p.bytes = none :=
  Text.ofUtf8?_eq_none (by simp [bytes, magic])

/-- Data that is a spelling but for its blanks is made of ASCII bytes. -/
private theorem ascii_of_filter {data bs : Bytes}
    (h : data.filter (! Text.isAsciiBlank ·) = Text.Base64.encodeBytes bs) :
    ∀ b ∈ data, b.toNat < 128 := by
  intro b hb
  cases hblank : Text.isAsciiBlank b with
  | true =>
    have hvalue := Text.isAsciiBlank_iff.mp hblank
    omega
  | false =>
    have hmem : b ∈ data.filter (! Text.isAsciiBlank ·) :=
      List.mem_filter.mpr ⟨hb, by rw [hblank]; rfl⟩
    rw [h] at hmem
    exact (Text.Base64.isPlain_of_mem_encodeBytes hmem).1

/-- Without its blanks, the base64 form is the spelling of the binary form. -/
private theorem filter_base64 (bs : Bytes) :
    (Text.Base64.encodeBytes bs ++ [10]).filter (! Text.isAsciiBlank ·) =
      Text.Base64.encodeBytes bs := by
  rw [List.filter_append, filter_encodeBytes]
  exact List.append_nil _

/-- The base64 form is text. -/
private theorem ofUtf8?_encodeBytes (bs : Bytes) :
    Text.ofUtf8? (Text.Base64.encodeBytes bs ++ [10]) =
      some (Text.ofAscii (Text.Base64.encodeBytes bs ++ [10])) :=
  Text.ofUtf8?_of_ascii (ascii_of_filter (filter_base64 bs))

/-- **A spelling is read as what it spells**, wherever there are blanks in it. -/
theorem decodeAny_of_filter {data bs : Bytes}
    (h : data.filter (! Text.isAsciiBlank ·) = Text.Base64.encodeBytes bs) :
    decodeAny data = decode bs := by
  have hascii := ascii_of_filter h
  have hbytes : bytesOfText (Text.ofAscii data) = .ok bs := by
    apply bytesOfText_eq_ok_iff_decode.mpr
    rw [Text.utf8_ofAscii hascii, h, Text.Base64.decode_encodeBytes]
  unfold decodeAny
  rw [Text.ofUtf8?_of_ascii hascii, Option.map_some, hbytes]

/-- **Both forms are read as the binary form.** -/
theorem decodeAny_exportAs (p : Psbt) (form : ExchangeForm) :
    decodeAny (p.exportAs form) = decode p.bytes := by
  cases form with
  | binary =>
    unfold decodeAny exportAs
    rw [ofUtf8?_bytes]
    rfl
  | base64 => exact decodeAny_of_filter (filter_base64 p.bytes)

/-! ## Data of unknown form -/

/-- Data says a copy as text: it is UTF-8, its text is base64, and what this stands for is the
binary form of the copy. -/
def SaidAsText (data : Bytes) (p : Psbt) : Prop :=
  ∃ text bs, Text.ofUtf8? data = some text ∧ bytesOfText text = .ok bs ∧ decode bs = .ok p

/-- Data from which a copy is read as a binary form is not text: it begins with the mark. -/
private theorem ofUtf8?_of_decode {data : Bytes} (h : decode data = .ok p) :
    Text.ofUtf8? data = none := by
  obtain ⟨bs, _, _, _, rfl, -⟩ := exists_parts_of_decode h
  exact Text.ofUtf8?_eq_none (by simp [magic])

/-- No data is read in both ways. -/
private theorem not_saidAsText_of_decode {data : Bytes} (h : decode data = .ok p) :
    ¬ SaidAsText data q := by
  rintro ⟨text, bs, htext, -⟩
  rw [ofUtf8?_of_decode h] at htext
  simp at htext

/-- **What is read of data of unknown form** is what it says in one of the two forms. -/
theorem decodeAny_eq_ok_iff {data : Bytes} :
    decodeAny data = .ok p ↔ decode data = .ok p ∨ SaidAsText data p := by
  cases htext : Text.ofUtf8? data with
  | none => simp [decodeAny, SaidAsText, htext]
  | some text =>
    cases hbytes : bytesOfText text with
    | error fault => simp [decodeAny, SaidAsText, htext, hbytes]
    | ok bs =>
      -- the reader does not come back to the bytes themselves, but they are no binary form
      have hbinary : decode data ≠ .ok p := by
        intro h
        simp [ofUtf8?_of_decode h] at htext
      simp [decodeAny, SaidAsText, htext, hbytes, hbinary]

/-- **The form of data is never in doubt.** Data of unknown form is read as a copy exactly when it
is read as this copy in one of the two forms, and no data is read in both. So every binary form that
can be read is read; both forms of any copy are read as its binary form is, and so is the base64
form with blanks put in anywhere.

**Proof sketch.** The mark has a byte that no text has, so what is read as a binary form is never
taken for text. The text form is ASCII with or without blanks, and these are dropped again. -/
theorem decodeAny_unambiguous :
    (∀ (data : Bytes) (p : Psbt),
      decodeAny data = .ok p ↔ decode data = .ok p ∨ SaidAsText data p) ∧
    (∀ (data : Bytes) (p q : Psbt), decode data = .ok p → ¬ SaidAsText data q) ∧
    ∀ p : Psbt, (∀ form, decodeAny (p.exportAs form) = decode p.bytes) ∧
      ∀ data, Text.Spaced Text.isAsciiBlank (p.exportAs .base64) data →
        decodeAny data = decode p.bytes := by
  refine ⟨fun data p => decodeAny_eq_ok_iff, fun data p q => not_saidAsText_of_decode,
    fun p => ⟨decodeAny_exportAs p, fun data h => ?_⟩⟩
  apply decodeAny_of_filter
  rw [h.filter_eq]
  exact filter_base64 p.bytes

/-- The base64 form of a final copy, with a line break behind its first symbol. -/
def brokenForm : Bytes :=
  (finalAlone.exportAs .base64).take 1 ++ [13, 10] ++ (finalAlone.exportAs .base64).drop 1

/-- The copy is read from its binary form, which says nothing as text, and from the broken base64
form. -/
theorem decodeAny_unambiguous_brokenForm :
    decode finalAlone.bytes = .ok finalAlone ∧ ¬ SaidAsText finalAlone.bytes finalAlone ∧
      decodeAny finalAlone.bytes = .ok finalAlone ∧
      Text.Spaced Text.isAsciiBlank (finalAlone.exportAs .base64) brokenForm ∧
      decodeAny brokenForm = .ok finalAlone := by
  have hread : decode finalAlone.bytes = .ok finalAlone := decode_of_ofBytes? rfl
  obtain ⟨hiff, hnever, hforms⟩ := decodeAny_unambiguous
  have hspaced : Text.Spaced Text.isAsciiBlank (finalAlone.exportAs .base64) brokenForm :=
    .keep _ (.putIn rfl (.putIn rfl (.refl _)))
  refine ⟨hread, hnever _ _ _ hread, (hiff _ _).mpr (.inl hread), hspaced, ?_⟩
  rw [(hforms finalAlone).2 _ hspaced, hread]

/-! ## What is read -/

/-- The binary form of a copy is a row of maps. -/
theorem bytes_eq_rowBytes (p : Psbt) : p.bytes =
    rowBytes (transactionRecord p.transaction :: p.globals.records)
      (p.inputs.map RecordMap.records ++ p.outputs.map RecordMap.records) := by
  simp only [bytes, rowBytes, List.flatMap_append, List.flatMap_map, List.append_assoc]
  rfl

/-- A copy has a map for each input and each output of its transaction. -/
theorem Shaped.length_maps (h : p.Shaped) :
    (p.inputs.map RecordMap.records ++ p.outputs.map RecordMap.records).length =
      mapCount p.transaction := by
  rw [List.length_append, List.length_map, List.length_map, h.length_inputs, h.length_outputs,
    mapCount]

/-- Records that are written in fewer than `2 ^ 64` bytes have lengths that can be written. -/
private theorem sized_of_rowBytes {whole : List RawRecord} {maps : List (List RawRecord)}
    (h : (rowBytes whole maps).length < 2 ^ 64) :
    (∀ r ∈ whole, r.Sized) ∧ ∀ rs ∈ maps, ∀ r ∈ rs, r.Sized := by
  have hsized : ∀ rs : List RawRecord, (RawRecord.writeAll rs).length < 2 ^ 64 →
      ∀ r ∈ rs, r.Sized := by
    intro rs hrs r hr
    have hle := (RawRecord.length_write_le hr).trans_lt hrs
    simp only [RawRecord.write, CompactSize.writeBytes, List.length_append] at hle
    exact ⟨by omega, by omega⟩
  simp only [rowBytes, List.length_append] at h
  refine ⟨hsized whole (by omega), fun rs hrs => hsized rs ?_⟩
  have hle := Bytes.length_le_length_flatMap_of_mem RawRecord.writeAll hrs
  omega

/-- **Nothing is too long in a copy whose binary form can be read**, if it has fewer than `2 ^ 64`
bytes.

**Proof sketch.** What is read is a row of maps that are not too long. The binary form itself is a
row of maps, and rows are taken apart in one way, so these are the maps of the copy. -/
theorem fits_of_decode_bytes (hform : p.WellFormed) (hlength : p.bytes.length < 2 ^ 64)
    (h : decode p.bytes = .ok q) : p.Fits := by
  obtain ⟨whole, maps, rest, heq, htx, hcount, hwhole, hmaps, hwithin, -⟩ := exists_maps_of_decode h
  rw [bytes_eq_rowBytes] at heq hlength
  obtain ⟨hsized, hsized'⟩ := sized_of_rowBytes hlength
  obtain ⟨rfl, more, hrow, -⟩ := rowBytes_append_inj (fun r hr => (hwhole r hr).sized) hsized
    (fun rs hrs r hr => (hmaps rs hrs r hr).sized) hsized' heq
  have hvalue := (hwhole (transactionRecord p.transaction) List.mem_cons_self).value.length_le
  have hsame : p.transaction = q.transaction :=
    Option.some.inj ((transaction?_records hform.unsigned hvalue).symm.trans htx)
  obtain rfl : more = [] := by
    have hlengths := congrArg List.length hrow
    rw [hform.shaped.length_maps, List.length_append, hcount, hsame] at hlengths
    exact List.length_eq_zero_iff.mp (by omega)
  rw [List.append_nil] at hrow
  rw [← hrow, List.forall_mem_append, List.forall_mem_map, List.forall_mem_map] at hmaps
  exact ⟨hwithin, fun m hm e he => hmaps.1 m hm _ (List.mem_map_of_mem he),
    fun m hm e he => hmaps.2 m hm _ (List.mem_map_of_mem he)⟩

/-- **What is read of the binary form is the copy**, exactly when nothing in it is too long. -/
theorem decode_bytes_eq_ok_iff (hform : p.WellFormed) (hlength : p.bytes.length < 2 ^ 64) :
    decode p.bytes = .ok q ↔ p = q ∧ q.Fits := by
  constructor
  · intro h
    have hfits := fits_of_decode_bytes hform hlength h
    have hback := decode_bytes_iff.mpr ⟨hform, hfits⟩
    obtain rfl := Except.ok.inj (hback.symm.trans h)
    exact ⟨rfl, hfits⟩
  · rintro ⟨rfl, hfits⟩
    exact decode_bytes_iff.mpr ⟨hform, hfits⟩

/-- Neither form is shorter than the binary form. -/
theorem length_bytes_le (p : Psbt) (form : ExchangeForm) :
    p.bytes.length ≤ (p.exportAs form).length := by
  cases form with
  | binary => exact le_rfl
  | base64 =>
    have hle := Text.Base64.length_le_length_encodeBytes p.bytes
    rw [exportAs, List.length_append]
    omega

/-! ## Copies and other texts -/

/-- The base64 form of a copy begins like the form of its mark. -/
private theorem exists_toList_ofAscii (p : Psbt) :
    ∃ rest, (Text.ofAscii (Text.Base64.encodeBytes p.bytes ++ [10])).toList = 'c' :: rest := by
  obtain ⟨rest, hrest⟩ : ∃ rest, p.bytes = 0x70 :: 0x73 :: 0x62 :: rest := by simp [bytes, magic]
  rw [hrest, Text.ofAscii, String.toList_ofList, Text.Base64.encodeBytes]
  exact ⟨_, rfl⟩

/-- **No form of a copy is a JSON text**: one is no text at all, and the other begins with a letter
that no value begins with. -/
theorem parse?_exportAs (p : Psbt) (form : ExchangeForm) :
    (Text.ofUtf8? (p.exportAs form)).bind Json.parse? = none := by
  cases form with
  | binary =>
    rw [exportAs, ofUtf8?_bytes]
    rfl
  | base64 =>
    obtain ⟨rest, hrest⟩ := exists_toList_ofAscii p
    rw [exportAs, ofUtf8?_encodeBytes, Option.bind_some]
    exact Json.parse?_eq_none hrest

end Psbt

end JointSpend
