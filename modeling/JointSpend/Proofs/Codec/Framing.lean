import JointSpend.Proofs.Codec.Psbts
import JointSpend.Proofs.Merge.Commutativity

set_option autoImplicit false
set_option relaxedAutoImplicit false

/-!
# Where a copy ends

The binary form of a copy is a mark and a row of maps: one for the whole, in which the transaction
is found, then one for each input and one for each output. Each map says where it ends, so the row
can be taken apart in one way only, even if it has records that are too long to be read. A row that
is too short is refused. Of a longer one only the beginning is looked at: what stands behind the
last map that is needed is ignored, be it further maps or anything else.

## Main definitions

* `JointSpend.RawRecord.Sized` — a record whose lengths can be written.
* `JointSpend.RawRecord.TakesMaps` — a reader takes a number of maps, whatever follows them.
* `JointSpend.Psbt.Framed` — a mark, a map of the whole and a number of further maps, and nothing
  behind them.

## Main results

* `JointSpend.RawRecord.exists_append_of_flatMap_writeAll` — a row of maps is taken apart in one
  way.
* `JointSpend.Psbt.exists_maps_of_decode` — what is read of a byte string.
* `JointSpend.Psbt.decode_takes_front` — a copy is read from the maps that are needed, and from no
  fewer.
* `JointSpend.Psbt.not_framed_of_decode` — a further map is ignored.
-/

namespace JointSpend

open CompactSize (maxLength)

/-! ## Records and maps -/

namespace CompactSize

/-- What follows a number does not change the number. -/
private theorem write_append_inj {n m : Nat} {a b : Bytes} (hn : n < 2 ^ 64) (hm : m < 2 ^ 64)
    (h : write n ++ a = write m ++ b) : n = m ∧ a = b := by
  have hread := reads.append hn a
  rw [h, reads.append hm] at hread
  obtain ⟨hnm, hab⟩ := Prod.mk.inj (Option.some.inj hread)
  exact ⟨hnm.symm, hab.symm⟩

/-- What follows a byte string behind its length does not change the byte string. -/
private theorem writeBytes_append_inj {s t a b : Bytes} (hs : s.length < 2 ^ 64)
    (ht : t.length < 2 ^ 64) (h : writeBytes s ++ a = writeBytes t ++ b) : s = t ∧ a = b := by
  rw [writeBytes, writeBytes, List.append_assoc, List.append_assoc] at h
  obtain ⟨hlen, hrest⟩ := write_append_inj hs ht h
  exact List.append_inj hrest hlen

end CompactSize

namespace RawRecord

/-- A record whose lengths can be written, though it may be too long to be read. -/
structure Sized (r : RawRecord) : Prop where
  key : (r.kind :: r.keyData).length < 2 ^ 64
  value : r.value.length < 2 ^ 64

/-- What can be read can be written. -/
theorem Fits.sized {r : RawRecord} (h : r.Fits) : r.Sized := by
  have hkey := h.keyData_le
  have hvalue := h.value.length_le
  unfold maxLength at hkey hvalue
  exact ⟨by rw [List.length_cons]; omega, by omega⟩

/-- What follows a record does not change the record. -/
private theorem write_append_inj {r s : RawRecord} {a b : Bytes} (hr : r.Sized) (hs : s.Sized)
    (h : r.write ++ a = s.write ++ b) : r = s ∧ a = b := by
  rw [write, write, List.append_assoc, List.append_assoc] at h
  obtain ⟨hkey, hrest⟩ := CompactSize.writeBytes_append_inj hr.key hs.key h
  obtain ⟨hvalue, hab⟩ := CompactSize.writeBytes_append_inj hr.value hs.value hrest
  obtain ⟨hkind, hdata⟩ := List.cons.inj hkey
  cases r
  cases s
  exact ⟨by simp_all, hab⟩

/-- A map is written as something. -/
private theorem writeAll_ne_nil (rs : List RawRecord) : writeAll rs ≠ [] := by
  simp [writeAll]

/-- No record begins like the end of a map. -/
private theorem write_append_ne {r : RawRecord} (hr : r.Sized) (a b : Bytes) :
    0 :: a ≠ r.write ++ b := by
  intro h
  rw [write_eq, List.append_assoc] at h
  have hend : (0 :: a : Bytes) = CompactSize.write 0 ++ a := rfl
  rw [hend] at h
  exact absurd (CompactSize.write_append_inj (by decide) hr.key h).1 (Nat.succ_ne_zero _).symm

/-- **What follows a map does not change the map.** -/
theorem writeAll_append_inj {rs ss : List RawRecord} {a b : Bytes} (hrs : ∀ r ∈ rs, r.Sized)
    (hss : ∀ s ∈ ss, s.Sized) (h : writeAll rs ++ a = writeAll ss ++ b) : rs = ss ∧ a = b := by
  induction rs generalizing ss with
  | nil =>
    cases ss with
    | nil => exact ⟨rfl, (List.cons.inj h).2⟩
    | cons s ss =>
      rw [writeAll_cons, List.append_assoc] at h
      exact absurd h (write_append_ne (hss s List.mem_cons_self) a _)
  | cons r rs ih =>
    obtain ⟨hr, hrs'⟩ := List.forall_mem_cons.mp hrs
    cases ss with
    | nil =>
      rw [writeAll_cons, List.append_assoc] at h
      exact absurd h.symm (write_append_ne hr b _)
    | cons s ss =>
      obtain ⟨hs, hss'⟩ := List.forall_mem_cons.mp hss
      rw [writeAll_cons, writeAll_cons, List.append_assoc, List.append_assoc] at h
      obtain ⟨rfl, hrest⟩ := write_append_inj hr hs h
      obtain ⟨rfl, hab⟩ := ih hrs' hss' hrest
      exact ⟨rfl, hab⟩

/-! ## Rows of maps -/

/-- **A row of maps is taken apart in one way**: what follows the same bytes is a row of maps
itself. -/
theorem exists_append_of_flatMap_writeAll {maps others : List (List RawRecord)} {rest : Bytes}
    (hmaps : ∀ rs ∈ maps, ∀ r ∈ rs, r.Sized) (hothers : ∀ rs ∈ others, ∀ r ∈ rs, r.Sized)
    (h : others.flatMap writeAll = maps.flatMap writeAll ++ rest) :
    ∃ more, others = maps ++ more ∧ rest = more.flatMap writeAll := by
  induction maps generalizing others with
  | nil => exact ⟨others, rfl, h.symm⟩
  | cons rs maps ih =>
    obtain ⟨hrs, hmaps'⟩ := List.forall_mem_cons.mp hmaps
    rw [List.flatMap_cons, List.append_assoc] at h
    cases others with
    | nil => exact absurd (List.append_eq_nil_iff.mp h.symm).1 (writeAll_ne_nil rs)
    | cons ss others =>
      obtain ⟨hss, hothers'⟩ := List.forall_mem_cons.mp hothers
      rw [List.flatMap_cons] at h
      obtain ⟨rfl, hrest⟩ := writeAll_append_inj hss hrs h
      obtain ⟨more, rfl, hmore⟩ := ih hmaps' hothers' hrest
      exact ⟨more, rfl, hmore⟩

/-- A reader takes a number of maps from the beginning of its input, whatever follows them. -/
def TakesMaps {α : Type} (reader : Reader α) (n : Nat) : Prop :=
  ∀ bs a rest, reader bs = some (a, rest) → ∃ maps : List (List RawRecord), maps.length = n ∧
    (∀ rs ∈ maps, ∀ r ∈ rs, r.Fits) ∧ bs = maps.flatMap writeAll ++ rest ∧
      ∀ other, reader (maps.flatMap writeAll ++ other) = some (a, other)

/-- Maps of entries are read from one map of records each. -/
private theorem takesMaps_read {κ : Type} [DecidableEq κ] [Ranked κ] {β : κ → Type} [Wired κ β] :
    TakesMaps (@RecordMap.read κ _ _ β _) 1 := by
  intro bs m rest h
  simp only [RecordMap.read, Option.bind_eq_bind, Option.bind_eq_some_iff, Option.pure_def,
    Option.some.injEq, Prod.mk.injEq, Prod.exists, reads_all _ _ _] at h
  obtain ⟨rs, _, ⟨hrs, rfl⟩, m', hm, rfl, rfl⟩ := h
  refine ⟨[rs], rfl, by simpa using hrs, by simp, fun other => ?_⟩
  rw [List.flatMap_singleton, RecordMap.read, reads_all.append hrs]
  simp only [Option.bind_eq_bind, Option.bind_some, hm]
  rfl

/-- Items in a row take a map each. -/
theorem TakesMaps.many {α : Type} {reader : Reader α} (h : TakesMaps reader 1) (n : Nat) :
    TakesMaps (Bytes.readMany reader n) n := by
  induction n with
  | zero =>
    intro bs as rest hread
    obtain ⟨rfl, rfl⟩ := Prod.mk.inj (Option.some.inj hread)
    exact ⟨[], rfl, by simp, rfl, fun _ => rfl⟩
  | succ n ih =>
    intro bs as rest hread
    simp only [Bytes.readMany, Option.bind_eq_bind, Option.bind_eq_some_iff, Option.pure_def,
      Option.some.injEq, Prod.mk.injEq, Prod.exists] at hread
    obtain ⟨a, bs₁, ha, as', bs₂, has, rfl, rfl⟩ := hread
    obtain ⟨front, hfront, hfits, rfl, htakes⟩ := h _ _ _ ha
    obtain ⟨back, rfl, hfits', rfl, htakes'⟩ := ih _ _ _ has
    refine ⟨front ++ back, by rw [List.length_append, hfront, Nat.add_comm],
      List.forall_mem_append.mpr ⟨hfits, hfits'⟩, by simp, fun other => ?_⟩
    rw [List.flatMap_append, List.append_assoc, Bytes.readMany, htakes]
    simp only [Option.bind_eq_bind, Option.bind_some, htakes']
    rfl

end RawRecord

/-! ## Whole copies -/

namespace Psbt

variable {p : Psbt}

/-- The bytes of a mark, a map of the whole, and a number of further maps. -/
def rowBytes (whole : List RawRecord) (maps : List (List RawRecord)) : Bytes :=
  magic ++ RawRecord.writeAll whole ++ maps.flatMap RawRecord.writeAll

/-- A byte string that consists of the mark, a map of the whole with a transaction, and a number of
further maps. Nothing stands behind the last of them. -/
def Framed (tx : Transaction) (count : Nat) (bs : Bytes) : Prop :=
  ∃ (whole : List RawRecord) (maps : List (List RawRecord)), bs = rowBytes whole maps ∧
    transaction? whole = some tx ∧ maps.length = count ∧
      (∀ r ∈ whole, r.Sized) ∧ ∀ rs ∈ maps, ∀ r ∈ rs, r.Sized

/-- How many maps stand behind that of the whole: one for each input and each output of the
transaction. -/
def mapCount (tx : Transaction) : Nat :=
  tx.inputs.length + tx.outputs.length

/-- The maps of a copy can be told from its bytes, whatever follows them. -/
theorem rowBytes_append_inj {whole whole' : List RawRecord} {maps maps' : List (List RawRecord)}
    {rest : Bytes} (hwhole : ∀ r ∈ whole, r.Sized) (hwhole' : ∀ r ∈ whole', r.Sized)
    (hmaps : ∀ rs ∈ maps, ∀ r ∈ rs, r.Sized) (hmaps' : ∀ rs ∈ maps', ∀ r ∈ rs, r.Sized)
    (h : rowBytes whole' maps' = rowBytes whole maps ++ rest) :
    whole' = whole ∧ ∃ more, maps' = maps ++ more ∧ rest = more.flatMap RawRecord.writeAll := by
  simp only [rowBytes, List.append_assoc, List.append_cancel_left_eq] at h
  obtain ⟨rfl, hrest⟩ := RawRecord.writeAll_append_inj hwhole' hwhole h
  exact ⟨rfl, RawRecord.exists_append_of_flatMap_writeAll hmaps hmaps' hrest⟩

/-- **Byte strings are framed in one way**: if one is the beginning of another, they have the same
transaction, and the rest of the other is maps. -/
theorem Framed.rest {tx tx' : Transaction} {count count' : Nat} {front rest : Bytes}
    (h : Framed tx count front) (h' : Framed tx' count' (front ++ rest)) :
    tx' = tx ∧ count ≤ count' ∧ (count' = count ↔ rest = []) := by
  obtain ⟨whole, maps, rfl, htx, rfl, hwhole, hmaps⟩ := h
  obtain ⟨whole', maps', heq, htx', rfl, hwhole', hmaps'⟩ := h'
  obtain ⟨rfl, more, rfl, rfl⟩ := rowBytes_append_inj hwhole hwhole' hmaps hmaps' heq.symm
  refine ⟨Option.some.inj (htx'.symm.trans htx), by simp, ?_⟩
  rw [List.length_append, Nat.add_eq_left, List.length_eq_zero_iff]
  constructor
  · rintro rfl
    rfl
  · intro hnil
    cases more with
    | nil => rfl
    | cons rs more =>
      rw [List.flatMap_cons] at hnil
      exact absurd (List.append_eq_nil_iff.mp hnil).1 (RawRecord.writeAll_ne_nil rs)

/-- The map of the whole is taken, whatever follows it. -/
private theorem exists_whole_of_readGlobals {bs rest : Bytes} {tx : Transaction} {gs : GlobalMap}
    (h : readGlobals bs = some ((tx, gs), rest)) :
    ∃ whole, transaction? whole = some tx ∧ (∀ r ∈ whole, r.Fits) ∧
      (RawRecord.writeAll whole).length ≤ maxLength ∧ bs = RawRecord.writeAll whole ++ rest ∧
        ∀ other, readGlobals (RawRecord.writeAll whole ++ other) = some ((tx, gs), other) := by
  simp only [readGlobals, Option.bind_eq_bind, Option.bind_eq_some_iff, Prod.exists,
    RawRecord.reads_all _ _ _] at h
  obtain ⟨whole, rest', ⟨hwhole, rfl⟩, tx', htx, gs', hgs, h⟩ := h
  split at h
  · next hcond =>
    obtain ⟨heq, rfl⟩ := Prod.mk.inj (Option.some.inj h)
    obtain ⟨rfl, rfl⟩ := Prod.mk.inj heq
    rw [Bool.and_eq_true, decide_eq_true_eq, List.length_append] at hcond
    refine ⟨whole, htx, hwhole, by omega, rfl, fun other => readGlobals_of_parts
      (RawRecord.reads_all.append hwhole other) htx hgs hcond.1 ?_⟩
    rw [List.length_append]
    omega
  · simp at h

/-- **What is read of a byte string** is a beginning of it with the right number of maps, none too
long. Whatever else follows, the same copy is read. -/
theorem exists_maps_of_decode {bs : Bytes} (h : decode bs = .ok p) :
    ∃ whole maps rest, bs = rowBytes whole maps ++ rest ∧
      transaction? whole = some p.transaction ∧ maps.length = mapCount p.transaction ∧
      (∀ r ∈ whole, r.Fits) ∧ (∀ rs ∈ maps, ∀ r ∈ rs, r.Fits) ∧
      (RawRecord.writeAll whole).length ≤ maxLength ∧
      ∀ other, decode (rowBytes whole maps ++ other) = .ok p := by
  obtain ⟨_, _, _, rest, rfl, hglobals, hin, hout⟩ := exists_parts_of_decode h
  obtain ⟨whole, htx, hwhole, hlength, rfl, htakes⟩ := exists_whole_of_readGlobals hglobals
  obtain ⟨inputs, hinputs, hfits, rfl, htakesIn⟩ := RawRecord.takesMaps_read.many _ _ _ _ hin
  obtain ⟨outputs, houtputs, hfits', rfl, htakesOut⟩ := RawRecord.takesMaps_read.many _ _ _ _ hout
  refine ⟨whole, inputs ++ outputs, rest, by simp [rowBytes], htx,
    by rw [List.length_append, hinputs, houtputs, mapCount], hwhole,
    List.forall_mem_append.mpr ⟨hfits, hfits'⟩, hlength, fun other => decode_of_ofBytes? ?_⟩
  rw [ofBytes?, read, rowBytes, List.flatMap_append, List.append_assoc, List.append_assoc,
    Bytes.splitExact_append rfl, List.append_assoc]
  simp only [Option.bind_eq_bind, Option.bind_some, if_true, htakes, htakesIn, htakesOut]
  rfl

/-- What is read of a byte string is framed. -/
theorem exists_framed_of_decode {bs : Bytes} (h : decode bs = .ok p) :
    ∃ front rest, bs = front ++ rest ∧ Framed p.transaction (mapCount p.transaction) front ∧
      ∀ other, decode (front ++ other) = .ok p := by
  obtain ⟨whole, maps, rest, rfl, htx, hcount, hwhole, hmaps, -, hother⟩ := exists_maps_of_decode h
  exact ⟨_, rest, rfl, ⟨whole, maps, rfl, htx, hcount, fun r hr => (hwhole r hr).sized,
    fun rs hrs r hr => (hmaps rs hrs r hr).sized⟩, hother⟩

/-- A framed byte string begins with the mark. -/
theorem Framed.ne_nil {tx : Transaction} {count : Nat} {bs : Bytes} (h : Framed tx count bs) :
    bs ≠ [] := by
  obtain ⟨whole, maps, rfl, -⟩ := h
  simp [rowBytes, magic]

/-- There is one fault for byte strings that are not empty and cannot be read. -/
theorem decode_eq_error {bs : Bytes} (hne : bs ≠ []) (h : ∀ p, decode bs ≠ .ok p) :
    decode bs = .error .malformedEncoding := by
  rw [decode, if_neg hne] at h ⊢
  cases hbytes : ofBytes? bs with
  | none => rfl
  | some p => exact absurd (by rw [hbytes]) (h p)

/-- **What follows the maps that are needed is ignored.** -/
theorem Framed.decode_append {tx : Transaction} {front : Bytes} (h : Framed tx (mapCount tx) front)
    (other : Bytes) : decode (front ++ other) = decode front := by
  by_cases hread : ∃ p, decode (front ++ other) = .ok p
  · obtain ⟨p, hp⟩ := hread
    obtain ⟨front', rest, heq, hfront', hany⟩ := exists_framed_of_decode hp
    -- both beginnings have the maps that are needed, so neither is longer
    have hsame : front' = front := by
      rcases List.append_eq_append_iff.mp heq with ⟨more, rfl, -⟩ | ⟨more, rfl, -⟩
      · obtain ⟨htx, -, hcount⟩ := h.rest hfront'
        rw [hcount.mp (by rw [htx]), List.append_nil]
      · obtain ⟨rfl, -, hcount⟩ := hfront'.rest h
        rw [hcount.mp rfl, List.append_nil]
    have hback := hany []
    rw [List.append_nil, hsame] at hback
    rw [hp, hback]
  · simp only [not_exists] at hread
    have hfront : ∀ p, decode front ≠ .ok p := by
      intro p hp
      obtain ⟨front', rest, rfl, -, hany⟩ := exists_framed_of_decode hp
      exact hread p (by rw [List.append_assoc, hany])
    rw [decode_eq_error h.ne_nil hfront, decode_eq_error (by simp [h.ne_nil]) hread]

/-- A copy is not read from fewer maps than it needs. -/
theorem Framed.mapCount_le {tx : Transaction} {count : Nat} {bs : Bytes} (h : Framed tx count bs)
    (hp : decode bs = .ok p) : mapCount tx ≤ count := by
  obtain ⟨front, rest, rfl, hfront, -⟩ := exists_framed_of_decode hp
  obtain ⟨rfl, hcount, -⟩ := hfront.rest h
  exact hcount

/-- **A copy is read from the maps that are needed**, and from no fewer. If a byte string is read,
it begins with the mark, the map of the whole, and one map for each input and each output of the
transaction there; it consists of these parts exactly when nothing follows them. What follows them
is ignored, whatever it is. A byte string with fewer maps than its transaction needs is refused.

**Proof sketch.** Every map says where it ends, so readers take whole maps from the beginning and
leave the rest. For the same reason no byte string is framed in two ways. -/
theorem decode_takes_front (bs : Bytes) :
    (∀ p, decode bs = .ok p → ∃ front rest, bs = front ++ rest ∧
      Framed p.transaction (mapCount p.transaction) front ∧
      (Framed p.transaction (mapCount p.transaction) bs ↔ rest = [])) ∧
    ∀ tx count, Framed tx count bs →
      (count < mapCount tx → decode bs = .error .malformedEncoding) ∧
      (count = mapCount tx → ∀ rest, decode (bs ++ rest) = decode bs) := by
  refine ⟨fun p hp => ?_, fun tx count h => ⟨fun hcount => ?_, ?_⟩⟩
  · obtain ⟨front, rest, rfl, hfront, -⟩ := exists_framed_of_decode hp
    refine ⟨front, rest, rfl, hfront, fun hbs => (hfront.rest hbs).2.2.mp rfl, ?_⟩
    rintro rfl
    rwa [List.append_nil]
  · exact decode_eq_error h.ne_nil fun p hp => absurd hcount (not_lt.mpr (h.mapCount_le hp))
  · rintro rfl
    exact h.decode_append

/-- A final copy is found in its own form with a further map behind it. It is not found without its
last map. -/
theorem decode_takes_front_finalAlone :
    decode (finalAlone.bytes ++ [0]) = .ok finalAlone ∧
      decode finalAlone.bytes.dropLast = .error .malformedEncoding := by
  have hread : decode finalAlone.bytes = .ok finalAlone := decode_of_ofBytes? rfl
  have hwhole : ∀ r ∈ transactionRecord finalAlone.transaction :: finalAlone.globals.records,
      r.Sized := fun r hr => (RawRecord.fits_of_length_writeAll (by decide) r hr).sized
  have hinputs : ∀ rs ∈ finalAlone.inputs.map RecordMap.records, ∀ r ∈ rs, r.Sized :=
    List.forall_mem_singleton.mpr fun r hr =>
      (RawRecord.fits_of_length_writeAll (by decide) r hr).sized
  have hshort : Framed finalAlone.transaction 1 finalAlone.bytes.dropLast :=
    ⟨_, _, rfl, rfl, rfl, hwhole, hinputs⟩
  obtain ⟨front, rest, hsplit, hfront, -⟩ := (decode_takes_front finalAlone.bytes).1 _ hread
  have happend := ((decode_takes_front front).2 _ _ hfront).2 rfl
  refine ⟨?_, ((decode_takes_front finalAlone.bytes.dropLast).2 _ _ hshort).1 (by decide)⟩
  rw [hsplit, List.append_assoc, happend, ← happend rest, ← hsplit, hread]

/-- **A further map is ignored**: not every byte string that is read consists of the maps that are
needed. -/
theorem not_framed_of_decode : ¬ ∀ (bs : Bytes) (p : Psbt), decode bs = .ok p →
    Framed p.transaction (mapCount p.transaction) bs := by
  intro h
  have hread : decode finalAlone.bytes = .ok finalAlone := decode_of_ofBytes? rfl
  have hlonger : decode (finalAlone.bytes ++ [0]) = .ok finalAlone := decode_of_ofBytes? rfl
  have hrest := ((h _ _ hread).rest (h _ _ hlonger)).2.2.mp rfl
  exact absurd hrest (by decide)

end Psbt

end JointSpend
