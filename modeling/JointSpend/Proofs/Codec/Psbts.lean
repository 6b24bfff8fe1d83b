import JointSpend.Proofs.Codec.Kinds
import JointSpend.Proofs.Psbt.Shape
import Mathlib.Data.List.Flatten

set_option autoImplicit false
set_option relaxedAutoImplicit false

/-!
# Copies are read back from their binary form

What is written for a copy is read back as the same copy exactly when two things hold: the copy is
well-formed, which is about its structure, and it fits, which is about lengths. Every copy that was
read is well-formed and fits, however it was spelled, and has every record that was there. So one
round through the binary form makes the spelling canonical, and every further one changes nothing.

## Main definitions

* `JointSpend.Psbt.WellFormed` — the structure of the copy can be written.
* `JointSpend.Psbt.Fits` — nothing in the copy is too long to be read; of this,
  `JointSpend.Psbt.WholeFits` is about the map of the whole.
* `JointSpend.Psbt.SpelledBy` — the copy is what a byte string says.

## Main results

* `JointSpend.Psbt.spec_of_decode` — copies that were read.
* `JointSpend.Psbt.decode_bytes_iff` — which copies are read back.
-/

namespace JointSpend

open CompactSize (maxLength Takeable)

/-- An unsigned transaction has no witnesses. -/
private theorem Transaction.bare_of_isUnsigned {tx : Transaction} (h : tx.isUnsigned = true) :
    tx.Bare := by
  intro i hi
  have hi := List.all_eq_true.mp h i hi
  rw [Bool.and_eq_true] at hi
  rw [TxInput.bare, ← List.isEmpty_iff.mp hi.2]

namespace Psbt

variable {p : Psbt}

/-! ## The two conditions -/

/-- The structure of the copy can be written: there is one map for each input and one for each
output, the transaction is unsigned, and script trees are ordered. -/
structure WellFormed (p : Psbt) : Prop where
  shaped : p.Shaped
  unsigned : p.transaction.isUnsigned = true
  ordered : ∀ m ∈ p.outputs, ∀ e ∈ m.entries, OutputKey.Ordered e

/-- The map of the whole, with the transaction, is not too long to be read. -/
def WholeFits (p : Psbt) : Prop :=
  (RawRecord.writeAll (transactionRecord p.transaction :: p.globals.records)).length ≤ maxLength

/-- Nothing in the copy is too long to be read: the map of the whole is not, and no record of an
input or of an output is. -/
structure Fits (p : Psbt) : Prop where
  whole : p.WholeFits
  inputs : ∀ m ∈ p.inputs, m.Fits
  outputs : ∀ m ∈ p.outputs, m.Fits

/-! ## The map of the whole -/

/-- The records of the whole have kinds of their own. -/
private theorem kind_ne_of_mem_records {gs : GlobalMap} {r : RawRecord} (h : r ∈ gs.records) :
    r.kind ≠ transactionKind ∧ r.kind ≠ versionKind := by
  obtain ⟨⟨k, v⟩, -, rfl⟩ := List.mem_map.mp h
  exact k.kind_ne

/-- The unsigned transaction is read back. -/
private theorem readAll_baseBytes {tx : Transaction} (hunsigned : tx.isUnsigned = true)
    (hlength : tx.baseBytes.length ≤ maxLength) :
    Bytes.readAll Transaction.readBase tx.baseBytes = some tx :=
  Transaction.reads_base.readAll.read ⟨Transaction.bare_of_isUnsigned hunsigned,
    Transaction.readable_of_baseBytes (Transaction.bare_of_isUnsigned hunsigned) hlength⟩

/-- Among records that begin with the transaction and have it once, it is found. -/
theorem transaction?_records {tx : Transaction} {gs : GlobalMap}
    (hunsigned : tx.isUnsigned = true) (hlength : tx.baseBytes.length ≤ maxLength) :
    transaction? (transactionRecord tx :: gs.records) = some tx := by
  have hothers : (gs.records.filter fun r => r.kind == transactionKind) = [] :=
    List.filter_eq_nil_iff.mpr fun r hr => by simpa using (kind_ne_of_mem_records hr).1
  unfold transaction?
  rw [List.filter_cons_of_pos (by simp [transactionRecord]), hothers]
  simp only [transactionRecord, if_true, readAll_baseBytes hunsigned hlength]
  exact Option.filter_some_pos hunsigned

/-- The transaction that is found among records is that of its record, which is there once. -/
private theorem filter_eq_of_transaction? {rs : List RawRecord} {tx : Transaction}
    (h : transaction? rs = some tx) : tx.isUnsigned = true ∧
      (rs.filter fun r => r.kind == transactionKind) = [transactionRecord tx] := by
  unfold transaction? at h
  split at h
  · next r hfilter =>
    split at h
    · next hdata =>
      obtain ⟨hread, hunsigned⟩ := Option.filter_eq_some_iff.mp h
      have hvalue := ((Transaction.reads_base.readAll _ _).mp hread).2
      have hr : r ∈ rs.filter fun r => r.kind == transactionKind := by rw [hfilter]; simp
      have hkind := (List.mem_filter.mp hr).2
      refine ⟨hunsigned, ?_⟩
      obtain ⟨kind, keyData, value⟩ := r
      obtain rfl : kind = transactionKind := by simpa using hkind
      obtain rfl : keyData = [] := hdata
      obtain rfl : value = tx.baseBytes := hvalue
      exact hfilter
    · simp at h
  · simp at h

/-- Without the version, the records of the whole are that of the transaction and those that the map
is found from. -/
private theorem perm_of_transaction? {rs : List RawRecord} {tx : Transaction} {gs : GlobalMap}
    (htx : transaction? rs = some tx) (hgs : RecordMap.ofRecords?
      (rs.filter fun r => r.kind != transactionKind && r.kind != versionKind) = some gs) :
    (rs.filter fun r => r.kind != versionKind).Perm (transactionRecord tx :: gs.records) := by
  have htransaction : (rs.filter fun r => r.kind != versionKind).filter
      (fun r => r.kind == transactionKind) = [transactionRecord tx] := by
    rw [List.filter_filter, ← (filter_eq_of_transaction? htx).2]
    refine List.filter_congr fun r _ => ?_
    by_cases hkind : r.kind = transactionKind
    · simp [hkind, transactionKind, versionKind]
    · simp [hkind]
  have hothers : (rs.filter fun r => r.kind != versionKind).filter
      (fun r => !(r.kind == transactionKind)) =
        rs.filter fun r => r.kind != transactionKind && r.kind != versionKind := by
    rw [List.filter_filter]
    rfl
  have hsplit := List.filter_append_perm (fun r : RawRecord => r.kind == transactionKind)
    (rs.filter fun r => r.kind != versionKind)
  rw [htransaction, hothers, List.singleton_append] at hsplit
  exact hsplit.symm.trans
    ((RecordMap.readFrom_of_ofRecords? GlobalKey.kept hgs).perm_records.symm.cons _)

/-- The map of the whole is read when its parts are. -/
theorem readGlobals_of_parts {bs rest : Bytes} {rs : List RawRecord} {tx : Transaction}
    {gs : GlobalMap} (hread : RawRecord.readAll bs = some (rs, rest))
    (htx : transaction? rs = some tx) (hglobals : RecordMap.ofRecords?
      (rs.filter fun r => r.kind != transactionKind && r.kind != versionKind) = some gs)
    (hversion : versionIsZero rs = true) (hwithin : bs.length ≤ rest.length + maxLength) :
    readGlobals bs = some ((tx, gs), rest) := by
  have hchecks : (versionIsZero rs && decide (bs.length ≤ rest.length + maxLength)) = true := by
    rw [hversion, decide_eq_true hwithin]
    rfl
  unfold readGlobals
  rw [hread]
  simp only [Option.bind_eq_bind, Option.bind_some, htx, hglobals]
  rw [if_pos hchecks]
  rfl

/-- The map of the whole is read back, if it is not too long. -/
private theorem readGlobals_records {tx : Transaction} {gs : GlobalMap}
    (hunsigned : tx.isUnsigned = true)
    (hlength : (RawRecord.writeAll (transactionRecord tx :: gs.records)).length ≤ maxLength)
    (rest : Bytes) :
    readGlobals (RawRecord.writeAll (transactionRecord tx :: gs.records) ++ rest) =
      some ((tx, gs), rest) := by
  have hfits := RawRecord.fits_of_length_writeAll hlength
  have htx : transaction? (transactionRecord tx :: gs.records) = some tx :=
    transaction?_records hunsigned
      (hfits (transactionRecord tx) List.mem_cons_self).value.length_le
  have hrecords : ((transactionRecord tx :: gs.records).filter fun r =>
      r.kind != transactionKind && r.kind != versionKind) = gs.records := by
    rw [List.filter_cons_of_neg (by simp [transactionRecord])]
    exact List.filter_eq_self.mpr fun r hr => by simpa using kind_ne_of_mem_records hr
  have hglobals : RecordMap.ofRecords? gs.records = some gs :=
    RecordMap.ofRecords?_records GlobalKey.kept ⟨fun _ _ => trivial, fun e he =>
      hfits _ (List.mem_cons_of_mem _ (List.mem_map_of_mem he))⟩
  have hversion : versionIsZero (transactionRecord tx :: gs.records) = true := by
    have hnone : ((transactionRecord tx :: gs.records).filter fun r => r.kind == versionKind) =
        [] := by
      rw [List.filter_cons_of_neg (by simp [transactionRecord, transactionKind, versionKind])]
      exact List.filter_eq_nil_iff.mpr fun r hr => by simpa using (kind_ne_of_mem_records hr).2
    rw [versionIsZero, hnone]
  have hwithin : (RawRecord.writeAll (transactionRecord tx :: gs.records) ++ rest).length ≤
      rest.length + maxLength := by
    rw [List.length_append]
    omega
  rw [← hrecords] at hglobals
  exact readGlobals_of_parts (RawRecord.reads_all.append hfits rest) htx hglobals hversion hwithin

/-- A map of the whole that was read has an unsigned transaction, is not too long, and has the
records that were there. -/
private theorem spec_of_readGlobals {bs rest : Bytes} {tx : Transaction} {gs : GlobalMap}
    (h : readGlobals bs = some ((tx, gs), rest)) : tx.isUnsigned = true ∧
      (RawRecord.writeAll (transactionRecord tx :: gs.records)).length ≤ maxLength ∧
      ∃ rs, bs = RawRecord.writeAll rs ++ rest ∧ versionIsZero rs = true ∧
        (rs.filter fun r => r.kind != versionKind).Perm (transactionRecord tx :: gs.records) := by
  simp only [readGlobals, Option.bind_eq_bind, Option.bind_eq_some_iff, Prod.exists,
    RawRecord.reads_all _ _ _] at h
  obtain ⟨rs, rest', ⟨-, rfl⟩, tx', htx, gs', hgs, h⟩ := h
  split at h
  · next hcond =>
    obtain ⟨heq, rfl⟩ := Prod.mk.inj (Option.some.inj h)
    obtain ⟨rfl, rfl⟩ := Prod.mk.inj heq
    rw [Bool.and_eq_true, decide_eq_true_eq, List.length_append] at hcond
    have hperm := perm_of_transaction? htx hgs
    refine ⟨(filter_eq_of_transaction? htx).1, ?_, rs, rfl, hcond.1, hperm⟩
    have hwritten := (hperm.flatMap_right RawRecord.write).length_eq
    have hlength := ((List.filter_sublist (p := fun r : RawRecord => r.kind != versionKind)
      (l := rs)).flatMap RawRecord.write).length_le
    rw [RawRecord.writeAll, List.length_append] at hcond ⊢
    omega
  · simp at h

/-! ## Whole copies -/

/-- The copy is what the byte string says. Each map has one entry for each record there, which is
read from it. Of the whole, only the record of the version has no entry, which has to be 0; what
follows the last map is not looked at. -/
def SpelledBy (p : Psbt) (bs : Bytes) : Prop :=
  ∃ (whole : List RawRecord) (inputs outputs : List (List RawRecord)) (rest : Bytes),
    bs = magic ++ RawRecord.writeAll whole ++ inputs.flatMap RawRecord.writeAll ++
      outputs.flatMap RawRecord.writeAll ++ rest ∧
    versionIsZero whole = true ∧
    (whole.filter fun r => r.kind != versionKind).Perm
      (transactionRecord p.transaction :: p.globals.records) ∧
    List.Forall₂ (RecordMap.ReadFrom InputKey.isVerbatim) inputs p.inputs ∧
    List.Forall₂ (RecordMap.ReadFrom OutputKey.isVerbatim) outputs p.outputs

/-- **A copy that was read** is well-formed, fits, and is what was there. -/
theorem spec_of_decode {bs : Bytes} (h : decode bs = .ok p) :
    p.WellFormed ∧ p.Fits ∧ p.SpelledBy bs := by
  obtain ⟨bs₁, bs₂, bs₃, bs₄, rfl, hglobals, hin, hout⟩ := exists_parts_of_decode h
  obtain ⟨hunsigned, hwhole, whole, rfl, hversion, hperm⟩ := spec_of_readGlobals hglobals
  obtain ⟨hinputs, inputs, rfl, hfromInputs⟩ := RecordMap.spec_of_readMany InputKey.kept hin
  obtain ⟨houtputs, outputs, rfl, hfromOutputs⟩ := RecordMap.spec_of_readMany OutputKey.kept hout
  refine ⟨⟨Decoded.shaped ⟨_, h⟩, hunsigned, fun m hm => (houtputs m hm).test⟩,
    ⟨hwhole, fun m hm => (hinputs m hm).fits, fun m hm => (houtputs m hm).fits⟩,
    whole, inputs, outputs, bs₄, ?_, hversion, hperm, hfromInputs, hfromOutputs⟩
  simp only [List.append_assoc]

/-- A copy that was read is well-formed. -/
theorem Decoded.wellFormed (h : p.Decoded) : p.WellFormed := by
  obtain ⟨bs, h⟩ := h
  exact (spec_of_decode h).1

/-- A copy that was read fits. -/
theorem Decoded.fits (h : p.Decoded) : p.Fits := by
  obtain ⟨bs, h⟩ := h
  exact (spec_of_decode h).2.1

/-- What is written for a copy that is well-formed and fits is read back. -/
private theorem read_bytes (hform : p.WellFormed) (hfits : p.Fits) :
    read p.bytes = some (p, []) := by
  have hin := RecordMap.readMany_flatMap_write InputKey.kept
    (fun m hm => ⟨fun _ _ => trivial, hfits.inputs m hm⟩)
    (p.outputs.flatMap RecordMap.write)
  have hout := RecordMap.readMany_flatMap_write OutputKey.kept
    (fun m hm => ⟨hform.ordered m hm, hfits.outputs m hm⟩) []
  rw [hform.shaped.length_inputs] at hin
  rw [hform.shaped.length_outputs, List.append_nil] at hout
  rw [read, bytes, List.append_assoc, List.append_assoc, Bytes.splitExact_append rfl]
  simp only [Option.bind_eq_bind, Option.bind_some, if_true,
    readGlobals_records hform.unsigned hfits.whole, hin, hout]
  rfl

/-- **Which copies are read back** from what is written for them: those that are well-formed
and fit. -/
theorem decode_bytes_iff : decode p.bytes = .ok p ↔ p.WellFormed ∧ p.Fits := by
  constructor
  · intro h
    exact ⟨Decoded.wellFormed ⟨_, h⟩, Decoded.fits ⟨_, h⟩⟩
  · rintro ⟨hform, hfits⟩
    have hread := read_bytes hform hfits
    have hne : p.bytes ≠ [] := by
      intro hnil
      rw [hnil] at hread
      simp [read, Bytes.splitExact, magic] at hread
    rw [decode, if_neg hne, ofBytes?, hread]
    rfl

end Psbt

end JointSpend
