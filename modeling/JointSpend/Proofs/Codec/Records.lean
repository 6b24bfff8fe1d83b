import JointSpend.Proofs.Codec.Readers
import JointSpend.Proofs.Record.Lookup
import JointSpend.Proofs.Steps
import JointSpend.Record.Raw

set_option autoImplicit false
set_option relaxedAutoImplicit false

/-!
# Maps are read as they are written

The records of a map are read as they are written, one after another up to the end of the map. A map
of entries is found again from its entries in any order, because no two of them have one key.

## Main definitions

* `JointSpend.RawRecord.Fits`, `JointSpend.RecordMap.Fits` — a record, and a map, that is not too
  long to be read.
* `JointSpend.Wired.ReadAs`, `JointSpend.Wired.Kept` — an entry that is read from a record, and the
  law of a form as raw records.
* `JointSpend.RecordMap.Readable` — a map whose records are read back.
* `JointSpend.RecordMap.ReadFrom` — a map whose entries are read from records.

## Main results

* `JointSpend.RawRecord.reads_all` — the records of a map are read as they are written.
* `JointSpend.RecordMap.ofList?_eq_some_iff` — the map of a list of entries.
* `JointSpend.RecordMap.read_write`, `JointSpend.RecordMap.spec_of_read` — what is written for a
  map is read back if the map is readable, and maps that were read are readable.
-/

namespace JointSpend

open CompactSize (maxLength Takeable writeBytes)

/-! ## Raw records -/

namespace RawRecord

/-- A record that is not too long to be read. -/
structure Fits (r : RawRecord) : Prop where
  keyData_le : r.keyData.length ≤ maxLength
  value : Takeable r.value

/-- The part of a record behind the length of its key. -/
def bodyBytes (r : RawRecord) : Bytes :=
  r.kind :: r.keyData ++ writeBytes r.value

theorem write_eq (r : RawRecord) :
    r.write = CompactSize.write (r.keyData.length + 1) ++ r.bodyBytes := by
  rw [write, writeBytes, bodyBytes, List.length_cons, List.append_assoc]

private theorem write_ne_nil (r : RawRecord) : r.write ≠ [] := by
  rw [write_eq]
  exact List.append_ne_nil_of_left_ne_nil (CompactSize.write_ne_nil _) _

/-- The part of a record behind the length of its key is read as it is written. -/
private theorem reads_body (n : Nat) :
    Reads (readBody n) (fun r => r.keyData.length = n ∧ r.Fits) bodyBytes := by
  intro bs r rest
  unfold readBody
  split
  · next hlong =>
    simp only [reduceCtorEq, false_iff]
    rintro ⟨⟨hlen, hfits⟩, -⟩
    have := hfits.keyData_le
    omega
  · next hshort =>
    simp only [Option.bind_eq_bind, Option.bind_eq_some_iff, Option.pure_def, Option.some.injEq,
      Prod.mk.injEq, Prod.exists, Bytes.readByte_eq_some_iff, Bytes.splitExact_eq_some_iff,
      CompactSize.reads_bytes _ _ _]
    constructor
    · rintro ⟨kind, s, rfl, keyData, t, ⟨hlen, rfl⟩, value, u, ⟨hvalue, rfl⟩, rfl, rfl⟩
      refine ⟨⟨hlen, ⟨by dsimp only; omega, hvalue⟩⟩, ?_⟩
      rw [bodyBytes, List.cons_append, List.cons_append, List.append_assoc]
    · rintro ⟨⟨hlen, hfits⟩, rfl⟩
      refine ⟨r.kind, _, ?_, r.keyData, _, ⟨hlen, rfl⟩, r.value, rest, ⟨hfits.value, rfl⟩, rfl,
        rfl⟩
      rw [bodyBytes, List.cons_append, List.cons_append, List.append_assoc]

theorem writeAll_cons (r : RawRecord) (rs : List RawRecord) :
    writeAll (r :: rs) = r.write ++ writeAll rs := by
  rw [writeAll, List.flatMap_cons, List.append_assoc, writeAll]

/-- Records are read as they are written, up to a number of them. -/
private theorem readWithin_eq_some_iff {bound : Nat} {bs rest : Bytes} {rs : List RawRecord} :
    readWithin bound bs = some (rs, rest) ↔
      rs.length < bound ∧ (∀ r ∈ rs, r.Fits) ∧ bs = writeAll rs ++ rest := by
  induction bound generalizing bs rs rest with
  | zero => simp [readWithin]
  | succ bound ih =>
    simp only [readWithin, Option.bind_eq_bind, Option.bind_eq_some_iff, Prod.exists,
      CompactSize.reads _ _ _]
    constructor
    · rintro ⟨size, s, ⟨hsize, rfl⟩, h⟩
      cases size with
      | zero =>
        obtain ⟨rfl, rfl⟩ := Prod.mk.inj (Option.some.inj h)
        exact ⟨Nat.succ_pos _, by simp, rfl⟩
      | succ n =>
        simp only [Option.bind_eq_some_iff, Option.pure_def, Option.some.injEq, Prod.mk.injEq,
          Prod.exists, reads_body n _ _ _, ih] at h
        obtain ⟨r, t, ⟨⟨hlen, hr⟩, rfl⟩, rs', u, ⟨hcount, hrs, rfl⟩, rfl, rfl⟩ := h
        refine ⟨by rw [List.length_cons]; omega, List.forall_mem_cons.mpr ⟨hr, hrs⟩, ?_⟩
        rw [writeAll_cons, write_eq, hlen]
        simp only [List.append_assoc]
    · rintro ⟨hcount, hrs, rfl⟩
      cases rs with
      | nil => exact ⟨0, rest, ⟨by decide, rfl⟩, rfl⟩
      | cons r rs =>
        obtain ⟨hr, hrs⟩ := List.forall_mem_cons.mp hrs
        have hle := hr.keyData_le
        unfold maxLength at hle
        rw [List.length_cons] at hcount
        refine ⟨r.keyData.length + 1, r.bodyBytes ++ (writeAll rs ++ rest),
          ⟨by omega, ?_⟩, ?_⟩
        · rw [writeAll_cons, write_eq]
          simp only [List.append_assoc]
        · simp only [Option.bind_eq_some_iff, Option.pure_def, Option.some.injEq, Prod.mk.injEq,
            Prod.exists, reads_body _ _ _ _, ih]
          exact ⟨r, _, ⟨⟨rfl, hr⟩, rfl⟩, rs, rest, ⟨by omega, hrs, rfl⟩, rfl, rfl⟩

/-- **The records of a map** are read as they are written. -/
theorem reads_all : Reads readAll (fun rs => ∀ r ∈ rs, r.Fits) writeAll := by
  intro bs rs rest
  rw [readAll, readWithin_eq_some_iff]
  constructor
  · rintro ⟨-, hrs, rfl⟩
    exact ⟨hrs, rfl⟩
  · rintro ⟨hrs, rfl⟩
    refine ⟨?_, hrs, rfl⟩
    have hcount := Bytes.length_le_length_flatMap write_ne_nil rs
    rw [writeAll, List.length_append, List.length_append]
    omega

/-- No record is longer than all records together. -/
theorem length_write_le {r : RawRecord} {rs : List RawRecord} (h : r ∈ rs) :
    r.write.length ≤ (writeAll rs).length := by
  have := Bytes.length_le_length_flatMap_of_mem write h
  rw [writeAll, List.length_append]
  omega

/-- Records that are not too long together are not too long. -/
theorem fits_of_length_writeAll {rs : List RawRecord} (h : (writeAll rs).length ≤ maxLength) :
    ∀ r ∈ rs, r.Fits := by
  intro r hr
  have hle := (length_write_le hr).trans h
  rw [write_eq, List.length_append, bodyBytes, List.length_append, List.length_cons] at hle
  exact ⟨by omega, by unfold Takeable; omega⟩

end RawRecord

/-! ## Maps of entries -/

namespace RecordMap

variable {κ : Type} [DecidableEq κ] [Ranked κ] {β : κ → Type}

/-- Maps with the same entries in some order are equal. -/
private theorem eq_of_perm {a b : RecordMap κ β} (h : a.entries.Perm b.entries) : a = b := by
  refine ext_get? fun k => Option.ext fun v => ?_
  rw [← mem_entries_iff, ← mem_entries_iff]
  exact h.mem_iff

/-- A map with a value under a free key has one more entry. -/
private theorem perm_insertEntry {k : κ} (v : β k) {es : List (Sigma β)} (h : lookup k es = none) :
    (insertEntry k v es).Perm (⟨k, v⟩ :: es) := by
  induction es with
  | nil => exact .refl _
  | cons e es ih =>
    obtain ⟨hne, hes⟩ := List.forall_mem_cons.mp (ne_of_lookup_eq_none h)
    rw [insertEntry, if_neg hne]
    split
    · exact .refl _
    · exact ((ih (lookup_eq_none hes)).cons e).trans (.swap _ _ _)

/-- **The map of a list of entries** has these entries, if no two of them have one key. -/
theorem ofList?_eq_some_iff {es : List (Sigma β)} {m result : RecordMap κ β} :
    ofList? es m = some result ↔ (es.map Sigma.fst).Nodup ∧ (∀ e ∈ es, m.get? e.1 = none) ∧
      result.entries.Perm (es ++ m.entries) := by
  induction es generalizing m with
  | nil =>
    rw [ofList?, Option.some.injEq]
    constructor
    · rintro rfl
      exact ⟨.nil, by simp, .refl _⟩
    · rintro ⟨-, -, hperm⟩
      exact (eq_of_perm hperm).symm
  | cons e es ih =>
    obtain ⟨k, v⟩ := e
    have hfree : ∀ k', (m.insert k v).get? k' = none ↔ k' ≠ k ∧ m.get? k' = none := by
      intro k'
      by_cases hk : k = k'
      · subst hk
        simp
      · rw [get?_insert_of_ne m hk, and_iff_right (Ne.symm hk)]
    rw [ofList?, contains_eq_isSome]
    cases hget : m.get? k with
    | some w => simp [hget]
    | none =>
      have hperm : (es ++ (m.insert k v).entries).Perm (⟨k, v⟩ :: es ++ m.entries) :=
        ((perm_insertEntry v hget).append_left es).trans List.perm_middle
      simp only [Option.isSome_none, Bool.false_eq_true, if_false, ih, hfree, List.map_cons,
        List.nodup_cons, List.forall_mem_cons, hget, true_and]
      constructor
      · rintro ⟨hnodup, hes, hresult⟩
        refine ⟨⟨?_, hnodup⟩, fun e he => (hes e he).2, hresult.trans hperm⟩
        rintro hmem
        obtain ⟨e, he, rfl⟩ := List.mem_map.mp hmem
        exact (hes e he).1 rfl
      · rintro ⟨⟨hnot, hnodup⟩, hes, hresult⟩
        refine ⟨hnodup, fun e he => ⟨?_, hes e he⟩, hresult.trans hperm.symm⟩
        rintro rfl
        exact hnot (List.mem_map_of_mem he)

omit [DecidableEq κ] in
/-- The keys of a map are different. -/
private theorem nodup_keys (m : RecordMap κ β) : (m.entries.map Sigma.fst).Nodup := by
  refine List.pairwise_map.mpr (m.sorted.imp fun hbefore heq => ?_)
  rw [heq] at hbefore
  exact Ranked.not_before_self _ hbefore

/-- A map is found again from its entries. -/
private theorem ofList?_entries (m : RecordMap κ β) : ofList? m.entries empty = some m :=
  ofList?_eq_some_iff.mpr ⟨m.nodup_keys, fun _ _ => rfl, by rw [empty, List.append_nil]⟩

end RecordMap

/-! ## Maps and their records -/

section

variable {κ : Type} {β : κ → Type} [Wired κ β]

/-- The record of an entry. -/
def Wired.record (e : Sigma β) : RawRecord :=
  Wired.toRecord e.1 e.2

/-- An entry is read from a record: it is of the record's kind, and where keys are verbatim, its own
record is the same. -/
structure Wired.ReadAs (verbatim : κ → Bool) (r : RawRecord) (e : Sigma β) : Prop where
  read : Wired.ofRecord? r = some e
  kind_eq : (Wired.record e).kind = r.kind
  record_eq : verbatim e.1 = true → Wired.record e = r

/-- The law of a form as raw records: an entry that passes a test is read back from its record,
unless that is too long, and an entry that was read passes the test and has a record that is not too
long. -/
structure Wired.Kept (κ : Type) (β : κ → Type) [Wired κ β] (verbatim : κ → Bool)
    (test : Sigma β → Prop) : Prop where
  read : ∀ e : Sigma β, test e → (Wired.record e).Fits → Wired.ofRecord? (Wired.record e) = some e
  test : ∀ (r : RawRecord) (e : Sigma β), Wired.ofRecord? r = some e → r.Fits → test e
  fits : ∀ (r : RawRecord) (e : Sigma β), Wired.ofRecord? r = some e → r.Fits →
    (Wired.record e).Fits
  readAs : ∀ (r : RawRecord) (e : Sigma β), Wired.ofRecord? r = some e → Wired.ReadAs verbatim r e

end

namespace RecordMap

variable {κ : Type} [DecidableEq κ] [Ranked κ] {β : κ → Type} [Wired κ β] {verbatim : κ → Bool}
  {test : Sigma β → Prop}

/-- No record of the map is too long to be read. -/
def Fits (m : RecordMap κ β) : Prop :=
  ∀ e ∈ m.entries, (Wired.record e).Fits

/-- What is found in a map whose records are not too long. -/
theorem fits_iff {m : RecordMap κ β} : m.Fits ↔
    ∀ (k : κ) (v : β k), m.get? k = some v → (Wired.record (⟨k, v⟩ : Sigma β)).Fits := by
  simp only [← mem_entries_iff]
  exact ⟨fun h k v => h ⟨k, v⟩, fun h e => h e.1 e.2⟩

/-- Filling a map from another one. -/
theorem Fits.fill {m other : RecordMap κ β} (hm : m.Fits) (hother : other.Fits) (p : κ → Bool) :
    (m.fill p other).Fits := by
  rw [fits_iff] at hm hother ⊢
  intro k v hv
  rw [get?_fill, Option.or_eq_some_iff] at hv
  rcases hv with hv | ⟨-, hv⟩
  · exact hm k v hv
  · split at hv
    · exact hother k v hv
    · simp at hv

/-- A map whose records are read back: the entries pass a test, and the records are not too long. -/
structure Readable (test : Sigma β → Prop) (m : RecordMap κ β) : Prop where
  test : ∀ e ∈ m.entries, test e
  fits : m.Fits

omit [DecidableEq κ] in
private theorem records_eq (m : RecordMap κ β) : m.records = m.entries.map Wired.record :=
  rfl

/-- Entries read from records, one by one. -/
private theorem forall₂_of_ofRecords? {rs : List RawRecord} {m : RecordMap κ β}
    (h : ofRecords? rs = some m) : ∃ es : List (Sigma β), m.entries.Perm es ∧
      List.Forall₂ (fun r e => Wired.ofRecord? r = some e) rs es := by
  obtain ⟨es, hes, hm⟩ := Option.bind_eq_some_iff.mp h
  obtain ⟨-, -, hperm⟩ := ofList?_eq_some_iff.mp hm
  rw [empty, List.append_nil] at hperm
  exact ⟨es, hperm, Steps.mapM_eq_some_iff.mp hes⟩

/-- The entries of the map are read from records, one from each, in any order. -/
def ReadFrom (verbatim : κ → Bool) (rs : List RawRecord) (m : RecordMap κ β) : Prop :=
  ∃ es : List (Sigma β), m.entries.Perm es ∧ List.Forall₂ (Wired.ReadAs verbatim) rs es

/-- **A map that is found from records** is read from them. -/
theorem readFrom_of_ofRecords? (law : Wired.Kept κ β verbatim test) {rs : List RawRecord}
    {m : RecordMap κ β} (h : ofRecords? rs = some m) : m.ReadFrom verbatim rs := by
  obtain ⟨es, hperm, hforall⟩ := forall₂_of_ofRecords? h
  exact ⟨es, hperm, hforall.imp fun r e => law.readAs r e⟩

omit [DecidableEq κ] in
/-- Where all keys are verbatim, the records of the map are those that it was read from. -/
theorem ReadFrom.perm_records {rs : List RawRecord} {m : RecordMap κ β}
    (h : m.ReadFrom (fun _ => true) rs) : m.records.Perm rs := by
  obtain ⟨es, hperm, hforall⟩ := h
  have hrs : es.map Wired.record = rs := by
    clear hperm
    induction hforall with
    | nil => rfl
    | cons hre _ ih => rw [List.map_cons, hre.record_eq rfl, ih]
  rw [← hrs, records_eq]
  exact hperm.map _

/-- A map is found again from its records. -/
theorem ofRecords?_records (law : Wired.Kept κ β verbatim test) {m : RecordMap κ β}
    (h : m.Readable test) : ofRecords? m.records = some m := by
  have hentries : ∀ es : List (Sigma β), (∀ e ∈ es, test e) → (∀ e ∈ es, (Wired.record e).Fits) →
      (es.map Wired.record).mapM Wired.ofRecord? = some es := by
    intro es
    induction es with
    | nil => exact fun _ _ => rfl
    | cons e es ih =>
      intro htest hfits
      obtain ⟨he, hes⟩ := List.forall_mem_cons.mp htest
      obtain ⟨he', hes'⟩ := List.forall_mem_cons.mp hfits
      rw [List.map_cons, List.mapM_cons, law.read e he he', ih hes hes']
      rfl
  rw [ofRecords?, records_eq, hentries m.entries h.test h.fits]
  exact ofList?_entries m

/-- A map that is found from records that are not too long is readable. -/
private theorem readable_of_ofRecords? (law : Wired.Kept κ β verbatim test) {rs : List RawRecord}
    {m : RecordMap κ β} (h : ofRecords? rs = some m) (hrs : ∀ r ∈ rs, r.Fits) :
    m.Readable test := by
  obtain ⟨es, hperm, hforall⟩ := forall₂_of_ofRecords? h
  have hsource : ∀ e ∈ es, ∃ r : RawRecord, r.Fits ∧ Wired.ofRecord? r = some e := by
    clear hperm h
    induction hforall with
    | nil => simp
    | cons hre _ ih =>
      obtain ⟨hr, hrs⟩ := List.forall_mem_cons.mp hrs
      exact List.forall_mem_cons.mpr ⟨⟨_, hr, hre⟩, ih hrs⟩
  constructor
  · intro e he
    obtain ⟨r, hr, hre⟩ := hsource e (hperm.mem_iff.mp he)
    exact law.test r e hre hr
  · intro e he
    obtain ⟨r, hr, hre⟩ := hsource e (hperm.mem_iff.mp he)
    exact law.fits r e hre hr

/-- **What is written for a readable map is read back.** -/
theorem read_write (law : Wired.Kept κ β verbatim test) {m : RecordMap κ β} (h : m.Readable test)
    (rest : Bytes) : read (m.write ++ rest) = some (m, rest) := by
  have hrecords : ∀ r ∈ m.records, r.Fits := by
    intro r hr
    obtain ⟨e, he, rfl⟩ := List.mem_map.mp hr
    exact h.fits e he
  rw [read, write, RawRecord.reads_all.append hrecords rest]
  simp only [Option.bind_eq_bind, Option.bind_some, ofRecords?_records law h]
  rfl

/-- **Maps that were read** are readable, and read from the records that were there. -/
theorem spec_of_read (law : Wired.Kept κ β verbatim test) {bs rest : Bytes} {m : RecordMap κ β}
    (h : read bs = some (m, rest)) : m.Readable test ∧
      ∃ rs, bs = RawRecord.writeAll rs ++ rest ∧ m.ReadFrom verbatim rs := by
  simp only [read, Option.bind_eq_bind, Option.bind_eq_some_iff, Option.pure_def,
    Option.some.injEq, Prod.mk.injEq, Prod.exists, RawRecord.reads_all _ _ _] at h
  obtain ⟨rs, s, ⟨hrs, rfl⟩, m', hm, rfl, rfl⟩ := h
  exact ⟨readable_of_ofRecords? law hm hrs, rs, rfl, readFrom_of_ofRecords? law hm⟩

/-- Several maps that were read one after another. -/
theorem spec_of_readMany (law : Wired.Kept κ β verbatim test) {n : Nat} {bs rest : Bytes}
    {ms : List (RecordMap κ β)} (h : Bytes.readMany read n bs = some (ms, rest)) :
    (∀ m ∈ ms, m.Readable test) ∧ ∃ rss : List (List RawRecord),
      bs = rss.flatMap RawRecord.writeAll ++ rest ∧
        List.Forall₂ (fun rs m => m.ReadFrom verbatim rs) rss ms := by
  induction n generalizing bs rest ms with
  | zero =>
    obtain ⟨rfl, rfl⟩ := Prod.mk.inj (Option.some.inj h)
    exact ⟨by simp, [], rfl, .nil⟩
  | succ n ih =>
    simp only [Bytes.readMany, Option.bind_eq_bind, Option.bind_eq_some_iff, Option.pure_def,
      Option.some.injEq, Prod.mk.injEq, Prod.exists] at h
    obtain ⟨m, bs', hm, ms', bs'', hms, rfl, rfl⟩ := h
    obtain ⟨hreadable, rs, rfl, hfrom⟩ := spec_of_read law hm
    obtain ⟨hrest, rss, rfl, hforall⟩ := ih hms
    refine ⟨List.forall_mem_cons.mpr ⟨hreadable, hrest⟩, rs :: rss, ?_, .cons hfrom hforall⟩
    rw [List.flatMap_cons, List.append_assoc]

/-- Readable maps are read back one after another. -/
theorem readMany_flatMap_write (law : Wired.Kept κ β verbatim test) {ms : List (RecordMap κ β)}
    (h : ∀ m ∈ ms, m.Readable test) (rest : Bytes) :
    Bytes.readMany read ms.length (ms.flatMap write ++ rest) = some (ms, rest) := by
  induction ms with
  | nil => rfl
  | cons m ms ih =>
    obtain ⟨hm, hms⟩ := List.forall_mem_cons.mp h
    rw [List.length_cons, Bytes.readMany, List.flatMap_cons, List.append_assoc,
      read_write law hm]
    simp only [Option.bind_eq_bind, Option.bind_some, ih hms]
    rfl

end RecordMap

end JointSpend
