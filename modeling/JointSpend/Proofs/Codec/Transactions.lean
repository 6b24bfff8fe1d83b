import JointSpend.Proofs.Codec.Readers
import JointSpend.Transaction.Basic

set_option autoImplicit false
set_option relaxedAutoImplicit false

/-!
# Transactions are read as they are written

A transaction has one spelling. Which of the two forms is used follows from the transaction: the
form with witnesses is refused where there are inputs and no witness, and the form without cannot
say that there are no inputs, because no inputs are the marker of the other form.

## Main definitions

* `JointSpend.Transaction.Readable` — no part of the transaction is too long to be read.

## Main results

* `JointSpend.Transaction.reads_base` — the form without witnesses.
* `JointSpend.Transaction.reads` — the form in which the transaction is passed on.
* `JointSpend.Transaction.readable_of_bytes`, `JointSpend.Transaction.readable_of_baseBytes` —
  a transaction that is not too long as a whole has no part that is.
-/

namespace JointSpend

open CompactSize (Takeable)

/-! ## Parts -/

/-- References are read as they are written. -/
private theorem OutPoint.reads : Reads OutPoint.read (fun _ => True) OutPoint.bytes := by
  intro bs o rest
  simp only [read, Option.bind_eq_bind, Option.bind_eq_some_iff, Option.pure_def,
    Option.some.injEq, Prod.mk.injEq, Prod.exists, Fixed.reads 32 _ _ _, Bytes.reads_uint32 _ _ _,
    true_and]
  constructor
  · rintro ⟨digest, r, rfl, vout, r', rfl, rfl, rfl⟩
    rw [bytes, List.append_assoc]
  · rintro rfl
    exact ⟨o.txid.digest, _, by rw [bytes, List.append_assoc], o.vout, _, rfl, rfl, rfl⟩

namespace TxInput

/-- The input without its witness. -/
def bare (i : TxInput) : TxInput :=
  { i with witness := [] }

private theorem bytes_ne_nil (i : TxInput) : i.bytes ≠ [] := by
  have hscript := CompactSize.writeBytes_ne_nil i.scriptSig.bytes
  simp [bytes, hscript]

/-- An input without a witness is read as it is written. -/
private theorem reads :
    Reads TxInput.read (fun i => i.bare = i ∧ Takeable i.scriptSig.bytes) bytes := by
  intro bs i rest
  simp only [read, Option.bind_eq_bind, Option.bind_eq_some_iff, Option.pure_def,
    Option.some.injEq, Prod.mk.injEq, Prod.exists, OutPoint.reads _ _ _,
    CompactSize.reads_bytes _ _ _, Bytes.reads_uint32 _ _ _, true_and]
  constructor
  · rintro ⟨previous, r, rfl, script, r', ⟨hscript, rfl⟩, sequence, r'', rfl, rfl, rfl⟩
    exact ⟨⟨rfl, hscript⟩, by simp only [bytes, List.append_assoc]⟩
  · rintro ⟨⟨hbare, hscript⟩, rfl⟩
    refine ⟨i.previous, _, by simp only [bytes, List.append_assoc], i.scriptSig.bytes, _,
      ⟨hscript, rfl⟩, i.sequence, _, rfl, hbare, rfl⟩

/-- The script of an input is among its bytes. -/
private theorem takeable {i : TxInput} (h : i.bytes.length ≤ CompactSize.maxLength) :
    Takeable i.scriptSig.bytes := by
  rw [bytes, List.length_append, List.length_append] at h
  unfold Takeable
  omega

end TxInput

namespace TxOutput

private theorem bytes_ne_nil (o : TxOutput) : o.bytes ≠ [] :=
  List.append_ne_nil_of_right_ne_nil _ (CompactSize.writeBytes_ne_nil _)

/-- Outputs are read as they are written. -/
theorem reads : Reads TxOutput.read (fun o => Takeable o.script.bytes) bytes := by
  intro bs o rest
  simp only [read, Option.bind_eq_bind, Option.bind_eq_some_iff, Option.pure_def,
    Option.some.injEq, Prod.mk.injEq, Prod.exists, Bytes.reads_uint64 _ _ _,
    CompactSize.reads_bytes _ _ _, true_and]
  constructor
  · rintro ⟨value, r, rfl, script, r', ⟨hscript, rfl⟩, rfl, rfl⟩
    exact ⟨hscript, by rw [bytes, List.append_assoc]⟩
  · rintro ⟨hscript, rfl⟩
    exact ⟨o.value, _, by rw [bytes, List.append_assoc], o.script.bytes, _, ⟨hscript, rfl⟩, rfl,
      rfl⟩

/-- The script of an output is among its bytes. -/
theorem takeable {o : TxOutput} (h : o.bytes.length ≤ CompactSize.maxLength) :
    Takeable o.script.bytes := by
  rw [bytes, List.length_append] at h
  unfold Takeable
  omega

end TxOutput

/-- No part of a witness is too long to be read. -/
structure Witness.Readable (stack : List Bytes) : Prop where
  length_lt : stack.length < 2 ^ 64
  takeable : ∀ item ∈ stack, Takeable item

/-- Witnesses are read as they are written. -/
theorem Witness.reads : Reads Witness.read Witness.Readable Witness.bytes := by
  intro bs stack rest
  have h := CompactSize.reads_list CompactSize.reads_bytes CompactSize.writeBytes_ne_nil
    bs stack rest
  exact h.trans (and_congr_left fun _ => ⟨fun ⟨h₁, h₂⟩ => ⟨h₁, h₂⟩, fun ⟨h₁, h₂⟩ => ⟨h₁, h₂⟩⟩)

/-- An empty witness. -/
private theorem Witness.readable_nil : Witness.Readable [] :=
  ⟨by decide, by simp⟩

/-- A witness that is not too long as a whole has no item that is. -/
theorem Witness.readable_of_length_le {stack : List Bytes}
    (h : (Witness.bytes stack).length ≤ CompactSize.maxLength) : Witness.Readable stack where
  length_lt := CompactSize.length_lt_of_writeList CompactSize.writeBytes_ne_nil h
  takeable _ hitem := (CompactSize.length_item_le _ hitem).trans h

/-! ## Whole transactions -/

namespace Transaction

/-- No part of the transaction is too long to be read. -/
structure Readable (tx : Transaction) : Prop where
  inputs_lt : tx.inputs.length < 2 ^ 64
  outputs_lt : tx.outputs.length < 2 ^ 64
  scriptSig : ∀ i ∈ tx.inputs, Takeable i.scriptSig.bytes
  witness : ∀ i ∈ tx.inputs, Witness.Readable i.witness
  script : ∀ o ∈ tx.outputs, Takeable o.script.bytes

/-- No input has a witness. -/
def Bare (tx : Transaction) : Prop :=
  ∀ i ∈ tx.inputs, i.bare = i

/-- The inputs, without their witnesses. -/
private theorem reads_inputs : Reads (CompactSize.readList TxInput.read)
    (fun is => is.length < 2 ^ 64 ∧ ∀ i ∈ is, i.bare = i ∧ Takeable i.scriptSig.bytes)
    (CompactSize.writeList TxInput.bytes) :=
  CompactSize.reads_list TxInput.reads TxInput.bytes_ne_nil

/-- The outputs. -/
private theorem reads_outputs : Reads (CompactSize.readList TxOutput.read)
    (fun os => os.length < 2 ^ 64 ∧ ∀ o ∈ os, Takeable o.script.bytes)
    (CompactSize.writeList TxOutput.bytes) :=
  CompactSize.reads_list TxOutput.reads TxOutput.bytes_ne_nil

/-- **The form without witnesses** is read as it is written, also without inputs. -/
theorem reads_base : Reads readBase (fun tx => tx.Bare ∧ tx.Readable) baseBytes := by
  intro bs tx rest
  simp only [readBase, Option.bind_eq_bind, Option.bind_eq_some_iff, Option.pure_def,
    Option.some.injEq, Prod.mk.injEq, Prod.exists, Bytes.reads_uint32 _ _ _,
    reads_inputs _ _ _, reads_outputs _ _ _, true_and]
  constructor
  · rintro ⟨version, r, rfl, is, s, ⟨⟨hcount, his⟩, rfl⟩, os, t, ⟨⟨hcount', hos⟩, rfl⟩,
      lockTime, u, rfl, rfl, rfl⟩
    refine ⟨⟨fun i hi => (his i hi).1, hcount, hcount', fun i hi => (his i hi).2, ?_, hos⟩, ?_⟩
    · intro i hi
      rw [← (his i hi).1]
      exact Witness.readable_nil
    · simp only [baseBytes, List.append_assoc]
  · rintro ⟨⟨hbare, hread⟩, rfl⟩
    exact ⟨tx.version, _, by simp only [baseBytes, List.append_assoc], tx.inputs, _,
      ⟨⟨hread.inputs_lt, fun i hi => ⟨hbare i hi, hread.scriptSig i hi⟩⟩, rfl⟩, tx.outputs, _,
      ⟨⟨hread.outputs_lt, hread.script⟩, rfl⟩, tx.lockTime, _, rfl, rfl, rfl⟩

/-- The witnesses of given inputs. -/
private theorem reads_witnesses (is : List TxInput) : Reads (readWitnesses is)
    (fun js => js.map TxInput.bare = is.map TxInput.bare ∧ ∀ j ∈ js, Witness.Readable j.witness)
    (List.flatMap fun j => Witness.bytes j.witness) := by
  induction is with
  | nil =>
    intro bs js rest
    rw [readWitnesses, Option.some.injEq, Prod.mk.injEq]
    constructor
    · rintro ⟨rfl, rfl⟩
      simp
    · rintro ⟨⟨hjs, -⟩, rfl⟩
      obtain rfl := List.map_eq_nil_iff.mp hjs
      simp
  | cons i is ih =>
    intro bs js rest
    simp only [readWitnesses, Option.bind_eq_bind, Option.bind_eq_some_iff, Option.pure_def,
      Option.some.injEq, Prod.mk.injEq, Prod.exists, Witness.reads _ _ _, ih _ _ _]
    constructor
    · rintro ⟨witness, r, ⟨hwitness, rfl⟩, js', s, ⟨⟨hbare, hjs⟩, rfl⟩, rfl, rfl⟩
      refine ⟨⟨?_, List.forall_mem_cons.mpr ⟨hwitness, hjs⟩⟩, ?_⟩
      · rw [List.map_cons, List.map_cons, hbare]
        rfl
      · rw [List.flatMap_cons, List.append_assoc]
    · rintro ⟨⟨hbare, hjs⟩, rfl⟩
      cases js with
      | nil => simp at hbare
      | cons j js =>
        rw [List.map_cons, List.map_cons, List.cons.injEq] at hbare
        obtain ⟨hwitness, hjs⟩ := List.forall_mem_cons.mp hjs
        have hj : (⟨i.previous, i.scriptSig, i.sequence, j.witness⟩ : TxInput) = j := by
          have h := hbare.1
          simp only [TxInput.bare, TxInput.mk.injEq, and_true] at h
          rw [← h.1, ← h.2.1, ← h.2.2]
        refine ⟨j.witness, _, ⟨hwitness, ?_⟩, js, _, ⟨⟨hbare.2, hjs⟩, rfl⟩, by rw [hj], rfl⟩
        rw [List.flatMap_cons, List.append_assoc]

/-- Inputs without witnesses are what they are without them. -/
private theorem map_bare_eq_self {is : List TxInput} (h : ∀ i ∈ is, i.bare = i) :
    is.map TxInput.bare = is :=
  (List.map_congr_left h).trans (List.map_id' is)

/-- The witnesses of inputs are not among their bytes. -/
private theorem writeList_map_bare (is : List TxInput) :
    CompactSize.writeList TxInput.bytes (is.map TxInput.bare) =
      CompactSize.writeList TxInput.bytes is := by
  rw [CompactSize.writeList, CompactSize.writeList, List.length_map, List.flatMap_map]
  rfl

/-- What stands behind the marker of the form with witnesses. -/
private def restBytes (tx : Transaction) : Bytes :=
  CompactSize.writeList TxInput.bytes tx.inputs ++
    CompactSize.writeList TxOutput.bytes tx.outputs ++
      tx.inputs.flatMap (fun i => Witness.bytes i.witness) ++ Bytes.ofUInt32 tx.lockTime

/-- A transaction with inputs uses the form with witnesses when one of them has a witness. -/
private theorem usesWitnessForm_eq_not (tx : Transaction) :
    tx.usesWitnessForm = !(!tx.inputs.isEmpty && tx.inputs.all fun i => i.witness.isEmpty) := by
  rw [usesWitnessForm, Bool.not_and, Bool.not_not, List.not_all_eq_any_not]

/-- What stands behind the marker is read as it is written, if the form with witnesses is used. -/
private theorem reads_witnessForm (version : UInt32) : Reads (readWitnessForm version)
    (fun tx => tx.version = version ∧ tx.usesWitnessForm = true ∧ tx.Readable) restBytes := by
  intro bs tx rest
  simp only [readWitnessForm, Option.bind_eq_bind, Option.bind_eq_some_iff, Option.pure_def,
    Prod.exists, reads_inputs _ _ _, reads_outputs _ _ _, reads_witnesses _ _ _ _]
  constructor
  · rintro ⟨is, r, ⟨⟨hcount, his⟩, rfl⟩, os, s, ⟨⟨hcount', hos⟩, rfl⟩, js, t,
      ⟨⟨hbare, hjs⟩, rfl⟩, h⟩
    split at h
    · simp at h
    · next hform =>
      simp only [Option.bind_eq_some_iff, Option.some.injEq, Prod.mk.injEq, Prod.exists,
        Bytes.reads_uint32 _ _ _, true_and] at h
      obtain ⟨lockTime, u, rfl, rfl, rfl⟩ := h
      rw [map_bare_eq_self fun i hi => (his i hi).1] at hbare
      subst hbare
      refine ⟨⟨rfl, ?_, by rwa [List.length_map] at hcount, hcount', ?_, hjs, hos⟩, ?_⟩
      · rw [usesWitnessForm_eq_not, Bool.eq_false_iff.mpr hform]
        rfl
      · exact fun j hj => (his _ (List.mem_map_of_mem hj)).2
      · rw [writeList_map_bare]
        simp only [restBytes, List.append_assoc]
  · rintro ⟨⟨rfl, hform, hread⟩, rfl⟩
    refine ⟨tx.inputs.map TxInput.bare, _, ⟨⟨?_, ?_⟩, ?_⟩, tx.outputs, _,
      ⟨⟨hread.outputs_lt, hread.script⟩, rfl⟩, tx.inputs, Bytes.ofUInt32 tx.lockTime ++ rest,
      ⟨⟨?_, hread.witness⟩, rfl⟩, ?_⟩
    · rw [List.length_map]
      exact hread.inputs_lt
    · intro i hi
      obtain ⟨j, hj, rfl⟩ := List.mem_map.mp hi
      exact ⟨rfl, hread.scriptSig j hj⟩
    · rw [writeList_map_bare]
      simp only [restBytes, List.append_assoc]
    · rw [List.map_map]
      rfl
    · rw [usesWitnessForm_eq_not, Bool.not_eq_true'] at hform
      rw [if_neg (by rw [hform]; decide)]
      simp only [Option.bind_eq_some_iff, Option.some.injEq, Prod.mk.injEq, Prod.exists,
        Bytes.reads_uint32 _ _ _, true_and]
      exact ⟨tx.lockTime, rest, rfl, rfl, rfl⟩

/-- The form with witnesses behind the version: no inputs and one byte, which are the marker. -/
private theorem witnessBytes_eq (tx : Transaction) : tx.witnessBytes =
    Bytes.ofUInt32 tx.version ++ (CompactSize.writeList TxInput.bytes [] ++ 1 :: tx.restBytes) := by
  simp only [witnessBytes, restBytes, List.append_assoc]
  rfl

/-- The form without witnesses is used for transactions that have inputs, but no witnesses. -/
private theorem usesWitnessForm_eq_false_iff {tx : Transaction} :
    tx.usesWitnessForm = false ↔ tx.inputs.isEmpty = false ∧ tx.Bare := by
  rw [usesWitnessForm, Bool.or_eq_false_iff, List.any_eq_false]
  refine and_congr_right fun _ => forall₂_congr fun i _ => ?_
  rw [Bool.not_eq_true', Bool.not_eq_false, List.isEmpty_iff]
  constructor
  · intro hwitness
    rw [TxInput.bare, ← hwitness]
  · intro hbare
    rw [← hbare]
    rfl

/-- The two ways in which a transaction is read: without a marker, which takes inputs, or behind a
marker, which is no inputs and one byte. -/
private theorem read_eq_some_iff {bs rest : Bytes} {tx : Transaction} :
    read bs = some (tx, rest) ↔
      (readBase bs = some (tx, rest) ∧ tx.inputs.isEmpty = false) ∨
        ∃ version r s, Bytes.readUInt32 bs = some (version, r) ∧
          CompactSize.readList TxInput.read r = some ([], 1 :: s) ∧
            readWitnessForm version s = some (tx, rest) := by
  simp only [read, readBase, Option.bind_eq_bind, Option.bind_eq_some_iff, Option.pure_def,
    Option.some.injEq, Prod.mk.injEq, Prod.exists]
  constructor
  · rintro ⟨version, r, hversion, is, s, his, h⟩
    split at h
    · next hempty =>
      obtain rfl := List.isEmpty_iff.mp hempty
      simp only [Option.bind_eq_some_iff, Prod.exists, Bytes.readByte_eq_some_iff] at h
      obtain ⟨flag, t, rfl, h⟩ := h
      split at h
      · next hflag => exact .inr ⟨version, r, t, hversion, hflag ▸ his, h⟩
      · simp at h
    · next hinputs =>
      simp only [Option.bind_eq_some_iff, Option.some.injEq, Prod.mk.injEq, Prod.exists] at h
      obtain ⟨os, t, hos, lockTime, u, hlock, rfl, rfl⟩ := h
      exact .inl ⟨⟨version, r, hversion, is, s, his, os, t, hos, lockTime, u, hlock, rfl, rfl⟩,
        by simpa using hinputs⟩
  · rintro (⟨⟨version, r, hversion, is, s, his, os, t, hos, lockTime, u, hlock, rfl, rfl⟩,
      hinputs⟩ | ⟨version, r, s, hversion, his, h⟩)
    · refine ⟨version, r, hversion, is, s, his, ?_⟩
      rw [if_neg (by simpa using hinputs)]
      simp only [hos, hlock, Option.bind_some]
    · refine ⟨version, r, hversion, [], 1 :: s, his, ?_⟩
      rw [if_pos List.isEmpty_nil]
      simp only [Bytes.readByte, Option.bind_some, if_true, h]

/-- **The form in which a transaction is passed on** is read as it is written.

**Proof sketch.** Without a marker only transactions with inputs are read, and these have no
witnesses then. Behind a marker the form with witnesses is only accepted where it is the one that is
written. -/
theorem reads : Reads read Readable bytes := by
  intro bs tx rest
  simp only [read_eq_some_iff, reads_base _ _ _, Bytes.reads_uint32 _ _ _, reads_inputs _ _ _,
    reads_witnessForm _ _ _ _, true_and]
  constructor
  · rintro (⟨⟨⟨hbare, hread⟩, rfl⟩, hinputs⟩ |
      ⟨version, r, s, rfl, ⟨-, rfl⟩, ⟨rfl, hform, hread⟩, rfl⟩)
    · have hform := usesWitnessForm_eq_false_iff.mpr ⟨hinputs, hbare⟩
      rw [bytes, hform]
      exact ⟨hread, rfl⟩
    · refine ⟨hread, ?_⟩
      rw [bytes, if_pos hform, witnessBytes_eq]
      simp only [List.append_assoc, List.cons_append]
  · rintro ⟨hread, rfl⟩
    cases hform : tx.usesWitnessForm with
    | false =>
      obtain ⟨hinputs, hbare⟩ := usesWitnessForm_eq_false_iff.mp hform
      rw [bytes, hform]
      exact .inl ⟨⟨⟨hbare, hread⟩, rfl⟩, hinputs⟩
    | true =>
      refine .inr ⟨tx.version, _, tx.restBytes ++ rest, ?_, ⟨⟨by decide, by simp⟩, rfl⟩,
        ⟨rfl, rfl, hread⟩, rfl⟩
      rw [bytes, if_pos hform, witnessBytes_eq]
      simp only [List.append_assoc, List.cons_append]

/-! ## Lengths -/

/-- A transaction whose lists and witnesses are not too long has no part that is. -/
private theorem readable_of_lists {tx : Transaction}
    (hinputs : (CompactSize.writeList TxInput.bytes tx.inputs).length ≤ CompactSize.maxLength)
    (houtputs : (CompactSize.writeList TxOutput.bytes tx.outputs).length ≤ CompactSize.maxLength)
    (hwitness : ∀ i ∈ tx.inputs, Witness.Readable i.witness) : tx.Readable where
  inputs_lt := CompactSize.length_lt_of_writeList TxInput.bytes_ne_nil hinputs
  outputs_lt := CompactSize.length_lt_of_writeList TxOutput.bytes_ne_nil houtputs
  scriptSig _ hi := TxInput.takeable ((CompactSize.length_item_le _ hi).trans hinputs)
  witness := hwitness
  script _ ho := TxOutput.takeable ((CompactSize.length_item_le _ ho).trans houtputs)

/-- **A transaction without witnesses** that is not too long as a whole has no part that is. -/
theorem readable_of_baseBytes {tx : Transaction} (hbare : tx.Bare)
    (h : tx.baseBytes.length ≤ CompactSize.maxLength) : tx.Readable := by
  simp only [baseBytes, List.length_append] at h
  refine readable_of_lists (by omega) (by omega) fun i hi => ?_
  rw [← hbare i hi]
  exact Witness.readable_nil

/-- **A transaction** that is not too long as a whole has no part that is. -/
theorem readable_of_bytes {tx : Transaction} (h : tx.bytes.length ≤ CompactSize.maxLength) :
    tx.Readable := by
  rw [bytes] at h
  split at h
  · simp only [witnessBytes, List.length_append] at h
    refine readable_of_lists (by omega) (by omega) fun i hi => Witness.readable_of_length_le ?_
    have hitem := Bytes.length_le_length_flatMap_of_mem
      (fun i : TxInput => Witness.bytes i.witness) hi
    omega
  · next hform =>
    have hbare := (usesWitnessForm_eq_false_iff.mp (Bool.eq_false_iff.mpr hform)).2
    exact readable_of_baseBytes hbare h

end Transaction

end JointSpend
