import JointSpend.Proofs.Digits
import JointSpend.Transaction.Basic
import Mathlib.Data.List.Forall2

set_option autoImplicit false
set_option relaxedAutoImplicit false

/-!
# Sizes

A length is written in more bytes when it is greater, so whatever is put together from longer parts
is longer: pushes, byte strings and lists after their lengths, inputs, and whole transactions. The
virtual size of a transaction with larger scripts, larger witnesses and longer outputs is greater.

## Main definitions

* `JointSpend.Bytes.NoLonger` — byte strings are no longer than others, one by one.
* `JointSpend.TxInput.NoLarger` — an input has no larger scripts than another one.

## Main results

* `JointSpend.CompactSize.length_write_mono`, `JointSpend.Script.length_pushBytes_mono` — lengths
  and pushes.
* `JointSpend.Transaction.virtualSize_mono` — transactions.
-/

namespace JointSpend

/-! ## Lists of byte strings -/

/-- Byte strings are no longer than others, one by one. -/
def Bytes.NoLonger : List Bytes → List Bytes → Prop :=
  List.Forall₂ fun a b => a.length ≤ b.length

/-- Byte strings are no longer than themselves. -/
theorem Bytes.NoLonger.refl (items : List Bytes) : NoLonger items items :=
  List.forall₂_same.mpr fun _ _ => le_rfl

/-- Byte strings in front of others. -/
theorem Bytes.NoLonger.append {as bs cs ds : List Bytes} (h : NoLonger as bs)
    (h' : NoLonger cs ds) : NoLonger (as ++ cs) (bs ++ ds) :=
  List.rel_append h h'

/-- What is written for elements one by one is no longer together. -/
theorem Bytes.length_flatMap_le {α β : Type} {f : α → Bytes} {g : β → Bytes} {as : List α}
    {bs : List β} (h : List.Forall₂ (fun a b => (f a).length ≤ (g b).length) as bs) :
    (as.flatMap f).length ≤ (bs.flatMap g).length := by
  induction h with
  | nil => exact le_rfl
  | cons hab _ ih =>
    rw [List.flatMap_cons, List.flatMap_cons, List.length_append, List.length_append]
    omega

/-! ## Compact sizes -/

namespace CompactSize

/-- How many bytes a number takes. -/
private theorem length_write (n : Nat) : (write n).length =
    if n < 0xfd then 1 else if n < 0x10000 then 3 else if n < 0x100000000 then 5 else 9 := by
  unfold write
  split
  · rfl
  · split
    · rw [List.length_cons, Bytes.length_littleEndian]
    · split
      · rw [List.length_cons, Bytes.length_littleEndian]
      · rw [List.length_cons, Bytes.length_littleEndian]

/-- A number takes at most nine bytes. -/
theorem length_write_le (n : Nat) : (write n).length ≤ 9 := by
  rw [length_write]
  split_ifs <;> decide

/-- **A greater number takes no fewer bytes.** -/
theorem length_write_mono {m n : Nat} (h : m ≤ n) : (write m).length ≤ (write n).length := by
  rw [length_write, length_write]
  split_ifs <;> omega

/-- A longer byte string takes more bytes after its length. -/
theorem length_writeBytes_mono {a b : Bytes} (h : a.length ≤ b.length) :
    (writeBytes a).length ≤ (writeBytes b).length := by
  have := length_write_mono h
  unfold writeBytes
  rw [List.length_append, List.length_append]
  omega

/-- A list with more elements that take more bytes takes more bytes after its length. -/
theorem length_writeList_le {α β : Type} {f : α → Bytes} {g : β → Bytes} {as : List α}
    {bs : List β} (hcount : as.length ≤ bs.length)
    (h : (as.flatMap f).length ≤ (bs.flatMap g).length) :
    (writeList f as).length ≤ (writeList g bs).length := by
  have := length_write_mono hcount
  unfold writeList
  rw [List.length_append, List.length_append]
  omega

/-- A list of as many elements that take more bytes one by one takes more bytes. -/
theorem length_writeList_mono {α β : Type} {f : α → Bytes} {g : β → Bytes} {as : List α}
    {bs : List β} (h : List.Forall₂ (fun a b => (f a).length ≤ (g b).length) as bs) :
    (writeList f as).length ≤ (writeList g bs).length :=
  length_writeList_le h.length_eq.le (Bytes.length_flatMap_le h)

end CompactSize

/-- A witness of longer elements takes more bytes. -/
private theorem Witness.length_bytes_mono {stack other : List Bytes}
    (h : Bytes.NoLonger stack other) :
    (Witness.bytes stack).length ≤ (Witness.bytes other).length :=
  CompactSize.length_writeList_mono (h.imp fun _ _ => CompactSize.length_writeBytes_mono)

/-! ## Pushes -/

namespace Script

/-- How many bytes a push takes. -/
theorem length_pushBytes (data : Bytes) : (pushBytes data).length = data.length +
    if data.length < 0x4c then 1 else if data.length < 0x100 then 2
      else if data.length < 0x10000 then 3 else 5 := by
  unfold pushBytes
  dsimp only
  split
  · rw [List.length_cons]
  · split
    · rw [List.length_cons, List.length_cons]
    · split
      · rw [List.length_append, List.length_cons, Bytes.length_littleEndian]
        omega
      · rw [List.length_append, List.length_cons, Bytes.length_littleEndian]
        omega

/-- **The push of a longer byte string** takes more bytes. -/
theorem length_pushBytes_mono {a b : Bytes} (h : a.length ≤ b.length) :
    (pushBytes a).length ≤ (pushBytes b).length := by
  rw [length_pushBytes, length_pushBytes]
  split_ifs <;> omega

end Script

/-! ## Transactions -/

/-- An input has no larger scripts than another one: its script is no longer, and the elements of
its witness are no longer, one by one. -/
structure TxInput.NoLarger (i j : TxInput) : Prop where
  scriptSig : i.scriptSig.bytes.length ≤ j.scriptSig.bytes.length
  witness : Bytes.NoLonger i.witness j.witness

/-- An input takes 40 bytes besides its script. -/
private theorem TxInput.length_bytes (i : TxInput) :
    i.bytes.length = 40 + (CompactSize.writeBytes i.scriptSig.bytes).length := by
  have hdigest := i.previous.txid.digest.length_eq
  have hvout : (Bytes.ofUInt32 i.previous.vout).length = 4 := Bytes.length_littleEndian _ _
  have hsequence : (Bytes.ofUInt32 i.sequence).length = 4 := Bytes.length_littleEndian _ _
  simp only [bytes, OutPoint.bytes, List.length_append]
  omega

/-- How long an output is does not depend on its amount. -/
theorem TxOutput.length_bytes (o : TxOutput) :
    o.bytes.length = 8 + (CompactSize.writeBytes o.script.bytes).length := by
  have hvalue : (Bytes.ofUInt64 o.value).length = 8 := Bytes.length_littleEndian _ _
  rw [bytes, List.length_append, hvalue]

namespace Transaction

variable {s t : Transaction}

/-- Transactions with larger witnesses are passed on in the same form. -/
private theorem usesWitnessForm_eq (h : List.Forall₂ TxInput.NoLarger s.inputs t.inputs) :
    s.usesWitnessForm = t.usesWitnessForm := by
  have hempty : ∀ {α β : Type} {r : α → β → Prop} {as : List α} {bs : List β},
      List.Forall₂ r as bs → as.isEmpty = bs.isEmpty := by
    intro α β r as bs h
    cases h <;> rfl
  have hany : ∀ {is js : List TxInput}, List.Forall₂ TxInput.NoLarger is js →
      (is.any fun i => !i.witness.isEmpty) = js.any fun j => !j.witness.isEmpty := by
    intro is js h
    induction h with
    | nil => rfl
    | cons hij _ ih => rw [List.any_cons, List.any_cons, ih, hempty hij.witness]
  rw [usesWitnessForm, usesWitnessForm, hany h, hempty h]

/-- **A transaction with larger inputs and outputs has a greater virtual size.** -/
theorem virtualSize_mono (hinputs : List.Forall₂ TxInput.NoLarger s.inputs t.inputs)
    (houtputs : (CompactSize.writeList TxOutput.bytes s.outputs).length ≤
      (CompactSize.writeList TxOutput.bytes t.outputs).length) :
    s.virtualSize ≤ t.virtualSize := by
  have hbytes : (CompactSize.writeList TxInput.bytes s.inputs).length ≤
      (CompactSize.writeList TxInput.bytes t.inputs).length := by
    refine CompactSize.length_writeList_mono (hinputs.imp fun i j hij => ?_)
    rw [TxInput.length_bytes, TxInput.length_bytes]
    have := CompactSize.length_writeBytes_mono hij.scriptSig
    omega
  have hwitness : (s.inputs.flatMap fun i => Witness.bytes i.witness).length ≤
      (t.inputs.flatMap fun i => Witness.bytes i.witness).length :=
    Bytes.length_flatMap_le (hinputs.imp fun _ _ hij => Witness.length_bytes_mono hij.witness)
  have hword : ∀ w : UInt32, (Bytes.ofUInt32 w).length = 4 :=
    fun _ => Bytes.length_littleEndian _ _
  have hbase : s.baseBytes.length ≤ t.baseBytes.length := by
    simp only [baseBytes, List.length_append, hword]
    omega
  have hwhole : s.bytes.length ≤ t.bytes.length := by
    unfold bytes
    rw [usesWitnessForm_eq hinputs]
    split
    · simp only [witnessBytes, List.length_append, hword]
      omega
    · exact hbase
  unfold virtualSize
  omega

end Transaction

end JointSpend
