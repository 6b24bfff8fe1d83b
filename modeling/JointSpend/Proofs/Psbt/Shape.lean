import JointSpend.Proofs.Codec.Readers
import JointSpend.Psbt.Exchange
import Mathlib.Data.List.Basic

set_option autoImplicit false
set_option relaxedAutoImplicit false

/-!
# Shape of partially signed transactions

Reading a binary form takes one map for each input and one for each output of the transaction, so
whatever was read has matching numbers of maps. This is all that most results need of the fact that
a partially signed transaction was read from somewhere.

## Main definitions

* `JointSpend.Psbt.Decoded` — the result of reading some binary form.
* `JointSpend.Psbt.Shaped` — one map for each input and one for each output.

## Main results

* `JointSpend.Psbt.Decoded.shaped` — what was read is shaped.
-/

namespace JointSpend

/-- Reading `n` items gives `n` items. -/
private theorem Bytes.length_of_readMany {α : Type} {reader : Reader α} {n : Nat} {bs rest : Bytes}
    {as : List α} (h : readMany reader n bs = some (as, rest)) : as.length = n := by
  induction n generalizing bs rest as with
  | zero =>
    simp only [readMany, Option.some.injEq, Prod.mk.injEq] at h
    simp [← h.1]
  | succ n ih =>
    simp only [readMany, Option.bind_eq_bind, Option.bind_eq_some_iff, Option.pure_def,
      Option.some.injEq, Prod.mk.injEq, Prod.exists] at h
    obtain ⟨a, bs', -, as', bs'', htail, rfl, -⟩ := h
    rw [List.length_cons, ih htail]

namespace Psbt

/-- A partially signed transaction that was read from a binary form. -/
def Decoded (p : Psbt) : Prop :=
  ∃ bs, decode bs = .ok p

/-- Reading a binary form that is one. -/
theorem decode_of_ofBytes? {p : Psbt} {bs : Bytes} (h : ofBytes? bs = some p) :
    decode bs = .ok p := by
  have hne : bs ≠ [] := by
    rintro rfl
    simp [ofBytes?, read, Bytes.splitExact, magic] at h
  rw [decode, if_neg hne, h]

theorem Decoded.of_ofBytes? {p : Psbt} {bs : Bytes} (h : ofBytes? bs = some p) : p.Decoded :=
  ⟨bs, decode_of_ofBytes? h⟩

/-- What was read from either exchange form was read from a binary form. -/
theorem Decoded.of_decodeAny {p : Psbt} {data : Bytes} (h : decodeAny data = .ok p) :
    p.Decoded := by
  unfold decodeAny at h
  split at h
  · exact ⟨_, h⟩
  · exact ⟨data, h⟩

/-- There is one map for each input of the transaction and one for each output. -/
structure Shaped (p : Psbt) : Prop where
  length_inputs : p.inputs.length = p.transaction.inputs.length
  length_outputs : p.outputs.length = p.transaction.outputs.length

/-- Reading a binary form is reading from its beginning. -/
private theorem exists_read_of_decode {bs : Bytes} {p : Psbt} (h : decode bs = .ok p) :
    ∃ rest, read bs = some (p, rest) := by
  unfold decode at h
  split at h
  · simp at h
  · split at h
    · next q hq =>
      obtain rfl := Except.ok.inj h
      obtain ⟨⟨q', rest⟩, hr, rfl⟩ := Option.map_eq_some_iff.mp hq
      exact ⟨rest, hr⟩
    · simp at h

/-- The parts of a copy are read one after another. -/
theorem exists_parts_of_decode {bs : Bytes} {p : Psbt} (h : decode bs = .ok p) :
    ∃ bs₁ bs₂ bs₃ bs₄, bs = magic ++ bs₁ ∧
      readGlobals bs₁ = some ((p.transaction, p.globals), bs₂) ∧
      Bytes.readMany RecordMap.read p.transaction.inputs.length bs₂ = some (p.inputs, bs₃) ∧
      Bytes.readMany RecordMap.read p.transaction.outputs.length bs₃ = some (p.outputs, bs₄) := by
  obtain ⟨rest, hread⟩ := exists_read_of_decode h
  unfold read at hread
  simp only [Option.bind_eq_bind, Option.bind_eq_some_iff, Prod.exists,
    Bytes.splitExact_eq_some_iff] at hread
  obtain ⟨front, bs₁, ⟨-, rfl⟩, hread⟩ := hread
  split at hread
  · next hfront =>
    simp only [Option.bind_eq_some_iff, Option.pure_def, Option.some.injEq, Prod.mk.injEq,
      Prod.exists] at hread
    obtain ⟨tx, globals, bs₂, hglobals, inputs, bs₃, hin, outputs, bs₄, hout, rfl, -⟩ := hread
    exact ⟨bs₁, bs₂, bs₃, bs₄, by rw [hfront], hglobals, hin, hout⟩
  · simp at hread

/-- **What was read is shaped.** -/
theorem Decoded.shaped {p : Psbt} (h : p.Decoded) : p.Shaped := by
  obtain ⟨bs, h⟩ := h
  obtain ⟨_, _, _, _, -, -, hin, hout⟩ := exists_parts_of_decode h
  exact ⟨Bytes.length_of_readMany hin, Bytes.length_of_readMany hout⟩

/-- Shaped copies of one transaction have as many inputs. -/
theorem Shaped.length_inputs_eq {p q : Psbt} (hp : p.Shaped) (hq : q.Shaped)
    (h : p.transaction = q.transaction) : p.inputs.length = q.inputs.length := by
  rw [hp.length_inputs, hq.length_inputs, h]

/-- Shaped copies of one transaction have as many outputs. -/
theorem Shaped.length_outputs_eq {p q : Psbt} (hp : p.Shaped) (hq : q.Shaped)
    (h : p.transaction = q.transaction) : p.outputs.length = q.outputs.length := by
  rw [hp.length_outputs, hq.length_outputs, h]

end Psbt

end JointSpend
