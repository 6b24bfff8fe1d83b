import JointSpend.Proofs.Codec.Exchange

set_option autoImplicit false
set_option relaxedAutoImplicit false

/-!
# Cut binary forms

Every map of a binary form says where it ends, and the transaction says how many maps there are. So
wherever a binary form is cut, be it in a length, in a record or between two maps, what is left is
refused: no binary form is the beginning of another one.

## Main results

* `JointSpend.Psbt.Decoded.framed_bytes` — the binary form of a copy that was read consists of the
  maps that it needs.
* `JointSpend.Psbt.truncation_detected` — a cut is always noticed.
-/

namespace JointSpend.Psbt

variable {p q : Psbt}

/-- **The binary form of a copy that was read** consists of the maps that it needs. -/
theorem Decoded.framed_bytes (h : p.Decoded) :
    Framed p.transaction (mapCount p.transaction) p.bytes := by
  have hform := h.wellFormed
  have hfits := h.fits
  have hwhole := RawRecord.fits_of_length_writeAll hfits.whole
  have hvalue := (hwhole (transactionRecord p.transaction) List.mem_cons_self).value.length_le
  have htx : transaction? (transactionRecord p.transaction :: p.globals.records) =
      some p.transaction := transaction?_records hform.unsigned hvalue
  refine ⟨_, _, bytes_eq_rowBytes p, htx, hform.shaped.length_maps,
    fun r hr => (hwhole r hr).sized, ?_⟩
  simp only [List.forall_mem_append, List.forall_mem_map]
  constructor
  · intro m hm
    exact List.forall_mem_map.mpr fun e he => (hfits.inputs m hm e he).sized
  · intro m hm
    exact List.forall_mem_map.mpr fun e he => (hfits.outputs m hm e he).sized

/-- Nothing is read of a binary form that was cut. -/
private theorem decode_ne_ok_of_cut (h : p.Decoded) {front rest : Bytes}
    (hcut : front ++ rest = p.bytes) (hrest : rest ≠ []) : decode front ≠ .ok q := by
  intro hq
  obtain ⟨needed, more, rfl, hneeded, -⟩ := exists_framed_of_decode hq
  have hframed := h.framed_bytes
  rw [← hcut, List.append_assoc] at hframed
  obtain ⟨htx, -, hcount⟩ := hneeded.rest hframed
  -- both have the maps of one transaction, so nothing stands behind those of the cut form
  have hnil := hcount.mp (by rw [htx])
  exact hrest (List.append_eq_nil_iff.mp hnil).2

/-- **A cut is always noticed.** Of the binary form of a copy that was read, no proper beginning can
be read: the empty one has a fault of its own, and all others are not well-formed. So no binary form
of such a copy is the beginning of the binary form of another one.

**Proof sketch.** What is read of a beginning consists of the maps that its transaction needs. The
whole has the same transaction and consists of as many maps, so nothing was cut off. -/
theorem truncation_detected (hp : p.Decoded) :
    (∀ front, front <+: p.bytes → front ≠ p.bytes →
      decode front = .error (if front = [] then .emptyEncoding else .malformedEncoding)) ∧
    ∀ q : Psbt, q.Decoded → p.bytes <+: q.bytes → p = q := by
  constructor
  · rintro front ⟨rest, hcut⟩ hne
    have hrest : rest ≠ [] := by
      rintro rfl
      exact hne (by rw [← hcut, List.append_nil])
    by_cases hfront : front = []
    · rw [if_pos hfront, decode, if_pos hfront]
    · rw [if_neg hfront]
      exact decode_eq_error hfront fun q => decode_ne_ok_of_cut hp hcut hrest
  · rintro q hq ⟨rest, hcut⟩
    have hread := decode_bytes_iff.mpr ⟨hp.wellFormed, hp.fits⟩
    by_cases hrest : rest = []
    · rw [hrest, List.append_nil] at hcut
      have hsame := decode_bytes_iff.mpr ⟨hq.wellFormed, hq.fits⟩
      rw [← hcut, hread] at hsame
      exact Except.ok.inj hsame
    · exact absurd hread (decode_ne_ok_of_cut hq hcut hrest)

/-- The binary form of a final copy, cut in front of the map of its output, where all maps that are
left are whole, and cut to nothing. It is not the beginning of the binary form of a copy that knows
more, either. -/
theorem truncation_detected_finalAlone :
    finalAlone.Decoded ∧ decode (finalAlone.bytes.take 75) = .error .malformedEncoding ∧
      decode [] = .error .emptyEncoding ∧
      finalWithSighash.Decoded ∧ ¬ finalAlone.bytes <+: finalWithSighash.bytes := by
  have hcut : finalAlone.bytes.take 75 ≠ finalAlone.bytes := by decide
  have h := truncation_detected decoded_finalAlone
  refine ⟨decoded_finalAlone, h.1 _ (List.take_prefix 75 _) hcut,
    h.1 [] List.nil_prefix (by decide), decoded_finalWithSighash, fun hprefix => ?_⟩
  exact absurd (h.2 _ decoded_finalWithSighash hprefix) (by decide)

end JointSpend.Psbt
