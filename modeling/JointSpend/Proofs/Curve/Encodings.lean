import JointSpend.Proofs.Digits
import JointSpend.PublicKey
import JointSpend.SighashType

set_option autoImplicit false
set_option relaxedAutoImplicit false

/-!
# Keys and signatures as they are pushed

What is pushed for a key or a signature is read back as that key or signature.

## Main results

* `JointSpend.PublicKey.point_ofBytes?_bytes` — the two written forms of a key.
* `JointSpend.Curve.EcdsaSignature.ofDer?_toDer` — the encoding of an ECDSA signature.
* `JointSpend.TypedSignature.ofBytes?_bytes`, `JointSpend.TaprootSignature.ofBytes?_bytes` — pushed
  signatures.
-/

namespace JointSpend

namespace Curve

/-! ## Coordinates -/

theorem fieldPrime_lt : fieldPrime < 256 ^ 32 := by
  decide

private theorem groupOrder_lt : groupOrder < 256 ^ 32 := by
  decide

/-- Powers are reduced. -/
private theorem powerBits_lt {m : Nat} (hm : 0 < m) (bits base exponent : Nat) :
    powerBits m bits base exponent < m := by
  induction bits generalizing base exponent with
  | zero => exact Nat.mod_lt _ hm
  | succ bits ih =>
    rw [powerBits]
    split
    · exact Nat.mod_lt _ hm
    · exact ih _ _

/-- Roots are reduced. -/
private theorem root_lt (a : Nat) : root a < fieldPrime :=
  powerBits_lt (by decide) _ _ _

/-- The opposite of a root is a root. -/
private theorem sub_mul_sub_mod {m r : Nat} (h : r ≤ m) : (m - r) * (m - r) % m = r * r % m := by
  obtain ⟨d, rfl⟩ := Nat.exists_eq_add_of_le h
  have hsquare : d * d + (r + d) * r = r * r + (r + d) * d := by ring
  have hmod := congrArg (· % (r + d)) hsquare
  simpa [Nat.add_mul_mod_self_left] using hmod

/-- A first coordinate is reduced, and the root that belongs to it is a root and not zero. -/
private theorem isAbscissa_iff {x : Nat} :
    isAbscissa x = true ↔
      x < fieldPrime ∧ root (cubic x) ≠ 0 ∧
        root (cubic x) * root (cubic x) % fieldPrime = cubic x := by
  simp [isAbscissa, and_assoc]

/-- Twice the generator lies on the curve. -/
theorem isAbscissa_double : isAbscissa
    0xc6047f9441ed7d6d3045406e95c07cd85c778e4b8cef3ca7abac09b95c709ee5 = true := by
  decide +kernel

namespace Point

/-- A first coordinate fits into 32 bytes. -/
theorem x_lt (p : Point) : p.x < 256 ^ 32 :=
  (isAbscissa_iff.mp p.onCurve).1.trans fieldPrime_lt

/-- The second coordinate is reduced, satisfies the equation and has the parity that is kept. -/
private theorem y_spec (p : Point) :
    p.y < fieldPrime ∧ p.y * p.y % fieldPrime = cubic p.x ∧ (p.y % 2 == 1) = p.odd := by
  obtain ⟨-, hne, hroot⟩ := isAbscissa_iff.mp p.onCurve
  have hlt := root_lt (cubic p.x)
  have hprime : fieldPrime % 2 = 1 := by decide
  unfold y
  dsimp only
  split
  · next h => exact ⟨hlt, hroot, by simpa using h⟩
  · next h =>
    refine ⟨by omega, ?_, ?_⟩
    · exact (sub_mul_sub_mod hlt.le).trans hroot
    · cases hodd : p.odd with
      | true =>
        rw [hodd] at h
        have : root (cubic p.x) % 2 = 0 := by simpa using h
        have : (fieldPrime - root (cubic p.x)) % 2 = 1 := by omega
        simp [this]
      | false =>
        rw [hodd] at h
        have : root (cubic p.x) % 2 = 1 := by simpa using h
        have : (fieldPrime - root (cubic p.x)) % 2 = 0 := by omega
        simp [this]

theorem lift?_x (p : Point) : lift? p.x p.odd = some p := by
  rw [lift?, dif_pos p.onCurve]

/-- The short form is read back. -/
theorem ofShort?_shortBytes (p : Point) : ofShort? p.shortBytes = some p := by
  have hx : Bytes.ofBigEndian (Bytes.bigEndian 32 p.x) = p.x := Bytes.ofBigEndian_bigEndian p.x_lt
  have hlift := lift?_x p
  unfold shortBytes
  rw [ofShort?, if_neg (by simp), hx]
  cases hodd : p.odd with
  | true => simpa [hodd] using hlift
  | false => simpa [hodd] using hlift

/-- The long form is read back. -/
theorem ofLong?_longBytes (p : Point) :
    ofLong? (Bytes.bigEndian 32 p.x ++ Bytes.bigEndian 32 p.y) = some p := by
  obtain ⟨hlt, heq, hodd⟩ := y_spec p
  have hx : Bytes.ofBigEndian (Bytes.bigEndian 32 p.x) = p.x := Bytes.ofBigEndian_bigEndian p.x_lt
  have hy : Bytes.ofBigEndian (Bytes.bigEndian 32 p.y) = p.y :=
    Bytes.ofBigEndian_bigEndian (hlt.trans fieldPrime_lt)
  rw [ofLong?, if_pos (by simp), List.take_left' (Bytes.length_bigEndian 32 p.x),
    List.drop_left' (Bytes.length_bigEndian 32 p.x), hx, hy, ofCoordinates?, if_pos ⟨hlt, heq⟩,
    hodd]
  exact lift?_x p

end Point

end Curve

namespace PublicKey

/-- **A pushed key is read as its point.** -/
theorem point_ofBytes?_bytes (key : PublicKey) :
    Curve.Point.ofBytes? key.bytes = some key.point := by
  unfold bytes
  split
  · have h := Curve.Point.ofShort?_shortBytes key.point
    unfold Curve.Point.shortBytes at h ⊢
    rw [Curve.Point.ofBytes?, if_pos (by simp), h]
  · unfold Curve.Point.longBytes
    rw [List.cons_append, Curve.Point.ofBytes?, if_neg (by simp), if_pos rfl]
    exact Curve.Point.ofLong?_longBytes key.point

/-- What is read as a key is read as its point. -/
theorem point_of_ofBytes? {bs : Bytes} {key : PublicKey} (h : ofBytes? bs = some key) :
    Curve.Point.ofBytes? bs = some key.point := by
  cases bs with
  | nil => simp [ofBytes?] at h
  | cons b rest =>
    rw [ofBytes?] at h
    rw [Curve.Point.ofBytes?]
    split at h
    · next hlen =>
      obtain ⟨point, hpoint, rfl⟩ := Option.map_eq_some_iff.mp h
      rw [if_pos hlen, hpoint]
    · next hlen =>
      split at h
      · next hb =>
        obtain ⟨point, hpoint, rfl⟩ := Option.map_eq_some_iff.mp h
        rw [if_neg hlen, if_pos hb, hpoint]
      · simp at h

end PublicKey

/-! ## ECDSA signatures -/

namespace Curve

namespace Der

/-- The content of an integer: its digits, behind a zero byte where the first one would be a
sign. -/
def content (v : Nat) : Bytes :=
  match Bytes.minimalBigEndian 32 v with
  | [] => [0]
  | b :: digits => if 128 ≤ b then 0 :: b :: digits else b :: digits

theorem integer_eq (v : Nat) : integer v = 2 :: UInt8.ofNat (content v).length :: content v := by
  unfold integer content
  dsimp only
  cases Bytes.minimalBigEndian 32 v with
  | nil => rfl
  | cons b digits => rfl

private theorem length_content_le (v : Nat) : (content v).length ≤ 33 := by
  have h := Bytes.length_minimalBigEndian_le 32 v
  unfold content
  split
  · simp
  · next b digits heq =>
    rw [heq, List.length_cons] at h
    split
    · simp only [List.length_cons]
      omega
    · simp only [List.length_cons]
      omega

/-- The content of an integer below the group order is read back. -/
private theorem integerValue?_content {v : Nat} (h : v < groupOrder) :
    integerValue? (content v) = some v := by
  have hvalue := Bytes.ofBigEndian_minimalBigEndian (h.trans groupOrder_lt)
  have hhead : ∀ b bs, Bytes.minimalBigEndian 32 v = b :: bs → b ≠ 0 := fun b bs =>
    Bytes.ne_zero_of_minimalBigEndian
  unfold content
  split
  · next heq =>
    rw [heq] at hvalue
    rw [← hvalue]
    rfl
  · next b digits heq =>
    rw [heq] at hvalue
    have hb := hhead b digits heq
    split
    · next hsign =>
      rw [UInt8.le_iff_toNat_le] at hsign
      have hnot : ¬ b < 128 := by
        rw [UInt8.lt_iff_toNat_lt]
        omega
      rw [integerValue?, if_neg (by simp [hnot]), if_neg (by simp), if_neg (by decide)]
      dsimp only
      rw [Bytes.ofBigEndian_zero_cons, hvalue, if_pos h]
    · next hsign =>
      have hmax : b ≠ 255 := by
        rintro rfl
        exact hsign (by decide)
      cases digits with
      | nil =>
        rw [integerValue?, if_neg hsign, ← hvalue]
        simp [Bytes.ofBigEndian]
      | cons c digits =>
        rw [integerValue?, if_neg (by simp [hb]), if_neg (by simp [hmax]), if_neg hsign]
        dsimp only
        rw [hvalue, if_pos h]

/-- A short content is read back behind its length. -/
private theorem readContent_append {content : Bytes} (h : content.length < 128) (rest : Bytes) :
    readContent (UInt8.ofNat content.length :: (content ++ rest)) = some (content, rest) := by
  have hn : (UInt8.ofNat content.length).toNat = content.length := by
    rw [UInt8.toNat_ofNat']
    omega
  rw [readContent, if_pos, hn, Bytes.splitExact_append rfl]
  rw [UInt8.lt_iff_toNat_lt, hn]
  exact h

/-- An integer below the group order is read back. -/
private theorem readInteger_integer {v : Nat} (h : v < groupOrder) (rest : Bytes) :
    readInteger (integer v ++ rest) = some (v, rest) := by
  have hlen := length_content_le v
  rw [integer_eq, List.cons_append, List.cons_append, readInteger, if_pos rfl,
    readContent_append (by omega)]
  simp [integerValue?_content h]

theorem length_integer_le (v : Nat) : (integer v).length ≤ 35 := by
  have := length_content_le v
  rw [integer_eq, List.length_cons, List.length_cons]
  omega

end Der

/-- **The encoding of a signature is read back.** -/
theorem EcdsaSignature.ofDer?_toDer (sig : EcdsaSignature) : ofDer? sig.toDer = some sig := by
  have hr := Der.length_integer_le sig.r
  have hs := Der.length_integer_le sig.s
  have hlen : (Der.integer sig.r ++ Der.integer sig.s).length < 128 := by
    rw [List.length_append]
    omega
  have hbody := Der.readContent_append hlen []
  rw [List.append_nil] at hbody
  have hfirst := Der.readInteger_integer sig.r_lt (Der.integer sig.s)
  have hsecond := Der.readInteger_integer sig.s_lt []
  rw [List.append_nil] at hsecond
  unfold toDer
  dsimp only
  rw [ofDer?, if_pos rfl]
  simp only [Bytes.readAll, hbody, Option.bind_eq_bind, Option.bind_some, hfirst, hsecond]
  rw [ofScalars?, dif_pos ⟨sig.r_lt, sig.s_lt⟩]

end Curve

/-! ## Pushed signatures -/

private theorem SighashType.ofByte?_byte (t : SighashType) : ofByte? t.byte = some t := by
  obtain ⟨outputs, anyoneCanPay⟩ := t
  cases outputs <;> cases anyoneCanPay <;> rfl

/-- **A pushed ECDSA signature is read back.** -/
theorem TypedSignature.ofBytes?_bytes (sig : TypedSignature) : ofBytes? sig.bytes = some sig := by
  unfold ofBytes? bytes
  simp [SighashType.ofByte?_byte, Curve.EcdsaSignature.ofDer?_toDer]

private theorem TaprootSighashType.ofByte?_byte (t : SighashType) :
    ofByte? t.byte = some (.explicit t) := by
  obtain ⟨outputs, anyoneCanPay⟩ := t
  cases outputs <;> cases anyoneCanPay <;> rfl

/-- **A pushed taproot signature is read back.** -/
theorem TaprootSignature.ofBytes?_bytes (sig : TaprootSignature) :
    ofBytes? sig.bytes = some sig := by
  obtain ⟨signature, type⟩ := sig
  have htake : ∀ rest, (signature.bytes ++ rest).take 64 = signature.bytes := fun rest =>
    List.take_left' signature.length_eq
  have hdrop : ∀ rest, (signature.bytes ++ rest).drop 64 = rest := fun rest =>
    List.drop_left' signature.length_eq
  cases type with
  | default =>
    have ht := htake []
    have hd := hdrop []
    rw [List.append_nil] at ht hd
    simp [ofBytes?, bytes, ht, hd, Fixed.ofBytes?_bytes]
  | explicit t =>
    simp [ofBytes?, bytes, htake, hdrop, Fixed.ofBytes?_bytes, TaprootSighashType.ofByte?_byte]

end JointSpend
