import JointSpend.Proofs.Codec.Values
import JointSpend.Proofs.Script.Instructions

set_option autoImplicit false
set_option relaxedAutoImplicit false

/-!
# The grammar of templates

Which scripts ask for signatures, said without a parser: by the ways in which instructions and keys
are written. A push can be written in up to four ways, and a key in two; a script has at most one
sequence of instructions, and a sequence of instructions has at most one template.

## Main definitions

* `JointSpend.PublicKey.Serialized` — the written forms of a key.
* `JointSpend.Script.Instruction.Written` — the written forms of an instruction.
* `JointSpend.Script.WrittenAs` — a script is a sequence of written instructions.
* `JointSpend.Script.AsksFor` — the scripts that ask for what a template says.

## Main results

* `JointSpend.PublicKey.serialized_iff` — keys are read in exactly their written forms.
* `JointSpend.Script.writtenAs_iff` — the instructions that a script is read as are those that it
  is written as.
* `JointSpend.Script.template?_eq_some_iff` — the scripts that have a template.
* `JointSpend.Script.template?_exact` — the templates are exactly those of the grammar.
-/

namespace JointSpend

/-! ## Keys -/

namespace PublicKey

/-- The written forms of a key: the short one, with the parity and the first coordinate in 33 bytes,
and the long one, with `04` and both coordinates in 65 bytes. -/
inductive Serialized : PublicKey → Bytes → Prop
  | short (point : Curve.Point) : Serialized ⟨point, true⟩ point.shortBytes
  | long {point : Curve.Point} {y : Nat} (hlt : y < Curve.fieldPrime)
      (hcurve : y * y % Curve.fieldPrime = Curve.cubic point.x)
      (hodd : (y % 2 == 1) = point.odd) :
      Serialized ⟨point, false⟩ (4 :: (Bytes.bigEndian 32 point.x ++ Bytes.bigEndian 32 y))

/-- The coordinates of the long form. -/
private theorem ofLong?_eq_some {coordinates : Bytes} {point : Curve.Point}
    (h : Curve.Point.ofLong? coordinates = some point) :
    ∃ y, y < Curve.fieldPrime ∧ y * y % Curve.fieldPrime = Curve.cubic point.x ∧
      (y % 2 == 1) = point.odd ∧
        coordinates = Bytes.bigEndian 32 point.x ++ Bytes.bigEndian 32 y := by
  unfold Curve.Point.ofLong? at h
  split at h
  · next hlen =>
    have hx : (coordinates.take 32).length = 32 := by
      rw [List.length_take]
      omega
    have hy : (coordinates.drop 32).length = 32 := by
      rw [List.length_drop]
      omega
    unfold Curve.Point.ofCoordinates? at h
    split at h
    · next hcurve =>
      unfold Curve.Point.lift? at h
      split at h
      · obtain rfl := Option.some.inj h
        refine ⟨_, hcurve.1, hcurve.2, rfl, ?_⟩
        have hfront := Bytes.bigEndian_ofBigEndian (coordinates.take 32)
        have hback := Bytes.bigEndian_ofBigEndian (coordinates.drop 32)
        rw [hx] at hfront
        rw [hy] at hback
        rw [hfront, hback, List.take_append_drop]
      · simp at h
    · simp at h
  · simp at h

/-- **Keys are read in exactly their written forms.** -/
theorem serialized_iff {key : PublicKey} {data : Bytes} :
    key.Serialized data ↔ ofBytes? data = some key := by
  constructor
  · rintro (point | @⟨point, y, hlt, hcurve, hodd⟩)
    · exact ofBytes?_bytes ⟨point, true⟩
    · have hx : Bytes.ofBigEndian (Bytes.bigEndian 32 point.x) = point.x :=
        Bytes.ofBigEndian_bigEndian point.x_lt
      have hy : Bytes.ofBigEndian (Bytes.bigEndian 32 y) = y :=
        Bytes.ofBigEndian_bigEndian (hlt.trans Curve.fieldPrime_lt)
      have hlong : Curve.Point.ofLong? (Bytes.bigEndian 32 point.x ++ Bytes.bigEndian 32 y) =
          some point := by
        rw [Curve.Point.ofLong?, if_pos (by simp), List.take_left' (Bytes.length_bigEndian 32 _),
          List.drop_left' (Bytes.length_bigEndian 32 _), hx, hy, Curve.Point.ofCoordinates?,
          if_pos ⟨hlt, hcurve⟩, hodd]
        exact point.lift?_x
      rw [ofBytes?, if_neg (by simp), if_pos rfl, hlong]
      rfl
  · intro h
    cases data with
    | nil => simp [ofBytes?] at h
    | cons b rest =>
      rw [ofBytes?] at h
      split at h
      · obtain ⟨point, hpoint, rfl⟩ := Option.map_eq_some_iff.mp h
        obtain ⟨-, hbytes⟩ := (Curve.Point.spells_short _ _).mp hpoint
        rw [hbytes]
        exact .short point
      · split at h
        · next hb =>
          obtain ⟨point, hpoint, rfl⟩ := Option.map_eq_some_iff.mp h
          obtain ⟨y, hlt, hcurve, hodd, rfl⟩ := ofLong?_eq_some hpoint
          rw [hb]
          exact .long hlt hcurve hodd
        · simp at h

end PublicKey

namespace Script

/-! ## Instructions -/

/-- The operations that push a byte string behind its length, each with the number of bytes in which
it has the length. -/
def wideForms : List (UInt8 × Nat) :=
  [(0x4c, 1), (0x4d, 2), (0x4e, 4)]

/-- The written forms of an instruction. A push of up to 75 bytes can be written behind its length,
and any push behind an operation and its length, with leading zeros or without; any other operation
is a byte. -/
inductive Instruction.Written : Instruction → Bytes → Prop
  | direct {data : Bytes} (hshort : data.length ≤ 75) :
      Written (.push data) (UInt8.ofNat data.length :: data)
  | wide {code : UInt8} {width : Nat} {data : Bytes} (hform : (code, width) ∈ wideForms)
      (hfits : data.length < 256 ^ width) :
      Written (.push data) (code :: (Bytes.littleEndian width data.length ++ data))
  | op {code : UInt8} (hcode : 0x4e < code) : Written (.op code) [code]

/-- A push whose length is written in a number of bytes. -/
private theorem readPush_eq_some_iff {n : Nat} {bs data rest : Bytes} :
    readPush n bs = some (data, rest) ↔
      data.length < 256 ^ n ∧ bs = Bytes.littleEndian n data.length ++ data ++ rest := by
  simp only [readPush, Option.bind_eq_bind, Option.bind_eq_some_iff, Prod.exists,
    Bytes.reads_littleEndian n _ _ _, Bytes.splitExact_eq_some_iff]
  constructor
  · rintro ⟨size, r, ⟨hfits, rfl⟩, rfl, rfl⟩
    exact ⟨hfits, by rw [List.append_assoc]⟩
  · rintro ⟨hfits, rfl⟩
    exact ⟨data.length, _, ⟨hfits, List.append_assoc _ _ _⟩, rfl, rfl⟩

/-- The first byte of a push that is not written behind its length alone. -/
private theorem readInstruction_wide {code : UInt8} {width : Nat}
    (hform : (code, width) ∈ wideForms) (bs : Bytes) :
    readInstruction (code :: bs) = (readPush width bs).map fun r => (.push r.1, r.2) := by
  simp only [wideForms, List.mem_cons, Prod.mk.injEq, List.not_mem_nil, or_false] at hform
  rcases hform with ⟨rfl, rfl⟩ | ⟨rfl, rfl⟩ | ⟨rfl, rfl⟩
  · exact readInstruction_one bs
  · exact readInstruction_two bs
  · exact readInstruction_four bs

/-- A push behind its length is read. -/
private theorem readInstruction_direct {data : Bytes} (hshort : data.length ≤ 75) (rest : Bytes) :
    readInstruction (UInt8.ofNat data.length :: (data ++ rest)) = some (.push data, rest) := by
  have hsize : (UInt8.ofNat data.length).toNat = data.length := by
    rw [UInt8.toNat_ofNat']
    omega
  have hle : UInt8.ofNat data.length ≤ 0x4b := by
    rw [UInt8.le_iff_toNat_le, hsize]
    exact hshort
  rw [readInstruction, if_pos hle, hsize, Bytes.splitExact_append rfl]
  rfl

/-- A byte that no push begins with. -/
private theorem lt_of_not_push {b : UInt8} (hdirect : ¬ b ≤ 0x4b) (hone : b ≠ 0x4c)
    (htwo : b ≠ 0x4d) (hfour : b ≠ 0x4e) : 0x4e < b := by
  rw [UInt8.le_iff_toNat_le] at hdirect
  rw [ne_eq, ← UInt8.toNat_inj] at hone htwo hfour
  rw [UInt8.lt_iff_toNat_lt]
  simp only [UInt8.reduceToNat] at hdirect hone htwo hfour ⊢
  omega

/-- **An instruction is read in exactly its written forms.** -/
theorem readInstruction_eq_some_iff {bs rest : Bytes} {i : Instruction} :
    readInstruction bs = some (i, rest) ↔ ∃ written, i.Written written ∧ bs = written ++ rest := by
  constructor
  · intro h
    cases bs with
    | nil => simp [readInstruction] at h
    | cons b cs =>
      have hwide : ∀ width : Nat, (b, width) ∈ wideForms →
          ∃ written, i.Written written ∧ b :: cs = written ++ rest := by
        intro width hform
        rw [readInstruction_wide hform, Option.map_eq_some_iff] at h
        obtain ⟨⟨data, rest'⟩, hpush, heq⟩ := h
        obtain ⟨rfl, rfl⟩ := Prod.mk.inj heq
        obtain ⟨hfits, rfl⟩ := readPush_eq_some_iff.mp hpush
        exact ⟨_, .wide hform hfits, rfl⟩
      by_cases hdirect : b ≤ 0x4b
      · rw [readInstruction, if_pos hdirect, Option.map_eq_some_iff] at h
        obtain ⟨⟨data, rest'⟩, hsplit, heq⟩ := h
        obtain ⟨rfl, rfl⟩ := Prod.mk.inj heq
        obtain ⟨hlen, rfl⟩ := Bytes.splitExact_eq_some_iff.mp hsplit
        have hb : UInt8.ofNat data.length = b := by
          rw [hlen, UInt8.ofNat_toNat]
        have hshort : data.length ≤ 75 := by
          rw [hlen]
          exact UInt8.le_iff_toNat_le.mp hdirect
        exact ⟨_, .direct hshort, by rw [hb, List.cons_append]⟩
      by_cases hone : b = 0x4c
      · exact hwide 1 (by simp [wideForms, hone])
      by_cases htwo : b = 0x4d
      · exact hwide 2 (by simp [wideForms, htwo])
      by_cases hfour : b = 0x4e
      · exact hwide 4 (by simp [wideForms, hfour])
      have hop := lt_of_not_push hdirect hone htwo hfour
      rw [readInstruction_op hop] at h
      obtain ⟨rfl, rfl⟩ := Prod.mk.inj (Option.some.inj h)
      exact ⟨_, .op hop, rfl⟩
  · rintro ⟨written, hwritten, rfl⟩
    cases hwritten with
    | direct hshort => exact readInstruction_direct hshort rest
    | wide hform hfits =>
      rw [List.cons_append, readInstruction_wide hform, readPush_eq_some_iff.mpr ⟨hfits, rfl⟩]
      rfl
    | op hop => exact readInstruction_op hop rest

/-- A script is a sequence of written instructions. -/
def WrittenAs (s : Script) (is : List Instruction) : Prop :=
  ∃ parts, List.Forall₂ Instruction.Written is parts ∧ s.bytes = parts.flatten

/-- A script whose first instruction is read, and the others behind it. -/
private theorem instructions?_eq_cons_iff {bs : Bytes} {i : Instruction} {is : List Instruction} :
    instructions? ⟨bs⟩ = some (i :: is) ↔
      ∃ rest, readInstruction bs = some (i, rest) ∧ instructions? ⟨rest⟩ = some is := by
  cases hread : readInstruction bs with
  | none =>
    cases bs with
    | nil => simp [instructions?, instructionsWithin]
    | cons b bs => simp [instructions?, instructionsWithin, hread]
  | some r =>
    obtain ⟨j, rest⟩ := r
    rw [instructions?_cons hread]
    simp only [Option.map_eq_some_iff, List.cons.injEq, Option.some.injEq, Prod.mk.injEq]
    constructor
    · rintro ⟨js, hjs, rfl, rfl⟩
      exact ⟨rest, ⟨rfl, rfl⟩, hjs⟩
    · rintro ⟨_, ⟨rfl, rfl⟩, his⟩
      exact ⟨is, his, rfl, rfl⟩

/-- **The instructions that a script is read as** are those that it is written as.

**Proof sketch.** Induction on the instructions: the first one takes one of its written forms, the
others what is left. -/
theorem writtenAs_iff {s : Script} {is : List Instruction} :
    s.WrittenAs is ↔ s.instructions? = some is := by
  obtain ⟨bs⟩ := s
  unfold WrittenAs
  induction is generalizing bs with
  | nil =>
    simp only [List.forall₂_nil_left_iff, exists_eq_left, List.flatten_nil]
    constructor
    · rintro rfl
      rfl
    · intro h
      cases bs with
      | nil => rfl
      | cons b bs =>
        cases hread : readInstruction (b :: bs) with
        | none => simp [instructions?, instructionsWithin, hread] at h
        | some r =>
          rw [instructions?_cons hread] at h
          simp at h
  | cons i is ih =>
    rw [instructions?_eq_cons_iff]
    simp only [← ih, readInstruction_eq_some_iff, List.forall₂_cons_left_iff]
    constructor
    · rintro ⟨_, ⟨written, parts, hwritten, hparts, rfl⟩, rfl⟩
      exact ⟨parts.flatten, ⟨written, hwritten, List.flatten_cons⟩, parts, hparts, rfl⟩
    · rintro ⟨_, ⟨written, hwritten, rfl⟩, parts, hparts, rfl⟩
      exact ⟨written :: parts, ⟨written, parts, hwritten, hparts, rfl⟩, List.flatten_cons.symm⟩

/-! ## Templates -/

/-- The operation that pushes a number from 1 to 16. -/
def numberOp (n : Nat) : Instruction :=
  .op (UInt8.ofNat (0x50 + n))

/-- The scripts that ask for what a template says, by how they are written. -/
def AsksFor (s : Script) : Template → Prop
  | .pubkeyHash hash => s = p2pkh.script hash ∨ s = p2wpkh.script hash
  | .pubkey key => ∃ data, key.Serialized data ∧ s.WrittenAs [.push data, .op checkSig]
  | .multisig threshold keys =>
    1 ≤ threshold ∧ threshold ≤ keys.length ∧ keys.length ≤ 16 ∧
      ∃ pushes, List.Forall₂ PublicKey.Serialized keys pushes ∧
        s.WrittenAs (numberOp threshold :: pushes.map .push ++
          [numberOp keys.length, .op checkMultisig])
  | .taprootKey _ => False

/-- What a script asks for is its form. -/
private theorem asksFor_iff_hasForm {s : Script} {t : Template} : s.AsksFor t ↔ s.HasForm t := by
  constructor
  · cases t with
    | pubkeyHash hash =>
      rintro (h | h)
      · exact .keyHash h
      · exact .witnessKeyHash h
    | pubkey key =>
      rintro ⟨data, hkey, hwritten⟩
      exact .pubkey (writtenAs_iff.mp hwritten) (PublicKey.serialized_iff.mp hkey)
    | multisig threshold keys =>
      rintro ⟨hpos, hle, hmax, pushes, hkeys, hwritten⟩
      exact .multisig hpos hle hmax (writtenAs_iff.mp hwritten)
        (hkeys.imp fun _ _ => PublicKey.serialized_iff.mp).flip
    | taprootKey key => exact False.elim
  · rintro (h | h | ⟨h, hkey⟩ | ⟨hpos, hle, hmax, h, hkeys⟩)
    · exact .inl h
    · exact .inr h
    · exact ⟨_, PublicKey.serialized_iff.mpr hkey, writtenAs_iff.mpr h⟩
    · exact ⟨hpos, hle, hmax, _, (hkeys.imp fun _ _ => PublicKey.serialized_iff.mpr).flip,
        writtenAs_iff.mpr h⟩

/-- The code of such an operation. -/
private theorem toNat_numberCode {n : Nat} (hmax : n ≤ 16) :
    (UInt8.ofNat (0x50 + n)).toNat = 0x50 + n := by
  rw [UInt8.toNat_ofNat']
  omega

/-- No two numbers are pushed by one operation. -/
private theorem numberOp_injective {m n : Nat} (hm : m ≤ 16) (hn : n ≤ 16)
    (h : numberOp m = numberOp n) : m = n := by
  have hcode := congrArg UInt8.toNat (Instruction.op.inj h)
  rw [toNat_numberCode hm, toNat_numberCode hn] at hcode
  omega

/-- The number that such an operation pushes. -/
private theorem smallNumber?_numberOp {n : Nat} (hpos : 1 ≤ n) (hmax : n ≤ 16) :
    smallNumber? (numberOp n) = some n := by
  rw [numberOp, smallNumber?, if_pos, toNat_numberCode hmax, Nat.add_sub_cancel_left]
  rw [UInt8.le_iff_toNat_le, UInt8.le_iff_toNat_le, toNat_numberCode hmax]
  simp only [UInt8.reduceToNat]
  omega

/-- Such an operation is read. -/
private theorem readInstruction_numberOp {n : Nat} (hmax : n ≤ 16) (rest : Bytes) :
    readInstruction (UInt8.ofNat (0x50 + n) :: rest) = some (numberOp n, rest) := by
  refine readInstruction_op ?_ rest
  rw [UInt8.lt_iff_toNat_lt, toNat_numberCode hmax]
  simp only [UInt8.reduceToNat]
  omega

/-- A sequence of instructions that asks for a threshold of keys. -/
private theorem multisig?_of_keys {threshold : Nat} {pushes : List Bytes} {keys : List PublicKey}
    (hpos : 1 ≤ threshold) (hle : threshold ≤ keys.length) (hmax : keys.length ≤ 16)
    (hkeys : List.Forall₂ (fun data key => PublicKey.ofBytes? data = some key) pushes keys) :
    multisig? (numberOp threshold :: pushes.map .push ++
      [numberOp keys.length, .op checkMultisig]) = some (.multisig threshold keys) := by
  have hreverse : (numberOp threshold :: pushes.map .push ++
      [numberOp keys.length, .op checkMultisig]).reverse =
        .op checkMultisig :: numberOp keys.length ::
          (numberOp threshold :: pushes.map .push).reverse := by
    simp
  have hpushed : (pushes.map Instruction.push).mapM pushedKey? = some keys :=
    Steps.mapM_eq_some_iff.mpr (List.forall₂_map_left_iff.mpr hkeys)
  unfold multisig?
  rw [hreverse]
  simp only [if_true, smallNumber?_numberOp (hpos.trans hle) hmax, Option.bind_eq_bind,
    Option.bind_some, List.reverse_reverse, smallNumber?_numberOp hpos (hle.trans hmax), hpushed,
    hle, and_self]

/-- The last instruction of such a sequence. -/
private theorem multisig_concat (threshold count : Nat) (pushes : List Bytes) :
    numberOp threshold :: pushes.map .push ++ [numberOp count, .op checkMultisig] =
      (numberOp threshold :: pushes.map .push ++ [numberOp count]) ++ [.op checkMultisig] := by
  simp

/-- The last instruction of a script, however its instructions are found. -/
private theorem getLast?_of_instructions? {s : Script} {is js : List Instruction} {i : Instruction}
    (his : s.instructions? = some (is ++ [i])) (hjs : s.instructions? = some js) :
    js.getLast? = some i := by
  obtain rfl := Option.some.inj (his.symm.trans hjs)
  exact List.getLast?_concat

/-- A script does not have a pattern whose scripts have other instructions. -/
private theorem payload?_eq_none {pattern : Pattern} {s : Script} {is : List Instruction}
    (h : s.instructions? = some is)
    (hne : ∀ payload, (pattern.script payload).instructions? ≠ some is) :
    pattern.payload? s = none := by
  by_contra hsome
  obtain ⟨payload, hpayload⟩ := Option.ne_none_iff_exists'.mp hsome
  obtain rfl : s = pattern.script payload := Pattern.payload?_eq_some_iff.mp hpayload
  exact hne payload h

/-- **The scripts that have a template** are those of its form.

**Proof sketch.** The patterns of key hashes are tried first, then the single key, then the
threshold. A script of a later form has none of the earlier ones: its instructions end otherwise, or
there are more or fewer of them. -/
theorem template?_eq_some_iff {s : Script} {t : Template} :
    s.template? = some t ↔ s.HasForm t := by
  refine ⟨hasForm_of_template?, fun h => ?_⟩
  cases h with
  | keyHash h => rw [template?, Pattern.payload?_eq_some_iff.mpr h]
  | @witnessKeyHash hash h =>
    have hno : p2pkh.payload? s = none := by
      rw [Pattern.payload?_eq_none_iff, Bool.eq_false_iff, ne_eq, matchesPattern_iff]
      rintro ⟨other, hother⟩
      exact p2wpkh_script_ne_p2pkh hash other (h.symm.trans hother)
    rw [template?, hno, Pattern.payload?_eq_some_iff.mpr h]
  | pubkey h hkey =>
    have hnoKeyHash : p2pkh.payload? s = none := payload?_eq_none h fun hash heq =>
      absurd ((instructions?_p2pkh hash).symm.trans heq) (by simp)
    have hnoWitness : p2wpkh.payload? s = none := payload?_eq_none h fun hash heq =>
      absurd ((instructions?_p2wpkh hash).symm.trans heq) (by simp)
    rw [template?, hnoKeyHash, hnoWitness, h]
    simp [pubkey?, pushedKey?, hkey]
  | @multisig threshold pushes keys hpos hle hmax h hkeys =>
    have hend := h.trans (congrArg some (multisig_concat threshold keys.length pushes))
    have hnoKeyHash : p2pkh.payload? s = none := payload?_eq_none hend fun hash heq =>
      absurd (getLast?_of_instructions? heq (instructions?_p2pkh hash)) (by simp [checkMultisig])
    have hnoWitness : p2wpkh.payload? s = none := payload?_eq_none hend fun hash heq =>
      absurd (getLast?_of_instructions? heq (instructions?_p2wpkh hash)) (by simp)
    have hsingle : pubkey? (numberOp threshold :: pushes.map .push ++
        [numberOp keys.length, .op checkMultisig]) = none := by
      rw [Option.eq_none_iff_forall_ne_some]
      intro t hsome
      obtain ⟨data, key, his, -, -⟩ := pubkey?_eq_some hsome
      simp [numberOp] at his
    rw [template?, hnoKeyHash, hnoWitness, h]
    exact (congrArg (Option.or · _) hsingle).trans (multisig?_of_keys hpos hle hmax hkeys)

/-- The pushes of keys in front of a script. -/
private theorem instructions?_keys {rest : Bytes} {is : List Instruction}
    (hrest : instructions? ⟨rest⟩ = some is) (keys : List PublicKey) :
    instructions? ⟨keys.flatMap (fun k => pushBytes k.bytes) ++ rest⟩ =
      some ((keys.map (·.bytes)).map .push ++ is) := by
  induction keys with
  | nil => exact hrest
  | cons key keys ih =>
    have hlen : key.bytes.length < 0x100000000 := key.length_bytes_le.trans_lt (by decide)
    rw [List.flatMap_cons, List.append_assoc, instructions?_cons (readInstruction_pushBytes hlen _),
      ih]
    rfl

/-- The instructions of the standard script for a threshold of keys. -/
private theorem instructions?_multisig {threshold : Nat} {keys : List PublicKey}
    (hle : threshold ≤ keys.length) (hmax : keys.length ≤ 16) :
    (multisig threshold keys).instructions? =
      some (numberOp threshold :: (keys.map (·.bytes)).map .push ++
        [numberOp keys.length, .op checkMultisig]) := by
  have hend : instructions? ⟨[UInt8.ofNat (0x50 + keys.length), checkMultisig]⟩ =
      some [numberOp keys.length, .op checkMultisig] := by
    rw [instructions?_cons (readInstruction_numberOp hmax _)]
    rfl
  rw [multisig, List.cons_append, instructions?_cons (readInstruction_numberOp (hle.trans hmax) _),
    instructions?_keys hend]
  rfl

/-- **The standard script for a threshold of keys** has the form for that threshold and these
keys. -/
theorem hasForm_multisig {threshold : Nat} {keys : List PublicKey} (hpos : 1 ≤ threshold)
    (hle : threshold ≤ keys.length) (hmax : keys.length ≤ 16) :
    (multisig threshold keys).HasForm (.multisig threshold keys) := by
  refine .multisig hpos hle hmax (instructions?_multisig hle hmax) ?_
  rw [List.forall₂_map_left_iff, List.forall₂_same]
  exact fun key _ => key.ofBytes?_bytes

/-! ## Scripts without a template -/

/-- A script with a template is a sequence of instructions. -/
private theorem HasForm.exists_instructions? {s : Script} {t : Template} (h : s.HasForm t) :
    ∃ is, s.instructions? = some is := by
  cases h with
  | keyHash h => exact ⟨_, h ▸ instructions?_p2pkh _⟩
  | witnessKeyHash h => exact ⟨_, h ▸ instructions?_p2wpkh _⟩
  | pubkey h _ => exact ⟨_, h⟩
  | multisig _ _ _ h _ => exact ⟨_, h⟩

/-- A script with a template that ends with a check of a threshold has the form for that. -/
private theorem HasForm.of_checkMultisig {s : Script} {t : Template} {is : List Instruction}
    (h : s.HasForm t) (his : s.instructions? = some (is ++ [.op checkMultisig])) :
    ∃ threshold count, ∃ pushes : List Bytes, count ≤ 16 ∧ pushes.length = count ∧
      is = numberOp threshold :: pushes.map .push ++ [numberOp count] := by
  cases h with
  | keyHash h =>
    exact absurd (getLast?_of_instructions? his (h ▸ instructions?_p2pkh _))
      (by simp [checkMultisig])
  | witnessKeyHash h =>
    exact absurd (getLast?_of_instructions? his (h ▸ instructions?_p2wpkh _)) (by simp)
  | pubkey h _ =>
    exact absurd (getLast?_of_instructions? his h) (by simp [checkSig, checkMultisig])
  | @multisig threshold pushes keys hpos hle hmax h hkeys =>
    refine ⟨threshold, keys.length, pushes, hmax, hkeys.length_eq, ?_⟩
    have hsame := Option.some.inj (his.symm.trans h)
    exact (List.append_left_inj _).mp
      (hsame.trans (multisig_concat threshold keys.length pushes))

/-- **The templates are exactly those of the grammar**: a script has a template exactly when it asks
for what the template says, and none otherwise. In particular it has none if a push is cut off, if
the threshold is zero, or if the number of keys is not the one that is given; and no script asks for
two things. What is written for a threshold of keys asks for these.

**Proof sketch.** A script is read as the instructions that it is written as, and its keys as the
keys that they are written for; of the instructions there is at most one template. -/
theorem template?_exact (s : Script) :
    (∀ t, s.template? = some t ↔ s.AsksFor t) ∧
      (s.template? = none ↔ ∀ t, ¬ s.AsksFor t) ∧
      (∀ t t', s.AsksFor t → s.AsksFor t' → t = t') ∧
      ((∀ is, ¬ s.WrittenAs is) → s.template? = none) ∧
      (∀ is, s.WrittenAs (.push [] :: is ++ [.op checkMultisig]) → s.template? = none) ∧
      (∀ threshold count, ∀ pushes : List Bytes, count ≤ 16 → pushes.length ≠ count →
        s.WrittenAs (numberOp threshold :: pushes.map .push ++
          [numberOp count, .op checkMultisig]) → s.template? = none) ∧
      ∀ threshold keys, 1 ≤ threshold → threshold ≤ keys.length → keys.length ≤ 16 →
        (multisig threshold keys).template? = some (.multisig threshold keys) := by
  have hexact : ∀ t, s.template? = some t ↔ s.AsksFor t := fun t =>
    template?_eq_some_iff.trans asksFor_iff_hasForm.symm
  refine ⟨hexact, ?_, fun t t' h h' => ?_, fun h => ?_, fun is h => ?_,
    fun threshold count pushes hcount hne h => ?_, fun threshold keys hpos hle hmax =>
      template?_eq_some_iff.mpr (hasForm_multisig hpos hle hmax)⟩
  · rw [Option.eq_none_iff_forall_ne_some]
    exact forall_congr' fun t => not_congr (hexact t)
  · exact Option.some.inj (((hexact t).mpr h).symm.trans ((hexact t').mpr h'))
  · rw [Option.eq_none_iff_forall_ne_some]
    intro t ht
    obtain ⟨is, his⟩ := (template?_eq_some_iff.mp ht).exists_instructions?
    exact h is (writtenAs_iff.mpr his)
  · rw [Option.eq_none_iff_forall_ne_some]
    intro t ht
    obtain ⟨threshold, count, pushes, -, -, heq⟩ :=
      (template?_eq_some_iff.mp ht).of_checkMultisig (writtenAs_iff.mp h)
    simp [numberOp] at heq
  · rw [Option.eq_none_iff_forall_ne_some]
    intro t ht
    have his := writtenAs_iff.mp h
    rw [multisig_concat] at his
    obtain ⟨threshold', count', pushes', hcount', hlength, heq⟩ :=
      (template?_eq_some_iff.mp ht).of_checkMultisig his
    obtain ⟨hfront, hback⟩ := List.append_inj' heq rfl
    have hsame : count = count' :=
      numberOp_injective hcount hcount' (List.singleton_inj.mp hback)
    have hpushes := congrArg List.length hfront
    simp only [List.length_cons, List.length_map] at hpushes
    omega

/-- The generator, written in both forms. -/
def bothForms : List PublicKey :=
  [⟨Curve.generatorPoint, true⟩, ⟨Curve.generatorPoint, false⟩]

/-- One of these keys is asked for by the standard script, and also by a script that has the length
of the first key behind an operation. -/
theorem template?_exact_bothForms :
    (multisig 1 bothForms).template? = some (.multisig 1 bothForms) ∧
      template? ⟨0x51 :: (0x4c :: 33 :: Curve.generatorPoint.shortBytes) ++
        (65 :: Curve.generatorPoint.longBytes) ++ [0x52, checkMultisig]⟩ =
          some (.multisig 1 bothForms) := by
  refine ⟨(template?_exact .empty).2.2.2.2.2.2 1 bothForms (by decide) (by decide) (by decide), ?_⟩
  refine ((template?_exact _).1 _).mpr ⟨by decide, by decide, by decide,
    bothForms.map (·.bytes), ?_, ?_⟩
  · rw [List.forall₂_map_right_iff, List.forall₂_same]
    exact fun key _ => PublicKey.serialized_iff.mpr key.ofBytes?_bytes
  · have hshort : Curve.generatorPoint.shortBytes.length = 33 :=
      Curve.generatorPoint.length_shortBytes
    have hlong : Curve.generatorPoint.longBytes.length = 65 := rfl
    refine ⟨[[0x51], 0x4c :: 33 :: Curve.generatorPoint.shortBytes,
      65 :: Curve.generatorPoint.longBytes, [0x52], [checkMultisig]], ?_, by simp⟩
    have hfirst : Instruction.Written (.push Curve.generatorPoint.shortBytes)
        (0x4c :: (Bytes.littleEndian 1 Curve.generatorPoint.shortBytes.length ++
          Curve.generatorPoint.shortBytes)) :=
      .wide (by decide) (by rw [hshort]; decide)
    have hsecond : Instruction.Written (.push Curve.generatorPoint.longBytes)
        (UInt8.ofNat Curve.generatorPoint.longBytes.length :: Curve.generatorPoint.longBytes) :=
      .direct (by rw [hlong]; decide)
    rw [hshort] at hfirst
    rw [hlong] at hsecond
    exact .cons (.op (by decide)) (.cons hfirst (.cons hsecond
      (.cons (.op (by decide)) (.cons (.op (by decide)) .nil))))

end Script

end JointSpend
