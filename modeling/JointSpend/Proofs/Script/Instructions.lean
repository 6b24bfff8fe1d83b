import JointSpend.Proofs.Digits
import JointSpend.Script.Template

set_option autoImplicit false
set_option relaxedAutoImplicit false

/-!
# Instructions of scripts

What a script is read as, instruction by instruction: scripts that push byte strings, the standard
outputs, and the scripts of templates. A script that is a witness program is none of the other
forms.

## Main definitions

* `JointSpend.Script.HasForm` — the forms of scripts that have a template.

## Main results

* `JointSpend.Script.instructions?_cons` — reading the first instruction, then the others.
* `JointSpend.Script.instructions?_pushes` — the pushes of byte strings.
* `JointSpend.Script.Pattern.payload?_eq_some_iff` — scripts with a pattern.
* `JointSpend.Script.hasForm_of_template?` — the scripts that have a template.
-/

namespace JointSpend.Script

/-! ## Reading one instruction -/

/-- What is left behind a push is no longer than before. -/
private theorem length_le_of_readPush {n : Nat} {bs : Bytes} {r : Bytes × Bytes}
    (h : readPush n bs = some r) : r.2.length ≤ bs.length := by
  unfold readPush Bytes.readLittleEndian at h
  simp only [Option.bind_eq_bind, Option.bind_eq_some_iff, Option.pure_def,
    Option.some.injEq] at h
  obtain ⟨_, ⟨_, h₁, rfl⟩, h₂⟩ := h
  exact (Bytes.length_le_of_splitExact h₂).trans (Bytes.length_le_of_splitExact h₁)

/-- Every instruction takes at least one byte. -/
private theorem length_lt_of_readInstruction {bs rest : Bytes} {i : Instruction}
    (h : readInstruction bs = some (i, rest)) : rest.length < bs.length := by
  cases bs with
  | nil => simp [readInstruction] at h
  | cons b cs =>
    have hmap : ∀ {o : Option (Bytes × Bytes)}, (∀ r, o = some r → r.2.length ≤ cs.length) →
        o.map (fun r => (Instruction.push r.1, r.2)) = some (i, rest) →
          rest.length < (b :: cs).length := by
      intro o ho hsome
      obtain ⟨r, hr, heq⟩ := Option.map_eq_some_iff.mp hsome
      obtain rfl := (Prod.mk.inj heq).2
      exact Nat.lt_succ_of_le (ho r hr)
    rw [readInstruction] at h
    split at h
    · exact hmap (fun _ => Bytes.length_le_of_splitExact) h
    · split at h
      · exact hmap (fun _ => length_le_of_readPush) h
      · split at h
        · exact hmap (fun _ => length_le_of_readPush) h
        · split at h
          · exact hmap (fun _ => length_le_of_readPush) h
          · obtain rfl := (Prod.mk.inj (Option.some.inj h)).2
            exact Nat.lt_succ_self _

/-- A bound beyond the length of the script does not matter. -/
private theorem instructionsWithin_eq {bound : Nat} {bs : Bytes} (h : bs.length ≤ bound) :
    instructionsWithin bound bs = instructions? ⟨bs⟩ := by
  have hany : ∀ (m n : Nat) (cs : Bytes), cs.length ≤ m → cs.length ≤ n →
      instructionsWithin m cs = instructionsWithin n cs := by
    intro m
    induction m with
    | zero =>
      intro n cs hm _
      obtain rfl := List.length_eq_zero_iff.mp (Nat.le_zero.mp hm)
      cases n <;> rfl
    | succ m ih =>
      intro n cs hm hn
      cases cs with
      | nil => cases n <;> rfl
      | cons c cs =>
        cases n with
        | zero => simp at hn
        | succ n =>
          rw [instructionsWithin, instructionsWithin]
          cases hread : readInstruction (c :: cs) with
          | none => rfl
          | some r =>
            have hlt := length_lt_of_readInstruction hread
            have hrest := ih n r.2 (by omega) (by omega)
            simp only [Option.bind_eq_bind, Option.bind_some, hrest]
  exact hany _ _ _ h le_rfl

/-- **The first instruction** is read, then the others. -/
theorem instructions?_cons {bs rest : Bytes} {i : Instruction}
    (h : readInstruction bs = some (i, rest)) :
    instructions? ⟨bs⟩ = (instructions? ⟨rest⟩).map (i :: ·) := by
  have hlt := length_lt_of_readInstruction h
  cases bs with
  | nil => simp at hlt
  | cons b cs =>
    rw [List.length_cons] at hlt
    rw [instructions?, List.length_cons, instructionsWithin, h]
    simp only [Option.bind_eq_bind, Option.bind_some]
    rw [instructionsWithin_eq (by omega)]
    cases instructions? ⟨rest⟩ <;> rfl

/-- An operation other than a push. -/
theorem readInstruction_op {b : UInt8} (h : 0x4e < b) (rest : Bytes) :
    readInstruction (b :: rest) = some (.op b, rest) := by
  have hb : 0x4e < b.toNat := UInt8.lt_iff_toNat_lt.mp h
  rw [readInstruction, if_neg, if_neg, if_neg, if_neg]
  · rintro rfl
    simp at hb
  · rintro rfl
    simp at hb
  · rintro rfl
    simp at hb
  · rw [UInt8.le_iff_toNat_le]
    have : (0x4b : UInt8).toNat = 0x4b := rfl
    omega

/-- A push whose length is written in one byte. -/
theorem readInstruction_one (rest : Bytes) :
    readInstruction (0x4c :: rest) = (readPush 1 rest).map fun r => (.push r.1, r.2) := by
  rw [readInstruction, if_neg (by decide), if_pos rfl]

/-- A push whose length is written in two bytes. -/
theorem readInstruction_two (rest : Bytes) :
    readInstruction (0x4d :: rest) = (readPush 2 rest).map fun r => (.push r.1, r.2) := by
  rw [readInstruction, if_neg (by decide), if_neg (by decide), if_pos rfl]

/-- A push whose length is written in four bytes. -/
theorem readInstruction_four (rest : Bytes) :
    readInstruction (0x4e :: rest) = (readPush 4 rest).map fun r => (.push r.1, r.2) := by
  rw [readInstruction, if_neg (by decide), if_neg (by decide), if_neg (by decide), if_pos rfl]

/-- The push of a byte string that can be pushed. -/
theorem readInstruction_pushBytes {data : Bytes} (h : data.length < 0x100000000) (rest : Bytes) :
    readInstruction (pushBytes data ++ rest) = some (.push data, rest) := by
  have hwide : ∀ n, data.length < 256 ^ n →
      readPush n (Bytes.littleEndian n data.length ++ (data ++ rest)) = some (data, rest) := by
    intro n hn
    unfold readPush Bytes.readLittleEndian
    simp only [Option.bind_eq_bind, Option.pure_def,
      Bytes.splitExact_append (Bytes.length_littleEndian n _), Option.bind_some,
      Bytes.ofLittleEndian_littleEndian hn, Bytes.splitExact_append rfl]
  unfold pushBytes
  dsimp only
  split
  · next hlt =>
    have hn : (UInt8.ofNat data.length).toNat = data.length := by
      rw [UInt8.toNat_ofNat']
      omega
    rw [List.cons_append, readInstruction, if_pos, hn, Bytes.splitExact_append rfl]
    · rfl
    · rw [UInt8.le_iff_toNat_le, hn]
      exact Nat.le_of_lt_succ hlt
  · split
    · next hlt =>
      have hlittle : [UInt8.ofNat data.length] = Bytes.littleEndian 1 data.length := by
        rw [Bytes.littleEndian, Nat.mod_eq_of_lt hlt]
        rfl
      have hpush := hwide 1 hlt
      rw [← hlittle] at hpush
      rw [List.cons_append, readInstruction_one, List.cons_append, ← List.singleton_append, hpush]
      rfl
    · split
      · next hlt =>
        rw [List.cons_append, List.cons_append, readInstruction_two, List.append_assoc,
          hwide 2 hlt]
        rfl
      · rw [List.cons_append, List.cons_append, readInstruction_four, List.append_assoc, hwide 4 h]
        rfl

/-- **The pushes of byte strings** are read as pushes. -/
theorem instructions?_pushes {items : List Bytes} (h : ∀ item ∈ items, item.length < 0x100000000) :
    instructions? ⟨items.flatMap pushBytes⟩ = some (items.map .push) := by
  induction items with
  | nil => rfl
  | cons item items ih =>
    obtain ⟨hitem, hitems⟩ := List.forall_mem_cons.mp h
    rw [List.flatMap_cons, instructions?_cons (readInstruction_pushBytes hitem _), ih hitems]
    rfl

/-- A script that pushes byte strings. -/
theorem pushAll?_eq_some_iff {items : List Bytes} {s : Script} :
    pushAll? items = some s ↔
      (∀ item ∈ items, item.length < 0x100000000) ∧ s = ⟨items.flatMap pushBytes⟩ := by
  unfold pushAll?
  split
  · next h =>
    rw [List.all_eq_true] at h
    simp only [Option.some.injEq]
    constructor
    · rintro rfl
      exact ⟨fun item hitem => by simpa using h item hitem, rfl⟩
    · rintro ⟨-, rfl⟩
      rfl
  · next h =>
    simp only [reduceCtorEq, false_iff, not_and]
    intro hall
    exact absurd (List.all_eq_true.mpr fun item hitem => by simpa using hall item hitem) h

/-! ## Standard outputs -/

namespace Pattern

/-- **The payload of a pattern**: a script has it exactly when it is written with it. -/
theorem payload?_eq_some_iff {p : Pattern} {s : Script} {payload : Fixed p.size} :
    p.payload? s = some payload ↔ s = p.script payload := by
  constructor
  · intro h
    unfold payload? at h
    split at h
    · split at h
      · next hbytes =>
        obtain rfl := Option.some.inj h
        exact congrArg Script.mk hbytes
      · simp at h
    · simp at h
  · rintro rfl
    have hmiddle :
        ((p.script payload).bytes.drop p.front.length).take p.size = payload.bytes := by
      rw [script, List.append_assoc, List.drop_left, List.take_left' payload.length_eq]
    rw [payload?, hmiddle, Fixed.ofBytes?_bytes]
    exact if_pos rfl

@[simp]
theorem payload?_script (p : Pattern) (payload : Fixed p.size) :
    p.payload? (p.script payload) = some payload :=
  payload?_eq_some_iff.mpr rfl

theorem payload?_eq_none_iff {p : Pattern} {s : Script} :
    p.payload? s = none ↔ s.matchesPattern p = false := by
  rw [matchesPattern, Option.isSome_eq_false_iff, Option.isNone_iff_eq_none]

end Pattern

/-- A script has a pattern exactly when it is written with some payload. -/
theorem matchesPattern_iff {p : Pattern} {s : Script} :
    s.matchesPattern p = true ↔ ∃ payload, s = p.script payload := by
  rw [matchesPattern, Option.isSome_iff_exists]
  simp only [Pattern.payload?_eq_some_iff]

@[simp]
theorem instructions?_p2pkh (hash : Fixed 20) :
    (p2pkh.script hash).instructions? =
      some [.op 0x76, .op 0xa9, .push hash.bytes, .op 0x88, .op 0xac] := by
  have hpush : readInstruction (0x14 :: (hash.bytes ++ [0x88, 0xac])) =
      some (.push hash.bytes, [0x88, 0xac]) := by
    rw [readInstruction, if_pos (by decide)]
    change (Bytes.splitExact 20 _).map _ = _
    rw [Bytes.splitExact_append hash.length_eq]
    rfl
  have hbytes : p2pkh.script hash = ⟨0x76 :: 0xa9 :: 0x14 :: (hash.bytes ++ [0x88, 0xac])⟩ := rfl
  rw [hbytes, instructions?_cons (readInstruction_op (by decide) _),
    instructions?_cons (readInstruction_op (by decide) _), instructions?_cons hpush]
  rfl

@[simp]
theorem instructions?_p2sh (hash : Fixed 20) :
    (p2sh.script hash).instructions? = some [.op 0xa9, .push hash.bytes, .op 0x87] := by
  have hpush : readInstruction (0x14 :: (hash.bytes ++ [0x87])) =
      some (.push hash.bytes, [0x87]) := by
    rw [readInstruction, if_pos (by decide)]
    change (Bytes.splitExact 20 _).map _ = _
    rw [Bytes.splitExact_append hash.length_eq]
    rfl
  have hbytes : p2sh.script hash = ⟨0xa9 :: 0x14 :: (hash.bytes ++ [0x87])⟩ := rfl
  rw [hbytes, instructions?_cons (readInstruction_op (by decide) _), instructions?_cons hpush]
  rfl

@[simp]
theorem instructions?_p2wpkh (hash : Fixed 20) :
    (p2wpkh.script hash).instructions? = some [.push [], .push hash.bytes] := by
  have hpush : readInstruction (0x14 :: hash.bytes) = some (.push hash.bytes, []) := by
    have hsplit := Bytes.splitExact_append hash.length_eq []
    rw [List.append_nil] at hsplit
    rw [readInstruction, if_pos (by decide)]
    change (Bytes.splitExact 20 _).map _ = _
    rw [hsplit]
    rfl
  have hempty : readInstruction (0 :: 0x14 :: hash.bytes) =
      some (.push [], 0x14 :: hash.bytes) := rfl
  have hbytes : p2wpkh.script hash = ⟨0 :: 0x14 :: hash.bytes⟩ := by
    simp [p2wpkh, Pattern.script]
  rw [hbytes, instructions?_cons hempty, instructions?_cons hpush]
  rfl

/-! ## Witness programs -/

/-- A version number followed by a direct push. -/
private theorem witnessProgram?_eq_some {s : Script} {version : Nat} {program : Bytes}
    (h : s.witnessProgram? = some (version, program)) :
    ∃ v size : UInt8, s.bytes = v :: size :: program ∧ (v = 0 ∨ 0x51 ≤ v ∧ v ≤ 0x60) ∧
      size.toNat ≤ 40 ∧ program.length = size.toNat := by
  unfold witnessProgram? at h
  split at h
  · next v size rest hbytes =>
    split at h
    · next hcond =>
      obtain ⟨hv, -, hsize, hlen⟩ := hcond
      obtain rfl := (Prod.mk.inj (Option.some.inj h)).2
      exact ⟨v, size, hbytes, hv, hsize, hlen⟩
    · simp at h
  · simp at h

/-- The instructions of a witness program. -/
private theorem instructions?_of_witnessProgram {s : Script} {version : Nat} {program : Bytes}
    (h : s.witnessProgram? = some (version, program)) :
    ∃ i, s.instructions? = some [i, .push program] := by
  obtain ⟨v, size, hbytes, hv, hsize, hlen⟩ := witnessProgram?_eq_some h
  have hpush : readInstruction (size :: program) = some (.push program, []) := by
    have hle : size ≤ 0x4b := by
      rw [UInt8.le_iff_toNat_le]
      exact hsize.trans (by decide)
    have hsplit := Bytes.splitExact_append hlen []
    rw [List.append_nil] at hsplit
    rw [readInstruction, if_pos hle, hsplit]
    rfl
  obtain ⟨i, hi⟩ : ∃ i, readInstruction (v :: size :: program) = some (i, size :: program) := by
    rcases hv with rfl | ⟨hv, -⟩
    · exact ⟨.push [], rfl⟩
    · refine ⟨.op v, readInstruction_op ?_ _⟩
      rw [UInt8.lt_iff_toNat_lt]
      rw [UInt8.le_iff_toNat_le] at hv
      exact Nat.lt_of_lt_of_le (by decide) hv
  have hs : s = ⟨v :: size :: program⟩ := by
    rw [← hbytes]
  refine ⟨i, ?_⟩
  rw [hs, instructions?_cons hi, instructions?_cons hpush]
  rfl

@[simp]
theorem witnessProgram?_p2wpkh (hash : Fixed 20) :
    (p2wpkh.script hash).witnessProgram? = some (0, hash.bytes) := by
  simp [witnessProgram?, p2wpkh, Pattern.script, hash.length_eq]

@[simp]
theorem witnessProgram?_p2wsh (hash : Fixed 32) :
    (p2wsh.script hash).witnessProgram? = some (0, hash.bytes) := by
  simp [witnessProgram?, p2wsh, Pattern.script, hash.length_eq]

@[simp]
theorem witnessProgram?_p2tr (key : Fixed 32) :
    (p2tr.script key).witnessProgram? = some (1, key.bytes) := by
  simp [witnessProgram?, p2tr, Pattern.script, key.length_eq]

@[simp]
theorem witnessProgram?_p2sh (hash : Fixed 20) : (p2sh.script hash).witnessProgram? = none := by
  simp [witnessProgram?, p2sh, Pattern.script]

/-- Scripts with one pattern do not have another one. -/
theorem p2wpkh_script_ne_p2pkh (a b : Fixed 20) : p2wpkh.script a ≠ p2pkh.script b := by
  intro h
  simp [p2wpkh, p2pkh, Pattern.script] at h

/-! ## Scripts with templates -/

/-- The forms of the scripts that have a template, taproot apart. -/
inductive HasForm (s : Script) : Template → Prop
  /-- Pays to a key hash. -/
  | keyHash {hash : Fixed 20} (h : s = p2pkh.script hash) : HasForm s (.pubkeyHash hash)
  /-- Pays to a key hash, spent in the witness. -/
  | witnessKeyHash {hash : Fixed 20} (h : s = p2wpkh.script hash) : HasForm s (.pubkeyHash hash)
  /-- Checks a signature of a key. -/
  | pubkey {data : Bytes} {key : PublicKey}
      (h : s.instructions? = some [.push data, .op checkSig])
      (hkey : PublicKey.ofBytes? data = some key) : HasForm s (.pubkey key)
  /-- Checks signatures of a threshold of keys. -/
  | multisig {threshold : Nat} {pushes : List Bytes} {keys : List PublicKey}
      (hpos : 0 < threshold) (hle : threshold ≤ keys.length) (hmax : keys.length ≤ 16)
      (h : s.instructions? = some (.op (UInt8.ofNat (0x50 + threshold)) :: pushes.map .push ++
        [.op (UInt8.ofNat (0x50 + keys.length)), .op checkMultisig]))
      (hkeys : List.Forall₂ (fun data key => PublicKey.ofBytes? data = some key) pushes keys) :
      HasForm s (.multisig threshold keys)

/-- The instruction that pushes a small number. -/
private theorem smallNumber?_eq_some {i : Instruction} {n : Nat} (h : smallNumber? i = some n) :
    0 < n ∧ n ≤ 16 ∧ i = .op (UInt8.ofNat (0x50 + n)) := by
  cases i with
  | push data => simp [smallNumber?] at h
  | op code =>
    rw [smallNumber?] at h
    split at h
    · next hrange =>
      obtain rfl := Option.some.inj h
      rw [UInt8.le_iff_toNat_le, UInt8.le_iff_toNat_le] at hrange
      have hlow : 0x51 ≤ code.toNat := hrange.1
      have hhigh : code.toNat ≤ 0x60 := hrange.2
      refine ⟨by omega, by omega, ?_⟩
      have hsum : 0x50 + (code.toNat - 0x50) = code.toNat := by omega
      rw [hsum, UInt8.ofNat_toNat]
    · simp at h

/-- Instructions that all push keys. -/
private theorem mapM_pushedKey?_eq_some {is : List Instruction} {keys : List PublicKey}
    (h : is.mapM pushedKey? = some keys) :
    ∃ pushes, is = pushes.map .push ∧
      List.Forall₂ (fun data key => PublicKey.ofBytes? data = some key) pushes keys := by
  induction is generalizing keys with
  | nil =>
    obtain rfl : [] = keys := by simpa using h
    exact ⟨[], rfl, .nil⟩
  | cons i is ih =>
    simp only [List.mapM_cons, Option.bind_eq_bind, Option.bind_eq_some_iff, Option.pure_def,
      Option.some.injEq] at h
    obtain ⟨key, hkey, rest, hrest, rfl⟩ := h
    obtain ⟨pushes, rfl, hall⟩ := ih hrest
    cases i with
    | op code => simp [pushedKey?] at hkey
    | push data => exact ⟨data :: pushes, rfl, .cons hkey hall⟩

/-- The script of a single key. -/
theorem pubkey?_eq_some {is : List Instruction} {t : Template} (h : pubkey? is = some t) :
    ∃ data key, is = [.push data, .op checkSig] ∧ PublicKey.ofBytes? data = some key ∧
      t = .pubkey key := by
  unfold pubkey? at h
  split at h
  · next i code =>
    split at h
    · next hcode =>
      subst hcode
      obtain ⟨key, hkey, rfl⟩ := Option.map_eq_some_iff.mp h
      cases i with
      | op code => simp [pushedKey?] at hkey
      | push data => exact ⟨data, key, rfl, hkey, rfl⟩
    · simp at h
  · simp at h

/-- The script of a threshold of keys. -/
private theorem multisig?_eq_some {s : Script} {is : List Instruction} {t : Template}
    (hs : s.instructions? = some is) (h : multisig? is = some t) : s.HasForm t := by
  unfold multisig? at h
  split at h
  · next code count rest hreverse =>
    split at h
    · next hcode =>
      subst hcode
      simp only [Option.bind_eq_bind, Option.bind_eq_some_iff] at h
      obtain ⟨total, htotal, h⟩ := h
      split at h
      · simp at h
      · next first pushes hrest =>
        simp only [Option.bind_eq_some_iff] at h
        obtain ⟨threshold, hthreshold, keys, hkeys, h⟩ := h
        split at h
        · next hcond =>
          obtain ⟨rfl, hle⟩ := hcond
          obtain rfl := Option.some.inj h
          obtain ⟨-, hmax, rfl⟩ := smallNumber?_eq_some htotal
          obtain ⟨hpos, -, rfl⟩ := smallNumber?_eq_some hthreshold
          obtain ⟨datas, rfl, hall⟩ := mapM_pushedKey?_eq_some hkeys
          refine .multisig hpos hle hmax ?_ hall
          have his := congrArg List.reverse hreverse
          rw [List.reverse_reverse, List.reverse_cons, List.reverse_cons, hrest] at his
          rw [hs, his]
          simp
        · simp at h
    · simp at h
  · simp at h

/-- **The scripts that have a template.** -/
theorem hasForm_of_template? {s : Script} {t : Template} (h : s.template? = some t) :
    s.HasForm t := by
  unfold template? at h
  split at h
  · next hash hpayload =>
    obtain rfl := Option.some.inj h
    exact .keyHash (Pattern.payload?_eq_some_iff.mp hpayload)
  · split at h
    · next hash hpayload =>
      obtain rfl := Option.some.inj h
      exact .witnessKeyHash (Pattern.payload?_eq_some_iff.mp hpayload)
    · simp only [Option.bind_eq_bind, Option.bind_eq_some_iff] at h
      obtain ⟨is, his, h⟩ := h
      rcases Option.or_eq_some_iff.mp h with h | ⟨-, h⟩
      · obtain ⟨data, key, rfl, hkey, rfl⟩ := pubkey?_eq_some h
        exact .pubkey his hkey
      · exact multisig?_eq_some his h

/-- **Scripts of the first generation are no witness programs.** -/
theorem HasForm.witnessProgram?_eq_none {s : Script} {t : Template} (h : s.HasForm t)
    (hno : s.matchesPattern p2wpkh = false) : s.witnessProgram? = none := by
  cases hw : s.witnessProgram? with
  | none => rfl
  | some r =>
    obtain ⟨version, program⟩ := r
    obtain ⟨i, hi⟩ := instructions?_of_witnessProgram hw
    cases h with
    | keyHash hs => simp [hs] at hi
    | witnessKeyHash hs =>
      rw [matchesPattern_iff.mpr ⟨_, hs⟩] at hno
      simp at hno
    | pubkey hs _ => simp [hs] at hi
    | multisig _ _ _ hs _ =>
      rw [hs, Option.some.injEq] at hi
      have hlast := congrArg List.getLast? hi
      rw [List.getLast?_append] at hlast
      simp at hlast

end JointSpend.Script
