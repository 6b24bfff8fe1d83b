import JointSpend.Proofs.Steps
import JointSpend.Text.Base64
import JointSpend.Text.Blank

set_option autoImplicit false
set_option relaxedAutoImplicit false

/-!
# Base64 text is read as it is written

A spelling consists of full groups of four values and of a last group, which may be filled up with
padding. These groups are what writing and reading have in common: every byte string comes from
some, its spelling is theirs, and so is what is read of the spelling.

## Main definitions

* `JointSpend.Text.Base64.Groups` — full groups and a last one, with its padding.

## Main results

* `JointSpend.Text.Base64.value?_eq_some_iff` — the symbols of the alphabet.
* `JointSpend.Text.Base64.values_eq_ok_iff`, `JointSpend.Text.Base64.scanTail_of_symbols` — what is
  read as values.
* `JointSpend.Text.Base64.decode_encodeBytes` — a spelling is read back.
* `JointSpend.Text.Base64.isPlain_of_mem_encodeBytes` — what a spelling is made of.
-/

namespace JointSpend.Text.Base64

/-! ## Symbols -/

/-- Every symbol has its value. -/
private theorem value?_symbol : ∀ v < 64, value? (symbol v) = some v := by
  decide

/-- **The symbols of the alphabet** are those of the values below 64. -/
theorem value?_eq_some_iff {b : UInt8} {v : Nat} :
    value? b = some v ↔ v < 64 ∧ b = symbol v := by
  constructor
  · have hall : ∀ n < 256, ∀ v ∈ value? (UInt8.ofNat n), v < 64 ∧ UInt8.ofNat n = symbol v := by
      decide +kernel
    intro h
    rw [← UInt8.ofNat_toNat (x := b)] at h ⊢
    exact hall b.toNat b.toNat_lt v h
  · rintro ⟨hv, rfl⟩
    exact value?_symbol v hv

/-- A byte that may stand in a spelling: it is ASCII and not blank. -/
def IsPlain (b : UInt8) : Prop :=
  b.toNat < 128 ∧ isAsciiBlank b = false

/-- Symbols are plain. -/
private theorem isPlain_symbol : ∀ v < 64, IsPlain (symbol v) := by
  unfold IsPlain
  decide

/-- Padding is plain. -/
private theorem isPlain_pad : IsPlain pad := by
  unfold IsPlain
  decide

/-- Padding is not in the alphabet. -/
private theorem symbol_ne_pad : ∀ v < 64, symbol v ≠ pad := by
  decide

/-! ## Reading values -/

/-- **Values are read** from their symbols. -/
theorem values_eq_ok_iff {offset : Nat} {bs : Bytes} {vs : List Nat} :
    values offset bs = .ok vs ↔ (∀ v ∈ vs, v < 64) ∧ bs = vs.map symbol := by
  induction bs generalizing offset vs with
  | nil =>
    rw [values, Except.ok.injEq]
    constructor
    · rintro rfl
      simp
    · rintro ⟨-, h⟩
      exact (List.map_eq_nil_iff.mp h.symm).symm
  | cons b bs ih =>
    rw [values]
    cases hb : value? b with
    | none =>
      simp only [reduceCtorEq, false_iff]
      rintro ⟨hvs, h⟩
      cases vs with
      | nil => simp at h
      | cons v vs =>
        obtain ⟨rfl, -⟩ := List.cons.inj h
        simp [value?_symbol v (hvs v List.mem_cons_self)] at hb
    | some v =>
      obtain ⟨hv, rfl⟩ := value?_eq_some_iff.mp hb
      simp only [Steps.bind_eq_ok_iff, Steps.pure_eq_ok_iff, ih]
      constructor
      · rintro ⟨rest, ⟨hrest, rfl⟩, rfl⟩
        exact ⟨List.forall_mem_cons.mpr ⟨hv, hrest⟩, rfl⟩
      · rintro ⟨hvs, h⟩
        cases vs with
        | nil => simp at h
        | cons w vs =>
          obtain ⟨hsymbol, rfl⟩ := List.cons.inj h
          obtain ⟨hw, hvs⟩ := List.forall_mem_cons.mp hvs
          have hsame := value?_symbol w hw
          rw [← hsymbol, hb, Option.some.injEq] at hsame
          exact ⟨vs, ⟨hvs, rfl⟩, by rw [hsame]⟩

/-- The values of a last group are read from their symbols, and what follows is padding. -/
theorem scanTail_of_symbols {start pads : Nat} {vs acc : List Nat} (hvs : ∀ v ∈ vs, v < 64)
    (hpads : 2 ≤ acc.length + vs.length) :
    scanTail start (vs.map symbol ++ List.replicate pads pad) acc =
      .ok (acc.reverse ++ vs, pads) := by
  induction vs generalizing acc with
  | nil =>
    cases pads with
    | zero => simp [scanTail]
    | succ pads =>
      have hlong : ¬ acc.length < 2 := by
        rw [List.length_nil] at hpads
        omega
      simp [List.replicate_succ, scanTail, hlong]
  | cons v vs ih =>
    obtain ⟨hv, hvs⟩ := List.forall_mem_cons.mp hvs
    rw [List.map_cons, List.cons_append, scanTail, if_neg (symbol_ne_pad v hv)]
    simp only [value?_symbol v hv]
    rw [ih hvs (by simp only [List.length_cons] at hpads ⊢; omega)]
    simp

/-! ## Groups -/

/-- Full groups of values, and a last group with its padding, in which no bits are left over. -/
structure Groups (front last : List Nat) (pads : Nat) : Prop where
  front_lt : ∀ v ∈ front, v < 64
  last_lt : ∀ v ∈ last, v < 64
  length_front : front.length % 4 = 0
  length_last : last.length + pads = 4
  two_le : 2 ≤ last.length
  unused : (joinTail last).2 = 0

/-- The spelling of groups. -/
def groupsText (front last : List Nat) (pads : Nat) : Bytes :=
  front.map symbol ++ (last.map symbol ++ List.replicate pads pad)

/-- The bytes of groups. -/
def groupsBytes (front last : List Nat) : Bytes :=
  joinGroups front ++ (joinTail last).1

namespace Groups

variable {front last : List Nat} {pads : Nat}

/-- One more full group. -/
theorem cons (h : Groups front last pads) {a b c d : Nat} (ha : a < 64) (hb : b < 64) (hc : c < 64)
    (hd : d < 64) : Groups (a :: b :: c :: d :: front) last pads :=
  { h with
    front_lt := by simpa [ha, hb, hc, hd] using h.front_lt
    length_front := by
      have := h.length_front
      simp only [List.length_cons]
      omega }

/-- **Groups are read** as their bytes. -/
theorem decode_eq (h : Groups front last pads) :
    decode (groupsText front last pads) = .ok (groupsBytes front last) := by
  have hlast := h.length_last
  have hfour := h.length_front
  have htwo := h.two_le
  have hlength : (groupsText front last pads).length = front.length + 4 := by
    simp only [groupsText, List.length_append, List.length_map, List.length_replicate]
    omega
  have hfull : (groupsText front last pads).length % 4 = 0 := by omega
  have hstart : (groupsText front last pads).length - 4 = (front.map symbol).length := by
    rw [hlength, List.length_map, Nat.add_sub_cancel]
  have hne : groupsText front last pads ≠ [] := by
    intro hnil
    simp [hnil] at hlength
  have hfront : values 0 ((groupsText front last pads).take (front.map symbol).length) =
      .ok front := by
    rw [groupsText, List.take_left]
    exact values_eq_ok_iff.mpr ⟨h.front_lt, rfl⟩
  have htail : scanTail (front.map symbol).length
      ((groupsText front last pads).drop (front.map symbol).length) [] = .ok (last, pads) := by
    rw [groupsText, List.drop_left]
    exact scanTail_of_symbols h.last_lt (by simpa using htwo)
  unfold decode
  simp only [hfull, if_true, hstart, hfront, htail]
  refine Steps.bind_eq_ok_iff.mpr ⟨front, rfl, Steps.bind_eq_ok_iff.mpr ⟨(last, pads), rfl, ?_⟩⟩
  have hmany : ¬ last.length < 2 := by omega
  have hcomplete : ¬ (last.length + pads) % 4 ≠ 0 := by omega
  simp only [if_neg hne, if_neg hmany, if_neg hcomplete, if_neg (not_not.mpr h.unused)]
  rfl

/-- A full group is written as its four symbols. -/
theorem encodeBytes_group {a b c d : Nat} (ha : a < 64) (hb : b < 64) (hc : c < 64) (hd : d < 64)
    (rest : Bytes) :
    encodeBytes (UInt8.ofNat (a * 4 + b / 16) :: UInt8.ofNat (b % 16 * 16 + c / 4) ::
      UInt8.ofNat (c % 4 * 64 + d) :: rest) =
        symbol a :: symbol b :: symbol c :: symbol d :: encodeBytes rest := by
  have hx : (UInt8.ofNat (a * 4 + b / 16)).toNat = a * 4 + b / 16 :=
    UInt8.toNat_ofNat_of_lt' (show _ < 256 by omega)
  have hy : (UInt8.ofNat (b % 16 * 16 + c / 4)).toNat = b % 16 * 16 + c / 4 :=
    UInt8.toNat_ofNat_of_lt' (show _ < 256 by omega)
  have hz : (UInt8.ofNat (c % 4 * 64 + d)).toNat = c % 4 * 64 + d :=
    UInt8.toNat_ofNat_of_lt' (show _ < 256 by omega)
  rw [encodeBytes, hx, hy, hz]
  have h1 : (a * 4 + b / 16) / 4 = a := by omega
  have h2 : (a * 4 + b / 16) % 4 * 16 + (b % 16 * 16 + c / 4) / 16 = b := by omega
  have h3 : (b % 16 * 16 + c / 4) % 16 * 4 + (c % 4 * 64 + d) / 64 = c := by omega
  have h4 : (c % 4 * 64 + d) % 64 = d := by omega
  rw [h1, h2, h3, h4]

/-- A last group is written as its symbols and padding. -/
theorem encodeBytes_last (hlast : ∀ v ∈ last, v < 64) (hcount : last.length + pads = 4)
    (htwo : 2 ≤ last.length) (hunused : (joinTail last).2 = 0) :
    encodeBytes (joinTail last).1 = last.map symbol ++ List.replicate pads pad := by
  match last with
  | [] | [_] => simp at htwo
  | [a, b] =>
    obtain rfl : pads = 2 := by simp only [List.length_cons, List.length_nil] at hcount; omega
    simp only [List.forall_mem_cons] at hlast
    obtain ⟨ha, hb, -⟩ := hlast
    have hunused : b % 16 = 0 := hunused
    have hx : (UInt8.ofNat (a * 4 + b / 16)).toNat = a * 4 + b / 16 :=
      UInt8.toNat_ofNat_of_lt' (show _ < 256 by omega)
    have h1 : (a * 4 + b / 16) / 4 = a := by omega
    have h2 : (a * 4 + b / 16) % 4 * 16 = b := by omega
    rw [joinTail, encodeBytes, hx, h1, h2]
    rfl
  | [a, b, c] =>
    obtain rfl : pads = 1 := by simp only [List.length_cons, List.length_nil] at hcount; omega
    simp only [List.forall_mem_cons] at hlast
    obtain ⟨ha, hb, hc, -⟩ := hlast
    have hunused : c % 4 = 0 := hunused
    have hx : (UInt8.ofNat (a * 4 + b / 16)).toNat = a * 4 + b / 16 :=
      UInt8.toNat_ofNat_of_lt' (show _ < 256 by omega)
    have hy : (UInt8.ofNat (b % 16 * 16 + c / 4)).toNat = b % 16 * 16 + c / 4 :=
      UInt8.toNat_ofNat_of_lt' (show _ < 256 by omega)
    have h1 : (a * 4 + b / 16) / 4 = a := by omega
    have h2 : (a * 4 + b / 16) % 4 * 16 + (b % 16 * 16 + c / 4) / 16 = b := by omega
    have h3 : (b % 16 * 16 + c / 4) % 16 * 4 = c := by omega
    rw [joinTail, encodeBytes, hx, hy, h1, h2, h3]
    rfl
  | [a, b, c, d] =>
    obtain rfl : pads = 0 := by simpa using hcount
    simp only [List.forall_mem_cons] at hlast
    obtain ⟨ha, hb, hc, hd, -⟩ := hlast
    exact encodeBytes_group ha hb hc hd []
  | _ :: _ :: _ :: _ :: _ :: _ =>
    simp only [List.length_cons] at hcount
    omega

/-- **Groups are written** as their spelling. -/
theorem encodeBytes_eq (h : Groups front last pads) :
    encodeBytes (groupsBytes front last) = groupsText front last pads := by
  obtain ⟨hfront, hlast, hfour, hcount, htwo, hunused⟩ := h
  induction front using joinGroups.induct with
  | case1 a b c d front ih =>
    simp only [List.forall_mem_cons] at hfront
    obtain ⟨ha, hb, hc, hd, hfront⟩ := hfront
    have hrest := ih hfront (by simp only [List.length_cons] at hfour; omega)
    rw [groupsBytes, joinGroups, List.cons_append, List.cons_append, List.cons_append,
      encodeBytes_group ha hb hc hd, ← groupsBytes, hrest]
    rfl
  | case2 front hshort =>
    obtain rfl : front = [] := by
      match front with
      | [] => rfl
      | [_] | [_, _] | [_, _, _] => simp at hfour
      | a :: b :: c :: d :: rest => exact absurd rfl (hshort a b c d rest)
    exact encodeBytes_last hlast hcount htwo hunused

/-- Three bytes are a full group. -/
theorem joinGroups_of_bytes (a b c : UInt8) (rest : List Nat) :
    joinGroups (a.toNat / 4 :: (a.toNat % 4 * 16 + b.toNat / 16) ::
      (b.toNat % 16 * 4 + c.toNat / 64) :: c.toNat % 64 :: rest) =
        a :: b :: c :: joinGroups rest := by
  have ha := a.toNat_lt
  have hb := b.toNat_lt
  have hc := c.toNat_lt
  have h1 : a.toNat / 4 * 4 + (a.toNat % 4 * 16 + b.toNat / 16) / 16 = a.toNat := by omega
  have h2 : (a.toNat % 4 * 16 + b.toNat / 16) % 16 * 16 + (b.toNat % 16 * 4 + c.toNat / 64) / 4 =
      b.toNat := by omega
  have h3 : (b.toNat % 16 * 4 + c.toNat / 64) % 4 * 64 + c.toNat % 64 = c.toNat := by omega
  rw [joinGroups, h1, h2, h3, UInt8.ofNat_toNat, UInt8.ofNat_toNat, UInt8.ofNat_toNat]

/-- **Every byte string comes from groups**, unless it is empty. -/
theorem exists_of_ne_nil {bs : Bytes} (h : bs ≠ []) :
    ∃ front last pads, Groups front last pads ∧ groupsBytes front last = bs := by
  induction bs using encodeBytes.induct with
  | case1 => exact absurd rfl h
  | case2 a =>
    have ha := a.toNat_lt
    have hunused : a.toNat % 4 * 16 % 16 = 0 := by omega
    have hbyte : a.toNat / 4 * 4 + a.toNat % 4 * 16 / 16 = a.toNat := by omega
    refine ⟨[], [a.toNat / 4, a.toNat % 4 * 16], 2,
      ⟨by simp, ?_, rfl, rfl, Nat.le_refl 2, hunused⟩, ?_⟩
    · simp only [List.forall_mem_cons]
      exact ⟨by omega, by omega, by simp⟩
    · rw [groupsBytes, joinTail, hbyte, UInt8.ofNat_toNat]
      rfl
  | case3 a b =>
    have ha := a.toNat_lt
    have hb := b.toNat_lt
    have hunused : b.toNat % 16 * 4 % 4 = 0 := by omega
    have h1 : a.toNat / 4 * 4 + (a.toNat % 4 * 16 + b.toNat / 16) / 16 = a.toNat := by omega
    have h2 : (a.toNat % 4 * 16 + b.toNat / 16) % 16 * 16 + b.toNat % 16 * 4 / 4 = b.toNat := by
      omega
    refine ⟨[], [a.toNat / 4, a.toNat % 4 * 16 + b.toNat / 16, b.toNat % 16 * 4], 1,
      ⟨by simp, ?_, rfl, rfl, by simp, hunused⟩, ?_⟩
    · simp only [List.forall_mem_cons]
      exact ⟨by omega, by omega, by omega, by simp⟩
    · rw [groupsBytes, joinTail, h1, h2, UInt8.ofNat_toNat, UInt8.ofNat_toNat]
      rfl
  | case4 a b c rest ih =>
    have ha := a.toNat_lt
    have hb := b.toNat_lt
    have hc := c.toNat_lt
    have hfirst : a.toNat / 4 < 64 := by omega
    have hsecond : a.toNat % 4 * 16 + b.toNat / 16 < 64 := by omega
    have hthird : b.toNat % 16 * 4 + c.toNat / 64 < 64 := by omega
    have hfourth : c.toNat % 64 < 64 := by omega
    have hgroup := joinGroups_of_bytes a b c
    cases rest with
    | nil =>
      refine ⟨[], [a.toNat / 4, a.toNat % 4 * 16 + b.toNat / 16, b.toNat % 16 * 4 + c.toNat / 64,
        c.toNat % 64], 0, ⟨by simp, ?_, rfl, rfl, by simp, rfl⟩, hgroup []⟩
      simp only [List.forall_mem_cons]
      exact ⟨hfirst, hsecond, hthird, hfourth, by simp⟩
    | cons d rest =>
      obtain ⟨front, last, pads, hgroups, hbytes⟩ := ih (List.cons_ne_nil d rest)
      refine ⟨_, last, pads, hgroups.cons hfirst hsecond hthird hfourth, ?_⟩
      rw [groupsBytes, hgroup, List.cons_append, List.cons_append, List.cons_append, ← groupsBytes,
        hbytes]

end Groups

/-! ## Spellings -/

/-- **A spelling is read back.** -/
theorem decode_encodeBytes (bs : Bytes) : decode (encodeBytes bs) = .ok bs := by
  by_cases hbs : bs = []
  · rw [hbs]
    rfl
  · obtain ⟨front, last, pads, hgroups, rfl⟩ := Groups.exists_of_ne_nil hbs
    rw [hgroups.encodeBytes_eq, hgroups.decode_eq]

/-- A spelling is no shorter than what it spells. -/
theorem length_le_length_encodeBytes (bs : Bytes) : bs.length ≤ (encodeBytes bs).length := by
  induction bs using encodeBytes.induct with
  | case1 => exact Nat.le_refl 0
  | case2 a => simp [encodeBytes]
  | case3 a b => simp [encodeBytes]
  | case4 a b c rest ih =>
    simp only [encodeBytes, List.length_cons]
    omega

/-- Spellings are made of ASCII bytes that are not blank. -/
theorem isPlain_of_mem_encodeBytes {bs : Bytes} {b : UInt8} (h : b ∈ encodeBytes bs) :
    IsPlain b := by
  by_cases hbs : bs = []
  · simp [hbs, encodeBytes] at h
  · obtain ⟨front, last, pads, hgroups, rfl⟩ := Groups.exists_of_ne_nil hbs
    rw [hgroups.encodeBytes_eq, groupsText, List.mem_append, List.mem_append] at h
    rcases h with h | h | h
    · obtain ⟨v, hv, rfl⟩ := List.mem_map.mp h
      exact isPlain_symbol v (hgroups.front_lt v hv)
    · obtain ⟨v, hv, rfl⟩ := List.mem_map.mp h
      exact isPlain_symbol v (hgroups.last_lt v hv)
    · rw [List.eq_of_mem_replicate h]
      exact isPlain_pad

end JointSpend.Text.Base64
