import JointSpend.Proofs.Text.Base64
import Mathlib.Algebra.Group.Nat.Defs

set_option autoImplicit false
set_option relaxedAutoImplicit false

/-!
# Which texts are base64

A text is read exactly when it is the spelling of some bytes, and then as these bytes. So every byte
string has one spelling. Which texts are spellings can be told without reading them: there are
symbols of the alphabet, then at most two padding symbols, which complete the last group of four;
each padding symbol leaves two bits of the last symbol over, and these are zero.

## Main definitions

* `JointSpend.Text.Base64.WellSpelled` — the rules of the format.

## Main results

* `JointSpend.Text.Base64.Groups.exists_of_decode` — what is read consists of groups.
* `JointSpend.Text.Base64.decode_eq_ok_iff` — a text is read exactly when it is a spelling.
* `JointSpend.Text.Base64.wellSpelled_iff` — the spellings are the texts that keep the rules.
-/

namespace JointSpend.Text.Base64

/-! ## What is read -/

/-- **What is read of a last group** is the values of its symbols and the number of padding symbols
behind them. -/
theorem exists_symbols_of_scanTail {start pads : Nat} {tail : Bytes} {acc vs : List Nat}
    (h : scanTail start tail acc = .ok (vs, pads)) :
    ∃ ws, vs = acc.reverse ++ ws ∧ (∀ w ∈ ws, w < 64) ∧
      tail = ws.map symbol ++ List.replicate pads pad := by
  induction tail generalizing acc with
  | nil =>
    obtain ⟨rfl, rfl⟩ := Prod.mk.inj (Except.ok.inj h)
    exact ⟨[], by simp⟩
  | cons b rest ih =>
    rw [scanTail] at h
    by_cases hb : b = pad
    · rw [if_pos hb] at h
      split at h
      · simp at h
      · next hcond =>
        obtain ⟨rfl, rfl⟩ := Prod.mk.inj (Except.ok.inj h)
        have hrest : rest = List.replicate rest.length pad := by
          apply List.eq_replicate_of_mem
          simpa using (not_or.mp hcond).2
        refine ⟨[], by simp, by simp, ?_⟩
        rw [hb, List.map_nil, List.nil_append, List.replicate_succ, ← hrest]
    · rw [if_neg hb] at h
      cases hv : value? b with
      | none => simp [hv] at h
      | some v =>
        simp only [hv] at h
        obtain ⟨hlt, rfl⟩ := value?_eq_some_iff.mp hv
        obtain ⟨ws, rfl, hws, rfl⟩ := ih h
        refine ⟨v :: ws, by simp, List.forall_mem_cons.mpr ⟨hlt, hws⟩, rfl⟩

/-- Where the last group of a text of the given length begins. -/
private def lastStart (n : Nat) : Nat :=
  if n % 4 = 0 then n - 4 else n - n % 4

/-- The steps in which a text is read. -/
private theorem exists_steps_of_decode {text bs : Bytes} (h : decode text = .ok bs)
    (hne : text ≠ []) :
    ∃ front last pads, values 0 (text.take (lastStart text.length)) = .ok front ∧
      scanTail (lastStart text.length) (text.drop (lastStart text.length)) [] =
        .ok (last, pads) ∧
      2 ≤ last.length ∧ (last.length + pads) % 4 = 0 ∧ (joinTail last).2 = 0 ∧
      bs = groupsBytes front last := by
  unfold decode at h
  dsimp only at h
  -- the first check only tells which fault is reported
  split at h
  case' h_1 => replace h := (Steps.guard_eq_ok_iff.mp h).2
  all_goals
    simp only [Steps.bind_eq_ok_iff, Steps.guard_eq_ok_iff, if_neg hne, Steps.pure_eq_ok_iff] at h
    obtain ⟨front, hfront, ⟨last, pads⟩, htail, htwo, hcount, hunused, hbs⟩ := h
    exact ⟨front, last, pads, hfront, htail, Nat.not_lt.mp htwo, not_not.mp hcount,
      not_not.mp hunused, hbs.symm⟩

/-- **What is read consists of groups**, unless it is empty.

**Proof sketch.** The last group is looked for in the last one to four bytes, which are symbols and
padding. As their number has to be a multiple of four, there are four of them, and so the text in
front of them consists of full groups. -/
theorem Groups.exists_of_decode {text bs : Bytes} (h : decode text = .ok bs) (hne : text ≠ []) :
    ∃ front last pads, Groups front last pads ∧ text = groupsText front last pads ∧
      bs = groupsBytes front last := by
  obtain ⟨front, last, pads, hfront, htail, htwo, hcount, hunused, hbs⟩ :=
    exists_steps_of_decode h hne
  obtain ⟨hfrontLt, htake⟩ := values_eq_ok_iff.mp hfront
  obtain ⟨ws, hws, hlastLt, hdrop⟩ := exists_symbols_of_scanTail htail
  obtain rfl : last = ws := hws
  have htext : text = groupsText front last pads := by
    rw [groupsText, ← htake, ← hdrop, List.take_append_drop]
  have hpos : 0 < text.length := List.length_pos_iff.mpr hne
  have hlengthTake := congrArg List.length htake
  have hlengthDrop := congrArg List.length hdrop
  simp only [List.length_take, List.length_drop, List.length_map, List.length_append,
    List.length_replicate] at hlengthTake hlengthDrop
  have hfull : text.length % 4 = 0 := by
    by_contra hpart
    rw [lastStart, if_neg hpart] at hlengthDrop
    omega
  rw [lastStart, if_pos hfull] at hlengthTake hlengthDrop
  have hgroups : Groups front last pads :=
    { front_lt := hfrontLt
      last_lt := hlastLt
      length_front := by omega
      length_last := by omega
      two_le := htwo
      unused := hunused }
  exact ⟨front, last, pads, hgroups, htext, hbs⟩

/-- **A text is read exactly when it is a spelling.** -/
theorem decode_eq_ok_iff {text bs : Bytes} : decode text = .ok bs ↔ text = encodeBytes bs := by
  constructor
  · intro h
    by_cases hne : text = []
    · subst hne
      obtain rfl : [] = bs := Except.ok.inj h
      rfl
    · obtain ⟨front, last, pads, hgroups, rfl, rfl⟩ := Groups.exists_of_decode h hne
      exact hgroups.encodeBytes_eq.symm
  · rintro rfl
    exact decode_encodeBytes bs

/-! ## The rules of the format -/

/-- The rules of the format: symbols, then at most two padding symbols, which complete the last
group of four. Each padding symbol leaves two bits of the last symbol over, which are zero. -/
def WellSpelled (text : Bytes) : Prop :=
  ∃ (vs : List Nat) (pads : Nat), text = vs.map symbol ++ List.replicate pads pad ∧
    (∀ v ∈ vs, v < 64) ∧ (vs.length + pads) % 4 = 0 ∧ pads ≤ 2 ∧
    ∀ v ∈ vs.getLast?, v % 4 ^ pads = 0

/-- The bits that a last group leaves over are those of its last value that belong to its
padding. -/
private theorem unused_eq_zero_iff {last : List Nat} {pads : Nat} (hcount : last.length + pads = 4)
    (htwo : 2 ≤ last.length) :
    (joinTail last).2 = 0 ↔ ∀ v ∈ last.getLast?, v % 4 ^ pads = 0 := by
  match last with
  | [] | [_] => simp at htwo
  | [a, b] =>
    obtain rfl : pads = 2 := by simp only [List.length_cons, List.length_nil] at hcount; omega
    simp [joinTail]
  | [a, b, c] =>
    obtain rfl : pads = 1 := by simp only [List.length_cons, List.length_nil] at hcount; omega
    simp [joinTail]
  | [a, b, c, d] =>
    obtain rfl : pads = 0 := by simpa using hcount
    simp [joinTail, Nat.mod_one]
  | _ :: _ :: _ :: _ :: _ :: _ =>
    simp only [List.length_cons] at hcount
    omega

/-- Groups keep the rules. -/
theorem Groups.wellSpelled {front last : List Nat} {pads : Nat} (h : Groups front last pads) :
    WellSpelled (groupsText front last pads) := by
  have hlast := h.length_last
  have hfour := h.length_front
  have htwo := h.two_le
  have hne : last ≠ [] := List.length_pos_iff.mp (by omega)
  refine ⟨front ++ last, pads, ?_, ?_, ?_, by omega, ?_⟩
  · rw [groupsText, List.map_append, List.append_assoc]
  · exact List.forall_mem_append.mpr ⟨h.front_lt, h.last_lt⟩
  · rw [List.length_append]
    omega
  · rw [List.getLast?_append_of_ne_nil front hne]
    exact (unused_eq_zero_iff hlast htwo).mp h.unused

/-- What keeps the rules consists of groups, unless it is empty. -/
theorem WellSpelled.exists_groups {text : Bytes} (h : WellSpelled text) (hne : text ≠ []) :
    ∃ front last pads, Groups front last pads ∧ text = groupsText front last pads := by
  obtain ⟨vs, pads, rfl, hlt, hcount, hpads, hunused⟩ := h
  have hlong : 4 ≤ vs.length + pads := by
    have hpos := List.length_pos_iff.mpr hne
    rw [List.length_append, List.length_map, List.length_replicate] at hpos
    omega
  -- the last group has all that padding leaves of four symbols
  obtain ⟨front, last, rfl, hlast⟩ : ∃ front last, vs = front ++ last ∧ last.length + pads = 4 := by
    refine ⟨vs.take (vs.length - (4 - pads)), vs.drop (vs.length - (4 - pads)),
      (List.take_append_drop _ _).symm, ?_⟩
    rw [List.length_drop]
    omega
  have htwo : 2 ≤ last.length := by omega
  have hlastNe : last ≠ [] := List.length_pos_iff.mp (by omega)
  rw [List.getLast?_append_of_ne_nil front hlastNe] at hunused
  rw [List.length_append] at hcount
  obtain ⟨hfrontLt, hlastLt⟩ := List.forall_mem_append.mp hlt
  refine ⟨front, last, pads, ?_, ?_⟩
  · exact
      { front_lt := hfrontLt
        last_lt := hlastLt
        length_front := by omega
        length_last := hlast
        two_le := htwo
        unused := (unused_eq_zero_iff hlast htwo).mpr hunused }
  · rw [groupsText, List.map_append, List.append_assoc]

/-- **The spellings are the texts that keep the rules.** -/
theorem wellSpelled_iff {text : Bytes} : WellSpelled text ↔ ∃ bs, text = encodeBytes bs := by
  constructor
  · intro h
    by_cases hne : text = []
    · exact ⟨[], hne⟩
    · obtain ⟨front, last, pads, hgroups, rfl⟩ := h.exists_groups hne
      exact ⟨_, hgroups.encodeBytes_eq.symm⟩
  · rintro ⟨bs, rfl⟩
    by_cases hbs : bs = []
    · subst hbs
      exact ⟨[], 0, by simp [encodeBytes]⟩
    · obtain ⟨front, last, pads, hgroups, rfl⟩ := Groups.exists_of_ne_nil hbs
      rw [hgroups.encodeBytes_eq]
      exact hgroups.wellSpelled

end JointSpend.Text.Base64
