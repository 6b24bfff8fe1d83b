import JointSpend.Proofs.Record.Lookup

set_option autoImplicit false
set_option relaxedAutoImplicit false

/-!
# Agreement of record maps

Two maps agree on a set of keys when they have no two different values under one of them. Maps that
agree have a union, which is the same from both sides; maps in a list have one union, however they
are brought together.

## Main definitions

* `JointSpend.RecordMap.Agree` — no two different values under a key that passes a test.
* `JointSpend.RecordMap.UnionAt` — a map holds exactly the entries of two maps at the keys that
  pass a test.
* `JointSpend.RecordMap.IsUnion` — a map holds exactly the entries of the maps in a list.

## Main results

* `JointSpend.RecordMap.conflicts_eq_nil_iff` — agreement is the absence of conflicts.
* `JointSpend.RecordMap.fill_comm_iff` — when filling from either side gives the same map.
* `JointSpend.RecordMap.IsUnion.fill`, `JointSpend.RecordMap.IsUnion.unique`.
-/

namespace JointSpend.RecordMap

variable {κ : Type} [DecidableEq κ] [Ranked κ] {β : κ → Type}

/-- Two maps agree on the keys that pass a test when no such key has different values in them. -/
def Agree (p : κ → Bool) (a b : RecordMap κ β) : Prop :=
  ∀ k, p k = true → ∀ v w, a.get? k = some v → b.get? k = some w → v = w

namespace Agree

variable {p q : κ → Bool} {a b c : RecordMap κ β}

theorem symm (h : Agree p a b) : Agree p b a :=
  fun k hk v w hv hw => (h k hk w v hw hv).symm

theorem refl (p : κ → Bool) (a : RecordMap κ β) : Agree p a a :=
  fun _ _ _ _ hv hw => Option.some.inj (hv.symm.trans hw)

/-- Agreement on more keys is agreement on fewer. -/
theorem mono (h : Agree p a b) (hqp : ∀ k, q k = true → p k = true) : Agree q a b :=
  fun k hk => h k (hqp k hk)

/-- A map agrees with itself with an entry at a free key. -/
theorem insert_right (p : κ → Bool) {k : κ} (hk : a.get? k = none) (v : β k) :
    Agree p a (a.insert k v) := by
  intro k' _ w w' hw hw'
  by_cases hkk' : k = k'
  · subst hkk'
    simp [hk] at hw
  · rw [get?_insert_of_ne a hkk', hw] at hw'
    exact Option.some.inj hw'

/-- Where two maps agree, either may be preferred. -/
theorem or_comm (h : Agree p a b) {k : κ} (hk : p k = true) :
    (a.get? k).or (b.get? k) = (b.get? k).or (a.get? k) := by
  cases ha : a.get? k with
  | none => simp
  | some v =>
    cases hb : b.get? k with
    | none => simp
    | some w => simp [h k hk v w ha hb]

end Agree

/-- Maps agree exactly when there is no conflict between them. -/
theorem conflicts_eq_nil_iff [∀ k, DecidableEq (β k)] {p : κ → Bool} {a b : RecordMap κ β} :
    a.conflicts p b = [] ↔ Agree p a b := by
  simp only [conflicts, List.map_eq_nil_iff, List.filter_eq_nil_iff]
  constructor
  · intro h k hk v w hv hw
    have hmem : ⟨k, w⟩ ∈ (b.filter p).entries := mem_entries_iff.mpr (by simp [hk, hw])
    simpa [disagrees, hv] using h _ hmem
  · rintro h ⟨k, w⟩ hmem
    have hw := mem_entries_iff.mp hmem
    rw [get?_filter] at hw
    split at hw
    · next hk =>
      cases hv : a.get? k with
      | none => simp [disagrees, hv]
      | some v => simp [disagrees, hv, h k hk v w hv hw]
    · simp at hw

/-- **Filling from either side** gives the same map exactly when the maps are equal at the keys that
are not filled. -/
theorem fill_comm_iff {p : κ → Bool} {a b : RecordMap κ β} (h : Agree p a b) :
    a.fill p b = b.fill p a ↔ ∀ k, p k = false → a.get? k = b.get? k := by
  constructor
  · intro heq k hk
    have hget := congrArg (fun m => m.get? k) heq
    simpa [get?_fill, hk] using hget
  · intro heq
    apply ext_get?
    intro k
    rw [get?_fill, get?_fill]
    by_cases hk : p k = true
    · rw [if_pos hk, if_pos hk, h.or_comm hk]
    · rw [if_neg hk, if_neg hk, heq k (by simpa using hk)]

/-- The entries after filling, where the maps agree: those of both. -/
theorem get?_fill_eq_some_iff {p : κ → Bool} {a b : RecordMap κ β} (h : Agree p a b) {k : κ}
    (hk : p k = true) {v : β k} :
    (a.fill p b).get? k = some v ↔ a.get? k = some v ∨ b.get? k = some v := by
  rw [get?_fill, if_pos hk]
  cases ha : a.get? k with
  | none => simp
  | some w =>
    constructor
    · intro hv
      exact Or.inl hv
    · rintro (hv | hv)
      · exact hv
      · simp [h k hk w v ha hv]

/-- A map filled from itself stays as it is. -/
theorem fill_self (p : κ → Bool) (m : RecordMap κ β) : m.fill p m = m := by
  apply ext_get?
  intro k
  rw [get?_fill]
  split
  · rw [Option.or_self]
  · rw [Option.or_none]

/-- Keys that are not filled keep their values. -/
theorem get?_fill_of_not {p : κ → Bool} (a b : RecordMap κ β) {k : κ} (hk : p k = false) :
    (a.fill p b).get? k = a.get? k := by
  simp [get?_fill, hk]

/-! ## Unions of two maps -/

/-- At the keys that pass a test, a map holds exactly the entries of two others. -/
def UnionAt (p : κ → Bool) (a b c : RecordMap κ β) : Prop :=
  ∀ k, p k = true → ∀ v, c.get? k = some v ↔ a.get? k = some v ∨ b.get? k = some v

namespace UnionAt

variable {p q : κ → Bool} {a b c : RecordMap κ β}

theorem symm (h : UnionAt p a b c) : UnionAt p b a c :=
  fun k hk v => (h k hk v).trans or_comm

/-- A union at more keys is one at fewer. -/
theorem mono (h : UnionAt p a b c) (hqp : ∀ k, q k = true → p k = true) : UnionAt q a b c :=
  fun k hk => h k (hqp k hk)

end UnionAt

/-- Filling a map from one that it agrees with gives their union. -/
theorem Agree.unionAt {p : κ → Bool} {a b : RecordMap κ β} (h : Agree p a b) :
    UnionAt p a b (a.fill p b) :=
  fun _ hk _ => get?_fill_eq_some_iff h hk

/-! ## Unions of lists -/

/-- A map is the union of a list of maps when it holds exactly their entries. -/
def IsUnion (ms : List (RecordMap κ β)) (m : RecordMap κ β) : Prop :=
  ∀ k v, m.get? k = some v ↔ ∃ x ∈ ms, x.get? k = some v

namespace IsUnion

variable {ms ns : List (RecordMap κ β)} {m n : RecordMap κ β}

theorem singleton (m : RecordMap κ β) : IsUnion [m] m := by
  simp [IsUnion]

/-- The union of two lists of maps comes from filling, if their unions agree. -/
theorem fill (hm : IsUnion ms m) (hn : IsUnion ns n) (h : Agree (fun _ => true) m n) :
    IsUnion (ms ++ ns) (m.fill (fun _ => true) n) := by
  intro k v
  rw [get?_fill_eq_some_iff h rfl, hm k v, hn k v]
  simp only [List.mem_append, or_and_right, exists_or]

/-- Given maps have one union. -/
theorem unique (hm : IsUnion ms m) (hn : IsUnion ms n) : m = n := by
  apply ext_get?
  intro k
  apply Option.ext
  intro v
  rw [hm k v, hn k v]

/-- The order of the maps and their repetitions do not matter. -/
theorem congr (hm : IsUnion ms m) (h : ∀ x, x ∈ ms ↔ x ∈ ns) : IsUnion ns m := by
  intro k v
  rw [hm k v]
  simp only [h]

/-- A map that agrees with every map of a list agrees with their union. -/
theorem agree (hm : IsUnion ms m) {p : κ → Bool} {x : RecordMap κ β}
    (h : ∀ y ∈ ms, Agree p y x) : Agree p m x := by
  intro k hk v w hv hw
  obtain ⟨y, hy, hyv⟩ := (hm k v).mp hv
  exact h y hy k hk v w hyv hw

end IsUnion

end JointSpend.RecordMap
