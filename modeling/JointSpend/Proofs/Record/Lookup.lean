import JointSpend.Record.Map
import Mathlib.Data.List.Basic

set_option autoImplicit false
set_option relaxedAutoImplicit false

/-!
# Looking up records

A record map is determined by its look-ups. Every operation on maps is described here by what it
does to the look-up of each key, so that nothing later opens the list of entries.

## Main results

* `JointSpend.RecordMap.ext_get?` — maps with equal look-ups are equal.
* `JointSpend.RecordMap.mem_entries_iff` — the entries are what the look-ups find.
* `JointSpend.RecordMap.get?_insert_self`, `JointSpend.RecordMap.get?_insert_of_ne`,
  `JointSpend.RecordMap.get?_set_self`, `JointSpend.RecordMap.get?_filter` — single operations.
* `JointSpend.RecordMap.get?_fold_insertIfFree`, `JointSpend.RecordMap.get?_fill` — what is there
  stays, and free keys are filled.
-/

namespace JointSpend.RecordMap

variable {κ : Type} [DecidableEq κ] [Ranked κ] {β : κ → Type}

/-! ## Lists of entries -/

section Lookup

omit [Ranked κ]

/-- An entry at the head is found. -/
@[simp]
theorem lookup_cons_self (k : κ) (v : β k) (es : List (Sigma β)) :
    lookup k (⟨k, v⟩ :: es) = some v := by
  simp [lookup]

/-- An entry with another key is passed over. -/
private theorem lookup_cons_of_ne {k : κ} {e : Sigma β} (h : e.1 ≠ k) (es : List (Sigma β)) :
    lookup k (e :: es) = lookup k es := by
  simp [lookup, h]

/-- What is found is an entry. -/
theorem mem_of_lookup {k : κ} {v : β k} {es : List (Sigma β)} (h : lookup k es = some v) :
    ⟨k, v⟩ ∈ es := by
  induction es with
  | nil => simp [lookup] at h
  | cons e es ih =>
    by_cases he : e.1 = k
    · obtain ⟨k', w⟩ := e
      obtain rfl : k' = k := he
      rw [lookup_cons_self] at h
      simp [Option.some.inj h]
    · rw [lookup_cons_of_ne he] at h
      exact List.mem_cons_of_mem _ (ih h)

/-- Nothing is found under a key that no entry has. -/
theorem lookup_eq_none {k : κ} {es : List (Sigma β)} (h : ∀ e ∈ es, e.1 ≠ k) :
    lookup k es = none := by
  induction es with
  | nil => rfl
  | cons e es ih =>
    rw [lookup_cons_of_ne (h e List.mem_cons_self)]
    exact ih fun e' he' => h e' (List.mem_cons_of_mem _ he')

/-- If nothing is found under a key, no entry has it. -/
theorem ne_of_lookup_eq_none {k : κ} {es : List (Sigma β)} (h : lookup k es = none) :
    ∀ e ∈ es, e.1 ≠ k := by
  induction es with
  | nil => simp
  | cons e es ih =>
    have he : e.1 ≠ k := by
      obtain ⟨k', v⟩ := e
      rintro rfl
      simp at h
    rw [lookup_cons_of_ne he] at h
    exact List.forall_mem_cons.mpr ⟨he, ih h⟩

/-- The look-up in a concatenation prefers the first list. -/
theorem lookup_append (k : κ) (es fs : List (Sigma β)) :
    lookup k (es ++ fs) = (lookup k es).or (lookup k fs) := by
  induction es with
  | nil => simp [lookup]
  | cons e es ih =>
    by_cases he : e.1 = k
    · obtain ⟨k', w⟩ := e
      obtain rfl : k' = k := he
      simp
    · rw [List.cons_append, lookup_cons_of_ne he, lookup_cons_of_ne he, ih]

/-- Looking up in the entries whose keys pass a test. -/
private theorem lookup_filter (p : κ → Bool) (k : κ) (es : List (Sigma β)) :
    lookup k (es.filter fun e => p e.1) = if p k then lookup k es else none := by
  induction es with
  | nil => simp [lookup]
  | cons e es ih =>
    by_cases he : e.1 = k
    · obtain ⟨k', w⟩ := e
      obtain rfl : k' = k := he
      by_cases hp : p k'
      · simp [hp]
      · rw [List.filter_cons_of_neg (by simpa using hp), ih]
        simp [hp]
    · rw [lookup_cons_of_ne he, ← ih]
      by_cases hp : p e.1
      · rw [List.filter_cons_of_pos (by simpa using hp), lookup_cons_of_ne he]
      · rw [List.filter_cons_of_neg (by simpa using hp)]

end Lookup

/-- An entry that was put in is found. -/
private theorem lookup_insertEntry_self (k : κ) (v : β k) (es : List (Sigma β)) :
    lookup k (insertEntry k v es) = some v := by
  induction es with
  | nil => simp [insertEntry]
  | cons e es ih =>
    rw [insertEntry]
    split
    · simp
    · next he =>
      split
      · simp
      · rw [lookup_cons_of_ne he, ih]

/-- Putting in an entry leaves the other keys alone. -/
private theorem lookup_insertEntry_of_ne {k k' : κ} (h : k ≠ k') (v : β k) (es : List (Sigma β)) :
    lookup k' (insertEntry k v es) = lookup k' es := by
  induction es with
  | nil => exact lookup_cons_of_ne h []
  | cons e es ih =>
    rw [insertEntry]
    split
    · next he =>
      rw [lookup_cons_of_ne h, lookup_cons_of_ne (he.trans_ne h)]
    · split
      · rw [lookup_cons_of_ne h]
      · by_cases he' : e.1 = k'
        · obtain ⟨k'', w⟩ := e
          obtain rfl : k'' = k' := he'
          simp
        · rw [lookup_cons_of_ne he', lookup_cons_of_ne he', ih]

/-! ## Maps -/

/-- In strictly sorted entries each key has one value. -/
private theorem lookup_of_mem {k : κ} {v : β k} {es : List (Sigma β)}
    (hs : es.Pairwise fun a b => Ranked.before a.1 b.1) (h : ⟨k, v⟩ ∈ es) :
    lookup k es = some v := by
  induction es with
  | nil => simp at h
  | cons e es ih =>
    rw [List.pairwise_cons] at hs
    rcases List.mem_cons.mp h with rfl | h
    · simp
    · have hne : e.1 ≠ k := by
        intro he
        have := hs.1 _ h
        rw [he] at this
        exact Ranked.not_before_self _ this
      rw [lookup_cons_of_ne hne, ih hs.2 h]

/-- The entries of a map are what its look-ups find. -/
theorem mem_entries_iff {m : RecordMap κ β} {k : κ} {v : β k} :
    ⟨k, v⟩ ∈ m.entries ↔ m.get? k = some v :=
  ⟨lookup_of_mem m.sorted, mem_of_lookup⟩

/-- **Maps with equal look-ups are equal.**

**Proof sketch.** Equal look-ups give equal sets of entries; both lists of entries are strictly
sorted, so they are permutations of each other and hence equal. -/
theorem ext_get? {a b : RecordMap κ β} (h : ∀ k, a.get? k = b.get? k) : a = b := by
  have hmem : ∀ e : Sigma β, e ∈ a.entries ↔ e ∈ b.entries := by
    rintro ⟨k, v⟩
    rw [mem_entries_iff, mem_entries_iff, h]
  have hnodup : ∀ m : RecordMap κ β, m.entries.Nodup := fun m =>
    m.sorted.imp fun hab heq => by
      rw [heq] at hab
      exact Ranked.not_before_self _ hab
  have hperm : a.entries.Perm b.entries :=
    (List.perm_ext_iff_of_nodup (hnodup a) (hnodup b)).mpr hmem
  refine ext_entries (List.Perm.eq_of_pairwise ?_ a.sorted b.sorted hperm)
  intro x y _ _ hxy hyx
  exact absurd (Ranked.before_trans hxy hyx) (Ranked.not_before_self _)

/-- A value that was put in is found. -/
@[simp]
theorem get?_insert_self (m : RecordMap κ β) (k : κ) (v : β k) :
    (m.insert k v).get? k = some v :=
  lookup_insertEntry_self k v m.entries

/-- Putting in a value leaves the other keys alone. -/
theorem get?_insert_of_ne (m : RecordMap κ β) {k k' : κ} (h : k ≠ k') (v : β k) :
    (m.insert k v).get? k' = m.get? k' :=
  lookup_insertEntry_of_ne h v m.entries

/-- The look-up after keeping the keys that pass a test. -/
@[simp]
theorem get?_filter (m : RecordMap κ β) (p : κ → Bool) (k : κ) :
    (m.filter p).get? k = if p k then m.get? k else none :=
  lookup_filter p k m.entries

/-- Setting a key sets it. -/
@[simp]
theorem get?_set_self (m : RecordMap κ β) (k : κ) (v : Option (β k)) :
    (m.set k v).get? k = v := by
  cases v with
  | some v => exact get?_insert_self m k v
  | none =>
    change lookup k (m.entries.filter fun e => e.1 ≠ k) = none
    rw [lookup_filter fun k' => decide (k' ≠ k)]
    simp

/-- Setting a key leaves the other keys alone. -/
theorem get?_set_of_ne (m : RecordMap κ β) {k k' : κ} (h : k ≠ k') (v : Option (β k)) :
    (m.set k v).get? k' = m.get? k' := by
  cases v with
  | some v => exact get?_insert_of_ne m h v
  | none =>
    change lookup k' (m.entries.filter fun e => e.1 ≠ k) = m.get? k'
    rw [lookup_filter fun k'' => decide (k'' ≠ k)]
    simp [h.symm, get?]

/-- Clearing a key that is free changes nothing. -/
theorem set_none_of_free {m : RecordMap κ β} {k : κ} (h : m.get? k = none) : m.set k none = m := by
  apply ext_get?
  intro k'
  by_cases hk : k = k'
  · subst hk
    rw [get?_set_self, h]
  · rw [get?_set_of_ne m hk]

/-- A map contains the keys under which something is found. -/
theorem contains_eq_isSome (m : RecordMap κ β) (k : κ) : m.contains k = (m.get? k).isSome :=
  rfl

/-- Adding an entry unless its key is taken: what is there stays. -/
private theorem get?_insertIfFree (m : RecordMap κ β) (e : Sigma β) (k : κ) :
    (m.insertIfFree e).get? k = (m.get? k).or (lookup k [e]) := by
  obtain ⟨k', v⟩ := e
  unfold insertIfFree
  by_cases hk : k' = k
  · subst hk
    split
    · next h =>
      obtain ⟨w, hw⟩ := Option.isSome_iff_exists.mp h
      simp [hw]
    · next h =>
      have hm : m.get? k' = none := by simpa [contains_eq_isSome] using h
      simp [hm]
  · rw [lookup_cons_of_ne hk]
    split
    · simp [lookup]
    · simp [lookup, get?_insert_of_ne m hk]

/-- Adding entries one by one: what is there stays, and of several entries with a free key the
first is taken. -/
theorem get?_fold_insertIfFree (es : List (Sigma β)) (m : RecordMap κ β) (k : κ) :
    (es.foldl insertIfFree m).get? k = (m.get? k).or (lookup k es) := by
  induction es generalizing m with
  | nil => simp [lookup]
  | cons e es ih =>
    rw [List.foldl_cons, ih, get?_insertIfFree, Option.or_assoc, ← lookup_append]
    rfl

/-- Filling a map at free keys that pass a test. -/
theorem get?_fill (p : κ → Bool) (m other : RecordMap κ β) (k : κ) :
    (m.fill p other).get? k = (m.get? k).or (if p k then other.get? k else none) := by
  rw [fill, get?_fold_insertIfFree]
  exact congrArg _ (get?_filter other p k)

end JointSpend.RecordMap
