set_option autoImplicit false
set_option relaxedAutoImplicit false

/-!
# Record maps

A record map holds at most one value under each key, and the type of the value depends on the key.
The entries are kept in strictly increasing order of the keys, so that maps with equal look-ups are
equal.

## Main definitions

* `JointSpend.Ranked` — keys that are ordered through a list of numbers.
* `JointSpend.RecordMap` — a record map.
* `JointSpend.RecordMap.get?`, `JointSpend.RecordMap.insert`, `JointSpend.RecordMap.filter`.
* `JointSpend.RecordMap.fill` — adds the entries of another map at free keys.
* `JointSpend.RecordMap.conflicts` — the keys at which two maps disagree.
-/

namespace JointSpend

/-- Keys that are ordered through a list of numbers. -/
class Ranked (κ : Type) where
  /-- The numbers, the most significant first. -/
  ranks : κ → List Nat
  /-- Keys with equal numbers are equal. -/
  ranks_injective : ∀ a b, ranks a = ranks b → a = b

variable {κ : Type} [DecidableEq κ] [Ranked κ] {β : κ → Type}

/-- The strict order of keys. -/
def Ranked.before {κ : Type} [Ranked κ] (a b : κ) : Prop :=
  Ranked.ranks a < Ranked.ranks b

instance {κ : Type} [Ranked κ] (a b : κ) : Decidable (Ranked.before a b) :=
  inferInstanceAs (Decidable (Ranked.ranks a < Ranked.ranks b))

theorem Ranked.before_trans {κ : Type} [Ranked κ] {a b c : κ} (hab : before a b)
    (hbc : before b c) : before a c :=
  List.lt_trans hab hbc

theorem Ranked.not_before_self {κ : Type} [Ranked κ] (a : κ) : ¬ before a a :=
  List.lt_irrefl _

private theorem Ranked.before_of_not {κ : Type} [Ranked κ] {a b : κ} (h : ¬ before a b)
    (hne : a ≠ b) : before b a := by
  by_cases hba : Ranked.before b a
  · exact hba
  · exact absurd (ranks_injective a b (List.le_antisymm (List.not_lt.mp hba) (List.not_lt.mp h))) hne

/-- A map from keys to values whose type depends on the key. -/
structure RecordMap (κ : Type) [Ranked κ] (β : κ → Type) where
  /-- The entries in the order of their keys. -/
  entries : List (Sigma β)
  /-- The keys increase strictly. -/
  sorted : entries.Pairwise fun a b => Ranked.before a.1 b.1

namespace RecordMap

omit [DecidableEq κ] in
theorem ext_entries {a b : RecordMap κ β} (h : a.entries = b.entries) : a = b := by
  obtain ⟨as, ha⟩ := a
  obtain ⟨bs, hb⟩ := b
  obtain rfl : as = bs := h
  rfl

instance [∀ k, DecidableEq (β k)] : DecidableEq (RecordMap κ β) := fun a b =>
  match @instDecidableEqList _ instDecidableEqSigma a.entries b.entries with
  | isTrue h => isTrue (ext_entries h)
  | isFalse h => isFalse fun hab => h (congrArg entries hab)

/-- The map without entries. -/
def empty : RecordMap κ β := ⟨[], .nil⟩

instance : EmptyCollection (RecordMap κ β) := ⟨empty⟩

instance : Inhabited (RecordMap κ β) := ⟨empty⟩

/-- The value of the first entry with the key. -/
def lookup (k : κ) : List (Sigma β) → Option (β k)
  | [] => none
  | e :: rest => if h : e.1 = k then some (h ▸ e.2) else lookup k rest

/-- The value under a key. -/
def get? (m : RecordMap κ β) (k : κ) : Option (β k) :=
  lookup k m.entries

/-- Whether there is a value under the key. -/
def contains (m : RecordMap κ β) (k : κ) : Bool :=
  (m.get? k).isSome

/-- The entries with one more, which replaces the entry with its key. -/
def insertEntry (k : κ) (v : β k) : List (Sigma β) → List (Sigma β)
  | [] => [⟨k, v⟩]
  | e :: rest =>
    if e.1 = k then ⟨k, v⟩ :: rest
    else if Ranked.before k e.1 then ⟨k, v⟩ :: e :: rest
    else e :: insertEntry k v rest

private theorem mem_insertEntry {k : κ} {v : β k} {a : Sigma β} {es : List (Sigma β)}
    (h : a ∈ insertEntry k v es) : a = ⟨k, v⟩ ∨ a ∈ es := by
  induction es with
  | nil => simpa [insertEntry] using h
  | cons e rest ih =>
    rw [insertEntry] at h
    split at h
    · simp only [List.mem_cons] at h ⊢
      exact h.imp id Or.inr
    · split at h
      · simpa only [List.mem_cons] using h
      · simp only [List.mem_cons] at h ⊢
        rcases h with h | h
        · exact Or.inr (Or.inl h)
        · exact (ih h).imp id Or.inr

private theorem pairwise_insertEntry {k : κ} {v : β k} {es : List (Sigma β)}
    (h : es.Pairwise fun a b => Ranked.before a.1 b.1) :
    (insertEntry k v es).Pairwise fun a b => Ranked.before a.1 b.1 := by
  induction es with
  | nil => simp [insertEntry]
  | cons e rest ih =>
    rw [List.pairwise_cons] at h
    rw [insertEntry]
    split
    · next hk => subst hk; exact List.pairwise_cons.mpr h
    · next hk =>
      split
      · next hb =>
        refine List.pairwise_cons.mpr ⟨fun a ha => ?_, List.pairwise_cons.mpr h⟩
        rcases List.mem_cons.mp ha with rfl | ha
        · exact hb
        · exact Ranked.before_trans hb (h.1 a ha)
      · next hb =>
        refine List.pairwise_cons.mpr ⟨fun a ha => ?_, ih h.2⟩
        rcases mem_insertEntry ha with rfl | ha
        · exact Ranked.before_of_not hb (Ne.symm hk)
        · exact h.1 a ha

/-- The map with a value under a key, in place of the value it had there. -/
def insert (m : RecordMap κ β) (k : κ) (v : β k) : RecordMap κ β :=
  ⟨insertEntry k v m.entries, pairwise_insertEntry m.sorted⟩

/-- The map with a value under a key, or without one. -/
def set (m : RecordMap κ β) (k : κ) : Option (β k) → RecordMap κ β
  | some v => m.insert k v
  | none => ⟨m.entries.filter fun e => e.1 ≠ k, m.sorted.filter _⟩

/-- The entries at the keys that pass a test. -/
def filter (m : RecordMap κ β) (p : κ → Bool) : RecordMap κ β :=
  ⟨m.entries.filter fun e => p e.1, m.sorted.filter _⟩

/-- The map with an entry added, unless its key is taken. -/
def insertIfFree (m : RecordMap κ β) (e : Sigma β) : RecordMap κ β :=
  if m.contains e.1 then m else m.insert e.1 e.2

/-- The map with the entries of another map added at free keys that pass a test. -/
def fill (p : κ → Bool) (m other : RecordMap κ β) : RecordMap κ β :=
  (other.filter p).entries.foldl insertIfFree m

/-- Whether the map has another value under the key of an entry. -/
def disagrees [∀ k, DecidableEq (β k)] (m : RecordMap κ β) (e : Sigma β) : Bool :=
  match m.get? e.1 with
  | some v => v ≠ e.2
  | none => false

/-- The keys that pass a test and at which two maps disagree, in order. -/
def conflicts [∀ k, DecidableEq (β k)] (p : κ → Bool) (m other : RecordMap κ β) : List κ :=
  ((other.filter p).entries.filter m.disagrees).map (·.1)

/-- The map of a list of entries, if no key occurs twice. -/
def ofList? : List (Sigma β) → RecordMap κ β → Option (RecordMap κ β)
  | [], m => some m
  | e :: rest, m => if m.contains e.1 then none else ofList? rest (m.insert e.1 e.2)

end RecordMap

end JointSpend
