import JointSpend.CommandLine.Directory

set_option autoImplicit false
set_option relaxedAutoImplicit false

/-!
# Reading and writing files

What is read at a path is what is found there. A file that was written is found with the new bytes,
and every other file as it was.

## Main definitions

* `JointSpend.Directory.Admits` — whether a file can be written.
* `JointSpend.Directory.Sized` — the sizes of all files are 64-bit numbers.

## Main results

* `JointSpend.Directory.read_eq_ok_iff` — what is read.
* `JointSpend.Directory.write_eq_ok_iff`, `JointSpend.Directory.find?_of_write` — what is written.
-/

namespace JointSpend.Directory

variable {dir after : Directory} {path : String} {bytes : Bytes}

/-- One file has other bytes; the others are found as before. -/
private theorem find?_put (names : FilePath) (bytes : Bytes) (files : List (FilePath × Bytes))
    (other : FilePath) : (Directory.mk (put names bytes files)).find? other =
      if other = names then some bytes else (Directory.mk files).find? other := by
  have hcons : ∀ (f : FilePath × Bytes) (rest : List (FilePath × Bytes)),
      (Directory.mk (f :: rest)).find? other =
        if other = f.1 then some f.2 else (Directory.mk rest).find? other := by
    intro f rest
    by_cases h : other = f.1
    · simp [find?, h]
    · simp [find?, h, Ne.symm h]
  induction files with
  | nil => rw [put, hcons]
  | cons f rest ih =>
    rw [put]
    split
    · next hsame =>
      rw [hcons, hcons, hsame]
      split <;> rfl
    · next hdiff =>
      rw [hcons, hcons, ih]
      split
      · next hother => rw [if_neg (hother ▸ hdiff)]
      · rfl

/-- What is found is there. -/
theorem mem_of_find? {names : FilePath} (h : dir.find? names = some bytes) :
    (names, bytes) ∈ dir.files := by
  obtain ⟨⟨found, _⟩, hfound, rfl⟩ := Option.map_eq_some_iff.mp h
  obtain rfl : found = names := by simpa using List.find?_some hfound
  exact List.mem_of_find?_eq_some hfound

/-- What is read at a path is what is found there. -/
theorem read_eq_ok_iff :
    dir.read path = .ok bytes ↔ dir.find? (FilePath.ofText path) = some bytes := by
  cases hfind : dir.find? (FilePath.ofText path) with
  | some found => simp [read, hfind]
  | none =>
    simp only [read, hfind, reduceCtorEq, iff_false]
    split <;> simp

/-- Whether a file can be written: nothing but a file is at the path, and the directory that it
leads to is there. -/
def Admits (dir : Directory) (path : String) : Prop :=
  dir.isDirectory (FilePath.ofText path) = false ∧
    dir.isDirectory (FilePath.ofText path).dropLast = true

/-- Writing succeeds where a file can be written, whatever the bytes are. -/
theorem write_eq_ok_iff : dir.write path bytes = .ok after ↔
    dir.Admits path ∧ after = ⟨put (FilePath.ofText path) bytes dir.files⟩ := by
  unfold Admits
  cases hself : dir.isDirectory (FilePath.ofText path) with
  | true => simp [write, hself]
  | false =>
    cases habove : dir.isDirectory (FilePath.ofText path).dropLast with
    | true => simpa [write, hself, habove] using eq_comm
    | false => simp [write, hself, habove]

/-- **What is found after writing**: the new bytes in the file, and the old ones in every other. -/
theorem find?_of_write (h : dir.write path bytes = .ok after) (other : FilePath) :
    after.find? other = if other = FilePath.ofText path then some bytes else dir.find? other := by
  obtain ⟨-, rfl⟩ := write_eq_ok_iff.mp h
  exact find?_put _ _ _ _

/-- The sizes of all files are 64-bit numbers. -/
def Sized (dir : Directory) : Prop :=
  ∀ names bytes, dir.find? names = some bytes → bytes.length < UInt64.size

end JointSpend.Directory
