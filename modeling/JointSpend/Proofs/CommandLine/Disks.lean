import JointSpend.Proofs.CommandLine.Directories
import JointSpend.Proofs.InPlace

set_option autoImplicit false
set_option relaxedAutoImplicit false

/-!
# Working on a disk

A disk may refuse to read or to write at any time and for any reason, and many paths may lead to one
of its files. All that is asked of it is that reading changes nothing, and that writing replaces a
whole file or fails and changes nothing.

What a program does on a disk is a sequence of steps, and each of them can be the last. Steps that
read, compute and show spare the files. If one step writes after them, and none that can fail comes
behind it, the sequence as a whole rewrites one file or changes nothing.

## Main definitions

* `JointSpend.Disk`, `JointSpend.Disk.Lawful` — disks, and what is asked of them.
* `JointSpend.Directory.disk` — a directory as a disk.
* `JointSpend.Work` — steps on a disk, which may fail.
* `JointSpend.Work.Spares` — steps that change no file.
* `JointSpend.Work.Rewrites` — steps that rewrite one file as a whole, or fail and change none.

## Main results

* `JointSpend.Directory.lawful_disk` — a directory does what is asked of a disk.
* `JointSpend.Work.spares_read`, `JointSpend.Work.rewrites_write` — what single steps do.
* `JointSpend.Work.Spares.bind_rewrites`, `JointSpend.Work.Rewrites.bind_print` — what may come
  before the step that writes, and what may come after it.
-/

namespace JointSpend

/-! ## Disks -/

/-- A disk, as far as a program can tell. -/
structure Disk where
  /-- The states of the disk, with whatever decides how the next step on it ends. -/
  State : Type
  /-- The files that there can be. -/
  File : Type
  /-- The file that a path leads to. -/
  locate : String → File
  /-- What the files hold, those that are there. -/
  content : State → File → Option Bytes
  /-- Reads a file. -/
  read : State → String → Except Fault Bytes × State
  /-- Writes a file. -/
  write : State → String → Bytes → Except Fault Unit × State

namespace Disk

/-- The file behind a path holds a result as a whole, and no other file has been changed. Without a
path, no file has been changed at all. -/
structure Rewritten (disk : Disk) (output : Option String) (IsResult : Bytes → Prop)
    (before after : disk.State) : Prop where
  whole : ∀ path ∈ output, ∃ bytes, IsResult bytes ∧
    disk.content after (disk.locate path) = some bytes
  others : ∀ file, (∀ path ∈ output, file ≠ disk.locate path) →
    disk.content after file = disk.content before file

/-- What is asked of a disk. -/
structure Lawful (disk : Disk) : Prop where
  /-- Reading changes no file. -/
  content_read : ∀ (s : disk.State) (path : String),
    disk.content (disk.read s path).2 = disk.content s
  /-- Writing that fails changes no file. -/
  content_write_error : ∀ {s after : disk.State} {path : String} {bytes : Bytes} {fault : Fault},
    disk.write s path bytes = (.error fault, after) → disk.content after = disk.content s
  /-- Writing that succeeds replaces the whole file. -/
  content_write_same : ∀ {s after : disk.State} {path : String} {bytes : Bytes},
    disk.write s path bytes = (.ok (), after) →
      disk.content after (disk.locate path) = some bytes
  /-- Writing that succeeds changes no other file. -/
  content_write_other : ∀ {s after : disk.State} {path : String} {bytes : Bytes} {file : disk.File},
    disk.write s path bytes = (.ok (), after) → file ≠ disk.locate path →
      disk.content after file = disk.content s file

end Disk

namespace Directory

/-- A directory as a disk. -/
abbrev disk : Disk where
  State := Directory
  File := FilePath
  locate := FilePath.ofText
  content := find?
  read files path := (files.read path, files)
  write files path bytes :=
    match files.write path bytes with
    | .ok after => (.ok (), after)
    | .error fault => (.error fault, files)

/-- Writing in a directory that is a disk. -/
private theorem write_disk_eq_ok_iff {files after : Directory} {path : String} {bytes : Bytes} :
    disk.write files path bytes = (.ok (), after) ↔ files.write path bytes = .ok after := by
  cases h : files.write path bytes <;> simp [disk, h]

/-- **A directory does what is asked of a disk.** -/
theorem lawful_disk : disk.Lawful where
  content_read _ _ := rfl
  content_write_error {s after path bytes fault} h := by
    cases hwrite : s.write path bytes with
    | ok _ => simp [disk, hwrite] at h
    | error _ =>
      simp only [disk, hwrite, Prod.mk.injEq] at h
      rw [h.2]
  content_write_same h :=
    (find?_of_write (write_disk_eq_ok_iff.mp h) _).trans (if_pos rfl)
  content_write_other h hother :=
    (find?_of_write (write_disk_eq_ok_iff.mp h) _).trans (if_neg hother)

end Directory

/-! ## Steps -/

/-- How far a program has come: the state of the disk, and what has been shown. -/
structure Progress (disk : Disk) where
  state : disk.State
  shown : String

/-- Steps on a disk. Those before a step that fails have been done. -/
abbrev Work (disk : Disk) :=
  InPlace (Progress disk)

namespace Work

open InPlace

variable {disk : Disk} {α β : Type}

/-- Reads a file. -/
def read (path : String) : Work disk Bytes :=
  ExceptT.mk fun p => ((disk.read p.state path).1, { p with state := (disk.read p.state path).2 })

/-- Writes a file. -/
def write (path : String) (bytes : Bytes) : Work disk Unit :=
  ExceptT.mk fun p =>
    ((disk.write p.state path bytes).1, { p with state := (disk.write p.state path bytes).2 })

/-- Shows a line. -/
def print (line : String) : Work disk Unit :=
  modify fun p => { p with shown := p.shown ++ line ++ "\n" }

/-! ## Steps that change no file -/

/-- However a step ends, it changes no file. -/
abbrev Spares (x : Work disk α) : Prop :=
  x.Keeps fun p => disk.content p.state

/-- Computing changes no file, whether it succeeds or not. -/
theorem spares_lift (result : Except Fault α) : Spares (liftM result : Work disk α) :=
  keeps_lift _ result

/-- Showing a line changes no file. -/
theorem spares_print (line : String) : Spares (print line : Work disk Unit) :=
  keeps_modify fun _ => rfl

/-- Reading changes no file. -/
theorem spares_read (hdisk : disk.Lawful) (path : String) :
    Spares (read path : Work disk Bytes) where
  part_eq h := by
    obtain ⟨-, rfl⟩ := Prod.mk.inj h
    exact hdisk.content_read _ path

/-! ## Steps that rewrite one file -/

/-- A step that fails changes no file, and one that succeeds has written a result to the file behind
a path, and has changed no other. -/
structure Rewrites (output : Option String) (IsResult : Bytes → Prop) (x : Work disk α) :
    Prop where
  atomic : x.Atomic fun p => disk.content p.state
  of_ok : ∀ {p q : Progress disk} {a : α}, x.exec p = (.ok a, q) →
    disk.Rewritten output IsResult p.state q.state

variable {output : Option String} {IsResult : Bytes → Prop}

/-- A sparing step rewrites nothing. -/
theorem Spares.rewrites {x : Work disk α} (hx : Spares x) : Rewrites none IsResult x where
  atomic := hx.atomic
  of_ok h := ⟨by simp, fun file _ => congrFun (hx.part_eq h) file⟩

/-- Writing a result rewrites the file behind its path. -/
theorem rewrites_write (hdisk : disk.Lawful) (path : String) {bytes : Bytes}
    (hbytes : IsResult bytes) :
    Rewrites (some path) IsResult (write path bytes : Work disk Unit) where
  atomic :=
    { part_eq := fun {p q fault} h => by
        obtain ⟨hresult, rfl⟩ := Prod.mk.inj h
        exact hdisk.content_write_error (Prod.ext hresult rfl) }
  of_ok {p q a} h := by
    obtain ⟨hresult, rfl⟩ := Prod.mk.inj h
    have hwrite : disk.write p.state path bytes = (.ok (), (disk.write p.state path bytes).2) :=
      Prod.ext hresult rfl
    refine ⟨fun other hother => ?_, fun file hfile => ?_⟩
    · obtain rfl := Option.some.inj hother
      exact ⟨bytes, hbytes, hdisk.content_write_same hwrite⟩
    · exact hdisk.content_write_other hwrite (hfile path rfl)

/-- **Before the step that writes** there may be steps that fail, if they spare the files. -/
theorem Spares.bind_rewrites {x : Work disk α} {f : α → Work disk β} (hx : Spares x)
    (hf : ∀ a, Rewrites output IsResult (f a)) : Rewrites output IsResult (x >>= f) where
  atomic := hx.bind_atomic fun a => (hf a).atomic
  of_ok h := by
    rcases exec_bind_eq_iff.mp h with ⟨_, -, hresult⟩ | ⟨a, mid, hmid, hrest⟩
    · cases hresult
    · obtain ⟨hwhole, hothers⟩ := (hf a).of_ok hrest
      refine ⟨hwhole, fun file hfile => ?_⟩
      rw [hothers file hfile, hx.part_eq hmid]

/-- **After the step that writes** a line may be shown, since this cannot fail. -/
theorem Rewrites.bind_print {x : Work disk Unit} (hx : Rewrites output IsResult x)
    (line : String) : Rewrites output IsResult (x >>= fun _ => print line) where
  atomic := hx.atomic.bind_succeeds fun _ => succeeds_modify _
  of_ok h := by
    rcases exec_bind_eq_iff.mp h with ⟨_, -, hresult⟩ | ⟨_, mid, hmid, hrest⟩
    · cases hresult
    · obtain ⟨-, rfl⟩ := Prod.mk.inj hrest
      exact (hx.of_ok hmid : disk.Rewritten output IsResult _ mid.state)

end Work

end JointSpend
