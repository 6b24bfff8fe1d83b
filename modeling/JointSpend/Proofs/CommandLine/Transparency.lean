import JointSpend.Proofs.Codec.Exchange
import JointSpend.Proofs.CommandLine.Runs
import Mathlib

set_option autoImplicit false
set_option relaxedAutoImplicit false

/-!
# Files are transparent

Copies that pass through files are the copies that pass through memory. A file that a command has
written holds the copy that the command computed, in whichever form, unless something in that copy
is too long to be read: then nothing can be read from the file any more, and no command can use it.
So commands that pass files on to each other, and all succeed, do what the same computations do in
memory, and the final transaction that is shown is the same.

## Main definitions

* `JointSpend.CommandLine.Memory.after?`, `JointSpend.CommandLine.Memory.compose?` — command lines
  that pass copies on in memory.
* `JointSpend.CommandLine.Chain` — command lines that pass copies on in files.
* `JointSpend.CommandLine.Mirrors` — a memory that holds what the files hold.

## Main results

* `JointSpend.CommandLine.Mirrors.step` — one command line.
* `JointSpend.CommandLine.Chain.mirrors` — one command line after another.
* `JointSpend.CommandLine.files_transparent` — files hold what was computed.
-/

namespace JointSpend.CommandLine

/-! ## In memory and in files -/

namespace Memory

/-- What is held in memory when the copy that a command line computes is put under the name of its
file. -/
def after? (scheme : SignatureScheme) (m : Memory) (i : Invocation) : Option Memory := do
  let (output, _) ← i.command.target?
  let p ← i.compute? scheme m
  return m.hold (FilePath.ofText output) p

/-- What is held in memory after one command line after another. -/
def compose? (scheme : SignatureScheme) (m : Memory) (is : List Invocation) : Option Memory :=
  is.foldlM (after? scheme) m

end Memory

/-- Command lines that write copies, one after another in one directory: all of them succeed, and
what they write has a size that files can have. -/
inductive Chain (scheme : SignatureScheme) (node : String → Nat → Broadcaster) :
    Directory → List Invocation → Directory → Prop where
  | nil (files : Directory) : Chain scheme node files [] files
  | cons {files mid after : Directory} {i : Invocation} {is : List Invocation} {output : String}
      {form : ExchangeForm} (htarget : i.command.target? = some (output, form))
      (hrun : (i.run scheme node files).result = .ok ())
      (hmid : (i.run scheme node files).files = mid) (hsized : mid.Sized)
      (hrest : Chain scheme node mid is after) : Chain scheme node files (i :: is) after

/-- A memory that holds what the files hold. A copy in which something is too long is held in memory
only: its file cannot be read. -/
structure Mirrors (scheme : SignatureScheme) (m : Memory) (files : Directory) : Prop where
  obtained : ∀ names p, m.copy? names = some p → Psbt.Obtained scheme false p
  copies : ∀ names p, (Memory.ofFiles files).copy? names = some p ↔ m.copy? names = some p ∧ p.Fits
  texts : ∀ names, (Memory.ofFiles files).json? names = m.json? names

variable {scheme : SignatureScheme} {node : String → Nat → Broadcaster} {m : Memory}
  {files after : Directory} {i : Invocation} {output : String} {form : ExchangeForm} {p : Psbt}

/-- What files hold was read. -/
private theorem Memory.decoded_of_ofFiles {names : FilePath}
    (h : (Memory.ofFiles files).copy? names = some p) : p.Decoded := by
  obtain ⟨bytes, -, hbytes⟩ := Option.bind_eq_some_iff.mp h
  exact .of_decodeAny (Steps.toOption_eq_some_iff.mp hbytes)

/-- In the beginning, memory holds what the files hold. -/
theorem Mirrors.ofFiles (scheme : SignatureScheme) (files : Directory) :
    Mirrors scheme (.ofFiles files) files where
  obtained _ _ h := .read (Memory.decoded_of_ofFiles h)
  copies _ _ := ⟨fun h => ⟨h, (Memory.decoded_of_ofFiles h).fits⟩, And.left⟩
  texts _ := rfl

/-- What files hold when a copy was written to one of them: there is no JSON text in this file, and
what is read of it is what is read of the binary form. -/
private theorem Memory.ofFiles_of_write (h : files.write output (p.exportAs form) = .ok after)
    (names : FilePath) :
    (Memory.ofFiles after).copy? names = (if names = FilePath.ofText output then
        (Psbt.decode p.bytes).toOption else (Memory.ofFiles files).copy? names) ∧
      (Memory.ofFiles after).json? names = (if names = FilePath.ofText output then none
        else (Memory.ofFiles files).json? names) := by
  have hfind := Directory.find?_of_write h names
  simp only [Memory.ofFiles, hfind]
  split
  · next hsame =>
    rw [Option.bind_eq_bind, Option.bind_some, Psbt.decodeAny_exportAs]
    refine ⟨rfl, ?_⟩
    exact Psbt.parse?_exportAs p form
  · exact ⟨rfl, rfl⟩

/-- **One command line** computes the same in files and in memory, and what it leaves is the
same. -/
theorem Mirrors.step (hm : Mirrors scheme m files)
    (htarget : i.command.target? = some (output, form))
    (hrun : (i.run scheme node files).result = .ok ())
    (hafter : (i.run scheme node files).files = after) (hsized : after.Sized) :
    ∃ p, i.compute? scheme m = some p ∧
      Mirrors scheme (m.hold (FilePath.ofText output) p) after := by
  obtain ⟨p, hp, hwrite⟩ := (Invocation.run_eq_ok_iff htarget).mp ⟨hrun, hafter⟩
  have hwithin : (Memory.ofFiles files).Within m :=
    ⟨fun names q hq => ((hm.copies names q).mp hq).1, fun names v hv => hm.texts names ▸ hv⟩
  have hcomputed := Invocation.compute?_mono hwithin hp
  have hobtained := Invocation.obtained_of_compute? hm.obtained hcomputed
  have hlength : p.bytes.length < UInt64.size := by
    refine (p.length_bytes_le form).trans_lt (hsized (FilePath.ofText output) _ ?_)
    rw [Directory.find?_of_write hwrite, if_pos rfl]
  refine ⟨p, hcomputed, ?_, ?_, ?_⟩
  · intro names q hq
    rw [Memory.copy?_hold] at hq
    split at hq
    · exact Option.some.inj hq ▸ hobtained
    · exact hm.obtained names q hq
  · intro names q
    rw [(Memory.ofFiles_of_write hwrite names).1, Memory.copy?_hold]
    split
    · rw [Steps.toOption_eq_some_iff, Psbt.decode_bytes_eq_ok_iff hobtained.wellFormed hlength,
        Option.some.injEq]
    · exact hm.copies names q
  · intro names
    rw [(Memory.ofFiles_of_write hwrite names).2, Memory.json?_hold]
    split
    · rfl
    · exact hm.texts names

/-- **Command lines that pass files on** compute what they compute in memory.

**Proof sketch.** Induction on the command lines: a memory that holds what the files hold goes on
doing so. -/
theorem Chain.mirrors {is : List Invocation} (h : Chain scheme node files is after)
    (hm : Mirrors scheme m files) :
    ∃ n, m.compose? scheme is = some n ∧ Mirrors scheme n after := by
  induction h generalizing m with
  | nil files => exact ⟨m, rfl, hm⟩
  | cons htarget hrun hmid hsized hrest ih =>
    obtain ⟨p, hp, hmirrors⟩ := hm.step htarget hrun hmid hsized
    obtain ⟨n, hn, hfinal⟩ := ih hmirrors
    refine ⟨n, ?_, hfinal⟩
    simpa [Memory.compose?, Memory.after?, htarget, hp] using hn

/-! ## What is found in files -/

/-- **What is read of a file that a command line has written** is what the command line computed,
unless something in it is too long. -/
theorem Invocation.exists_of_run (htarget : i.command.target? = some (output, form))
    (hrun : (i.run scheme node files).result = .ok ()) :
    ∃ p, i.compute? scheme (.ofFiles files) = some p ∧
      (World.readPsbt ⟨(i.run scheme node files).files.read, node⟩ output = .ok p ↔ p.Fits) := by
  obtain ⟨p, hp, hwrite⟩ := (run_eq_ok_iff htarget).mp ⟨hrun, rfl⟩
  have hform := (obtained_of_compute? (fun _ _ hq => .read (Memory.decoded_of_ofFiles hq))
    hp).wellFormed
  refine ⟨p, hp, ?_⟩
  rw [World.readPsbt_eq_ok_iff, (Memory.ofFiles_of_write hwrite _).1, if_pos rfl,
    Steps.toOption_eq_some_iff, Psbt.decode_bytes_iff]
  exact and_iff_right hform

/-- **Files hold what was computed.** A command line that writes a copy leaves a file from which
exactly this copy is read, unless something in the copy is too long; signing, making inputs final
and changing the form never make it so. Command lines that pass files on to each other, in any mix
of forms, leave the copies that the same computations leave in memory, and show the same final
transaction. -/
theorem files_transparent (scheme : SignatureScheme) (node : String → Nat → Broadcaster) :
    (∀ (files : Directory) (i : Invocation) (output : String) (form : ExchangeForm),
      i.command.target? = some (output, form) → (i.run scheme node files).result = .ok () →
      ∃ p, i.compute? scheme (.ofFiles files) = some p ∧
        (World.readPsbt ⟨(i.run scheme node files).files.read, node⟩ output = .ok p ↔ p.Fits) ∧
        (i.command.keepsLimits = true → p.Fits)) ∧
    ∀ (files after : Directory) (is : List Invocation), Chain scheme node files is after →
      ∃ m, (Memory.ofFiles files).compose? scheme is = some m ∧
        (∀ path p, World.readPsbt ⟨after.read, node⟩ path = .ok p ↔
          m.copy? (FilePath.ofText path) = some p ∧ p.Fits) ∧
        ∀ (i : Invocation) (psbt : String) (output : Option String),
          i.command = .extract psbt output →
          ((i.run scheme node after).result = .ok () →
            ∃ p tx, m.copy? (FilePath.ofText psbt) = some p ∧ p.extract = .ok tx ∧
              (i.run scheme node after).shown = Text.Hex.encode tx.bytes ++ "\n") ∧
          ∀ network p tx, Network.parse i.network = .ok network →
            m.copy? (FilePath.ofText psbt) = some p → p.Fits → p.extract = .ok tx →
            (i.run scheme node after).shown = Text.Hex.encode tx.bytes ++ "\n" := by
  refine ⟨fun files i output form htarget hrun => ?_, fun files after is hchain => ?_⟩
  · obtain ⟨p, hp, hread⟩ := Invocation.exists_of_run htarget hrun
    refine ⟨p, hp, hread, fun hkeeps => ?_⟩
    refine Invocation.fits_of_compute? hkeeps (fun names q hq => ?_) hp
    have hdecoded := Memory.decoded_of_ofFiles hq
    exact ⟨hdecoded.shaped, hdecoded.fits⟩
  · obtain ⟨m, hm, hmirrors⟩ := hchain.mirrors (.ofFiles scheme files)
    refine ⟨m, hm, fun path p => ?_, fun i psbt output hcommand => ⟨fun h => ?_, ?_⟩⟩
    · rw [World.readPsbt_eq_ok_iff]
      exact hmirrors.copies _ p
    · obtain ⟨p, tx, hp, htx, hshown⟩ := Invocation.exists_of_extract hcommand h
      exact ⟨p, tx, ((hmirrors.copies _ p).mp hp).1, htx, hshown⟩
    · intro network p tx hnetwork hp hfits htx
      exact Invocation.shown_of_extract hcommand hnetwork
        ((hmirrors.copies _ p).mpr ⟨hp, hfits⟩) htx

/-- The copy whose input is open and knows the output that it spends. -/
def openFunded : Psbt :=
  Psbt.sampleCopy ((∅ : InputMap).insert .witnessUtxo ⟨2000, ⟨[0x51]⟩⟩)

/-- The copy whose input is final and knows the output that it spends. -/
def finalFunded : Psbt :=
  Psbt.sampleCopy (((∅ : InputMap).insert .finalScriptSig ⟨[0x51]⟩).insert .witnessUtxo
    ⟨2000, ⟨[0x51]⟩⟩)

/-- A node that takes every transaction. -/
def sampleNode : String → Nat → Broadcaster :=
  fun _ _ tx => .ok tx.id

/-- Two files: one copy in binary form, and one in base64. -/
def sampleFiles (p q : Psbt) : Directory :=
  ⟨[(["a"], p.exportAs .binary), (["b"], q.exportAs .base64)]⟩

/-- The copies in two files. -/
theorem copy?_sampleFiles {p q : Psbt} (hp : p.Decoded) (hq : q.Decoded) :
    (Memory.ofFiles (sampleFiles p q)).copy? ["a"] = some p ∧
      (Memory.ofFiles (sampleFiles p q)).copy? ["b"] = some q := by
  have hread : ∀ {r : Psbt} (form : ExchangeForm), r.Decoded →
      (Psbt.decodeAny (r.exportAs form)).toOption = some r := by
    intro r form hr
    rw [Psbt.decodeAny_exportAs, Steps.toOption_eq_some_iff]
    exact Psbt.decode_bytes_iff.mpr ⟨hr.wellFormed, hr.fits⟩
  constructor
  · simp [Memory.ofFiles, sampleFiles, Directory.find?, hread .binary hp]
  · simp [Memory.ofFiles, sampleFiles, Directory.find?, hread .base64 hq]

/-- Writing one of two files, in the form that it has. -/
theorem write_sampleFiles (p q r : Psbt) :
    (sampleFiles p q).write "a" (r.exportAs .binary) = .ok (sampleFiles r q) ∧
      (sampleFiles p q).write "b" (r.exportAs .base64) = .ok (sampleFiles p r) := by
  have ha : FilePath.ofText "a" = ["a"] := by cbv
  have hb : FilePath.ofText "b" = ["b"] := by cbv
  constructor
  · rw [Directory.write_eq_ok_iff, Directory.Admits, ha]
    simp [sampleFiles, Directory.isDirectory, Directory.put]
  · rw [Directory.write_eq_ok_iff, Directory.Admits, hb]
    simp [sampleFiles, Directory.isDirectory, Directory.put]

/-- Merging the copies in two files. -/
theorem compute?_sampleFiles {p q r : Psbt} (hp : p.Decoded) (hq : q.Decoded)
    (h : Psbt.mergeAll [p, q] = .ok r) :
    (Invocation.mk "regtest" (.merge ["a", "b"] "b" .base64)).compute? Curve.secp256k1
      (.ofFiles (sampleFiles p q)) = some r := by
  have ha : FilePath.ofText "a" = ["a"] := by cbv
  have hb : FilePath.ofText "b" = ["b"] := by cbv
  have hnetwork : Network.parse "regtest" = .ok .regtest := rfl
  obtain ⟨hcopyA, hcopyB⟩ := copy?_sampleFiles hp hq
  simp [Invocation.compute?, hnetwork, Command.compute?, ha, hb, hcopyA, hcopyB, h, Except.toOption]

/-- Two command lines that pass a copy on in both forms, and the final transaction of the copy. The
second file is read and written by the first of them. -/
theorem files_transparent_finalFunded :
    (World.readPsbt ⟨(Invocation.run Curve.secp256k1 sampleNode
        (sampleFiles Psbt.finalAlone openFunded)
        ⟨"regtest", .merge ["a", "b"] "b" .base64⟩).files.read, sampleNode⟩ "b" =
          .ok finalFunded) ∧
      Chain Curve.secp256k1 sampleNode (sampleFiles Psbt.finalAlone openFunded)
        [⟨"regtest", .merge ["a", "b"] "b" .base64⟩, ⟨"regtest", .finalize "b" "a" .binary⟩]
        (sampleFiles finalFunded finalFunded) ∧
      ∃ tx, finalFunded.extract = .ok tx ∧
        (Invocation.run Curve.secp256k1 sampleNode (sampleFiles finalFunded finalFunded)
          ⟨"regtest", .extract "a" none⟩).shown = Text.Hex.encode tx.bytes ++ "\n" := by
  have ha : FilePath.ofText "a" = ["a"] := by cbv
  have hb : FilePath.ofText "b" = ["b"] := by cbv
  have hnetwork : Network.parse "regtest" = .ok .regtest := rfl
  have hopen : openFunded.Decoded := @Psbt.Decoded.of_ofBytes? _ openFunded.bytes rfl
  have hfinal : finalFunded.Decoded := @Psbt.Decoded.of_ofBytes? _ finalFunded.bytes rfl
  have hsized : ∀ p, (p.exportAs .binary).length < UInt64.size →
      (sampleFiles p finalFunded).Sized := by
    intro p hp names bytes h
    have hmem := Directory.mem_of_find? h
    simp only [sampleFiles, List.mem_cons, Prod.mk.injEq, List.not_mem_nil, or_false] at hmem
    obtain ⟨-, rfl⟩ | ⟨-, rfl⟩ := hmem
    · exact hp
    · decide +kernel
  have hmerge : _ = some finalFunded := compute?_sampleFiles Psbt.decoded_finalAlone hopen rfl
  have hfinalize : (Invocation.mk "regtest" (.finalize "b" "a" .binary)).compute? Curve.secp256k1
      (.ofFiles (sampleFiles Psbt.finalAlone finalFunded)) = some finalFunded := by
    obtain ⟨-, hcopyB⟩ := copy?_sampleFiles Psbt.decoded_finalAlone hfinal
    have hkept : finalFunded.finalize Curve.secp256k1 = finalFunded := rfl
    simp [Invocation.compute?, hnetwork, Command.compute?, hb, hcopyB, hkept, Except.toOption]
  obtain ⟨hrun, hfiles⟩ := (Invocation.run_eq_ok_iff rfl).mpr
    ⟨finalFunded, hmerge, (write_sampleFiles _ _ _).2⟩
  obtain ⟨hrun', hfiles'⟩ := (Invocation.run_eq_ok_iff rfl).mpr
    ⟨finalFunded, hfinalize, (write_sampleFiles _ _ _).1⟩
  have hchain : Chain Curve.secp256k1 sampleNode _ _ _ :=
    .cons rfl hrun hfiles (hsized _ (by decide +kernel))
      (.cons rfl hrun' hfiles' (hsized _ (by decide +kernel)) (.nil _))
  obtain ⟨tx, htx⟩ : ∃ tx, finalFunded.extract = .ok tx := ⟨_, rfl⟩
  obtain ⟨hsingle, hchains⟩ := files_transparent Curve.secp256k1 sampleNode
  obtain ⟨p, hp, hread, -⟩ := hsingle _ _ "b" .base64 rfl hrun
  obtain rfl := Option.some.inj (hmerge.symm.trans hp)
  obtain ⟨m, -, hloaded, hshown⟩ := hchains _ _ _ hchain
  have hheld : m.copy? (FilePath.ofText "a") = some finalFunded := by
    refine ((hloaded "a" finalFunded).mp ?_).1
    rw [World.readPsbt_eq_ok_iff, ha]
    exact (copy?_sampleFiles hfinal hfinal).1
  exact ⟨hread.mpr hfinal.fits, hchain, tx, htx,
    (hshown ⟨"regtest", .extract "a" none⟩ "a" none rfl).2 _ _ tx hnetwork hheld hfinal.fits htx⟩

/-! ## Files that cannot be read any more -/

/-- A copy with records of other applications. -/
def notedCopy (globals : GlobalMap) : Psbt :=
  { Psbt.openBlank with globals }

/-- The length of a record whose value takes half the bytes that a reader takes at once. -/
private theorem length_write_note (kind : UInt8) {note : Bytes} (hnote : note.length = 2000000) :
    (RawRecord.mk kind [] note).write.length = 2000007 := by
  have hfront : (CompactSize.write 2000000).length = 5 := by decide
  have hkey : (CompactSize.writeBytes [kind]).length = 2 := rfl
  rw [RawRecord.write, List.length_append, hkey, CompactSize.writeBytes, List.length_append, hnote,
    hfront]

/-- A copy with one such record can be read. -/
private theorem decoded_notedCopy {kind : UInt8} (hkind : GlobalKey.knownKind kind = false)
    {note : Bytes} (hnote : note.length = 2000000) :
    (notedCopy ((∅ : GlobalMap).insert (.foreign ⟨kind, [], hkind⟩) note)).Decoded := by
  have hblank : Psbt.openBlank.Decoded := @Psbt.Decoded.of_ofBytes? _ Psbt.openBlank.bytes rfl
  have hrecords : ((∅ : GlobalMap).insert (.foreign ⟨kind, [], hkind⟩) note).records =
      [⟨kind, [], note⟩] := rfl
  have htransaction : (Psbt.transactionRecord Psbt.openBlank.transaction).write.length = 64 := by
    decide
  have hwhole :
      (notedCopy ((∅ : GlobalMap).insert (.foreign ⟨kind, [], hkind⟩) note)).WholeFits := by
    simp only [Psbt.WholeFits, notedCopy, hrecords, RawRecord.writeAll, List.flatMap_cons,
      List.flatMap_nil, List.length_append, htransaction, length_write_note kind hnote]
    decide
  exact ⟨_, Psbt.decode_bytes_iff.mpr ⟨⟨⟨rfl, rfl⟩, rfl, hblank.wellFormed.ordered⟩,
    ⟨hwhole, hblank.fits.inputs, hblank.fits.outputs⟩⟩⟩

/-- **Files can be written that cannot be read.** Two files with long records of other applications
are merged to a copy that is too long. -/
theorem not_files_transparent :
    ¬ ∀ (files : Directory) (i : Invocation) (output : String) (form : ExchangeForm),
      i.command.target? = some (output, form) →
      (i.run Curve.secp256k1 sampleNode files).result = .ok () →
      ∃ p, i.compute? Curve.secp256k1 (.ofFiles files) = some p ∧
        World.readPsbt ⟨(i.run Curve.secp256k1 sampleNode files).files.read, sampleNode⟩ output =
          .ok p := by
  intro h
  obtain ⟨note, hnote⟩ : ∃ note : Bytes, note.length = 2000000 :=
    ⟨List.replicate 2000000 0, List.length_replicate⟩
  let first : GlobalKey := .foreign ⟨0x70, [], rfl⟩
  let second : GlobalKey := .foreign ⟨0x71, [], rfl⟩
  let both := notedCopy (((∅ : GlobalMap).insert first note).insert second note)
  have hfirst : (notedCopy ((∅ : GlobalMap).insert first note)).Decoded :=
    decoded_notedCopy rfl hnote
  have hsecond : (notedCopy ((∅ : GlobalMap).insert second note)).Decoded :=
    decoded_notedCopy rfl hnote
  have hmerge : _ = some both := compute?_sampleFiles hfirst hsecond rfl
  have hwritten := (write_sampleFiles (notedCopy ((∅ : GlobalMap).insert first note))
    (notedCopy ((∅ : GlobalMap).insert second note)) both).2
  obtain ⟨hrun, -⟩ := (Invocation.run_eq_ok_iff rfl).mpr ⟨both, hmerge, hwritten⟩
  obtain ⟨p, hp, hread⟩ := h _ _ "b" .base64 rfl hrun
  obtain ⟨q, hq, hiff⟩ := Invocation.exists_of_run rfl hrun
  obtain rfl := Option.some.inj (hmerge.symm.trans hp)
  obtain rfl := Option.some.inj (hmerge.symm.trans hq)
  have hfits := (hiff.mp hread).whole
  have hrecords : both.globals.records = [⟨0x70, [], note⟩, ⟨0x71, [], note⟩] := rfl
  have hle : (2000007 + 2000007 : Nat) ≤ CompactSize.maxLength := by
    refine le_trans ?_ hfits
    simp only [hrecords, RawRecord.writeAll, List.flatMap_cons, List.flatMap_nil,
      List.length_append, length_write_note _ hnote]
    omega
  exact absurd hle (by decide)

end JointSpend.CommandLine
