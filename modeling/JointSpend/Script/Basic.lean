import JointSpend.Hash.Derived
import JointSpend.Text.Hex

set_option autoImplicit false
set_option relaxedAutoImplicit false

/-!
# Scripts

A script is a byte string. The standard outputs are exact byte patterns around a hash or a key;
each pattern has a function that writes it and one that recognizes it. Other scripts are read as a
list of instructions.

## Main definitions

* `JointSpend.Script` — a script.
* `JointSpend.Script.Pattern` — a standard output: the bytes around its payload.
* `JointSpend.Script.instructions?` — the instructions of a script, if no push is cut off.
* `JointSpend.Script.pushAll?` — the script that pushes the given byte strings.
* `JointSpend.Script.witnessProgram?` — version and program of a witness output.
-/

namespace JointSpend

/-- A script. -/
structure Script where
  /-- The encoded instructions. -/
  bytes : Bytes
  deriving DecidableEq

namespace Script

/-- The script without instructions. -/
def empty : Script := ⟨[]⟩

/-- Whether the script has no instructions. -/
def isEmpty (s : Script) : Bool :=
  s.bytes.isEmpty

/-- The script in hexadecimal. -/
def text (s : Script) : String :=
  Text.Hex.encode s.bytes

/-! ## Standard outputs -/

/-- A standard output: a payload of fixed length between fixed bytes. -/
structure Pattern where
  /-- The bytes before the payload. -/
  front : Bytes
  /-- The length of the payload. -/
  size : Nat
  /-- The bytes behind the payload. -/
  back : Bytes

namespace Pattern

/-- The script with the given payload. -/
def script (p : Pattern) (payload : Fixed p.size) : Script :=
  ⟨p.front ++ payload.bytes ++ p.back⟩

/-- The payload of a script that has the pattern. -/
def payload? (p : Pattern) (s : Script) : Option (Fixed p.size) :=
  match Fixed.ofBytes? p.size ((s.bytes.drop p.front.length).take p.size) with
  | some payload => if s.bytes = p.front ++ payload.bytes ++ p.back then some payload else none
  | none => none

end Pattern

/-- Pays to the hash of a public key. -/
def p2pkh : Pattern := ⟨[0x76, 0xa9, 0x14], 20, [0x88, 0xac]⟩

/-- Pays to the hash of a script. -/
def p2sh : Pattern := ⟨[0xa9, 0x14], 20, [0x87]⟩

/-- Pays to the hash of a public key, spent in the witness. -/
def p2wpkh : Pattern := ⟨[0x00, 0x14], 20, []⟩

/-- Pays to the hash of a script, spent in the witness. -/
def p2wsh : Pattern := ⟨[0x00, 0x20], 32, []⟩

/-- Pays to a key with a script tree. -/
def p2tr : Pattern := ⟨[0x51, 0x20], 32, []⟩

/-- Whether the script has the pattern. -/
def matchesPattern (s : Script) (p : Pattern) : Bool :=
  (p.payload? s).isSome

/-- The output that pays to the hash of this script. -/
def hashOutput (redeem : Script) : Script :=
  p2sh.script (Hash.hash160 redeem.bytes)

/-- The output that pays to the hash of this script, spent in the witness. -/
def witnessOutput (witnessScript : Script) : Script :=
  p2wsh.script (Hash.sha256 witnessScript.bytes)

/-- The version and the program of a witness output: a small number and one direct push of 2 to 40
bytes. -/
def witnessProgram? (s : Script) : Option (Nat × Bytes) :=
  match s.bytes with
  | version :: size :: program =>
    if (version = 0 ∨ (0x51 ≤ version ∧ version ≤ 0x60)) ∧
        2 ≤ size.toNat ∧ size.toNat ≤ 40 ∧ program.length = size.toNat then
      some (if version = 0 then 0 else version.toNat - 0x50, program)
    else none
  | _ => none

/-! ## Instructions -/

/-- An instruction: a push of bytes, or any other operation. Pushing nothing is a push; the small
numbers from one on are operations. -/
inductive Instruction where
  | push (data : Bytes)
  | op (code : UInt8)
  deriving DecidableEq

/-- A push whose length is written in `n` bytes. -/
def readPush (n : Nat) : Reader Bytes := fun bs => do
  let (size, rest) ← Bytes.readLittleEndian n bs
  Bytes.splitExact size rest

/-- Reads one instruction. -/
def readInstruction : Reader Instruction
  | [] => none
  | b :: rest =>
    if b ≤ 0x4b then (Bytes.splitExact b.toNat rest).map fun r => (.push r.1, r.2)
    else if b = 0x4c then (readPush 1 rest).map fun r => (.push r.1, r.2)
    else if b = 0x4d then (readPush 2 rest).map fun r => (.push r.1, r.2)
    else if b = 0x4e then (readPush 4 rest).map fun r => (.push r.1, r.2)
    else some (.op b, rest)

/-- The instructions of at most `bound` instructions' worth of bytes. Each instruction has at least
one byte, so the length of the script is bound enough. -/
def instructionsWithin : Nat → Bytes → Option (List Instruction)
  | _, [] => some []
  | 0, _ :: _ => none
  | bound + 1, b :: rest => do
    let (i, rest) ← readInstruction (b :: rest)
    let is ← instructionsWithin bound rest
    return i :: is

/-- The instructions of a script, unless a push runs past its end. -/
def instructions? (s : Script) : Option (List Instruction) :=
  instructionsWithin s.bytes.length s.bytes

/-- The push of a byte string, with the shortest of the four length forms. Nothing shorter is
chosen for small numbers. -/
def pushBytes (data : Bytes) : Bytes :=
  let n := data.length
  if n < 0x4c then UInt8.ofNat n :: data
  else if n < 0x100 then 0x4c :: UInt8.ofNat n :: data
  else if n < 0x10000 then 0x4d :: Bytes.littleEndian 2 n ++ data
  else 0x4e :: Bytes.littleEndian 4 n ++ data

/-- The script that pushes the byte strings in order, if each can be pushed. -/
def pushAll? (items : List Bytes) : Option Script :=
  if items.all fun item => item.length < 0x100000000 then some ⟨items.flatMap pushBytes⟩ else none

end Script

end JointSpend
