import JointSpend.Bytes

set_option autoImplicit false
set_option relaxedAutoImplicit false

/-!
# Compact sizes

A compact size is a number below `2 ^ 64` in one, three, five or nine bytes. Each number has one
form, the shortest; a longer one is refused.

## Main definitions

* `JointSpend.CompactSize.write`, `JointSpend.CompactSize.read` — the number and its form.
* `JointSpend.CompactSize.writeBytes`, `JointSpend.CompactSize.readBytes` — a byte string after its
  length.
* `JointSpend.CompactSize.writeList`, `JointSpend.CompactSize.readList` — a list after its length.
-/

namespace JointSpend

namespace CompactSize

/-- The greatest number of bytes that a reader takes at once. -/
def maxLength : Nat := 4000000

/-- The shortest form of a number below `2 ^ 64`. -/
def write (n : Nat) : Bytes :=
  if n < 0xfd then [UInt8.ofNat n]
  else if n < 0x10000 then 0xfd :: Bytes.littleEndian 2 n
  else if n < 0x100000000 then 0xfe :: Bytes.littleEndian 4 n
  else 0xff :: Bytes.littleEndian 8 n

/-- A number of `n` bytes that is at least `least`, so that no shorter form holds it. -/
def readWide (n least : Nat) : Reader Nat := fun bs => do
  let (v, rest) ← Bytes.readLittleEndian n bs
  if v < least then none else some (v, rest)

/-- Reads a number in its shortest form. -/
def read : Reader Nat
  | [] => none
  | b :: rest =>
    if b = 0xfd then readWide 2 0xfd rest
    else if b = 0xfe then readWide 4 0x10000 rest
    else if b = 0xff then readWide 8 0x100000000 rest
    else some (b.toNat, rest)

/-- A byte string after its length. -/
def writeBytes (bs : Bytes) : Bytes :=
  write bs.length ++ bs

/-- Reads a byte string after its length. The bytes of the length count among those that are taken
at once. -/
def readBytes : Reader Bytes := fun bs => do
  let (n, rest) ← read bs
  if (write n).length + n ≤ maxLength then Bytes.splitExact n rest else none

/-- A list after its length. -/
def writeList {α : Type} (writer : α → Bytes) (as : List α) : Bytes :=
  write as.length ++ as.flatMap writer

/-- Reads a list after its length. Each element consumes at least one byte, so a length beyond the
rest of the input is refused before any element is read. -/
def readList {α : Type} (reader : Reader α) : Reader (List α) := fun bs => do
  let (n, rest) ← read bs
  if n ≤ rest.length then Bytes.readMany reader n rest else none

end CompactSize

end JointSpend
