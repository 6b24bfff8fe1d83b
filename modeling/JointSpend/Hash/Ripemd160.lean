import JointSpend.Bytes

set_option autoImplicit false
set_option relaxedAutoImplicit false

/-!
# RIPEMD-160

Two lines of eighty steps run over each block of 64 bytes, with different orders of the words,
different rotations and different constants; their results are crossed into the state.

## Main definitions

* `JointSpend.Hash.ripemd160` — the digest of a byte string.
-/

namespace JointSpend.Hash

namespace Ripemd160

/-- The five words of the state. -/
structure State where
  a : UInt32
  b : UInt32
  c : UInt32
  d : UInt32
  e : UInt32
  deriving DecidableEq

/-- The state before the first block. -/
def initial : State :=
  ⟨0x67452301, 0xefcdab89, 0x98badcfe, 0x10325476, 0xc3d2e1f0⟩

/-- Sixteen steps of one line share a mixing function and a constant. -/
structure Phase where
  /-- The mixing function of three words. -/
  mix : UInt32 → UInt32 → UInt32 → UInt32
  /-- The constant added at each step. -/
  constant : UInt32
  /-- For each step the index of its word and its rotation. -/
  steps : List (Nat × UInt32)

/-- The exclusive or of three words. -/
def mix1 (x y z : UInt32) : UInt32 := x ^^^ y ^^^ z

/-- The second word where the first has ones, else the third. -/
def mix2 (x y z : UInt32) : UInt32 := (x &&& y) ||| (~~~x &&& z)

/-- The first word or the inverse of the second, against the third. -/
def mix3 (x y z : UInt32) : UInt32 := (x ||| ~~~y) ^^^ z

/-- The first word where the third has ones, else the second. -/
def mix4 (x y z : UInt32) : UInt32 := (x &&& z) ||| (y &&& ~~~z)

/-- The first word against the second or the inverse of the third. -/
def mix5 (x y z : UInt32) : UInt32 := x ^^^ (y ||| ~~~z)

/-- The left line. -/
def left : List Phase :=
  [⟨mix1, 0x00000000,
      [(0, 11), (1, 14), (2, 15), (3, 12), (4, 5), (5, 8), (6, 7), (7, 9),
       (8, 11), (9, 13), (10, 14), (11, 15), (12, 6), (13, 7), (14, 9), (15, 8)]⟩,
   ⟨mix2, 0x5a827999,
      [(7, 7), (4, 6), (13, 8), (1, 13), (10, 11), (6, 9), (15, 7), (3, 15),
       (12, 7), (0, 12), (9, 15), (5, 9), (2, 11), (14, 7), (11, 13), (8, 12)]⟩,
   ⟨mix3, 0x6ed9eba1,
      [(3, 11), (10, 13), (14, 6), (4, 7), (9, 14), (15, 9), (8, 13), (1, 15),
       (2, 14), (7, 8), (0, 13), (6, 6), (13, 5), (11, 12), (5, 7), (12, 5)]⟩,
   ⟨mix4, 0x8f1bbcdc,
      [(1, 11), (9, 12), (11, 14), (10, 15), (0, 14), (8, 15), (12, 9), (4, 8),
       (13, 9), (3, 14), (7, 5), (15, 6), (14, 8), (5, 6), (6, 5), (2, 12)]⟩,
   ⟨mix5, 0xa953fd4e,
      [(4, 9), (0, 15), (5, 5), (9, 11), (7, 6), (12, 8), (2, 13), (10, 12),
       (14, 5), (1, 12), (3, 13), (8, 14), (11, 11), (6, 8), (15, 5), (13, 6)]⟩]

/-- The right line. -/
def right : List Phase :=
  [⟨mix5, 0x50a28be6,
      [(5, 8), (14, 9), (7, 9), (0, 11), (9, 13), (2, 15), (11, 15), (4, 5),
       (13, 7), (6, 7), (15, 8), (8, 11), (1, 14), (10, 14), (3, 12), (12, 6)]⟩,
   ⟨mix4, 0x5c4dd124,
      [(6, 9), (11, 13), (3, 15), (7, 7), (0, 12), (13, 8), (5, 9), (10, 11),
       (14, 7), (15, 7), (8, 12), (12, 7), (4, 6), (9, 15), (1, 13), (2, 11)]⟩,
   ⟨mix3, 0x6d703ef3,
      [(15, 9), (5, 7), (1, 15), (3, 11), (7, 8), (14, 6), (6, 6), (9, 14),
       (11, 12), (8, 13), (12, 5), (2, 14), (10, 13), (0, 13), (4, 7), (13, 5)]⟩,
   ⟨mix2, 0x7a6d76e9,
      [(8, 15), (6, 5), (4, 8), (1, 11), (3, 14), (11, 14), (15, 6), (0, 14),
       (5, 6), (12, 9), (2, 12), (13, 9), (9, 12), (7, 5), (10, 15), (14, 8)]⟩,
   ⟨mix1, 0x00000000,
      [(12, 8), (15, 5), (10, 12), (4, 9), (1, 12), (5, 5), (8, 14), (7, 6),
       (6, 8), (2, 13), (13, 6), (14, 5), (0, 15), (3, 13), (9, 11), (11, 11)]⟩]

/-- Rotation of a word to the left by fewer than 32 bits. -/
def rotateLeft (w : UInt32) (n : UInt32) : UInt32 :=
  (w <<< n) ||| (w >>> (32 - n))

/-- One line over the words of a block. -/
def line (phases : List Phase) (words : List UInt32) (s : State) : State :=
  phases.foldl (fun s phase =>
    phase.steps.foldl (fun s step =>
      let t := rotateLeft
        (s.a + phase.mix s.b s.c s.d + words.getD step.1 0 + phase.constant) step.2 + s.e
      ⟨s.e, t, s.b, rotateLeft s.c 10, s.d⟩) s) s

/-- Folds one block of 64 bytes into the state. -/
def compress (s : State) (block : Bytes) : State :=
  let words := (Bytes.chunks 4 block).map fun bs => UInt32.ofNat (Bytes.ofLittleEndian bs)
  let l := line left words s
  let r := line right words s
  ⟨s.b + l.c + r.d, s.c + l.d + r.e, s.d + l.e + r.a, s.e + l.a + r.b, s.a + l.b + r.c⟩

/-- A message with a one bit, zeros and its length in bits: a whole number of blocks. -/
def fill (message : Bytes) : Bytes :=
  let n := message.length
  message ++ 0x80 :: List.replicate ((119 - n % 64) % 64) 0 ++ Bytes.littleEndian 8 (8 * n)

/-- The bytes of the state. -/
def State.bytes (s : State) : Bytes :=
  [s.a, s.b, s.c, s.d, s.e].flatMap fun w => Bytes.littleEndian 4 w.toNat

end Ripemd160

/-- The RIPEMD-160 digest of a message. -/
def ripemd160 (message : Bytes) : Fixed 20 :=
  Fixed.ofPrefix 20
    ((Bytes.chunks 64 (Ripemd160.fill message)).foldl Ripemd160.compress Ripemd160.initial).bytes

end JointSpend.Hash
