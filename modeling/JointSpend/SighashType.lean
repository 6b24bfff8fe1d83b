import JointSpend.Curve.Der

set_option autoImplicit false
set_option relaxedAutoImplicit false

/-!
# Signatures with their sighash types

A signature says in one byte which parts of the transaction it covers.

## Main definitions

* `JointSpend.SighashType`, `JointSpend.TaprootSighashType` — what a signature covers.
* `JointSpend.TypedSignature`, `JointSpend.TaprootSignature` — signatures as they are pushed.
-/

namespace JointSpend

/-- Which outputs a signature covers. -/
inductive OutputScope where
  | all
  | none
  | single
  deriving DecidableEq

/-- What a signature covers: which outputs, and whether only its own input. -/
structure SighashType where
  /-- The outputs that are covered. -/
  outputs : OutputScope
  /-- Whether other inputs may be added. -/
  anyoneCanPay : Bool
  deriving DecidableEq

namespace SighashType

/-- All outputs and all inputs. -/
def all : SighashType := ⟨.all, false⟩

/-- The byte that stands for the type. -/
def byte (t : SighashType) : UInt8 :=
  (match t.outputs with
    | .all => 1
    | .none => 2
    | .single => 3) + (if t.anyoneCanPay then 0x80 else 0)

/-- The type that a byte stands for. -/
def ofByte? (b : UInt8) : Option SighashType :=
  if b = 0x01 then some ⟨.all, false⟩
  else if b = 0x02 then some ⟨.none, false⟩
  else if b = 0x03 then some ⟨.single, false⟩
  else if b = 0x81 then some ⟨.all, true⟩
  else if b = 0x82 then some ⟨.none, true⟩
  else if b = 0x83 then some ⟨.single, true⟩
  else none

/-- The type that a number stands for. -/
def ofUInt32? (w : UInt32) : Option SighashType :=
  if w < 0x100 then ofByte? (UInt8.ofNat w.toNat) else none

end SighashType

/-- What a taproot signature covers; the default covers all and is not written. -/
inductive TaprootSighashType where
  | default
  | explicit (type : SighashType)
  deriving DecidableEq

namespace TaprootSighashType

/-- The byte that stands for the type. -/
def byte : TaprootSighashType → UInt8
  | .default => 0
  | .explicit t => t.byte

/-- The type that a byte stands for. -/
def ofByte? (b : UInt8) : Option TaprootSighashType :=
  if b = 0 then some .default else (SighashType.ofByte? b).map .explicit

/-- The outputs that are covered. -/
def outputs : TaprootSighashType → OutputScope
  | .default => .all
  | .explicit t => t.outputs

/-- Whether other inputs may be added. -/
def anyoneCanPay : TaprootSighashType → Bool
  | .default => false
  | .explicit t => t.anyoneCanPay

end TaprootSighashType

/-- An ECDSA signature with its sighash type. -/
structure TypedSignature where
  signature : Curve.EcdsaSignature
  sighash : SighashType
  deriving DecidableEq

namespace TypedSignature

/-- The signature as it is pushed: the encoding and the byte of the type. -/
def bytes (s : TypedSignature) : Bytes :=
  s.signature.toDer ++ [s.sighash.byte]

/-- Reads a pushed signature. -/
def ofBytes? (bs : Bytes) : Option TypedSignature := do
  let last ← bs.getLast?
  let sighash ← SighashType.ofByte? last
  let signature ← Curve.EcdsaSignature.ofDer? bs.dropLast
  return ⟨signature, sighash⟩

end TypedSignature

/-- A taproot signature with its sighash type. -/
structure TaprootSignature where
  signature : Fixed 64
  sighash : TaprootSighashType
  deriving DecidableEq

namespace TaprootSignature

/-- The signature as it is pushed: the byte of the default type is left off. -/
def bytes (s : TaprootSignature) : Bytes :=
  match s.sighash with
  | .default => s.signature.bytes
  | .explicit t => s.signature.bytes ++ [t.byte]

/-- Reads a pushed signature: 64 bytes, or 65 of which the last is the type. -/
def ofBytes? (bs : Bytes) : Option TaprootSignature := do
  let signature ← Fixed.ofBytes? 64 (bs.take 64)
  match bs.drop 64 with
  | [] => return ⟨signature, .default⟩
  | [b] => return ⟨signature, ← TaprootSighashType.ofByte? b⟩
  | _ => none

end TaprootSignature

end JointSpend
