import JointSpend.PublicKey
import JointSpend.Script.Basic

set_option autoImplicit false
set_option relaxedAutoImplicit false

/-!
# Signing templates

The scripts that a signature can satisfy: a key hash, a single key, a threshold of keys, and the
key of a taproot output.

## Main definitions

* `JointSpend.Template` — what a script asks for.
* `JointSpend.Script.template?` — the template of a script, taproot apart.
* `JointSpend.Script.multisig` — the standard script for a threshold of keys.
-/

namespace JointSpend

/-- What a script asks a spender for. -/
inductive Template where
  /-- A key with the hash, and its signature. -/
  | pubkeyHash (hash : Fixed 20)
  /-- A signature of the key. -/
  | pubkey (key : PublicKey)
  /-- Signatures of `threshold` of the keys, in the order of the keys. -/
  | multisig (threshold : Nat) (keys : List PublicKey)
  /-- A signature of the output key. -/
  | taprootKey (key : Curve.XOnly)
  deriving DecidableEq

namespace Script

/-- The operation that checks one signature. -/
def checkSig : UInt8 := 0xac

/-- The operation that checks a threshold of signatures. -/
def checkMultisig : UInt8 := 0xae

/-- The number that an instruction pushes, from 1 to 16. -/
def smallNumber? : Instruction → Option Nat
  | .op code => if 0x51 ≤ code ∧ code ≤ 0x60 then some (code.toNat - 0x50) else none
  | .push _ => none

/-- The public key that an instruction pushes. -/
def pushedKey? : Instruction → Option PublicKey
  | .push data => PublicKey.ofBytes? data
  | .op _ => none

/-- The key of a script that pushes one key and checks its signature. -/
def pubkey? : List Instruction → Option Template
  | [key, .op code] => if code = checkSig then (pushedKey? key).map .pubkey else none
  | _ => none

/-- Threshold and keys of a script that pushes the threshold, the keys and their number, and checks
signatures. -/
def multisig? (is : List Instruction) : Option Template :=
  match is.reverse with
  | .op code :: count :: rest =>
    if code = checkMultisig then do
      let total ← smallNumber? count
      match rest.reverse with
      | [] => none
      | first :: pushes =>
        let threshold ← smallNumber? first
        let keys ← pushes.mapM pushedKey?
        if keys.length = total ∧ threshold ≤ total then some (.multisig threshold keys) else none
    else none
  | _ => none

/-- The template of a script, unless it is a taproot output. -/
def template? (s : Script) : Option Template :=
  match p2pkh.payload? s with
  | some hash => some (.pubkeyHash hash)
  | none =>
    match p2wpkh.payload? s with
    | some hash => some (.pubkeyHash hash)
    | none => do
      let is ← s.instructions?
      (pubkey? is).or (multisig? is)

/-- The standard script for `threshold` signatures of the keys, for up to 16 keys. -/
def multisig (threshold : Nat) (keys : List PublicKey) : Script :=
  ⟨UInt8.ofNat (0x50 + threshold) :: keys.flatMap (fun k => pushBytes k.bytes) ++
    [UInt8.ofNat (0x50 + keys.length), checkMultisig]⟩

/-- Whether the key has the hash. -/
def hashMatches (hash : Fixed 20) (key : PublicKey) : Bool :=
  Hash.hash160 key.bytes == hash

end Script

end JointSpend
