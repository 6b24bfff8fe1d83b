import JointSpend.Network
import JointSpend.Script.Basic
import JointSpend.Text.Base58
import JointSpend.Text.Bech32

set_option autoImplicit false
set_option relaxedAutoImplicit false

/-!
# Addresses

An address is the text of a standard output on a network.

## Main definitions

* `JointSpend.Address.ofScript?` — the address of an output script.
* `JointSpend.Address.script?` — the output script of an address of the given network.
-/

namespace JointSpend.Address

/-- The first byte of an address that pays to a key hash. -/
def pubkeyVersion : NetworkKind → UInt8
  | .main => 0
  | .test => 111

/-- The first byte of an address that pays to a script hash. -/
def scriptVersion : NetworkKind → UInt8
  | .main => 5
  | .test => 196

/-- Whether a witness program has a length that its version admits. -/
def admits (version : Nat) (program : Bytes) : Bool :=
  version != 0 || program.length == 20 || program.length == 32

/-- The address of an output script on a network, for the outputs that have one. -/
def ofScript? (network : Network) (s : Script) : Option String :=
  match Script.p2pkh.payload? s with
  | some hash => some (Text.Base58.encodeCheck (pubkeyVersion network.kind :: hash.bytes))
  | none =>
    match Script.p2sh.payload? s with
    | some hash => some (Text.Base58.encodeCheck (scriptVersion network.kind :: hash.bytes))
    | none =>
      match s.witnessProgram? with
      | some (version, program) =>
        if admits version program then
          some (Text.Bech32.encode network.addressPrefix version program)
        else none
      | none => none

/-- The output of a witness program. -/
def witnessScript (version : Nat) (program : Bytes) : Script :=
  ⟨UInt8.ofNat (if version = 0 then 0 else 0x50 + version) :: UInt8.ofNat program.length :: program⟩

/-- The output script of an address, if the text is an address of the network. -/
def script? (network : Network) (text : String) : Option Script :=
  match Text.Bech32.decode? text with
  | some (hrp, version, program) =>
    if hrp = network.addressPrefix then some (witnessScript version program) else none
  | none =>
    match Text.Base58.decodeCheck? text with
    | some (version :: payload) =>
      match Fixed.ofBytes? 20 payload with
      | some hash =>
        if version = pubkeyVersion network.kind then some (Script.p2pkh.script hash)
        else if version = scriptVersion network.kind then some (Script.p2sh.script hash)
        else none
      | none => none
    | _ => none

end JointSpend.Address
