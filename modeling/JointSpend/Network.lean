import JointSpend.PublicKey
import JointSpend.Text.Lowercase

set_option autoImplicit false
set_option relaxedAutoImplicit false

/-!
# Networks

## Main definitions

* `JointSpend.Network` — the networks.
* `JointSpend.Network.ofName` — the network with a name, in letters of either case.
-/

namespace JointSpend

/-- The networks. -/
inductive Network where
  | bitcoin
  | testnet
  | signet
  | regtest
  deriving DecidableEq

namespace Network

/-- The network that a name in small letters stands for. -/
def ofLowercaseName? (name : String) : Option Network :=
  if name = "bitcoin" ∨ name = "mainnet" then some .bitcoin
  else if name = "testnet" then some .testnet
  else if name = "signet" then some .signet
  else if name = "regtest" then some .regtest
  else none

/-- The network that a name stands for, or the name in small letters if there is none. -/
def ofName (name : String) : Except String Network :=
  let lowered := Text.lowercase name
  match ofLowercaseName? lowered with
  | some network => .ok network
  | none => .error lowered

/-- The name of a network in messages. -/
def title : Network → String
  | .bitcoin => "Bitcoin"
  | .testnet => "Testnet"
  | .signet => "Signet"
  | .regtest => "Regtest"

/-- The kind of a network: all but one are test networks. -/
def kind : Network → NetworkKind
  | .bitcoin => .main
  | _ => .test

/-- The human-readable part of witness addresses. Two networks share theirs. -/
def addressPrefix : Network → String
  | .bitcoin => "bc"
  | .testnet => "tb"
  | .signet => "tb"
  | .regtest => "bcrt"

end Network

/-- The name of a kind of network in messages. -/
def NetworkKind.title : NetworkKind → String
  | .main => "Main"
  | .test => "Test"

end JointSpend
