import JointSpend.CommandLine.Parameter

set_option autoImplicit false
set_option relaxedAutoImplicit false

/-!
# Commands

## Main definitions

* `JointSpend.CommandLine.CommandName` — the names of the commands and their parameters.
* `JointSpend.CommandLine.Command` — the commands with their arguments.
* `JointSpend.CommandLine.CommandName.command` — the command with given arguments.
-/

namespace JointSpend.CommandLine

/-- The names of the commands. -/
inductive CommandName where
  | create
  | analyze
  | update
  | merge
  | sign
  | finalize
  | extract
  | broadcast
  | convert
  deriving DecidableEq

namespace CommandName

/-- The command with a name. -/
def ofText? : String → Option CommandName
  | "create" => some create
  | "analyze" => some analyze
  | "update" => some update
  | "merge" => some merge
  | "sign" => some sign
  | "finalize" => some finalize
  | "extract" => some extract
  | "broadcast" => some broadcast
  | "convert" => some convert
  | _ => none

/-- The options and flags of a command besides those of all commands. -/
def options : CommandName → List Parameter
  | create => [.inputFile, .outputFile, .format]
  | analyze => []
  | update => [.index, .valueSats, .scriptPubkeyHex, .outputFile, .format]
  | merge => [.outputFile, .format]
  | sign => [.keysFile, .finalize, .noPartial, .inputs, .outputFile, .format]
  | finalize => [.outputFile, .format]
  | extract => [.outputFile]
  | broadcast => [.esploraUrl, .timeoutSecs]
  | convert => [.outputFile, .format]

/-- The place of a command for plain words. -/
def place? : CommandName → Option Parameter
  | create => none
  | merge => some .psbts
  | _ => some .psbt

end CommandName

/-- The commands with their arguments. -/
inductive Command where
  /-- Carries out a plan. -/
  | create (plan output : String) (form : ExchangeForm)
  /-- Shows what the state of a copy means. -/
  | analyze (psbt : String)
  /-- Records the output that an input spends. -/
  | update (psbt : String) (index value : Nat) (script output : String) (form : ExchangeForm)
  /-- Unites copies. -/
  | merge (psbts : List String) (output : String) (form : ExchangeForm)
  /-- Signs with the keys of a file; no indexes stand for all inputs. -/
  | sign (psbt keys : String) (finalize noPartial : Bool) (inputs : List Nat) (output : String)
    (form : ExchangeForm)
  /-- Makes inputs final. -/
  | finalize (psbt output : String) (form : ExchangeForm)
  /-- Shows the final transaction. -/
  | extract (psbt : String) (output : Option String)
  /-- Sends the final transaction to a node, which may take some seconds. -/
  | broadcast (psbt : String) (url : Option String) (seconds : Nat)
  /-- Changes the exchange form. -/
  | convert (psbt output : String) (form : ExchangeForm)
  deriving DecidableEq

/-- The form of written files unless another one is asked for. -/
def Given.form (given : Given) : ExchangeForm :=
  (given .format).getD .base64

/-- The command with given arguments, if all that have to be there are. -/
def CommandName.command (name : CommandName) (given : Given) : Except UsageFault Command :=
  match name with
  | create => return .create (← given.need .inputFile) (← given.need .outputFile) given.form
  | analyze => return .analyze (← given.need .psbt)
  | update =>
    return .update (← given.need .psbt) (← given.need .index) (← given.need .valueSats)
      (← given.need .scriptPubkeyHex) (← given.need .outputFile) given.form
  | merge => return .merge (← given.need .psbts) (← given.need .outputFile) given.form
  | sign =>
    return .sign (← given.need .psbt) (← given.need .keysFile) (given.has .finalize)
      (given.has .noPartial) ((given .inputs).getD []) (← given.need .outputFile) given.form
  | finalize => return .finalize (← given.need .psbt) (← given.need .outputFile) given.form
  | extract => return .extract (← given.need .psbt) (given .outputFile)
  | broadcast =>
    return .broadcast (← given.need .psbt) (given .esploraUrl) ((given .timeoutSecs).getD 30)
  | convert =>
    return .convert (← given.need .psbt) (← given.need .outputFile) (← given.need .format)

end JointSpend.CommandLine
