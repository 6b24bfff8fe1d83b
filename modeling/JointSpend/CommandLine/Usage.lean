import JointSpend.CommandLine.Parameter

set_option autoImplicit false
set_option relaxedAutoImplicit false

/-!
# What is said about usage

## Main definitions

* `JointSpend.CommandLine.UsageFault.message` — the wording of a refused command line.
* `JointSpend.CommandLine.help` — the overview of the commands.
-/

namespace JointSpend.CommandLine

/-- The overview of the commands. -/
def help : String :=
  "\n".intercalate [
    "Usage: joint-spend [-n NETWORK] COMMAND",
    "",
    "  create    -i PLAN -o FILE [-f FORM]",
    "  analyze   PSBT",
    "  update    PSBT --index N --value-sats N --script-pubkey-hex HEX -o FILE [-f FORM]",
    "  merge     PSBT... -o FILE [-f FORM]",
    "  sign      PSBT -k KEYS [--finalize] [--no-partial] [--inputs N,N] -o FILE [-f FORM]",
    "  finalize  PSBT -o FILE [-f FORM]",
    "  extract   PSBT [-o FILE]",
    "  broadcast PSBT [--esplora-url URL] [--timeout-secs N]",
    "  convert   PSBT -o FILE -f FORM",
    "",
    "NETWORK is bitcoin, testnet, signet or regtest; FORM is binary or base64."]

namespace UsageFault

/-- The wording of a refused command line. -/
def message : UsageFault → String
  | missingRequiredArgument => "a required argument is missing"
  | unknownArgument => "an argument is not expected here"
  | invalidSubcommand => "there is no such command"
  | invalidValue => "a value is missing or not one of the possible ones"
  | valueValidation => "a value is not a number in range"
  | argumentConflict => "an argument is given twice"
  | tooManyValues => "a flag takes no value"
  | missingSubcommand => "a command is missing"
  | nothingGiven => "a command is missing"
  | helpWanted => help
  | versionWanted => "joint-spend 0.1.0"

/-- Whether the reader asked for what is said. -/
def isAnswer : UsageFault → Bool
  | helpWanted => true
  | versionWanted => true
  | _ => false

end UsageFault

end JointSpend.CommandLine
