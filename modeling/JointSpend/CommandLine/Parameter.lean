import JointSpend.Psbt.Exchange

set_option autoImplicit false
set_option relaxedAutoImplicit false

/-!
# Parameters of the command line

A parameter is an option, a flag or a place for plain words. Each kind has values of its own type,
and its values are read as soon as they are complete.

## Main definitions

* `JointSpend.CommandLine.UsageFault` — why a command line is refused.
* `JointSpend.CommandLine.Parameter` — the parameters.
* `JointSpend.CommandLine.Parameter.Value` — the type of the values of a parameter.
* `JointSpend.CommandLine.Parameter.read` — reads the values of a parameter.
* `JointSpend.CommandLine.Given` — the values that a command line gives.
-/

namespace JointSpend.CommandLine

/-- Why a command line is refused, or answered without running anything. -/
inductive UsageFault where
  /-- A parameter that has to be there is absent. -/
  | missingRequiredArgument
  /-- No parameter has the name, or there is no place for the word. -/
  | unknownArgument
  /-- There is no such command. -/
  | invalidSubcommand
  /-- A value is not one of the possible ones, or an option stands without its value. -/
  | invalidValue
  /-- A value is not a number in range. -/
  | valueValidation
  /-- A parameter is given twice. -/
  | argumentConflict
  /-- A flag has a value. -/
  | tooManyValues
  /-- There is no command, only other parameters. -/
  | missingSubcommand
  /-- There is nothing at all. -/
  | nothingGiven
  /-- The reader asks for help. -/
  | helpWanted
  /-- The reader asks for the version. -/
  | versionWanted
  deriving DecidableEq

/-- The parameters of all commands. -/
inductive Parameter where
  /-- The network. -/
  | network
  /-- The file to begin with. -/
  | inputFile
  /-- The file to write. -/
  | outputFile
  /-- The file with private keys. -/
  | keysFile
  /-- The form of the written file. -/
  | format
  /-- The index of an input. -/
  | index
  /-- An amount. -/
  | valueSats
  /-- A script in hexadecimal. -/
  | scriptPubkeyHex
  /-- Whether inputs are made final. -/
  | finalize
  /-- Whether signatures have to suffice. -/
  | noPartial
  /-- The indexes of inputs. -/
  | inputs
  /-- The address of a node. -/
  | esploraUrl
  /-- How long a node may take. -/
  | timeoutSecs
  /-- A file with a partially signed transaction. -/
  | psbt
  /-- Files with partially signed transactions. -/
  | psbts
  deriving DecidableEq

namespace Parameter

/-- The type of the values of a parameter. -/
abbrev Value : Parameter → Type
  | network => String
  | inputFile => String
  | outputFile => String
  | keysFile => String
  | format => ExchangeForm
  | index => Nat
  | valueSats => Nat
  | scriptPubkeyHex => String
  | finalize => Unit
  | noPartial => Unit
  | inputs => List Nat
  | esploraUrl => String
  | timeoutSecs => Nat
  | psbt => String
  | psbts => List String

/-- The name of an option or a flag. -/
def longName? : Parameter → Option String
  | network => some "network"
  | inputFile => some "input-file"
  | outputFile => some "output-file"
  | keysFile => some "keys-file"
  | format => some "format"
  | index => some "index"
  | valueSats => some "value-sats"
  | scriptPubkeyHex => some "script-pubkey-hex"
  | finalize => some "finalize"
  | noPartial => some "no-partial"
  | inputs => some "inputs"
  | esploraUrl => some "esplora-url"
  | timeoutSecs => some "timeout-secs"
  | psbt => none
  | psbts => none

/-- The letter of an option. -/
def letter? : Parameter → Option Char
  | network => some 'n'
  | inputFile => some 'i'
  | outputFile => some 'o'
  | keysFile => some 'k'
  | format => some 'f'
  | _ => none

/-- Whether a parameter stands without a value. -/
def isFlag : Parameter → Bool
  | finalize => true
  | noPartial => true
  | _ => false

/-- Joins the values of two occurrences, where a parameter may occur again. -/
def again? : (p : Parameter) → Option (p.Value → p.Value → p.Value)
  | inputs => some fun a b => a ++ b
  | psbts => some fun a b => a ++ b
  | _ => none

/-! ## Reading values -/

/-- A file name, which is not empty. -/
def readPath (word : String) : Except UsageFault String :=
  if word.isEmpty then .error .invalidValue else .ok word

/-- The name of an exchange form. -/
def readForm (word : String) : Except UsageFault ExchangeForm :=
  if word = "binary" then .ok .binary
  else if word = "base64" then .ok .base64
  else .error .invalidValue

/-- A number of 64 bits. A plus sign and zeros may stand before it. -/
def readNumber (word : String) : Except UsageFault Nat :=
  let digits : List Char :=
    match word.toList with
    | '+' :: rest => rest
    | cs => cs
  let n : Nat := digits.foldl (fun n c => 10 * n + (c.toNat - '0'.toNat)) 0
  if digits.isEmpty ∨ !digits.all Char.isDigit ∨ UInt64.size ≤ n then .error .valueValidation else .ok n

/-- Numbers with commas between them. -/
def readNumbers (word : String) : Except UsageFault (List Nat) :=
  (word.splitOn ",").mapM readNumber

/-- The one word of a parameter that takes one. -/
def single (words : List String) : Except UsageFault String :=
  match words with
  | [word] => .ok word
  | _ => .error .invalidValue

/-- Reads the values of one occurrence of a parameter. -/
def read (p : Parameter) (words : List String) : Except UsageFault p.Value :=
  match p with
  | network => single words
  | inputFile => single words >>= readPath
  | outputFile => single words >>= readPath
  | keysFile => single words >>= readPath
  | format => single words >>= readForm
  | index => single words >>= readNumber
  | valueSats => single words >>= readNumber
  | scriptPubkeyHex => single words
  | finalize => .ok ()
  | noPartial => .ok ()
  | inputs => single words >>= readNumbers
  | esploraUrl => single words
  | timeoutSecs => single words >>= readNumber
  | psbt => single words >>= readPath
  | psbts => words.mapM readPath

end Parameter

/-- The values that a command line gives. -/
abbrev Given := (p : Parameter) → Option p.Value

namespace Given

/-- Nothing is given. -/
def nothing : Given := fun _ => none

/-- The values with another one for a parameter. -/
def put (given : Given) (p : Parameter) (v : p.Value) : Given := fun q =>
  if h : p = q then some (h ▸ v) else given q

/-- The values with those of another occurrence of a parameter. -/
def add (given : Given) (p : Parameter) (words : List String) : Except UsageFault Given :=
  match given p, p.again? with
  | none, _ => given.put p <$> p.read words
  | some old, some join => (fun v => given.put p (join old v)) <$> p.read words
  | some _, none => .error .argumentConflict

/-- The value of a parameter that has to be there. -/
def need (given : Given) (p : Parameter) : Except UsageFault p.Value :=
  match given p with
  | some v => .ok v
  | none => .error .missingRequiredArgument

/-- Whether a parameter is given. -/
def has (given : Given) (p : Parameter) : Bool :=
  (given p).isSome

end Given

end JointSpend.CommandLine
