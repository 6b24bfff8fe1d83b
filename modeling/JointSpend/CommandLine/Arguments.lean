import JointSpend.CommandLine.Command

set_option autoImplicit false
set_option relaxedAutoImplicit false

/-!
# Reading command lines

A command line has two levels: what stands before the name of the command, and what follows it. A
level is read word by word. The words of an option are held back until the option is complete, so
that a fault in them is found when the next option is met, and not before.

## Main definitions

* `JointSpend.CommandLine.Invocation` — a command and the name of a network.
* `JointSpend.CommandLine.Reading` — how far a level has been read.
* `JointSpend.CommandLine.parse` — reads a command line.
-/

namespace JointSpend.CommandLine

/-- A command and the name of the network it is meant for. -/
structure Invocation where
  network : String
  command : Command
  deriving DecidableEq

/-- A level of a command line: before any command, or after one. -/
abbrev Level := Option CommandName

/-- What an option on the command line asks for. -/
inductive Switch where
  /-- A parameter is set. -/
  | parameter (p : Parameter)
  /-- Help is asked for. -/
  | help
  /-- The version is asked for. -/
  | version
  deriving DecidableEq

namespace Level

/-- The options and flags of a level. -/
def options : Level → List Parameter
  | none => [.network]
  | some name => .network :: name.options

/-- The place of a level for plain words. -/
def place? : Level → Option Parameter
  | none => none
  | some name => name.place?

/-- What a long name asks for on a level. -/
def ofLongName? (level : Level) (name : String) : Option Switch :=
  match level.options.find? fun p => p.longName? == some name with
  | some p => some (.parameter p)
  | none =>
    if name = "help" then some .help
    else if name = "version" ∧ level.isNone then some .version
    else none

/-- What a letter asks for on a level. -/
def ofLetter? (level : Level) (c : Char) : Option Switch :=
  match level.options.find? fun p => p.letter? == some c with
  | some p => some (.parameter p)
  | none =>
    if c = 'h' then some .help
    else if c = 'V' ∧ level.isNone then some .version
    else none

end Level

/-- An option as it is written: what it asks for, unless that is unknown, and the value that is
attached to it. -/
structure WrittenOption where
  switch? : Option Switch
  attached : Option String
  deriving DecidableEq

/-- Splits a long option at its first equals sign. -/
def splitLong (level : Level) (cs : List Char) : WrittenOption :=
  let (name, rest) := cs.span (· != '=')
  ⟨level.ofLongName? (String.ofList name),
    match rest with
    | [] => none
    | _ :: value => some (String.ofList value)⟩

/-- Splits a short option after its letter; an equals sign may stand before the value. -/
def splitShort (level : Level) (c : Char) (rest : List Char) : WrittenOption :=
  ⟨level.ofLetter? c,
    match rest with
    | [] => none
    | '=' :: value => some (String.ofList value)
    | value => some (String.ofList value)⟩

/-- The option that a word is. A single hyphen is a plain word. -/
def writtenOption? (level : Level) (word : String) : Option WrittenOption :=
  match word.toList with
  | '-' :: '-' :: rest => some (splitLong level rest)
  | '-' :: c :: rest => some (splitShort level c rest)
  | _ => none

/-- A parameter whose words are held back. -/
structure Pending where
  parameter : Parameter
  /-- Its words in order. -/
  words : List String
  /-- Whether it is an option that waits for its value. -/
  waiting : Bool
  deriving DecidableEq

/-- How far a level has been read. -/
structure Reading where
  given : Given
  pending : Option Pending
  /-- Whether the options have ended. -/
  onlyWords : Bool
  /-- Whether the place for plain words is taken. -/
  filled : Bool

namespace Reading

/-- Nothing has been read. -/
def start : Reading := ⟨.nothing, none, false, false⟩

/-- Takes the words of a parameter. -/
def record (r : Reading) (p : Parameter) (words : List String) : Except UsageFault Reading := do
  if words.isEmpty && !p.isFlag then throw .invalidValue
  return { r with given := ← r.given.add p words }

/-- Takes the words that were held back. -/
def settle (r : Reading) : Except UsageFault Reading :=
  match r.pending with
  | none => .ok r
  | some pending => { r with pending := none }.record pending.parameter pending.words

/-- Whether an option waits for its value. -/
def isWaiting (r : Reading) : Bool :=
  r.pending.any (·.waiting)

/-- Takes an option. -/
def takeOption (r : Reading) (option : WrittenOption) : Except UsageFault Reading :=
  match option.switch?, option.attached with
  | none, _ => .error .unknownArgument
  | some .help, some _ => .error .tooManyValues
  | some .version, some _ => .error .tooManyValues
  | some .help, none => do
    let _ ← r.settle
    throw .helpWanted
  | some .version, none => do
    let _ ← r.settle
    throw .versionWanted
  | some (.parameter p), some value =>
    if p.isFlag then .error .tooManyValues
    else do (← r.settle).record p [value]
  | some (.parameter p), none => do
    let r ← r.settle
    if p.isFlag then r.record p []
    else return { r with pending := some ⟨p, [], true⟩ }

/-- Takes a word as the value of the option that waits for it. -/
def takeValue (r : Reading) (word : String) : Reading :=
  { r with pending := r.pending.map fun pending => { pending with words := [word], waiting := false } }

/-- Takes a plain word into the place for it. Where many words have their place, those that follow
each other are taken together. -/
def takeWord (r : Reading) (place : Option Parameter) (word : String) : Except UsageFault Reading :=
  match place with
  | none => .error .unknownArgument
  | some p =>
    if r.filled && p.again?.isNone then .error .unknownArgument
    else
      match r.pending with
      | some ⟨q, words, _⟩ =>
        if q = p then .ok { r with pending := some ⟨p, words ++ [word], false⟩ }
        else do return { ← r.settle with pending := some ⟨p, [word], false⟩, filled := true }
      | none => .ok { r with pending := some ⟨p, [word], false⟩, filled := true }

end Reading

/-- Reads a word that is neither a command nor the end of the options. -/
def readWord (level : Level) (r : Reading) (word : String) : Except UsageFault Reading :=
  if r.onlyWords then r.takeWord level.place? word
  else
    match writtenOption? level word with
    | some option => r.takeOption option
    | none => if r.isWaiting then .ok (r.takeValue word) else r.takeWord level.place? word

/-- Ends the options: what waits for its value goes on waiting in vain. -/
def Reading.endOptions (r : Reading) : Reading :=
  { r with onlyWords := true }

/-- Reads the words after the name of a command. -/
def readArguments (name : CommandName) : List String → Reading → Except UsageFault Given
  | [], r => return (← r.settle).given
  | word :: words, r => do
    if word = "--" ∧ !r.onlyWords then readArguments name words r.endOptions
    else readArguments name words (← readWord (some name) r word)

/-- The answer to a request for help on a command. -/
def helpOn : List String → UsageFault
  | [] => .helpWanted
  | [word] =>
    if word = "help" ∨ (CommandName.ofText? word).isSome then .helpWanted else .invalidSubcommand
  | _ => .invalidSubcommand

/-- What is wrong with a plain word before any command. -/
def strayWord (onlyWords : Bool) (word : String) : UsageFault :=
  if onlyWords ∧ (word = "help" ∨ (CommandName.ofText? word).isSome) then .unknownArgument
  else .invalidSubcommand

/-- The command with the given arguments. The network may stand before the name of the command or
after it; what stands after it counts. -/
def invocation (name : CommandName) (before after : Given) : Except UsageFault Invocation :=
  return ⟨((after .network <|> before .network).getD "testnet"), ← name.command after⟩

/-- Reads a command line from the start. -/
def readCommand : List String → Reading → Except UsageFault Invocation
  | [], r => do
    let r ← r.settle
    if r.given.has .network then throw .missingSubcommand else throw .nothingGiven
  | word :: words, r => do
    if word = "--" ∧ !r.onlyWords then readCommand words r.endOptions
    else if r.onlyWords then throw (strayWord true word)
    else if r.isWaiting then readCommand words (← readWord none r word)
    else if word = "help" then throw (helpOn words)
    else
      match CommandName.ofText? word, writtenOption? none word with
      | some name, _ => do
        let r ← r.settle
        invocation name r.given (← readArguments name words .start)
      | none, some option => do readCommand words (← r.takeOption option)
      | none, none => throw (strayWord false word)

/-- Reads a command line. -/
def parse (words : List String) : Except UsageFault Invocation :=
  readCommand words .start

end JointSpend.CommandLine
