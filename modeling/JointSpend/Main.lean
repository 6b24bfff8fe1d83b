import JointSpend.CommandLine.Run
import JointSpend.CommandLine.Usage
import JointSpend.Curve.Secp256k1

set_option autoImplicit false
set_option relaxedAutoImplicit false

/-!
# The program

Reads the files that the command names, lets the library say what is to be done, and does it. No
network is reached from here: a transaction that is to be sent is reported as not sent.
-/

namespace JointSpend

open CommandLine

/-- The fault of an operation on a file. -/
def ioFault : IO.Error → Fault
  | .noFileOrDirectory .. => FileFault.notFound.fault
  | e => .io (toString e)

/-- Reads a file as a whole. -/
def readBytes (path : String) : IO (Except Fault Bytes) := do
  try
    return .ok (← IO.FS.readBinFile path).toList
  catch e =>
    return .error (ioFault e)

/-- Writes a file as a whole. -/
def writeBytes (path : String) (bytes : Bytes) : IO (Except Fault Unit) := do
  try
    IO.FS.writeBinFile path ⟨bytes.toArray⟩
    return .ok ()
  catch e =>
    return .error (ioFault e)

/-- No node is reached. -/
def unreachable (url : String) (_ : Nat) : Broadcaster := fun _ =>
  .error (.notSent .transport ("no connection to " ++ url))

/-- Does one thing after the other, until one fails. -/
def perform : List Effect → IO (Except Fault Unit)
  | [] => return .ok ()
  | .print line :: rest => do
    IO.println line
    perform rest
  | .write path bytes :: rest => do
    match ← writeBytes path bytes with
    | .ok () => perform rest
    | .error fault => return .error fault

/-- Runs a command. -/
def runCommand (invocation : Invocation) : IO (Except Fault Unit) := do
  match Network.parse invocation.network with
  | .error fault => return .error fault
  | .ok network =>
    let contents ← invocation.command.sources.mapM fun path => return (path, ← readBytes path)
    let read (path : String) : Except Fault Bytes :=
      (contents.lookup path).getD (.error FileFault.notFound.fault)
    match invocation.command.effects Curve.secp256k1 ⟨read, unreachable⟩ network with
    | .error fault => return .error fault
    | .ok effects => perform effects

end JointSpend

/-- Runs the command line. -/
def main (args : List String) : IO UInt32 := do
  match JointSpend.CommandLine.parse args with
  | .error fault =>
    if fault.isAnswer then
      IO.println fault.message
      return 0
    else
      IO.eprintln ("error: " ++ fault.message)
      return 2
  | .ok invocation =>
    match ← JointSpend.runCommand invocation with
    | .ok () => return 0
    | .error fault =>
      IO.eprintln ("error: " ++ fault.message)
      return 1
