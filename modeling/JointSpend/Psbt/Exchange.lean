import JointSpend.Fault
import JointSpend.Text.Blank

set_option autoImplicit false
set_option relaxedAutoImplicit false

/-!
# Exchange forms

Partially signed transactions pass between people as bytes or as base64 text. A reader that does
not know which form it has tries the text first.

## Main definitions

* `JointSpend.Psbt.decode` — from the binary form.
* `JointSpend.Psbt.bytesOfText`, `JointSpend.Psbt.decodeText` — from base64 text with blanks.
* `JointSpend.Psbt.decodeAny` — from either form.
* `JointSpend.Psbt.exportAs` — to either form.
-/

namespace JointSpend

/-- The two forms in which a partially signed transaction is passed on. -/
inductive ExchangeForm where
  | binary
  | base64
  deriving DecidableEq

namespace Psbt

/-- The partially signed transaction with the given binary form. -/
def decode (bs : Bytes) : Except Fault Psbt :=
  if bs = [] then .error .emptyEncoding
  else
    match ofBytes? bs with
    | some p => .ok p
    | none => .error .malformedEncoding

/-- The bytes that a base64 text stands for. Blanks may stand anywhere in it. -/
def bytesOfText (text : String) : Except Fault Bytes :=
  match Text.Base64.decode ((Text.utf8 text).filter (! Text.isAsciiBlank ·)) with
  | .ok bs => .ok bs
  | .error fault => .error (.badText fault)

/-- The partially signed transaction that a base64 text stands for. -/
def decodeText (text : String) : Except Fault Psbt := do
  decode (← bytesOfText text)

/-- The partially signed transaction in data of either form. Text that is base64 is taken at its
word: its bytes are not tried as a binary form themselves. -/
def decodeAny (data : Bytes) : Except Fault Psbt :=
  match (Text.ofUtf8? data).map bytesOfText with
  | some (.ok bs) => decode bs
  | _ => decode data

/-- The data to pass on; the text ends with a line feed. -/
def exportAs (p : Psbt) : ExchangeForm → Bytes
  | .binary => p.bytes
  | .base64 => Text.Base64.encodeBytes p.bytes ++ [10]

end Psbt

end JointSpend
