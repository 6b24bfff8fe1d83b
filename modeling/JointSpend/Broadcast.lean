import JointSpend.Spend.Finalize
import JointSpend.Text.Blank

set_option autoImplicit false
set_option relaxedAutoImplicit false

/-!
# Sending the transaction

When all inputs can be satisfied, the transaction is handed to a node. How a node is reached is left
to a function; what its answer means is decided here.

## Main definitions

* `JointSpend.Broadcaster` — hands a transaction to a node.
* `JointSpend.Psbt.send` — finalizes a copy, extracts the transaction and hands it over.
* `JointSpend.NodeAnswer.txid` — what the answer of a node means.
* `JointSpend.Node.baseUrl`, `JointSpend.Node.defaultUrl` — where a node is found.
-/

namespace JointSpend

/-- Hands a transaction to a node; the answer is its identifier. -/
abbrev Broadcaster := Transaction → Except Fault TxId

/-- What came of sending: the transactions that were handed over, and the answer. -/
structure Sending where
  /-- The transactions that were handed over, in order. -/
  handedOver : List Transaction
  /-- The identifier, or why there is none. -/
  result : Except Fault TxId

namespace Psbt

variable (scheme : SignatureScheme)

/-- The transaction of a copy in which all inputs are final that can be. -/
def finalTransaction (p : Psbt) : Except Fault Transaction :=
  (p.finalize scheme).extract

/-- Finalizes a copy, extracts the transaction and hands it over. Nothing is handed over when an
input lacks something. -/
def send (p : Psbt) (broadcaster : Broadcaster) : Sending :=
  match p.finalTransaction scheme with
  | .ok tx => ⟨[tx], broadcaster tx⟩
  | .error fault => ⟨[], .error fault⟩

end Psbt

/-! ## Answers -/

/-- The standard phrase of a status code. -/
def reasonPhrase : Nat → String
  | 100 => "Continue"
  | 101 => "Switching Protocols"
  | 102 => "Processing"
  | 200 => "OK"
  | 201 => "Created"
  | 202 => "Accepted"
  | 203 => "Non Authoritative Information"
  | 204 => "No Content"
  | 205 => "Reset Content"
  | 206 => "Partial Content"
  | 207 => "Multi-Status"
  | 208 => "Already Reported"
  | 226 => "IM Used"
  | 300 => "Multiple Choices"
  | 301 => "Moved Permanently"
  | 302 => "Found"
  | 303 => "See Other"
  | 304 => "Not Modified"
  | 305 => "Use Proxy"
  | 307 => "Temporary Redirect"
  | 308 => "Permanent Redirect"
  | 400 => "Bad Request"
  | 401 => "Unauthorized"
  | 402 => "Payment Required"
  | 403 => "Forbidden"
  | 404 => "Not Found"
  | 405 => "Method Not Allowed"
  | 406 => "Not Acceptable"
  | 407 => "Proxy Authentication Required"
  | 408 => "Request Timeout"
  | 409 => "Conflict"
  | 410 => "Gone"
  | 411 => "Length Required"
  | 412 => "Precondition Failed"
  | 413 => "Payload Too Large"
  | 414 => "URI Too Long"
  | 415 => "Unsupported Media Type"
  | 416 => "Range Not Satisfiable"
  | 417 => "Expectation Failed"
  | 418 => "I'm a teapot"
  | 421 => "Misdirected Request"
  | 422 => "Unprocessable Entity"
  | 423 => "Locked"
  | 424 => "Failed Dependency"
  | 426 => "Upgrade Required"
  | 428 => "Precondition Required"
  | 429 => "Too Many Requests"
  | 431 => "Request Header Fields Too Large"
  | 451 => "Unavailable For Legal Reasons"
  | 500 => "Internal Server Error"
  | 501 => "Not Implemented"
  | 502 => "Bad Gateway"
  | 503 => "Service Unavailable"
  | 504 => "Gateway Timeout"
  | 505 => "HTTP Version Not Supported"
  | 506 => "Variant Also Negotiates"
  | 507 => "Insufficient Storage"
  | 508 => "Loop Detected"
  | 510 => "Not Extended"
  | 511 => "Network Authentication Required"
  | _ => "<unknown status code>"

/-- The answer of a node. -/
structure NodeAnswer where
  /-- The status code. -/
  status : Nat
  /-- The body. -/
  body : String
  deriving DecidableEq

/-- What the answer of a node means. With a status of success the body has to be an identifier;
with any other the transaction was refused for the reason in the body. Blanks around the body do not
count. -/
def NodeAnswer.txid (answer : NodeAnswer) : Except Fault TxId :=
  let body := Text.trim answer.body
  if 200 ≤ answer.status ∧ answer.status < 300 then
    match TxId.ofText? body with
    | some txid => .ok txid
    | none => .error (.notSent .invalidResponse
        ("TXIDではない応答 (" ++ body ++ "): 64桁の16進数ではありません"))
  else
    .error (.notSent .rejected
      ("HTTP " ++ toString answer.status ++ " " ++ reasonPhrase answer.status ++ ": " ++ body))

/-! ## Where a node is found -/

namespace Node

/-- The address of a node without slashes at its end. -/
def baseUrl (url : String) : String :=
  String.ofList (Text.dropRightWhile (· == '/') url.toList)

/-- The public node of a network; on a private network, one on this machine. -/
def defaultUrl : Network → String
  | .bitcoin => "https://blockstream.info/api"
  | .testnet => "https://blockstream.info/testnet/api"
  | .signet => "https://mempool.space/signet/api"
  | .regtest => "http://127.0.0.1:3002"

end Node

end JointSpend
