import JointSpend.Analysis
import JointSpend.Json.Value
import JointSpend.Text.ShortestDecimal

set_option autoImplicit false
set_option relaxedAutoImplicit false

/-!
# Analyses in JSON

## Main definitions

* `JointSpend.Role.json`, `JointSpend.Missing.json` — whose turn it is, and what is missing.
* `JointSpend.Analysis.json` — an analysis, given how a fee rate is shown.
* `JointSpend.Analysis.report` — an analysis as indented text.
-/

namespace JointSpend

/-- The name of a role. -/
def Role.name : Role → String
  | updater => "updater"
  | signer => "signer"
  | finalizer => "finalizer"
  | extractor => "extractor"

/-- A role in JSON. -/
def Role.json (role : Role) : Json :=
  .string role.name

/-- What is missing, in JSON. -/
def Missing.json : Missing → Json
  | utxo => .object [("kind", .string "utxo")]
  | redeemScript => .object [("kind", .string "redeem-script")]
  | witnessScript => .object [("kind", .string "witness-script")]
  | signatures keys needed =>
    .object [("kind", .string "signatures"), ("keys", .array (keys.map fun k => .string k.text)),
      ("needed", .nat needed)]
  | unsupportedScript script =>
    .object [("kind", .string "unsupported-script"), ("script", .string script.text)]
  | noSuchInput count => .object [("kind", .string "no-such-input"), ("input_count", .nat count)]

/-- The state of an input in JSON. -/
def InputStatus.json (status : InputStatus) : Json :=
  .object <|
    [("index", .nat status.index), ("has_utxo", .bool status.hasUtxo),
      ("is_final", .bool status.isFinal)] ++
    Json.optionalField "next" Role.json status.next ++
    Json.optionalField "missing" Missing.json status.missing

/-- What is shown of an output, in JSON. -/
def OutputSummary.json (output : OutputSummary) : Json :=
  .object <|
    [("index", .nat output.index), ("amount", .nat output.amount.toNat),
      ("script_pubkey", .string output.script.text)] ++
    Json.optionalField "address" Json.string output.address

namespace Analysis

/-- An analysis in JSON, given how a fee rate is shown. -/
def json (feeRate : Float → Json) (analysis : Analysis) : Json :=
  .object [
    ("inputs", .array (analysis.inputs.map InputStatus.json)),
    ("all_final", .bool analysis.allFinal),
    ("all_signed", .bool analysis.allSigned),
    ("next_role", analysis.nextRole.json),
    ("fee", Json.nullable Json.int analysis.fee),
    ("input_total", Json.nullable Json.nat analysis.inputTotal),
    ("output_total", Json.nullable Json.nat analysis.outputTotal),
    ("outputs", .array (analysis.outputs.map OutputSummary.json)),
    ("estimated_vsize", Json.nullable Json.nat analysis.estimatedSize),
    ("estimated_fee_rate", Json.nullable feeRate analysis.estimatedFeeRate)]

/-- An analysis as indented text. -/
def report (analysis : Analysis) : String :=
  (analysis.json fun rate => .number (Text.floatText rate)).pretty

end Analysis

end JointSpend
