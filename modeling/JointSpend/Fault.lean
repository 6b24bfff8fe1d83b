import JointSpend.Network
import JointSpend.Psbt.Basic
import JointSpend.Stage
import JointSpend.Text.Base64
import JointSpend.Text.Quoted

set_option autoImplicit false
set_option relaxedAutoImplicit false

/-!
# Faults

Every operation that can fail names the cause as a value of `Fault`. The wording is chosen in one
place, `Fault.message`, so that no rule depends on it.

## Main definitions

* `JointSpend.Fault` — the causes of failure.
* `JointSpend.Fault.message` — their wording.
* `JointSpend.Fault.isRetryable` — whether another attempt, signer or node may succeed.
-/

namespace JointSpend

/-- Where two copies of a partially signed transaction disagree. -/
inductive Conflict where
  /-- A record of the whole. -/
  | whole (key : GlobalKey)
  /-- A record of an input. -/
  | input (index : Nat) (key : InputKey)
  /-- The final scripts of an input. -/
  | finalScripts (index : Nat)
  /-- A record of an output. -/
  | output (index : Nat) (key : OutputKey)
  deriving DecidableEq

/-- Under what two different signatures are recorded. -/
inductive SignaturePlace where
  /-- A public key. -/
  | key (key : PublicKey)
  /-- The key of a taproot output, by its internal key if that is known. -/
  | taprootKey (key : Option Curve.XOnly)
  /-- A key in a leaf of a script tree. -/
  | taprootLeaf (key : Curve.XOnly) (leaf : Fixed 32)
  deriving DecidableEq

/-- A text field that holds bytes in hexadecimal. -/
inductive HexField where
  | scriptPubKey
  | redeemScript
  | witnessScript
  | previousTransaction
  deriving DecidableEq

/-- What is wrong with data that somebody entered. -/
inductive InputFault where
  /-- The transaction has scripts or witnesses. -/
  | notUnsigned
  /-- The previous transaction of an input is another one than the input refers to. -/
  | wrongPreviousTransaction (actual : TxId) (index : Nat) (expected : TxId)
  /-- The previous transaction has no output at the index. -/
  | noPreviousOutput (vout : UInt32) (count : Nat)
  /-- There is nothing to merge. -/
  | nothingToMerge
  /-- No network has the name. -/
  | unknownNetwork (name : String)
  /-- The text is no transaction identifier. -/
  | badTxId (text : String)
  /-- The text of a field is not hexadecimal. -/
  | badHex (field : HexField) (fault : Text.Hex.Fault)
  /-- The redeem script does not have the hash in the output. -/
  | wrongRedeemScript (outPoint : OutPoint)
  /-- The output pays to a script hash, but there is no redeem script. -/
  | noRedeemScript (outPoint : OutPoint)
  /-- The witness script does not have the hash in the program. -/
  | wrongWitnessScript (outPoint : OutPoint)
  /-- The program is a witness script hash, but there is no witness script. -/
  | noWitnessScript (outPoint : OutPoint)
  /-- The given previous transaction has another identifier. -/
  | previousIdDiffers (actual expected : TxId)
  /-- The given previous transaction has another output at the index. -/
  | previousOutputDiffers (vout : UInt32)
  /-- The amounts of the inputs do not fit 64 bits together. -/
  | inputTotalTooLarge
  /-- There is no output to spend. -/
  | noUtxos
  /-- The address of a recipient is none, or one of another network. -/
  | badRecipient (address : String)
  /-- The amounts of the recipients do not fit 64 bits together. -/
  | outputTotalTooLarge
  /-- The fee does not fit 64 bits. -/
  | feeTooLarge
  /-- Amounts and fee do not fit 64 bits together. -/
  | requiredTooLarge
  deriving DecidableEq

/-- What a workflow does not allow in its state. -/
inductive WorkflowFault where
  /-- Signing while online. -/
  | signOnline
  /-- Signing before anything is loaded. -/
  | nothingToSign
  /-- Sending while offline. -/
  | sendOffline
  /-- Sending before anything is assembled. -/
  | nothingAssembled
  /-- Exporting from a stage that holds nothing. -/
  | nothingAt (stage : Stage)
  deriving DecidableEq

/-- Why a transaction could not be sent. -/
inductive SendFault where
  /-- The node was not reached. -/
  | transport
  /-- The node refused the transaction. -/
  | rejected
  /-- The answer of the node was not understood. -/
  | invalidResponse
  deriving DecidableEq

/-- What should have been impossible. -/
inductive InternalFault where
  /-- A signer handed back another transaction. -/
  | transactionChanged
  /-- A script is too long to be pushed. -/
  | unpushableScript
  /-- The redeem script of a checked output is not there any more. -/
  | redeemScriptLost (outPoint : OutPoint)
  /-- The witness script of a checked output is not there any more. -/
  | witnessScriptLost (outPoint : OutPoint)
  deriving DecidableEq

/-- Why an operation failed. -/
inductive Fault where
  /-- A file could not be read or written. -/
  | io (detail : String)
  /-- A file does not hold the JSON that is expected. -/
  | badJson (path : String)
  /-- The binary form is empty. -/
  | emptyEncoding
  /-- The binary form is not well-formed. -/
  | malformedEncoding
  /-- The text is not base64. -/
  | badText (fault : Text.Base64.Fault)
  /-- The copies belong to different transactions. -/
  | differentTransactions (base incoming : TxId)
  /-- The copies hold different signatures in one place. -/
  | differentSignatures (index : Nat) (place : SignaturePlace)
  /-- The copies hold different data in one place. -/
  | conflict (place : Conflict)
  /-- No signer is at hand. -/
  | signerUnavailable (detail : String)
  /-- A signer failed. -/
  | signerFailed (index : Nat) (detail : String)
  /-- The transaction could not be sent. -/
  | notSent (cause : SendFault) (detail : String)
  /-- The input is final and is not changed any more. -/
  | inputFinal (index : Nat)
  /-- There is no such input. -/
  | noSuchInput (index count : Nat)
  /-- The input is not final yet. -/
  | inputNotFinal (index : Nat)
  /-- The workflow does not allow the step. -/
  | workflow (cause : WorkflowFault)
  /-- A transaction is not well-formed. -/
  | malformedTransaction
  /-- A private key text is not well-formed. -/
  | malformedKey
  /-- Data belongs to another network than the chosen one. -/
  | wrongNetwork (chosen : Network) (other : String)
  /-- Data that somebody entered is wrong. -/
  | input (cause : InputFault)
  /-- The inputs do not cover outputs and fee. -/
  | insufficientFunds (available required fee : Nat)
  /-- The change address is none, or one of another network. -/
  | badChangeAddress (address : String)
  /-- The script is not one of the standard outputs. -/
  | unknownScript (script : Script)
  /-- Something that should have been impossible. -/
  | internal (cause : InternalFault)
  deriving DecidableEq

/-! ## Wording -/

/-- The name of a record of the whole. -/
def GlobalKey.title : GlobalKey → String
  | extendedKey _ => "xpub"
  | proprietary _ => "proprietary"
  | foreign _ => "unknown"

/-- The name of a record of an input. -/
def InputKey.title : InputKey → String
  | nonWitnessUtxo => "non_witness_utxo"
  | witnessUtxo => "witness_utxo"
  | partialSig _ => "partial_sigs"
  | sighashType => "sighash_type"
  | redeemScript => "redeem_script"
  | witnessScript => "witness_script"
  | derivation _ => "bip32_derivation"
  | finalScriptSig => "final_script_sig"
  | finalScriptWitness => "final_script_witness"
  | ripemd160Preimage _ => "ripemd160_preimages"
  | sha256Preimage _ => "sha256_preimages"
  | hash160Preimage _ => "hash160_preimages"
  | hash256Preimage _ => "hash256_preimages"
  | tapKeySig => "tap_key_sig"
  | tapScriptSig _ _ => "tap_script_sigs"
  | tapScript _ => "tap_scripts"
  | tapKeyOrigin _ => "tap_key_origins"
  | tapInternalKey => "tap_internal_key"
  | tapMerkleRoot => "tap_merkle_root"
  | proprietary _ => "proprietary"
  | foreign _ => "unknown"

/-- The name of a record of an output. -/
def OutputKey.title : OutputKey → String
  | redeemScript => "redeem_script"
  | witnessScript => "witness_script"
  | derivation _ => "bip32_derivation"
  | tapInternalKey => "tap_internal_key"
  | tapTree => "tap_tree"
  | tapKeyOrigin _ => "tap_key_origins"
  | proprietary _ => "proprietary"
  | foreign _ => "unknown"

/-- The wording of a conflict: place and record. -/
def Conflict.message : Conflict → String
  | whole key => "グローバル: " ++ key.title
  | input index key => "入力 " ++ toString index ++ ": " ++ key.title
  | finalScripts index => "入力 " ++ toString index ++ ": final_script"
  | output index key => "出力 " ++ toString index ++ ": " ++ key.title

/-- The wording of the place of a signature. -/
def SignaturePlace.message : SignaturePlace → String
  | key k => k.text
  | taprootKey (some k) => Text.Hex.encode k.bytes
  | taprootKey none => "taproot key path"
  | taprootLeaf k leaf =>
    Text.Hex.encode k.bytes ++ " (leaf " ++ Text.Hex.encode leaf.bytes ++ ")"

/-- The name of a field. -/
def HexField.title : HexField → String
  | scriptPubKey => "scriptPubKeyHex"
  | redeemScript => "redeemScriptHex"
  | witnessScript => "witnessScriptHex"
  | previousTransaction => "previousTxHex"

/-- The wording of what is wrong with hexadecimal text. -/
def hexMessage : Text.Hex.Fault → String
  | .oddLength => "Odd number of digits"
  | .badDigit byte position =>
    "Invalid character " ++ Text.Quoted.character (Char.ofNat byte.toNat) ++ " at position " ++
      toString position

/-- The wording of what is wrong with entered data. -/
def InputFault.message : InputFault → String
  | notUnsigned => "未署名トランザクションではありません"
  | wrongPreviousTransaction actual index expected =>
    "前トランザクションのTXID " ++ actual.text ++ " が入力 " ++ toString index ++ " の参照先 " ++
      expected.text ++ " と一致しません"
  | noPreviousOutput vout count =>
    "前トランザクションに出力 " ++ toString vout.toNat ++ " が存在しません (出力数 " ++
      toString count ++ ")"
  | nothingToMerge => "マージするPSBTがありません"
  | unknownNetwork name => "無効なネットワークが指定されました: " ++ name
  | badTxId text => "無効なTXID形式 (" ++ text ++ ")"
  | badHex field fault => field.title ++ "のデコード失敗: " ++ hexMessage fault
  | wrongRedeemScript o => o.text ++ " の redeemScript が scriptPubKey と一致しません"
  | noRedeemScript o => "P2SH入力 " ++ o.text ++ " には redeemScriptHex が必要です"
  | wrongWitnessScript o => o.text ++ " の witnessScript が一致しません"
  | noWitnessScript o => "P2WSH入力 " ++ o.text ++ " には witnessScriptHex が必要です"
  | previousIdDiffers actual expected =>
    "previousTxHex のTXID " ++ actual.text ++ " が " ++ expected.text ++ " と一致しません"
  | previousOutputDiffers vout =>
    "previousTxHex の出力 " ++ toString vout.toNat ++ " が scriptPubKey / 金額と一致しません"
  | inputTotalTooLarge => "入力金額の合計が大きすぎます"
  | noUtxos => "UTXOが一つも指定されていません"
  | badRecipient address =>
    "受信者アドレス形式エラーまたはネットワーク不整合 (" ++ address ++ ")"
  | outputTotalTooLarge => "出力金額の合計が大きすぎます"
  | feeTooLarge => "手数料率が大きすぎます"
  | requiredTooLarge => "出力金額と手数料の合計が大きすぎます"

/-- The wording of what a workflow does not allow. -/
def WorkflowFault.message : WorkflowFault → String
  | signOnline => "署名はオフラインでのみ行えます"
  | nothingToSign => "署名するPSBTが読み込まれていません"
  | sendOffline => "ブロードキャストはオンラインでのみ行えます"
  | nothingAssembled => "集約されたPSBTがありません"
  | nothingAt stage => stage.title ++ " 段階にPSBTがありません"

/-- The name of a cause why nothing was sent. -/
def SendFault.title : SendFault → String
  | transport => "Transport"
  | rejected => "Rejected"
  | invalidResponse => "InvalidResponse"

/-- The wording of what should have been impossible. -/
def InternalFault.message : InternalFault → String
  | transactionChanged => "署名者が未署名トランザクションを変更しました"
  | unpushableScript => "ダミーscriptSigのPushBytes変換失敗"
  | redeemScriptLost o => "P2SH入力 " ++ o.text ++ " の redeemScript がありません"
  | witnessScriptLost o => "入力 " ++ o.text ++ " の witnessScript がありません"

namespace Fault

/-- The wording of a fault. -/
def message : Fault → String
  | io detail => "I/Oエラー: " ++ detail
  | badJson path => "JSONパースエラー ファイル: " ++ Text.Quoted.path path
  | emptyEncoding => "PSBTバイナリが不正です: 空のデータです"
  | malformedEncoding => "PSBTバイナリが不正です"
  | badText fault => "base64テキストが不正です: " ++ fault.message
  | differentTransactions base incoming =>
    "異なるトランザクションのPSBTはマージできません: base=" ++ base.text ++ ", incoming=" ++
      incoming.text
  | differentSignatures index place =>
    "同じ公開鍵に異なる署名があります (入力インデックス " ++ toString index ++ ", 鍵 " ++
      place.message ++ ")"
  | conflict place => "マージ時にデータが衝突しました (" ++ place.message ++ ")"
  | signerUnavailable detail => "署名者が利用できません: " ++ detail
  | signerFailed index detail =>
    "署名エラー (入力インデックス " ++ toString index ++ "): " ++ detail
  | notSent cause detail => "ブロードキャストに失敗しました (" ++ cause.title ++ "): " ++ detail
  | inputFinal index => "入力 " ++ toString index ++ " は確定済みのため変更できません"
  | noSuchInput index count =>
    "入力インデックス " ++ toString index ++ " は範囲外です (入力数 " ++ toString count ++ ")"
  | inputNotFinal index => "入力 " ++ toString index ++ " がまだ確定されていません"
  | workflow cause => "ワークフローの状態エラー: " ++ cause.message
  | malformedTransaction => "Bitcoinコンセンサスエンコードエラー"
  | malformedKey => "Bitcoin秘密鍵(WIF)処理エラー"
  | wrongNetwork chosen other =>
    "ネットワーク不整合: CLI指定 (" ++ chosen.title ++ ") vs WIF/アドレス (" ++ other ++ ")"
  | input cause => "入力検証エラー: " ++ cause.message
  | insufficientFunds available required fee =>
    "資金不足: 利用可能な総額 " ++ toString available ++ " sats, 要求額 " ++ toString required ++
      " sats (手数料 " ++ toString fee ++ " sats を含む)"
  | badChangeAddress address =>
    "おつりアドレスの導出に失敗しました: おつりアドレス形式エラーまたはネットワーク不整合 (" ++
      address ++ ")"
  | unknownScript script => "不明なスクリプトタイプ: " ++ script.text
  | internal cause => "内部エラー: " ++ cause.message

/-- Whether another attempt, another signer or another node may succeed. -/
def isRetryable : Fault → Bool
  | signerUnavailable _ => true
  | signerFailed _ _ => true
  | notSent cause _ => cause == .transport
  | _ => false

end Fault

/-- The network with a name in letters of either case. -/
def Network.parse (name : String) : Except Fault Network :=
  match Network.ofName name with
  | .ok network => .ok network
  | .error lowered => .error (.input (.unknownNetwork lowered))

end JointSpend
