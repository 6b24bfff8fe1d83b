import JointSpend.Sign.Commit
import JointSpend.Text.Base58

set_option autoImplicit false
set_option relaxedAutoImplicit false

/-!
# Signing with private keys

A key store holds private keys and signs with those that the spending path of an input asks for.

## Main definitions

* `JointSpend.PrivateKey.ofText?` — reads the text form of a private key.
* `JointSpend.KeyStore` — a list of private keys.
* `JointSpend.KeyStore.ofTexts` — the key store of a list of texts for a network.
* `JointSpend.KeyStore.signer` — the signer of a key store.
-/

namespace JointSpend

/-- Reads the text form of a private key: a version byte for the kind of network, the scalar, and a
last byte if the public key is meant in the short form. -/
def PrivateKey.ofText? (text : String) : Option PrivateKey := do
  match ← Text.Base58.decodeCheck? text with
  | [] => none
  | version :: payload =>
    let compressed ←
      if payload.length = 32 then some false
      else if payload.length = 33 then some true
      else none
    let kind ←
      if version = 0x80 then some NetworkKind.main
      else if version = 0xef then some NetworkKind.test
      else none
    let secret ← Curve.SecretKey.ofNat? (Bytes.ofBigEndian (payload.take 32))
    return ⟨secret, compressed, kind⟩

/-- Private keys in the order in which they are tried. -/
structure KeyStore where
  keys : List PrivateKey
  deriving DecidableEq

namespace KeyStore

/-- Reads a private key that is meant for the kind of a network. -/
def readKey (network : Network) (text : String) : Except Fault PrivateKey :=
  match PrivateKey.ofText? text with
  | none => .error .malformedKey
  | some key =>
    if key.kind = network.kind then .ok key
    else .error (.wrongNetwork network key.kind.title)

/-- The key store of a list of texts for a network. -/
def ofTexts (texts : List String) (network : Network) : Except Fault KeyStore := do
  return ⟨← texts.mapM (readKey network)⟩

variable (scheme : SignatureScheme)

/-- A private key with its public key. -/
structure HeldKey where
  publicKey : PublicKey
  privateKey : PrivateKey
  deriving DecidableEq

/-- The keys of the store with their public keys. -/
def held (store : KeyStore) : List HeldKey :=
  store.keys.map fun key => ⟨scheme.publicKey key, key⟩

/-- The held keys that a template asks for, in the order in which they sign. -/
def signingKeys (keys : List HeldKey) : Template → List HeldKey
  | .pubkeyHash hash => keys.filter fun held => Script.hashMatches hash held.publicKey
  | .pubkey key => (keys.find? fun held => held.publicKey = key).toList
  | .multisig _ wanted => wanted.filterMap fun key => keys.find? fun held => held.publicKey = key
  | .taprootKey _ => []

/-- The sighash type for an input: the one it asks for, if that is one for ECDSA. -/
def sighashFor (options : SignOptions) (index : Nat) (input : InputMap) :
    Except Fault SighashType :=
  match input.get? .sighashType with
  | none => .ok options.sighash
  | some number =>
    match SighashType.ofUInt32? number with
    | some type => .ok type
    | none =>
      .error (.signerFailed index ("non-standard sighash type " ++ toString number.toNat))

/-- Signs an input with one key, unless the path does not accept the key or it has signed. -/
def signWith (index : Nat) (path : SpendPath) (type : SighashType) (p : Psbt)
    (key : HeldKey) : Except Fault Psbt :=
  match p.inputs[index]? with
  | none => .ok p
  | some input =>
    if !path.accepts key.publicKey || input.contains (.partialSig key.publicKey) then .ok p
    else
      match p.ecdsaDigest index path type with
      | .error fault => .error (.signerFailed index fault.message)
      | .ok digest =>
        .ok (p.setInput index (input.insert (.partialSig key.publicKey)
          ⟨scheme.ecdsaSign key.privateKey.secret digest, type⟩))

/-- Signs an input with a taproot key, unless it is signed. The held key is the one that the output
key is derived from. -/
def signTaproot (keys : List HeldKey) (index : Nat) (input : InputMap) (outputKey : Curve.XOnly)
    (p : Psbt) : Except Fault Psbt :=
  match input.get? .tapKeySig, input.get? .tapInternalKey with
  | none, some internalKey =>
    match keys.find? fun held => held.publicKey.point.xOnly = internalKey with
    | none => .ok p
    | some held =>
      let tweaked := scheme.taprootTweak held.privateKey.secret (input.get? .tapMerkleRoot)
      if (scheme.point tweaked).xOnly ≠ outputKey then .ok p
      else
        match p.taprootDigest index .default with
        | .error fault => .error (.signerFailed index fault.message)
        | .ok digest =>
          .ok (p.setInput index (input.insert .tapKeySig
            ⟨scheme.schnorrSign tweaked digest, .default⟩))
  | _, _ => .ok p

/-- Signs an input that is open, to be signed, and has a template. -/
def signInput (keys : List HeldKey) (options : SignOptions) (p : Psbt) (index : Nat) :
    Except Fault Psbt :=
  match p.inputs[index]? with
  | none => .ok p
  | some input =>
    if !options.scope.contains index || InputMap.isFinal input then .ok p
    else
      match p.spendPath index with
      | .error _ => .ok p
      | .ok path =>
        match path.template? with
        | none => .ok p
        | some (.taprootKey outputKey) => signTaproot scheme keys index input outputKey p
        | some template => do
          let type ← sighashFor options index input
          (signingKeys keys template).foldlM (signWith scheme index path type) p

/-- The signer of a key store. An empty store is no signer. -/
def signer (store : KeyStore) : Signer := fun p options =>
  if store.keys.isEmpty then .error (.signerUnavailable "鍵ストアに秘密鍵がありません")
  else
    let keys := store.held scheme
    (List.range p.inputs.length).foldlM (signInput scheme keys options) p

end KeyStore

end JointSpend
