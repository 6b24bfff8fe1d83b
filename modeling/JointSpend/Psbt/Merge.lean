import JointSpend.Fault
import JointSpend.Spend.Finalize

set_option autoImplicit false
set_option relaxedAutoImplicit false

/-!
# Merging copies

Copies of one partially signed transaction that several people worked on are united record by
record. Records under different keys come together; two different values under one key are a
conflict, and nothing is dropped silently. Only an input that is final in one copy takes that
copy's records as they are, apart from those that every input retains.

## Main definitions

* `JointSpend.Psbt.merge` — unites two copies.
* `JointSpend.Psbt.mergeAll` — unites a list of copies.
* `JointSpend.InputMap.merge`, `JointSpend.OutputMap.merge` — the rules for inputs and outputs.
-/

namespace JointSpend

/-! ## Reporting a conflict -/

/-- The order in which conflicts between inputs are reported, kind by kind. -/
def InputKey.reportRank : InputKey → Nat
  | nonWitnessUtxo => 0
  | witnessUtxo => 1
  | proprietary _ => 2
  | foreign _ => 3
  | partialSig _ => 4
  | tapKeySig => 5
  | tapScriptSig _ _ => 6
  | sighashType => 7
  | redeemScript => 8
  | witnessScript => 9
  | derivation _ => 10
  | ripemd160Preimage _ => 11
  | sha256Preimage _ => 12
  | hash160Preimage _ => 13
  | hash256Preimage _ => 14
  | tapScript _ => 15
  | tapKeyOrigin _ => 16
  | tapInternalKey => 17
  | tapMerkleRoot => 18
  | finalScriptSig => 19
  | finalScriptWitness => 20

/-- The order in which conflicts between outputs are reported, kind by kind. -/
def OutputKey.reportRank : OutputKey → Nat
  | redeemScript => 0
  | witnessScript => 1
  | derivation _ => 2
  | tapInternalKey => 3
  | tapTree => 4
  | tapKeyOrigin _ => 5
  | proprietary _ => 6
  | foreign _ => 7

/-- The element with the least rank; of several, the first. -/
def firstByRank {α : Type} (rank : α → Nat) : List α → Option α
  | [] => none
  | a :: as =>
    match firstByRank rank as with
    | none => some a
    | some b => if rank b < rank a then some b else some a

/-- The fault for a conflict at a record of an input. Signatures are told apart from other data. -/
def InputMap.conflictFault (base incoming : InputMap) (index : Nat) : InputKey → Fault
  | .partialSig key => .differentSignatures index (.key key)
  | .tapKeySig =>
    .differentSignatures index
      (.taprootKey ((base.get? .tapInternalKey).or (incoming.get? .tapInternalKey)))
  | .tapScriptSig key leaf => .differentSignatures index (.taprootLeaf key leaf)
  | key => .conflict (.input index key)

/-! ## Inputs and outputs -/

/-- Whether a record of an open input is united: all but the final scripts are. -/
def InputKey.isUnited : InputKey → Bool
  | finalScriptSig => false
  | finalScriptWitness => false
  | _ => true

namespace InputMap

/-- Unites the records that pass a test; the others stay as they are in the first copy. -/
def unite (p : InputKey → Bool) (index : Nat) (base incoming : InputMap) :
    Except Fault InputMap :=
  match firstByRank InputKey.reportRank (base.conflicts p incoming) with
  | some key => .error (conflictFault base incoming index key)
  | none => .ok (base.fill p incoming)

/-- Unites two copies of an input. Of a final and an open copy the final one is kept; two final
copies have to have the same final scripts. -/
def merge (index : Nat) (base incoming : InputMap) : Except Fault InputMap :=
  match isFinal base, isFinal incoming with
  | true, true =>
    if base.get? .finalScriptSig = incoming.get? .finalScriptSig ∧
        base.get? .finalScriptWitness = incoming.get? .finalScriptWitness then
      unite InputKey.isRetained index base incoming
    else .error (.conflict (.finalScripts index))
  | true, false => unite InputKey.isRetained index base incoming
  | false, true => unite InputKey.isRetained index incoming base
  | false, false => unite InputKey.isUnited index base incoming

end InputMap

/-- Unites two copies of an output. -/
def OutputMap.merge (index : Nat) (base incoming : OutputMap) : Except Fault OutputMap :=
  match firstByRank OutputKey.reportRank (base.conflicts (fun _ => true) incoming) with
  | some key => .error (.conflict (.output index key))
  | none => .ok (base.fill (fun _ => true) incoming)

/-- Unites two copies of the records of the whole. -/
def GlobalMap.merge (base incoming : GlobalMap) : Except Fault GlobalMap :=
  match base.conflicts (fun _ => true) incoming with
  | key :: _ => .error (.conflict (.whole key))
  | [] => .ok (base.fill (fun _ => true) incoming)

namespace Psbt

/-- Unites two lists position by position, the first of which has the given index. Positions that
only the first list has stay as they are. -/
def mergeLists {α : Type} (unite : Nat → α → α → Except Fault α) :
    Nat → List α → List α → Except Fault (List α)
  | _, as, [] => .ok as
  | _, [], _ => .ok []
  | index, a :: as, b :: bs => do
    let c ← unite index a b
    let cs ← mergeLists unite (index + 1) as bs
    return c :: cs

/-- Unites two copies. They have to be copies for one unsigned transaction. -/
def merge (base incoming : Psbt) : Except Fault Psbt := do
  if base.transaction ≠ incoming.transaction then
    throw (.differentTransactions base.transaction.id incoming.transaction.id)
  let globals ← GlobalMap.merge base.globals incoming.globals
  let inputs ← mergeLists InputMap.merge 0 base.inputs incoming.inputs
  let outputs ← mergeLists OutputMap.merge 0 base.outputs incoming.outputs
  return ⟨base.transaction, globals, inputs, outputs⟩

/-- Unites a list of copies from left to right. -/
def mergeAll : List Psbt → Except Fault Psbt
  | [] => .error (.input .nothingToMerge)
  | p :: ps => ps.foldlM merge p

end Psbt

end JointSpend
