import JointSpend.Spend.Finalize

set_option autoImplicit false
set_option relaxedAutoImplicit false

/-!
# Evaluation of spends

A reference for what final scripts have to achieve, written from the rules of the network and not
from the rules for finalizing. The input script is run, then the script of the spent output on the
stack it leaves; behind a script hash or a witness program the script with the hash is run instead.
Nothing but a single true element may be left.

The operations are those that standard outputs and templates consist of; a script with any other one
is refused, and so are spends that are valid only because a rule does not know them: unknown
versions of witness programs, and script trees. Limits on sizes are left out, and so is the removal
of signatures that stand in the script code of the first generation: the scripts here push keys and
hashes of keys.

## Main definitions

* `JointSpend.Evaluation.Context` — what the scripts of an input are run for.
* `JointSpend.Evaluation.run` — runs instructions on a stack.
* `JointSpend.Evaluation.Context.runScript` — runs a script with its signature checks.
* `JointSpend.Evaluation.Context.satisfies` — whether final scripts satisfy the spent output.
-/

namespace JointSpend.Evaluation

/-- A stack of byte strings; the top comes first. -/
abbrev Stack := List Bytes

/-! ## Elements of the stack -/

/-- Whether an element counts as true: some byte is not zero, and not only the sign is. -/
def isTrue (element : Bytes) : Bool :=
  element.dropLast.any (· != 0) || element.getLast?.any fun b => b != 0 && b != 0x80

/-- The element for a truth value. -/
def ofBool (b : Bool) : Bytes :=
  if b then [1] else []

/-- The element as a count: at most four bytes, lowest first, the highest bit being a sign. -/
def count? (element : Bytes) : Option Nat :=
  let negative := element.getLast?.any (0x80 ≤ ·)
  let magnitude := Bytes.ofLittleEndian
    (element.dropLast ++ element.getLast?.toList.map (· &&& 0x7f))
  if 4 < element.length ∨ (negative = true ∧ magnitude ≠ 0) then none else some magnitude

/-- The topmost elements, and the rest. -/
def split? (n : Nat) (stack : Stack) : Option (Stack × Stack) :=
  if n ≤ stack.length then some (stack.take n, stack.drop n) else none

/-- Whether exactly one true element is left. -/
def endsTrue : Option Stack → Bool
  | some [element] => isTrue element
  | _ => false

/-! ## Operations -/

/-- Whether the signatures, in this order, are valid for some of the keys, in this order. Keys that
a signature is not valid for are passed over. -/
def matchSignatures (check : Bytes → Bytes → Bool) : List Bytes → List Bytes → Bool
  | [], _ => true
  | _ :: _, [] => false
  | sig :: sigs, key :: keys =>
    if check sig key then matchSignatures check sigs keys
    else matchSignatures check (sig :: sigs) keys

/-- Takes the number of keys, the keys, the number of signatures, the signatures, and one more
element, which has to be empty, from the stack; all of them come last first. -/
def checkMultisig (check : Bytes → Bytes → Bool) : Stack → Option Stack
  | [] => none
  | total :: stack => do
    let total ← count? total
    let (keys, stack) ← split? total stack
    match stack with
    | [] => none
    | threshold :: stack =>
      let threshold ← count? threshold
      let (sigs, stack) ← split? threshold stack
      match stack with
      | [] :: stack =>
        if threshold ≤ total then some (ofBool (matchSignatures check sigs keys) :: stack) else none
      | _ => none

/-- One instruction. The check of a signature under a key is given. -/
def step (check : Bytes → Bytes → Bool) : Script.Instruction → Stack → Option Stack
  | .push data, stack => some (data :: stack)
  | .op code, stack =>
    if 0x51 ≤ code ∧ code ≤ 0x60 then some ([code - 0x50] :: stack)
    else if code = 0xae then checkMultisig check stack
    else
      match code, stack with
      -- duplicates the top
      | 0x76, a :: stack => some (a :: a :: stack)
      -- compares two elements
      | 0x87, a :: b :: stack => some (ofBool (a == b) :: stack)
      -- goes on if two elements are equal
      | 0x88, a :: b :: stack => if a = b then some stack else none
      -- hashes the top
      | 0xa9, a :: stack => some ((Hash.hash160 a).bytes :: stack)
      -- checks a signature
      | 0xac, key :: sig :: stack => some (ofBool (check sig key) :: stack)
      | _, _ => none

/-- Several instructions. -/
def run (check : Bytes → Bytes → Bool) : List Script.Instruction → Stack → Option Stack
  | [], stack => some stack
  | i :: is, stack => (step check i stack).bind (run check is)

/-! ## Checks of signatures -/

/-- Reads a pushed ECDSA signature. Only the encoding that it is written in is accepted. -/
def signature? (bs : Bytes) : Option TypedSignature :=
  (TypedSignature.ofBytes? bs).filter fun sig => sig.bytes = bs

/-- Reads a pushed taproot signature. Only the encoding that it is written in is accepted. -/
def taprootSignature? (bs : Bytes) : Option TaprootSignature :=
  (TaprootSignature.ofBytes? bs).filter fun sig => sig.bytes = bs

/-- What the scripts of an input are run for: the transaction, the index of the input, and the
outputs that the inputs spend, as far as they are known. -/
structure Context where
  scheme : SignatureScheme
  transaction : Transaction
  index : Nat
  spent : Nat → Option TxOutput

namespace Context

variable (c : Context)

/-- What an ECDSA signature signs under the rules of a version, in a script with the given code. -/
def ecdsaDigest? (version : SigVersion) (code : Script) (type : SighashType) : Option Digest :=
  match c.transaction.inputs[c.index]?, c.spent c.index with
  | some input, some output =>
    match version with
    | .base => some (c.transaction.legacyDigest c.index code type)
    | .witnessV0 => some (c.transaction.witnessDigest c.index input code output.value type)
    | .taproot => none
  | _, _ => none

/-- Whether a signature is valid under a key, in a script with the given code. -/
def checkSignature (version : SigVersion) (code : Script) (sig key : Bytes) : Bool :=
  match signature? sig, Curve.Point.ofBytes? key with
  | some sig, some point =>
    (c.ecdsaDigest? version code sig.sighash).any fun digest =>
      c.scheme.ecdsaVerify point digest sig.signature
  | _, _ => false

/-- What a taproot signature signs. All spent outputs have to be known. -/
def taprootDigest? (type : TaprootSighashType) : Option Digest := do
  let spent ← (List.range c.transaction.inputs.length).mapM c.spent
  (c.transaction.taprootDigest? c.index spent type).toOption

/-- Whether a signature is valid under an output key. -/
def checkTaproot (key sig : Bytes) : Bool :=
  match taprootSignature? sig, Curve.XOnly.ofBytes? key with
  | some sig, some outputKey =>
    (c.taprootDigest? sig.sighash).any fun digest =>
      c.scheme.schnorrVerify outputKey digest sig.signature
  | _, _ => false

/-! ## Scripts -/

/-- Runs a script, which is its own script code. -/
def runScript (version : SigVersion) (script : Script) (stack : Stack) : Option Stack :=
  script.instructions?.bind fun is => run (c.checkSignature version script) is stack

/-- Whether a witness satisfies a witness program: a key hash by two elements for the script that
checks a key hash, a script hash by a stack for the script that comes last, and an output key by a
signature. -/
def satisfiesProgram (nested : Bool) (version : Nat) (program : Bytes) (witness : List Bytes) :
    Bool :=
  match version, nested with
  | 0, _ =>
    match Fixed.ofBytes? 20 program, witness.getLast? with
    | some hash, _ =>
      witness.length == 2 &&
        endsTrue (c.runScript .witnessV0 (Script.p2pkh.script hash) witness.reverse)
    | none, some script =>
      (Hash.sha256 script).bytes == program &&
        endsTrue (c.runScript .witnessV0 ⟨script⟩ witness.dropLast.reverse)
    | none, none => false
  | 1, false =>
    match witness with
    | [sig] => program.length == 32 && c.checkTaproot program sig
    | _ => false
  | _, _ => false

/-- Whether a script pushes byte strings and small numbers only. -/
def pushesOnly (script : Script) : Bool :=
  script.instructions?.any fun is => is.all fun
    | .push _ => true
    | .op code => code ≤ 0x60

/-- Whether final scripts satisfy a script hash, given the stack that the input script leaves. The
top is the script with the hash. It is run on the rest, unless it is a witness program; then nothing
else may have been pushed. -/
def satisfiesHash (script : Script) (scripts : FinalScripts) : Stack → Bool
  | [] => false
  | redeem :: stack =>
    pushesOnly scripts.scriptSig &&
      (c.runScript .base script (redeem :: stack)).any (fun left => left.head?.any isTrue) &&
      match Script.witnessProgram? ⟨redeem⟩ with
      | some (version, program) =>
        scripts.scriptSig.bytes == Script.pushBytes redeem &&
          c.satisfiesProgram true version program scripts.witness
      | none => scripts.witness.isEmpty && endsTrue (c.runScript .base ⟨redeem⟩ stack)

/-- **Whether final scripts satisfy the output that the input spends.** -/
def satisfies (scripts : FinalScripts) : Bool :=
  match c.spent c.index with
  | none => false
  | some output =>
    match output.script.witnessProgram? with
    | some (version, program) =>
      scripts.scriptSig.isEmpty && c.satisfiesProgram false version program scripts.witness
    | none =>
      match c.runScript .base scripts.scriptSig [] with
      | none => false
      | some stack =>
        if output.script.matchesPattern Script.p2sh then
          c.satisfiesHash output.script scripts stack
        else scripts.witness.isEmpty && endsTrue (c.runScript .base output.script stack)

end Context

/-! ## Small facts -/

/-- A small number is counted as itself. -/
theorem count?_small {n : Nat} (h : n ≤ 16) : count? [UInt8.ofNat n] = some n := by
  have hall : ∀ m : Fin 17, count? [UInt8.ofNat m.val] = some m.val := by decide
  exact hall ⟨n, by omega⟩

theorem split?_append {n : Nat} {front : Stack} (h : front.length = n) (rest : Stack) :
    split? n (front ++ rest) = some (front, rest) := by
  subst h
  simp [split?]

theorem run_append (check : Bytes → Bytes → Bool) (is js : List Script.Instruction)
    (stack : Stack) : run check (is ++ js) stack = (run check is stack).bind (run check js) := by
  induction is generalizing stack with
  | nil => rfl
  | cons i is ih =>
    rw [List.cons_append, run, run]
    cases step check i stack with
    | none => rfl
    | some next => exact ih next

/-- Pushes end up on the stack, the last one on top. -/
theorem run_pushes (check : Bytes → Bytes → Bool) (items : List Bytes) (stack : Stack) :
    run check (items.map .push) stack = some (items.reverse ++ stack) := by
  induction items generalizing stack with
  | nil => rfl
  | cons item items ih =>
    rw [List.map_cons, run, step, Option.bind_some, ih, List.reverse_cons, List.append_assoc]
    rfl

/-- The operation that pushes a small number. -/
theorem step_small (check : Bytes → Bytes → Bool) {n : Nat} (hpos : 0 < n) (hmax : n ≤ 16)
    (stack : Stack) :
    step check (.op (UInt8.ofNat (0x50 + n))) stack = some ([UInt8.ofNat n] :: stack) := by
  have hall : ∀ m : Fin 17, 0 < m.val → (0x51 ≤ UInt8.ofNat (0x50 + m.val) ∧
      UInt8.ofNat (0x50 + m.val) ≤ 0x60) ∧
        UInt8.ofNat (0x50 + m.val) - 0x50 = UInt8.ofNat m.val := by decide
  obtain ⟨hrange, hsub⟩ := hall ⟨n, by omega⟩ hpos
  unfold step
  exact (if_pos hrange).trans (by rw [hsub])

/-- The operation that checks signatures of a threshold of keys. -/
theorem step_checkMultisig (check : Bytes → Bytes → Bool) (stack : Stack) :
    step check (.op Script.checkMultisig) stack = checkMultisig check stack := by
  unfold step
  exact (if_neg (by decide)).trans (if_pos rfl)

end JointSpend.Evaluation
