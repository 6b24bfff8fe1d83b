import JointSpend.CompactSize
import JointSpend.Record.Map

set_option autoImplicit false
set_option relaxedAutoImplicit false

/-!
# Records on the wire

A map is written as its records, one after another, and a zero byte. A record is a key and a value,
each behind its length; the first byte of the key is the kind of the record. The length of a key is
therefore never zero, which is how the end is recognized.

## Main definitions

* `JointSpend.RawRecord` — kind, key data and value of a record.
* `JointSpend.RawRecord.writeAll`, `JointSpend.RawRecord.readAll` — the records of one map.
* `JointSpend.Wired` — keys whose entries have a form as raw records.
* `JointSpend.RecordMap.write`, `JointSpend.RecordMap.ofRecords?` — a map and its records.
-/

namespace JointSpend

/-- A record as it is written. -/
structure RawRecord where
  /-- The kind of the record. -/
  kind : UInt8
  /-- The rest of the key. -/
  keyData : Bytes
  /-- The value. -/
  value : Bytes
  deriving DecidableEq

namespace RawRecord

/-- The written form of a record. -/
def write (r : RawRecord) : Bytes :=
  CompactSize.writeBytes (r.kind :: r.keyData) ++ CompactSize.writeBytes r.value

/-- The written form of the records of a map. -/
def writeAll (rs : List RawRecord) : Bytes :=
  rs.flatMap write ++ [0]

/-- Reads the part of a record behind the length `n + 1` of its key. -/
def readBody (n : Nat) : Reader RawRecord := fun bs => do
  if CompactSize.maxLength < n then none
  else
    let (kind, bs) ← Bytes.readByte bs
    let (keyData, bs) ← Bytes.splitExact n bs
    let (value, bs) ← CompactSize.readBytes bs
    return (⟨kind, keyData, value⟩, bs)

/-- Reads at most `bound` records up to the end of the map. -/
def readWithin : Nat → Reader (List RawRecord)
  | 0, _ => none
  | bound + 1, bs => do
    let (size, bs) ← CompactSize.read bs
    match size with
    | 0 => return ([], bs)
    | n + 1 =>
      let (r, bs) ← readBody n bs
      let (rs, bs) ← readWithin bound bs
      return (r :: rs, bs)

/-- Reads the records of a map. Each takes at least one byte, so the length of the input bounds
their number. -/
def readAll : Reader (List RawRecord) := fun bs =>
  readWithin (bs.length + 1) bs

end RawRecord

/-- Keys that have a form as raw records, together with the values under them. -/
class Wired (κ : Type) (β : κ → Type) where
  /-- The record of an entry. -/
  toRecord : (k : κ) → β k → RawRecord
  /-- The entry of a record, if key data and value are well-formed. -/
  ofRecord? : RawRecord → Option (Sigma β)

namespace RecordMap

variable {κ : Type} [DecidableEq κ] [Ranked κ] {β : κ → Type} [Wired κ β]

/-- The records of a map, in the order of the keys. -/
def records (m : RecordMap κ β) : List RawRecord :=
  m.entries.map fun e => Wired.toRecord e.1 e.2

/-- The written form of a map. -/
def write (m : RecordMap κ β) : Bytes :=
  RawRecord.writeAll m.records

/-- The map of a list of records, if all are well-formed and no key occurs twice. -/
def ofRecords? (rs : List RawRecord) : Option (RecordMap κ β) := do
  let entries ← rs.mapM Wired.ofRecord?
  ofList? entries empty

/-- Reads a map. -/
def read : Reader (RecordMap κ β) := fun bs => do
  let (rs, bs) ← RawRecord.readAll bs
  let m ← ofRecords? rs
  return (m, bs)

end RecordMap

end JointSpend
