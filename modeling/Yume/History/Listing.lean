/-
`list_chat`: the newest records of the history logs, selected while the logs are
scanned.

Records are kept in the order of their timestamps and of the scan.  After each
one, the oldest are dropped until what is kept is within the count limit and the
byte cap.  How a line is decrypted and parsed, and the name of a peer's log, are
parameters.
-/
import Yume.History.Log
import Mathlib.Algebra.BigOperators.Group.List.Basic
import Mathlib.Data.List.Sort

namespace Yume.History

open Yume.Lib List Option

/-- `kMaxHistoryResultPlaintextBytes`. -/
def maxHistoryResultPlaintextBytes : Nat := 512 * 1024

structure ChatHistoryEntry where
  tsMs : Int
  peerId : Bytes
  peerName : Bytes
  direction : Bytes
  text : Bytes
deriving DecidableEq, Repr

/-- A record of the selection, with its place in the scan and the size of its
plaintext. -/
structure RetainedRecord where
  item : ChatHistoryEntry
  sequence : Nat
  plaintextBytes : Nat
deriving DecidableEq, Repr

/-- The order of `RecordKey`. -/
def RetainedRecord.Before (left right : RetainedRecord) : Prop :=
  left.item.tsMs < right.item.tsMs ∨
    left.item.tsMs = right.item.tsMs ∧ left.sequence < right.sequence

instance (left right : RetainedRecord) : Decidable (left.Before right) :=
  inferInstanceAs (Decidable (_ ∨ _))

/-- The selection while the logs are scanned.  `capped` records what was dropped for
the byte cap alone. -/
structure Selection where
  newest : List RetainedRecord
  sequence : Nat
  bytesScanned : Nat
  plaintextBytesRetained : Nat
  truncated : Bool
  capped : List RetainedRecord
deriving DecidableEq, Repr

def Selection.empty : Selection := ⟨[], 0, 0, 0, false, []⟩

/-- Drop the oldest records until the rest is within both caps. -/
def evict (limit : Nat) : List RetainedRecord → Nat → List RetainedRecord × Nat
  | [], bytes => ([], bytes)
  | oldest :: rest, bytes =>
    if limit < (oldest :: rest).length ∨ maxHistoryResultPlaintextBytes < bytes then
      evict limit rest (bytes - oldest.plaintextBytes)
    else (oldest :: rest, bytes)

namespace Selection

/-- A record in the place that its key gives it. -/
def place (record : RetainedRecord) (newest : List RetainedRecord) : List RetainedRecord :=
  newest.orderedInsert RetainedRecord.Before record

end Selection

section

variable {Name : Type*} [DecidableEq Name] (decode : Bytes → Option (ChatHistoryEntry × Nat))
  (logName : Bytes → Name) (limit : Nat)

end

/-! ### Order -/

theorem RetainedRecord.Before.trans {a b c : RetainedRecord} (hab : a.Before b)
    (hbc : b.Before c) : a.Before c := by
  unfold Before at *
  omega

namespace Selection

end Selection

/-! ### What is dropped -/

def totalBytes (records : List RetainedRecord) : Nat :=
  (records.map RetainedRecord.plaintextBytes).sum

/-- A record is one of those that the byte cap alone dropped, or older than one. -/
def Outweighed (capped : List RetainedRecord) (record : RetainedRecord) : Prop :=
  ∃ other ∈ capped, record = other ∨ record.Before other

variable {limit : Nat} {left : List RetainedRecord}

/-! ### The selection -/

/-- What is kept of the records read so far, and what is left out: what the byte cap
alone dropped and what is older than that, and what is older than all that is kept. -/
structure Kept (limit : Nat) (selection : Selection) (left arrived : List RetainedRecord)
    (unterminated : Bool) : Prop where
  perm : (left ++ selection.newest).Perm arrived
  sorted : selection.newest.Pairwise RetainedRecord.Before
  sequence : ∀ record ∈ arrived, record.sequence < selection.sequence
  bytes : selection.plaintextBytesRetained = totalBytes selection.newest
  truncated : selection.truncated = (decide (left ≠ []) || unterminated)
  capped : ∀ old ∈ selection.capped, old ∈ left
  cause : ∀ old ∈ left, Outweighed selection.capped old ∨
    selection.newest.length = limit ∧ ∀ new ∈ selection.newest, old.Before new

section

variable {limit : Nat} {selection : Selection} {left arrived : List RetainedRecord}
  {unterminated : Bool}

variable (h : Kept limit selection left arrived unterminated)
include h

theorem Kept.fresh {record : RetainedRecord} (hrecord : record.sequence = selection.sequence) :
    ∀ other ∈ selection.newest, other.sequence ≠ record.sequence := by
  intro other hother
  have := h.sequence other (h.perm.mem_iff.mp (mem_append_right _ hother))
  omega

end

/-! ### A listing -/

section

variable {Name : Type*} [DecidableEq Name] (decode : Bytes → Option (ChatHistoryEntry × Nat))
  (logName : Bytes → Name) (limit : Nat)

variable {decode logName limit}

variable {items : List (ChatHistoryEntry × Nat)}

end

end Yume.History
