import Formicary.Model.Queue.Message

/-! # The offline buffer of an ant

The table in which an ant keeps the messages that it cannot send. -/

namespace Formicary.Queue

structure BufferedMessage where
  id : ℕ
  topic : String
  payload : List UInt8
  properties : MessageHeaders
  expiresAt : ℕ
  deriving DecidableEq

/-- The rows in the order of their identifiers, which count up and are never used again. -/
structure OfflineBuffer where
  rows : List BufferedMessage
  nextRow : ℕ
  ordered : rows.Pairwise fun a b => a.id < b.id
  below : ∀ row ∈ rows, row.id < nextRow

namespace OfflineBuffer

def empty : OfflineBuffer := ⟨[], 0, List.Pairwise.nil, by simp⟩

/-- `DELETE … WHERE NOT keep`. -/
def retain (b : OfflineBuffer) (keep : BufferedMessage → Bool) : OfflineBuffer where
  rows := b.rows.filter keep
  nextRow := b.nextRow
  ordered := b.ordered.filter keep
  below row hrow := b.below row (List.mem_of_mem_filter hrow)

def countLocked (b : OfflineBuffer) (now : ℕ) : ℕ :=
  b.rows.countP fun row => now < row.expiresAt

def newRow (b : OfflineBuffer) (ttl now : ℕ) (topic : String) (payload : List UInt8)
    (props : MessageHeaders) : BufferedMessage :=
  ⟨b.nextRow, topic, payload, props, now + ttl⟩

def insert (b : OfflineBuffer) (ttl now : ℕ) (topic : String) (payload : List UInt8)
    (props : MessageHeaders) : OfflineBuffer where
  rows := b.rows ++ [b.newRow ttl now topic payload props]
  nextRow := b.nextRow + 1
  ordered := by
    refine List.pairwise_append.mpr ⟨b.ordered, List.pairwise_singleton _ _, ?_⟩
    intro row hrow row' hrow'
    rw [List.mem_singleton.mp hrow']
    exact b.below row hrow
  below := by
    intro row hrow
    rcases List.mem_append.mp hrow with hrow | hrow
    · exact Nat.lt_succ_of_lt (b.below row hrow)
    rw [List.mem_singleton.mp hrow]
    exact Nat.lt_succ_self _

def enqueue (b : OfflineBuffer) (maxSize ttl now : ℕ) (topic : String) (payload : List UInt8)
    (props : MessageHeaders) : Except String OfflineBuffer :=
  if maxSize ≤ b.countLocked now then
    .error ("offline buffer full (" ++ toString (b.countLocked now) ++ "/" ++ toString maxSize ++
      " messages)")
  else .ok (b.insert ttl now topic payload props)

def pruneExpired (b : OfflineBuffer) (now : ℕ) : OfflineBuffer :=
  b.retain fun row => now < row.expiresAt

/-- The messages that have not expired, and the table without the others. -/
def dequeueAll (b : OfflineBuffer) (now : ℕ) : List BufferedMessage × OfflineBuffer :=
  let b := b.pruneExpired now
  (b.rows.filter fun row => now < row.expiresAt, b)

def remove (b : OfflineBuffer) (id : ℕ) : OfflineBuffer :=
  b.retain fun row => row.id ≠ id

end OfflineBuffer

end Formicary.Queue
