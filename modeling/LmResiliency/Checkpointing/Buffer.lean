/-
# Buffer — the in-memory slots of one rank

The buffer pool: two slots for the rank's own checkpoints, and with
replication two more for those of its peer.  A slot holds tensors, with the
step that they are labelled with.
-/
import Mathlib.Algebra.Order.Ring.Int
import Mathlib.Data.List.Basic

namespace LmResiliency.Checkpointing

/-- `SlotState`. -/
inductive SlotState where
  | empty
  | copying
  | ready
  | replicating
deriving DecidableEq

/-- `FlatStateDictMetadata`. -/
structure FlatStateDictMetadata (ε κ : Type) where
  tensorEntries : List ε
  nonTensorData : κ

/-- A shard: the metadata and the tensors. -/
abbrev Shard (α ε κ : Type) : Type := FlatStateDictMetadata ε κ × List α

/-- `BufferSlot`. -/
structure BufferSlot (α ε κ : Type) where
  tensors : List α := []
  tensorEntries : Option (List ε) := none
  step : Int := -1
  state : SlotState := .empty
  nonTensorData : Option κ := none

namespace BufferSlot

variable {α ε κ : Type}

/-- The state of a slot that holds a whole checkpoint: `READY` or `REPLICATING`. -/
def complete (slot : BufferSlot α ε κ) : Bool :=
  slot.state = .ready ∨ slot.state = .replicating

/-- A slot that holds no checkpoint any more. -/
def cleared (slot : BufferSlot α ε κ) : BufferSlot α ε κ :=
  { slot with step := -1, state := .empty, nonTensorData := none, tensorEntries := none }

/-- `_slot_metadata`; what the slot does not have is taken from the manager. -/
def metadata (slot : BufferSlot α ε κ) (shared : FlatStateDictMetadata ε κ) :
    FlatStateDictMetadata ε κ where
  tensorEntries :=
    match slot.tensorEntries with
    | some (entry :: entries) => entry :: entries
    | _ => shared.tensorEntries
  nonTensorData := slot.nonTensorData.getD shared.nonTensorData

end BufferSlot

/-- `BufferPool`; without replication there are no peer slots. -/
structure BufferPool (α ε κ : Type) where
  allocated : Bool
  ownCurrent : BufferSlot α ε κ
  ownPrevious : BufferSlot α ε κ
  /-- `peer_current` and `peer_previous` -/
  peer : Option (BufferSlot α ε κ × BufferSlot α ε κ)

namespace BufferPool

variable {α ε κ : Type} (pool : BufferPool α ε κ)

def ownSlots : List (BufferSlot α ε κ) := [pool.ownCurrent, pool.ownPrevious]

/-- The peer slots, if there are any. -/
def peerSlots : List (BufferSlot α ε κ) :=
  match pool.peer with
  | none => []
  | some (current, previous) => [current, previous]

def rotate : BufferPool α ε κ :=
  { pool with
    ownCurrent := pool.ownPrevious, ownPrevious := pool.ownCurrent
    peer := pool.peer.map Prod.swap }

def getSlotByStep (step : Int) : Option (BufferSlot α ε κ) :=
  (pool.ownSlots ++ pool.peerSlots).find? fun slot => slot.step = step ∧ slot.complete

end BufferPool

/-! ## What recovery reads -/

/-- The attributes of a manager that recovery from memory reads. -/
structure Memory (α ε κ : Type) where
  /-- `_metadata` -/
  metadata : Option (FlatStateDictMetadata ε κ)
  pool : BufferPool α ε κ

namespace Memory

variable {α ε κ : Type} (memory : Memory α ε κ)

/-- `_latest_memory_step`. -/
def latestStep : Int :=
  if memory.metadata.isNone ∨ memory.pool.allocated = false then -1
  else
    ((memory.pool.ownSlots.filter fun slot => slot.complete ∧ 0 < slot.step).map
      (·.step)).foldl max (-1)

/-- `_memory_slot_by_step`, with the metadata of the manager. -/
def slotByStep (step : Int) : Option (Shard α ε κ) :=
  match memory.metadata with
  | none => none
  | some shared =>
      if memory.pool.allocated = false then none
      else (memory.pool.ownSlots.find? fun slot => slot.step = step ∧ slot.complete).map
        fun slot => (slot.metadata shared, slot.tensors)

end Memory

end LmResiliency.Checkpointing
