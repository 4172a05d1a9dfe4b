/-
# Manager — one checkpoint manager, its worker and its peer exchange

The part of the checkpoint manager that captures a state, exchanges it with
the peer and writes slots to disk.  The methods run on the thread of the
training loop; each save starts a worker that waits for the host copy and
launches the exchange, one assignment after the other, while the loop goes
on.  What the environment decides (how a copy, a launch, an exchange or a
write ends) is an argument of the method or step that meets it.

A copy into host buffers is taken to land when it is started; until the
worker has waited for it the slot is `COPYING`, which nobody reads.  An
exchange that was given up writes no more.
-/
import LmResiliency.Checkpointing.Buffer

namespace LmResiliency.Checkpointing

/-- The two own slots, by what they are called now. -/
inductive OwnSlot where
  | current
  | previous
deriving DecidableEq

/-- The name of a slot after a rotation. -/
def OwnSlot.rotated : OwnSlot → OwnSlot
  | .current => .previous
  | .previous => .current

/-- Where the completion worker stands: what it has done last. -/
inductive WorkerPoint where
  /-- it waits for the host copy -/
  | copying
  | copied
  /-- `target_slot.state = READY` -/
  | readied
  /-- `peer_slot.step = -1` -/
  | stepCleared
  /-- `peer_slot.state = EMPTY` -/
  | stateCleared
  /-- `peer_slot.non_tensor_data = None` -/
  | dataCleared
  /-- `start_replication` has returned -/
  | launched
  /-- `target_slot.state = REPLICATING` -/
  | marked
  /-- `_replication_source = target_slot`, or it ended before -/
  | finished
deriving DecidableEq

/-- What `_loads_meta` makes of the peer's metadata; `none` when it raises. -/
abbrev PeerMeta (ε κ : Type) : Type := Option (Option κ × Option (List ε))

/-- The exchange of the replicator. -/
inductive Exchange (ε κ : Type) where
  | idle
  /-- its threads are there -/
  | running
  /-- they are gone, with the step and the metadata that `wait` returns -/
  | ended (peerStep : Int) (peerMeta : PeerMeta ε κ)

/-- How an exchange turns out for the rank that waits for it, with what its
receive buffers hold then. -/
inductive Waited (α ε κ : Type) where
  | failed (tensors : List α)
  | received (peerStep : Int) (peerMeta : PeerMeta ε κ) (tensors : List α)

/-- What a save was given for a step, whose copy came to its end. -/
structure Capture (α κ : Type) where
  step : Int
  tensors : List α
  nonTensorData : κ

/-- The rank that a shard is written for. -/
inductive Owner where
  | self
  | peer
deriving DecidableEq

/-- A shard that was handed to the disk serializer. -/
structure Written (α ε κ : Type) where
  owner : Owner
  step : Int
  shard : Shard α ε κ

/-- What the constructor settles. -/
structure ManagerConfig where
  skipReplication : Bool
  /-- `_world_size > 1` -/
  severalRanks : Bool
  diskFlushInterval : Int

/-- `_replicator.enabled`. -/
def ManagerConfig.replicating (config : ManagerConfig) : Bool :=
  !config.skipReplication && config.severalRanks

/-- What the tensor library does with host buffers. -/
structure HostCopy (α ε : Type) where
  /-- `torch.empty` for an entry -/
  blank : ε → α
  /-- `dst.copy_(src)`, of a buffer and a source; `none` where it raises -/
  copyInto : α → α → Option α

/-- `InMemoryCheckpointManager`.  The last four fields are its history: what it
was given to capture, what it received, what it wrote, and the step of the exchange that
completed last. -/
structure Manager (α ε κ : Type) where
  pool : BufferPool α ε κ
  metadata : Option (FlatStateDictMetadata ε κ)
  lastSavedStep : Int
  saveCount : Nat
  /-- `_copier._in_flight` -/
  copyInFlight : Bool
  /-- `_completion_thread` -/
  worker : Option WorkerPoint
  /-- `_completion_error is not None` -/
  completionError : Bool
  /-- `_replication_source` -/
  source : Option OwnSlot
  exchange : Exchange ε κ
  captures : List (Capture α κ)
  received : List (Int × List α)
  writes : List (Written α ε κ)
  completed : Option Int

/-- How a method ended: what it returned, `none` if it raised, and what it left. -/
structure Ended (σ β : Type) where
  state : σ
  result : Option β

namespace Manager

variable {α ε κ : Type}

def init (config : ManagerConfig) : Manager α ε κ where
  pool :=
    { allocated := false, ownCurrent := {}, ownPrevious := {}
      peer := if config.skipReplication then none else some ({}, {}) }
  metadata := none
  lastSavedStep := -1
  saveCount := 0
  copyInFlight := false
  worker := none
  completionError := false
  source := none
  exchange := .idle
  captures := []
  received := []
  writes := []
  completed := none

variable (config : ManagerConfig) (host : HostCopy α ε) (m : Manager α ε κ)

/-! ## Slots -/

/-- Change one own slot. -/
def modifyOwn (which : OwnSlot) (f : BufferSlot α ε κ → BufferSlot α ε κ) : Manager α ε κ :=
  match which with
  | .current => { m with pool := { m.pool with ownCurrent := f m.pool.ownCurrent } }
  | .previous => { m with pool := { m.pool with ownPrevious := f m.pool.ownPrevious } }

/-- Change `peer_current`. -/
def modifyPeer (f : BufferSlot α ε κ → BufferSlot α ε κ) : Manager α ε κ :=
  { m with pool := { m.pool with peer := m.pool.peer.map fun slots => (f slots.1, slots.2) } }

def own (which : OwnSlot) : BufferSlot α ε κ :=
  match which with
  | .current => m.pool.ownCurrent
  | .previous => m.pool.ownPrevious

/-- The rotation of the buffer pool. -/
def rotate : Manager α ε κ :=
  { m with pool := m.pool.rotate, source := m.source.map OwnSlot.rotated }

/-- A shard of the slot, as it is handed to the disk. -/
def shardOf (owner : Owner) (shared : FlatStateDictMetadata ε κ) (slot : BufferSlot α ε κ) :
    Written α ε κ := ⟨owner, slot.step, slot.metadata shared, slot.tensors⟩

/-! ## The exchange -/

/-- `_wait_for_completion_worker`, once the worker has finished. -/
def waitForCompletionWorker : Ended (Manager α ε κ) Unit :=
  let m := { m with worker := none }
  if m.completionError then ⟨{ m with completionError := false }, none⟩
  else ⟨m, some ()⟩

def maybeWait : Ended (Manager α ε κ) Unit := m.waitForCompletionWorker

/-- `_replicator.wait`: the step and the metadata of the peer. -/
def wait (waited : Waited α ε κ) : Manager α ε κ × Int × PeerMeta ε κ :=
  match m.exchange with
  | .idle => (m, -1, some (none, none))
  | .ended peerStep peerMeta => (m, peerStep, peerMeta)
  | .running =>
      match waited with
      | .failed tensors =>
          ({ m.modifyPeer fun slot => { slot with tensors } with
              exchange := .ended (-1) (some (none, none)) }, -1, some (none, none))
      | .received peerStep peerMeta tensors =>
          ({ m.modifyPeer fun slot => { slot with tensors } with
              exchange := .ended peerStep peerMeta
              received := (peerStep, tensors) :: m.received }, peerStep, peerMeta)

/-- The end of `finalize_replication`: the send slot is clean again. -/
def releaseSource (source : OwnSlot) : Manager α ε κ :=
  { m.modifyOwn source fun slot =>
      if slot.state = .replicating then { slot with state := .ready } else slot with
    source := none }

/-- `finalize_replication`, of an active exchange that `source` was sent in. -/
def finalizeExchange (source : OwnSlot) (waited : Waited α ε κ) :
    Ended (Manager α ε κ) Bool :=
  let (m, peerStep, peerMeta) := m.wait waited
  if 0 < peerStep ∧ peerStep = (m.own source).step then
    let m := m.modifyPeer fun slot => { slot with step := peerStep }
    match peerMeta with
    | none => ⟨m, none⟩
    | some (nonTensorData, tensorEntries) =>
        let m := m.modifyPeer fun slot =>
          { slot with nonTensorData, tensorEntries, state := .ready }
        ⟨{ m.releaseSource source with completed := some peerStep }, some true⟩
  else ⟨m.releaseSource source, some false⟩

def finalizeReplication (waited : Waited α ε κ) : Ended (Manager α ε κ) Bool :=
  match m.waitForCompletionWorker with
  | ⟨m, none⟩ => ⟨m, none⟩
  | ⟨m, some ()⟩ =>
      if config.replicating = false then ⟨m, some true⟩
      else
        match m.source with
        | none => ⟨m, some true⟩
        | some source => m.finalizeExchange source waited

/-! ## Saving -/

def prepareNextCapture (waited : Waited α ε κ) : Ended (Manager α ε κ) Unit :=
  if m.saveCount = 0 then ⟨m, some ()⟩
  else
    match m.finalizeReplication config waited with
    | ⟨m, none⟩ => ⟨m, none⟩
    | ⟨m, some replicationSucceeded⟩ =>
        if config.replicating = false ∨ replicationSucceeded then ⟨m.rotate, some ()⟩
        else ⟨(m.modifyOwn .current BufferSlot.cleared).modifyPeer BufferSlot.cleared, some ()⟩

/-- The loop of `start_copy`: what the buffers hold at its end, and whether it
came to its end. -/
def copyLoop : List α → List α → List α × Bool
  | src :: srcs, dst :: dsts =>
      match host.copyInto dst src with
      | none => (dst :: dsts, false)
      | some dst =>
          let (dsts, done) := copyLoop srcs dsts
          (dst :: dsts, done)
  | _, dsts => (dsts, true)

/-- `start_copy` into `own_current`. -/
def startCopy (srcs : List α) : Ended (Manager α ε κ) Unit :=
  if m.copyInFlight then ⟨m, none⟩
  else if srcs.length ≠ m.pool.ownCurrent.tensors.length then ⟨m, none⟩
  else
    let (tensors, done) := copyLoop host srcs m.pool.ownCurrent.tensors
    let m := m.modifyOwn .current fun slot => { slot with tensors }
    if done then ⟨{ m with copyInFlight := true }, some ()⟩ else ⟨m, none⟩

/-- The labels of a capture of `tensors` that has been started. -/
def labelCapture (metadata : FlatStateDictMetadata ε κ) (tensors : List α) (step : Int) :
    Manager α ε κ :=
  let m := m.modifyOwn .current fun slot =>
    { slot with
      step, state := .copying
      tensorEntries := some metadata.tensorEntries
      nonTensorData := some metadata.nonTensorData }
  { m with captures := ⟨step, tensors, metadata.nonTensorData⟩ :: m.captures }

/-- `_finalize_save`; `diskFails` when `save_async` raises. -/
def finalizeSave (metadata : FlatStateDictMetadata ε κ) (step : Int) (diskFails : Bool) :
    Ended (Manager α ε κ) Unit :=
  let m := { m with
    lastSavedStep := step, saveCount := m.saveCount + 1, metadata := some metadata }
  if 0 < config.diskFlushInterval ∧ step % config.diskFlushInterval = 0 ∧
      0 < m.pool.ownPrevious.step then
    if diskFails then ⟨m, none⟩
    else ⟨{ m with writes := shardOf .self metadata m.pool.ownPrevious :: m.writes }, some ()⟩
  else ⟨m, some ()⟩

def startCompletionWorker : Manager α ε κ :=
  { m with completionError := false, worker := some .copying }

def doSave (metadata : FlatStateDictMetadata ε κ) (tensors : List α) (step : Int)
    (waited : Waited α ε κ) (diskFails : Bool) : Ended (Manager α ε κ) Unit :=
  match m.prepareNextCapture config waited with
  | ⟨m, none⟩ => ⟨m, none⟩
  | ⟨m, some ()⟩ =>
      match m.startCopy host tensors with
      | ⟨m, none⟩ => ⟨m, none⟩
      | ⟨m, some ()⟩ =>
          match (m.labelCapture metadata tensors step).finalizeSave config metadata step
              diskFails with
          | ⟨m, none⟩ => ⟨m, none⟩
          | ⟨m, some ()⟩ => ⟨m.startCompletionWorker, some ()⟩

def allocate (metadata : FlatStateDictMetadata ε κ) : Manager α ε κ :=
  let fill : BufferSlot α ε κ → BufferSlot α ε κ := fun slot =>
    { slot with
      tensors := metadata.tensorEntries.map host.blank
      tensorEntries := some metadata.tensorEntries }
  { m with
    pool :=
      { allocated := true
        ownCurrent := fill m.pool.ownCurrent
        ownPrevious := fill m.pool.ownPrevious
        peer := m.pool.peer.map fun slots => (fill slots.1, fill slots.2) }
    metadata := some metadata }

/-- `save`, of a state that was flattened. -/
def save (metadata : FlatStateDictMetadata ε κ) (tensors : List α) (step : Int)
    (waited : Waited α ε κ) (diskFails : Bool) : Ended (Manager α ε κ) Unit :=
  let m := if m.pool.allocated then m else m.allocate host metadata
  m.doSave config host metadata tensors step waited diskFails

/-! ## The worker -/

/-- The next step of the completion worker; `fails` when the host copy or the
launch of the exchange raises. -/
def work (point : WorkerPoint) (fails : Bool) : Manager α ε κ :=
  match point with
  | .copying =>
      if fails then { m with completionError := true, worker := some .finished }
      else { m with copyInFlight := false, worker := some .copied }
  | .copied =>
      { m.modifyOwn .current fun slot => { slot with state := .ready } with
        worker := some (if config.replicating then .readied else .finished) }
  | .readied =>
      { m.modifyPeer fun slot => { slot with step := -1 } with worker := some .stepCleared }
  | .stepCleared =>
      { m.modifyPeer fun slot => { slot with state := .empty } with
        worker := some .stateCleared }
  | .stateCleared =>
      { m.modifyPeer fun slot => { slot with nonTensorData := none } with
        worker := some .dataCleared }
  | .dataCleared =>
      if fails then { m with completionError := true, worker := some .finished }
      else { m with exchange := .running, worker := some .launched }
  | .launched =>
      { m.modifyOwn .current fun slot => { slot with state := .replicating } with
        worker := some .marked }
  | .marked => { m with source := some .current, worker := some .finished }
  | .finished => m

/-! ## Writing -/

/-- The shards that `_flush_slots` writes, in its order. -/
def flushShards (shared : FlatStateDictMetadata ε κ) : List (Written α ε κ) :=
  let ready := fun slot : BufferSlot α ε κ => slot.state = .ready ∧ 0 < slot.step
  (m.pool.ownSlots.filter ready).map (shardOf .self shared) ++
    if config.replicating then (m.pool.peerSlots.filter ready).map (shardOf .peer shared)
    else []

/-- `flush_for_restart`; `written` is the number of shards after which the disk
raises, if it does. -/
def flushForRestart (waited : Waited α ε κ) (written : Option Nat) :
    Ended (Manager α ε κ) Unit :=
  match m.metadata with
  | none => ⟨m, some ()⟩
  | some shared =>
      match m.finalizeReplication config waited with
      | ⟨m, none⟩ => ⟨m, none⟩
      | ⟨m, some _⟩ =>
          let shards := m.flushShards config shared
          match written with
          | none => ⟨{ m with writes := shards.reverse ++ m.writes }, some ()⟩
          | some n => ⟨{ m with writes := (shards.take n).reverse ++ m.writes }, none⟩

/-- The shards that `_persist_boundary` writes, in its order; `none` where it
finds no slot. -/
def boundaryShards (shared : FlatStateDictMetadata ε κ) (step : Int) :
    Option (List (Written α ε κ)) :=
  let ready := fun slot : BufferSlot α ε κ => slot.step = step ∧ slot.state = .ready
  match m.pool.ownSlots.find? ready with
  | none => none
  | some ownSlot =>
      if config.replicating then
        match m.pool.peerSlots.find? ready with
        | none => some [shardOf .self shared ownSlot]
        | some peerSlot => some [shardOf .self shared ownSlot, shardOf .peer shared peerSlot]
      else some [shardOf .self shared ownSlot]

/-- The writes of `_persist_boundary`: `agreed` when every rank has the step,
`written` is the number of shards after which the disk raises, if it does. -/
def persistBoundary (step : Int) (waited : Waited α ε κ) (agreed : Bool)
    (written : Option Nat) : Ended (Manager α ε κ) Unit :=
  match m.metadata with
  | none => ⟨m, none⟩
  | some shared =>
      match m.finalizeReplication config waited with
      | ⟨m, none⟩ => ⟨m, none⟩
      | ⟨m, some replicationSucceeded⟩ =>
          if config.replicating ∧ ¬ replicationSucceeded then ⟨m, none⟩
          else
            match m.boundaryShards config shared step with
            | none => ⟨m, none⟩
            | some shards =>
                if ¬ agreed then ⟨m, none⟩
                else
                  let n := written.getD shards.length
                  -- without a peer slot, the own shard is written and the method raises
                  ⟨{ m with writes := (shards.take n).reverse ++ m.writes },
                    if n < shards.length ∨ config.replicating ∧ shards.length = 1 then none
                    else some ()⟩

/-- `flush_to_disk`; `diskFails` when `save_async` raises. -/
def flushToDisk (step : Option Int) (diskFails : Bool) : Ended (Manager α ε κ) Unit :=
  match m.metadata with
  | none => ⟨m, some ()⟩
  | some shared =>
      -- `step or self._last_saved_step`
      let target := if step.getD 0 = 0 then m.lastSavedStep else step.getD 0
      match m.pool.getSlotByStep target with
      | none => ⟨m, some ()⟩
      | some slot =>
          if diskFails then ⟨m, none⟩
          else ⟨{ m with writes := ⟨.self, target, slot.metadata shared, slot.tensors⟩ ::
            m.writes }, some ()⟩

/-! ## Runs -/

/-- What may happen next. -/
inductive Event (α ε κ : Type) where
  | save (metadata : FlatStateDictMetadata ε κ) (tensors : List α) (step : Int)
      (waited : Waited α ε κ) (diskFails : Bool)
  | maybeWait
  | finalizeReplication (waited : Waited α ε κ)
  | flushForRestart (waited : Waited α ε κ) (written : Option Nat)
  | persistBoundary (step : Int) (waited : Waited α ε κ) (agreed : Bool)
      (written : Option Nat)
  | flushToDisk (step : Option Int) (diskFails : Bool)
  /-- the worker goes on -/
  | work (fails : Bool)
  /-- the receive thread writes into its buffers -/
  | transfer (tensors : List α)

/-- No worker is there that a method would have to wait for. -/
def joinable : Prop := m.worker = none ∨ m.worker = some .finished

instance : Decidable m.joinable := inferInstanceAs (Decidable (_ ∨ _))

/-- What an event leaves, and what its method returned; `none` while it
cannot happen. -/
def next (m : Manager α ε κ) : Event α ε κ → Option (Ended (Manager α ε κ) (Option Bool))
  | .save metadata tensors step waited diskFails =>
      if m.saveCount = 0 ∨ m.joinable then
        let e := m.save config host metadata tensors step waited diskFails
        some ⟨e.state, e.result.map fun _ => none⟩
      else none
  | .maybeWait =>
      if m.joinable then some ⟨m.maybeWait.state, m.maybeWait.result.map fun _ => none⟩
      else none
  | .finalizeReplication waited =>
      if m.joinable then
        let e := m.finalizeReplication config waited
        some ⟨e.state, e.result.map some⟩
      else none
  | .flushForRestart waited written =>
      if m.metadata = none ∨ m.joinable then
        let e := m.flushForRestart config waited written
        some ⟨e.state, e.result.map fun _ => none⟩
      else none
  | .persistBoundary step waited agreed written =>
      if m.metadata = none ∨ m.joinable then
        let e := m.persistBoundary config step waited agreed written
        some ⟨e.state, e.result.map fun _ => none⟩
      else none
  | .flushToDisk step diskFails =>
      let e := m.flushToDisk step diskFails
      some ⟨e.state, e.result.map fun _ => none⟩
  | .work fails =>
      match m.worker with
      | none => none
      | some .finished => none
      | some point => some ⟨m.work config point fails, some none⟩
  | .transfer tensors =>
      match m.exchange with
      | .running => some ⟨m.modifyPeer fun slot => { slot with tensors }, some none⟩
      | _ => none

/-- The states that events lead to which `ok` lets pass. -/
inductive Reaches (ok : Manager α ε κ → Event α ε κ → Prop) : Manager α ε κ → Prop where
  | init : Reaches ok (init config)
  | step {m m' : Manager α ε κ} {event : Event α ε κ} {result : Option (Option Bool)}
      (h : Reaches ok m) (hok : ok m event)
      (hnext : next config host m event = some ⟨m', result⟩) : Reaches ok m'

end Manager

end LmResiliency.Checkpointing
