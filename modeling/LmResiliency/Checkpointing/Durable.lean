/-
# Durable — certification of framework-owned checkpoints

`DurableCheckpointCoordinator` of one rank, as methods that call the
collective operations of its group.  The writer rank is the only one that
writes the store; what it has written is a list, in order, of which a
process that dies has written some first part.

The notifications of the adapter (`commit_candidate`,
`quarantine_candidate`) have no effect here and are left out: what they
raise is only logged.
-/
import Mathlib.Algebra.GroupWithZero.Nat
import LmResiliency.Checkpointing.Collective
import LmResiliency.Checkpointing.Manifest
import LmResiliency.Detection.Replay

namespace LmResiliency.Checkpointing

open Lockstep Detection

/-! ## The collective operations of a job -/

/-- What `begin_candidate` compares. -/
structure CandidateStart where
  shapePlanId : String
  shapeIds : List String
  firstShapeId : String
  environmentId : String
deriving DecidableEq

/-- What `observe` compares: the reason to reject, and the checked shapes. -/
abbrev Observation : Type := Option String × List String

/-- The collective operations of checkpoint certification. -/
inductive JobOp where
  | allReduce (op : ReduceOp) (size : Nat)
  | gatherStarts
  | gatherObservations
  | barrier

abbrev jobCollectives : Collective where
  Kind := JobOp
  Val
    | .allReduce _ size => Fin size → Int
    | .gatherStarts => CandidateStart
    | .gatherObservations => Observation
    | .barrier => Unit
  Res
    | .allReduce _ size => Fin size → Int
    | .gatherStarts => List CandidateStart
    | .gatherObservations => List Observation
    | .barrier => Unit

/-- What the operations return in a group of `n` ranks. -/
def jobCombine {n : Nat} [NeZero n] :
    (k : jobCollectives.Kind) → (Fin n → jobCollectives.Val k) → jobCollectives.Res k
  | .allReduce op size, vs => reduce (op, size) vs
  | .gatherStarts, vs => List.ofFn vs
  | .gatherObservations, vs => List.ofFn vs
  | .barrier, _ => ()

/-- A method of one rank that calls the operations of its job. -/
abbrev JobM (ω α : Type) : Type := Meth jobCollectives.fallible.iface ω CheckpointError α

/-- What an operation raises when a rank has left the group. -/
def rankLeft : CheckpointError := .runtimeError "a rank has left the process group"

/-- One operation of the job. -/
def jobOp {ω : Type} (k : JobOp) (value : jobCollectives.Val k) : JobM ω (jobCollectives.Res k) :=
  collective (C := jobCollectives) rankLeft k value

/-! ## The coordinator -/

/-- `DurableCheckpointConfig` and the arguments of the coordinator's constructor,
on a job of `n` ranks. -/
structure DurableConfig (n : Nat) where
  environmentId : String
  writerRank : Fin n
  shapePlanId : String
  shapeIds : List String
  environmentId_ne : environmentId ≠ ""
  shapePlanId_ne : shapePlanId ≠ ""
  shapeIds_ne : shapeIds ≠ []
  shapeIds_nodup : shapeIds.Nodup

/-- `DurableCheckpointEvent`. -/
inductive DurableEvent where
  | none
  | progress
  | committed
  | rejected
deriving DecidableEq

/-- The attributes of a coordinator, and what it has written to the store. -/
structure Durable where
  pending : Option DurableCheckpointRecord
  latest : Option DurableCheckpointRecord
  nextEpoch : Nat
  written : List StoreWrite

/-- What `save_candidate` of the adapter did. -/
inductive SaveOutcome where
  | failed (e : CheckpointError)
  | saved (artifacts : List (String × Json))
  /-- It returned something that is not JSON. -/
  | unserializable

abbrev DurableM (α : Type) : Type := JobM Durable α

section Methods

variable {n : Nat} (config : DurableConfig n) (rank : Fin n)

def DurableConfig.isWriter : Bool := rank = config.writerRank

/-- Writes of the writer rank. -/
def writeStore (writes : List StoreWrite) : DurableM Unit :=
  Meth.assign fun self =>
    if config.isWriter rank then { self with written := self.written ++ writes } else self

def barrier (n : Nat) : DurableM Unit :=
  if 1 < n then jobOp .barrier () else pure ()

def allRanksSucceeded (n : Nat) (localSuccess : Bool) : DurableM Bool :=
  if n = 1 then pure localSuccess
  else do
    let value ← jobOp (.allReduce .min 1) ![if localSuccess then 1 else 0]
    pure (value (Fin.last 0) ≠ 0)

/-- `_all_gather_object`, for what `begin_candidate` compares. -/
def gatherStarts (n : Nat) (value : CandidateStart) : DurableM (List CandidateStart) :=
  if n = 1 then pure [value] else jobOp .gatherStarts value

/-- `_all_gather_object`, for what `observe` compares. -/
def gatherObservations (n : Nat) (value : Observation) : DurableM (List Observation) :=
  if n = 1 then pure [value] else jobOp .gatherObservations value

/-- The record that `_reject_record` writes. -/
def rejectedRecord (candidate : DurableCheckpointRecord) (reason : String) :
    DurableCheckpointRecord :=
  { candidate with status := .rejected, verdict := some reason }

/-- `_reject_record`, on the writer rank. -/
def rejectRecord (candidate : DurableCheckpointRecord) (reason : String) : DurableM Unit :=
  writeStore config rank (ManifestStore.reject (rejectedRecord candidate reason))

def reject (reason : String) : DurableM Unit := do
  let self ← Meth.self
  match self.pending with
  | none => pure ()
  | some candidate => do
      rejectRecord config rank candidate reason
      barrier n
      Meth.assign fun self => { self with pending := none }

/-- The record of a new candidate. -/
def newRecord (step : Int) (epoch : Nat) (expected : List String) : DurableCheckpointRecord where
  checkpointId := checkpointIdOf step epoch config.shapePlanId
  step := step
  validationEpoch := epoch
  shapePlanId := config.shapePlanId
  environmentId := config.environmentId
  expectedShapeIds := expected

/-- The exception of a rank: its own one, or that of another rank's failure. -/
def raiseLocal {α : Type} (localError : Option CheckpointError) (message : String) :
    DurableM α :=
  Meth.raise (localError.getD (.runtimeError message))

def writeFailed : String := "framework candidate checkpoint write failed"

def metadataFailed : String := "candidate artifact metadata could not be persisted"

/-- The error of `save_candidate`. -/
def SaveOutcome.error? : SaveOutcome → Option CheckpointError
  | .failed e => some e
  | _ => none

/-- The record of a candidate that was written: `replace(record, status="candidate", …)`. -/
def candidateRecord (record : DurableCheckpointRecord) (outcome : SaveOutcome) :
    DurableCheckpointRecord :=
  { record with
    status := .candidate
    artifacts := match outcome with
      | .saved artifacts => if config.isWriter rank then artifacts else []
      | _ => [] }

/-- What `json.dumps` raises on the writer rank. -/
def manifestError (outcome : SaveOutcome) : Option CheckpointError :=
  match outcome with
  | .unserializable =>
      if config.isWriter rank then some (.valueError "artifacts are not JSON serializable")
      else none
  | _ => none

/-- The second write of a candidate, which `json.dumps` may refuse. -/
def writeMetadata (error : Option CheckpointError) (record : DurableCheckpointRecord) :
    DurableM Unit :=
  if error.isNone then writeStore config rank (ManifestStore.writePending record) else pure ()

/-- `begin_candidate`, from the writing of the candidate's metadata on. -/
def persistCandidate (record : DurableCheckpointRecord) (outcome : SaveOutcome) :
    DurableM DurableCheckpointRecord := do
  let error := manifestError config rank outcome
  writeMetadata config rank error record
  let succeeded ← allRanksSucceeded n error.isNone
  if succeeded then do
    barrier n
    Meth.assign fun self =>
      { self with pending := some record, nextEpoch := record.validationEpoch + 1 }
    pure record
  else do
    rejectRecord config rank { record with artifacts := [] } metadataFailed
    barrier n
    raiseLocal error (metadataFailed ++ " on the writer rank")

/-- `begin_candidate`, from the first write on. -/
def writeCandidate (record : DurableCheckpointRecord) (outcome : SaveOutcome) :
    DurableM DurableCheckpointRecord := do
  writeStore config rank (ManifestStore.writePending record)
  barrier n
  let succeeded ← allRanksSucceeded n outcome.error?.isNone
  if succeeded then
    persistCandidate config rank (candidateRecord config rank record outcome) outcome
  else do
    rejectRecord config rank record writeFailed
    barrier n
    raiseLocal outcome.error? (writeFailed ++ " on another rank")

def alreadyPending : CheckpointError :=
  .runtimeError "a durable checkpoint candidate is already pending"

def planDiffers : CheckpointError := .runtimeError
  "durable checkpoint shape plan or scheduler position differs across checkpoint ranks"

def notInPlan (firstShapeId : String) : CheckpointError :=
  .valueError s!"first replay shape '{firstShapeId}' is not in the configured plan"

def beginCandidate (step : Int) (firstShapeId : String) (outcome : SaveOutcome) :
    DurableM DurableCheckpointRecord := do
  let self ← Meth.self
  if self.pending.isSome then
    Meth.raise alreadyPending
  else do
    let starts ← gatherStarts n
      ⟨config.shapePlanId, config.shapeIds, firstShapeId, config.environmentId⟩
    if starts.tail.any fun item => some item ≠ starts.head? then
      Meth.raise planDiffers
    else
      match rotateShapeIds config.shapeIds firstShapeId with
      | none => Meth.raise (notInPlan firstShapeId)
      | some expected =>
          writeCandidate config rank (newRecord config step self.nextEpoch expected) outcome

/-- What a rank contributes to an observation. -/
def observation (candidate : DurableCheckpointRecord) (result : Option ReplayResult) :
    Observation :=
  match result with
  | none => (some "scheduled SCOUT replay did not produce evidence", [])
  | some r =>
      if replayResultHasSdc (some r) then (some "SCOUT detected numerical divergence", [])
      else if r.checkedShapeIds = [] then
        (some "SCOUT result did not identify any checked replay shape", [])
      else if r.checkedShapeIds ≠
          (candidate.expectedShapeIds.drop candidate.checkedShapes.length).take
            r.checkedShapeIds.length then
        (some "SCOUT replay shape order differs from the candidate validation plan",
          r.checkedShapeIds)
      else (none, r.checkedShapeIds)

def commit (candidate : DurableCheckpointRecord) (completedStep : Int) : DurableM Unit := do
  let committed := { candidate with
    status := .recoveryVerified, verdict := some "clean", completedStep := some completedStep }
  writeStore config rank (ManifestStore.commit committed)
  barrier n
  Meth.assign fun self => { self with latest := some committed, pending := none }

/-- The candidate with the shapes of one more observation. -/
def checkedCandidate (candidate : DurableCheckpointRecord) (checked : List String) (step : Int) :
    DurableCheckpointRecord :=
  { candidate with
    checkedShapes := candidate.checkedShapes ++ checked.map fun shapeId => ⟨shapeId, step⟩ }

/-- `observe`, after the observations of all ranks agree. -/
def advance (candidate : DurableCheckpointRecord) (step : Int) : DurableM DurableEvent := do
  Meth.assign fun self => { self with pending := some candidate }
  if candidate.complete then do
    commit config rank candidate step
    pure .committed
  else do
    writeStore config rank (ManifestStore.writePending candidate)
    barrier n
    pure .progress

def observe (result : Option ReplayResult) (step : Int) : DurableM DurableEvent := do
  let self ← Meth.self
  match self.pending with
  | none => pure .none
  | some candidate => do
      let own := observation candidate result
      let observations ← gatherObservations n own
      match observations.findSome? (·.1) with
      | some rejection => do
          reject config rank rejection
          pure .rejected
      | none =>
          if observations.any fun item => item.2 ≠ own.2 then do
            reject config rank "SCOUT checked different replay shapes across checkpoint ranks"
            pure .rejected
          else advance config rank (checkedCandidate candidate own.2 step) step

end Methods

/-! ## The constructor -/

/-- What the writer rank does to the store when it is constructed. -/
def recoverStore (store : ManifestStore) : List StoreWrite :=
  match store.pending with
  | none => []
  | some stale =>
      match store.latest with
      | none => ManifestStore.reject (rejectedRecord stale
          "validation incomplete when the checkpoint coordinator restarted")
      | some latest =>
          if latest.checkpointId = stale.checkpointId ∧
              (latest.status = .recoveryVerified ∨ latest.status = .validated) ∧
              latest.verdict = some "clean" then ManifestStore.clearPending
          else ManifestStore.reject (rejectedRecord stale
            "validation incomplete when the checkpoint coordinator restarted")

/-- A coordinator after its constructor; `store` is what the writer rank has
left when all ranks have passed the barrier. -/
def constructed (store : ManifestStore) : Durable where
  pending := none
  latest := store.latest
  nextEpoch := store.nextValidationEpoch
  written := []

end LmResiliency.Checkpointing
