/-
# Certification — what SCOUT evidence does to the checkpoints

`CheckpointCertificationCoordinator.apply_result`, as a method of one rank
that calls the collective operations of its job.  The in-memory manager is
here what `apply_result` reads and leaves of it: its status, and whether the
local parts of its operations raise.  Each call of the manager and of the
durable coordinator is recorded in the order in which it is made.

The localization of communication faults and the fault callback come before
the vote; they leave the evidence of corruption as it is, and are left out.
-/
import LmResiliency.Checkpointing.Durable
import LmResiliency.Checkpointing.Status

namespace LmResiliency.Integrations

open Lockstep Detection Checkpointing

/-! ## The cadence -/

/-- `ResiliencyCadence`. -/
structure ResiliencyCadence where
  interval : Int
  checkpointEnabled : Bool
  detectionEnabled : Bool
  interval_pos : checkpointEnabled = true ∨ detectionEnabled = true → 0 < interval

def ResiliencyCadence.checkpointDue (cadence : ResiliencyCadence) (step : Int) : Bool :=
  cadence.checkpointEnabled && step % cadence.interval = 0

/-! ## The vote -/

/-- `_ReplayConsensus`. -/
structure ReplayConsensus where
  allResultsAvailable : Bool
  anySdc : Bool
  scheduledCyclesAgree : Bool
  scheduledCycleComplete : Bool
  allShapeCyclesComplete : Bool

/-- A flag of a tensor. -/
def flag (b : Bool) : Int := if b then 1 else 0

/-- What a rank contributes to the vote. -/
def replayFlags (result : Option ReplayResult) : Fin 6 → Int :=
  ![flag result.isNone,
    flag (replayResultHasSdc result),
    flag (result.any (·.completedScheduledCycle)),
    flag (result.any (! ·.completedScheduledCycle)),
    flag (result.any (·.completedShapeCycle)),
    flag (result.any (! ·.completedShapeCycle))]

/-- What the reduced flags say. -/
def consensusOfFlags (flags : Fin 6 → Int) : ReplayConsensus where
  allResultsAvailable := flags 0 = 0
  anySdc := flags 1 ≠ 0
  scheduledCyclesAgree := ¬ (flags 2 ≠ 0 ∧ flags 3 ≠ 0)
  scheduledCycleComplete := flags 2 ≠ 0 ∧ flags 3 = 0
  allShapeCyclesComplete := flags 4 ≠ 0 ∧ flags 5 = 0

/-- `_global_replay_consensus`, in a job of `n` ranks. -/
def globalReplayConsensus {ω : Type} (n : Nat) (result : Option ReplayResult) :
    JobM ω ReplayConsensus := do
  let flags ←
    if 1 < n then jobOp (.allReduce .max 6) (replayFlags result)
    else pure (replayFlags result)
  pure (consensusOfFlags flags)

/-! ## The coordinator -/

/-- What the constructor of the coordinator is given, the same on all ranks
of a job: which components there are, and the cadence. -/
structure CertificationConfig (n : Nat) where
  checkpointManager : Bool
  replayHarness : Bool
  durableCheckpoint : Option (DurableConfig n)
  cadence : ResiliencyCadence

/-- The calls of the manager and the durable coordinator. -/
inductive Call where
  /-- `_save_checkpoint` -/
  | capture
  | observe
  | rejectDurable
  | rejectCandidate
  /-- `persist_verified_boundary` or `persist_cycle_boundary` -/
  | persistBoundary (verified : Bool)
  | beginCandidate
  | clearCandidate
deriving DecidableEq

/-- The status of the manager, the durable coordinator, and the calls so far. -/
structure Certification where
  status : CheckpointStatusStore
  durable : Durable
  calls : List Call

/-- What `apply_result` meets on one rank. -/
structure CertificationInputs where
  replayResult : Option ReplayResult
  /-- `harness.current_replay_shape.shape_id` -/
  firstShapeId : String
  /-- What `_save_checkpoint` raises. -/
  saveError : Option CheckpointError
  /-- The step of the completed slot that `_persist_boundary` finds, `-1` for
  none, or what it raises before the ranks compare their steps. -/
  boundaryStep : Except CheckpointError Int
  /-- What the writing of the boundary's shards raises. -/
  boundaryError : Option CheckpointError
  /-- What the adapter's `save_candidate` does. -/
  saveCandidate : SaveOutcome

abbrev CertificationM (α : Type) : Type := JobM Certification α

section Methods

/-- A call is made. -/
def note (call : Call) : CertificationM Unit :=
  Meth.assign fun self => { self with calls := self.calls ++ [call] }

/-- A method of the durable coordinator. -/
def onDurable {α : Type} (m : DurableM α) : CertificationM α :=
  Meth.zoom Certification.durable (fun durable self => { self with durable := durable }) m

/-- An operation of the manager on its status. -/
def onStatus (f : CheckpointStatusStore → CheckpointStatusStore) : CertificationM Unit :=
  Meth.assign fun self => { self with status := f self.status }

/-- Local code that may raise. -/
def raising (error : Option CheckpointError) : CertificationM Unit :=
  match error with
  | none => pure ()
  | some e => Meth.raise e

/-- Local code that returns or raises. -/
def returning {α : Type} (outcome : Except CheckpointError α) : CertificationM α :=
  match outcome with
  | .ok a => pure a
  | .error e => Meth.raise e

variable {n : Nat} (config : CertificationConfig n) (rank : Fin n) (step : Int)
  (inputs : CertificationInputs)

def saveCheckpoint : CertificationM Unit := do
  note .capture
  raising inputs.saveError

/-- `manager.reject_candidate()`, if there is a manager. -/
def rejectManager : CertificationM Unit :=
  if config.checkpointManager then do
    note .rejectCandidate
    onStatus (·.rejectCandidate)
  else pure ()

/-- `durable_checkpoint.reject(reason)`, if there is a durable coordinator. -/
def rejectDurable (reason : String) : CertificationM Unit :=
  match config.durableCheckpoint with
  | none => pure ()
  | some durable => do
      note .rejectDurable
      onDurable (reject durable rank reason)

def rejectCandidate (reason : String) : CertificationM Unit := do
  rejectDurable config rank reason
  rejectManager config

/-- `self.durable_checkpoint is not None and self.durable_checkpoint.has_pending`. -/
def hasPending (self : Certification) : Bool :=
  config.durableCheckpoint.isSome && self.durable.pending.isSome

/-- `durable_checkpoint.observe`. -/
def observeDurable (result : ReplayResult) : CertificationM DurableEvent :=
  match config.durableCheckpoint with
  | none => pure .none
  | some durable => do
      note .observe
      onDurable (observe durable rank (some result) step)

/-- The observation of a candidate that is pending. -/
def observePending (result : ReplayResult) : CertificationM DurableEvent := do
  let self ← Meth.self
  if hasPending config self then observeDurable config rank step result else pure .none

/-- `_collective_min_step` of the manager. -/
def jobMinStep {ω : Type} (n : Nat) (localStep : Int) : JobM ω Int :=
  if n = 1 then pure localStep
  else do
    let reduced ← jobOp (.allReduce .min 1) ![localStep]
    pure (reduced (Fin.last 0))

def boundaryIncomplete : CheckpointError :=
  .runtimeError s!"checkpoint step {step} is not complete on every checkpoint rank"

/-- `_persist_boundary`, from the writing of the shards on. -/
def writeBoundary (verified : Bool) : CertificationM Unit := do
  raising inputs.boundaryError
  onStatus (·.persistBoundary step verified)

/-- `persist_verified_boundary` and `persist_cycle_boundary`. -/
def persistBoundary (n : Nat) (verified : Bool) : CertificationM Unit := do
  note (.persistBoundary verified)
  let localStep ← returning inputs.boundaryStep
  let least ← jobMinStep n localStep
  if least ≠ step then Meth.raise (boundaryIncomplete step)
  else writeBoundary step inputs verified

def notCommitted : CheckpointError :=
  .runtimeError "a clean dense checkpoint did not commit immediately"

def noHarness : CheckpointError :=
  .runtimeError "durable checkpointing requires a SCOUT replay harness"

/-- The observation of a candidate of a dense replay. -/
def commitDense (result : ReplayResult) : CertificationM Unit := do
  let event ← observeDurable config rank step result
  if event ≠ .committed then Meth.raise notCommitted else pure ()

/-- The body of the `try`. -/
def startCandidate (durable : DurableConfig n) (result : ReplayResult) :
    CertificationM Unit := do
  note .beginCandidate
  let _ ← onDurable (beginCandidate durable rank step inputs.firstShapeId inputs.saveCandidate)
  if result.denseReplay then commitDense config rank step result else pure ()

/-- The body of the `except`. -/
def clearAndRaise (e : CheckpointError) : CertificationM Unit :=
  if config.checkpointManager then do
    note .clearCandidate
    onStatus (·.clearCandidate)
    Meth.raise e
  else Meth.raise e

variable (forceCheckpoint requireFullShapeCycle : Bool)

/-- `should_start_durable`, where there is a durable coordinator. -/
def durableDue : Bool :=
  forceCheckpoint || !config.cadence.checkpointEnabled || config.cadence.checkpointDue step

/-- The last part of `apply_result`. -/
def startDurable (result : ReplayResult) : CertificationM Unit :=
  match config.durableCheckpoint with
  | none => pure ()
  | some durable =>
      if durableDue config step forceCheckpoint then
        if config.replayHarness then
          Meth.tryCatch (startCandidate config rank step inputs durable result)
            (clearAndRaise config)
        else Meth.raise noHarness
      else pure ()

/-- `should_save and self.checkpoint_manager is not None`. -/
def saves : Bool :=
  (forceCheckpoint || config.cadence.checkpointDue step) && config.checkpointManager

def cycleEnded : String := "SCOUT scheduled cycle ended without complete candidate evidence"

/-- `apply_result`, after the scheduled cycle has ended with nothing pending. -/
def acceptBoundary (result : ReplayResult) : CertificationM Unit := do
  if saves config step forceCheckpoint then
    persistBoundary step inputs n result.denseReplay
  else pure ()
  startDurable config rank step inputs forceCheckpoint result

/-- `apply_result`, from the durable observation on. -/
def certify (result : ReplayResult) (consensus : ReplayConsensus) : CertificationM Unit := do
  let event ← observePending config rank step result
  if event = .rejected then rejectManager config
  else if consensus.scheduledCycleComplete then do
    let self ← Meth.self
    if hasPending config self ∧ event ≠ .committed then
      rejectCandidate config rank cycleEnded
    else acceptBoundary config rank step inputs forceCheckpoint result
  else pure ()

/-- `apply_result`, after the checks of the vote. -/
def accept (result : ReplayResult) (consensus : ReplayConsensus) : CertificationM Unit := do
  if saves config step forceCheckpoint then saveCheckpoint inputs else pure ()
  certify config rank step inputs forceCheckpoint result consensus

def schedulersDisagree : CheckpointError :=
  .runtimeError "SCOUT recipe schedulers disagree on the cycle boundary across ranks"

def applyResult : CertificationM Unit := do
  let consensus ← globalReplayConsensus n inputs.replayResult
  if ¬ consensus.allResultsAvailable then pure ()
  else if consensus.anySdc then
    rejectCandidate config rank "SCOUT detected numerical divergence"
  else if requireFullShapeCycle ∧ ¬ consensus.allShapeCyclesComplete then pure ()
  else if ¬ consensus.scheduledCyclesAgree then Meth.raise schedulersDisagree
  else
    match inputs.replayResult with
    | none => Meth.raise (.runtimeError "assert replay_result is not None")
    | some result => accept config rank step inputs forceCheckpoint result consensus

end Methods

end LmResiliency.Integrations
