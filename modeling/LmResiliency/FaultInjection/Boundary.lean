/-
# Boundary — a session between two iterations, and its ranks

After every optimizer step a session ends the effects that are over and enters the next
iteration: it checks what it is going to activate, records the attempts in the store, and
activates the faults.  Where the ranks could disagree they gather each other's errors, and
all of them close when one has failed.
-/
import LmResiliency.FaultInjection.Effects
import LmResiliency.Lib.Lockstep
import LmResiliency.Lib.SortedSet

namespace LmResiliency.FaultInjection.Effects

open Act (self assign raise attempt ofExcept forEach firstError)

variable {campaign : FaultCampaign} (setup : Setup) (world : World)

/-! ## What is scheduled -/

/-- `_candidate_incidents_for_iteration` -/
def candidatesFor (iteration : Int) : Code campaign (List (FaultIncident × Int)) := fun w =>
  (.ok (candidateIncidents iteration w.session),
    { w with session := w.session.lookedUp iteration })

variable (campaign) in
/-- An occurrence is selected by its probability. -/
def selects (iteration : Int) (incident : FaultIncident) : Bool :=
  probabilitySelected setup.draw campaign.seed incident.incidentId iteration
    incident.trigger.probability

/-- `_selected_incidents_for_iteration` -/
def selectedFor (iteration : Int) : Code campaign (List (FaultIncident × Int)) := do
  let candidates ← candidatesFor iteration
  pure (candidates.filter fun item => selects campaign setup iteration item.1)

/-- `_requests_for_iteration` -/
def requestsFor (iteration : Int) : Code campaign (List FaultExecutionRequest) := do
  let selected ← selectedFor setup iteration
  pure (selected.flatMap fun item =>
    (item.1.faults.filter (·.target.executionRank = setup.rank)).map fun fault =>
      buildRequest campaign setup item.1 fault
        (occurrenceIdOf item.1 iteration item.2) iteration item.2)

def hasSafeActivation (iteration : Int) : Code campaign Bool := do
  let selected ← selectedFor setup iteration
  let faults := selected.flatMap fun item => item.1.faults
  pure (!faults.isEmpty && faults.all (·.safety = .safeInProcess))

def historyFaultsFor (iteration : Int) : Code campaign (List FaultSpec) := do
  let now ← selectedFor setup iteration
  let next ← selectedFor setup (iteration + 1)
  pure (((now ++ next).flatMap fun item => item.1.faults).filter
    (·.type ∈ [.staleState, .duplicate]))

/-- `self._schedule.expirations(iteration)` -/
def expirationsAt (iteration : Int) : Code campaign (List (FaultIncident × Int)) := fun w =>
  let found := ScheduleCursor.valid_atIteration w.expirations_valid iteration
  (.ok (w.expirations.atIteration iteration).2,
    { w with
      expirations := (w.expirations.atIteration iteration).1
      expirations_valid := found.2.2.2
      expirations_incidents := found.2.1.trans w.expirations_incidents
      expirations_expire := found.2.2.1.trans w.expirations_expire })

def requiresBoundaryConsensus (finished next : Int) : Code campaign Bool := do
  let candidates ← candidatesFor next
  if !candidates.isEmpty then pure true
  else do
    let history ← historyFaultsFor setup next
    if !history.isEmpty then pure true
    else do
      let expirations ← expirationsAt finished
      let w ← self
      pure (expirations.any fun item =>
        item.1.faults.all (·.safety = .safeInProcess) &&
          selects campaign setup item.2 item.1 &&
          0 < w.session.journal.attemptCount item.1.incidentId item.2)

/-! ## Preparation -/

/-- One request of `_preflight_iteration`. -/
def preflightRequest (request : FaultExecutionRequest) : Code campaign Unit :=
  if localSupports request.fault then pure ()
  else do
    let executor ← executorFor setup request.fault
    validateExecutorLifecycle executor
    if request.lifetime.callCount.isSome && !executor.completesInline then
      raise ⟨"ValueError", "fault executor '" ++ executor.name ++
        "' must declare completes_inline=True for matching_calls incidents", true, []⟩
    else if requiresActiveExternalEffect request.lifetime && executor.oneShot then
      raise ⟨"ValueError", "fault executor '" ++ executor.name ++ "' cannot use a one-shot " ++
        "result for a multi-iteration or until lifetime", true, []⟩
    else if executor.validates then do
      ofExcept (← ask world (.validate executor request))
    else pure ()

def preflightIteration (iteration : Int) : Code campaign Unit := do
  let requests ← requestsFor setup iteration
  let selected ← selectedFor setup iteration
  let requiredHistory := (selected.filter fun item => item.1.safety ≠ .safeInProcess).map
    fun item => occurrenceIdOf item.1 iteration item.2
  ofExcept (← ask world (.validateActivations requests requiredHistory))
  forEach (preflightRequest setup world) requests

def validateCapabilities : Code campaign Unit :=
  let unsupported := campaign.incidents.flatMap fun incident =>
    (incident.faults.filter fun fault =>
      fault.target.executionRank = setup.rank ∧ localSupports fault = false ∧
        setup.executors.any (·.supports fault) = false).map fun fault =>
      incident.incidentId ++ "/" ++ fault.faultId ++ ": " ++ fault.type.value ++ " on " ++
        fault.target.surface.value
  if unsupported.isEmpty then pure ()
  else raise ⟨"UnsupportedFaultError", "campaign has no configured executor for: " ++
    "; ".intercalate unsupported, true, []⟩

/-! ## Attempts -/

/-- The error of an attempt that could not be staged. -/
def attemptRaised : AttemptError → Raised
  | .attemptChanged incidentId expected attempt =>
      ⟨"RuntimeError", "campaign journal attempt for '" ++ incidentId ++ "' changed from " ++
        Text.str expected ++ " to " ++ Text.str attempt ++ " during staging", true, []⟩
  | .invalidKey incidentId => ⟨"ValueError", "invalid candidate key of " ++ incidentId, true, []⟩
  | _ => ⟨"RuntimeError", "campaign state changed concurrently", true, []⟩

/-- The journal in memory. -/
def Runtime.withJournal (w : Runtime campaign) (journal : CampaignJournal) : Runtime campaign :=
  { w with session := { w.session with journal := journal } }

/-- `_stage_iteration_attempts` -/
def stageAttempts (iteration : Int) (candidates : List (FaultIncident × Int)) :
    Code campaign (List StagedIncident) := do
  let w ← self
  let selections := candidates.map fun item =>
    (item.1, item.2, selects campaign setup iteration item.1)
  if selections.any (·.2.2) = false then
    pure (selections.map fun item =>
      ⟨item.1, item.2.1, occurrenceIdOf item.1 iteration item.2.1, false⟩)
  else
    match stageSelections iteration selections w.session.journal.copy with
    | .error error => raise (attemptRaised error)
    | .ok (updated, staged) => do
        let outcome : Except Raised Bool ←
          ask world (.compareAndSwap w.session.journal.copy updated)
        let swapped ← ofExcept outcome
        if swapped then do
          assign (Runtime.withJournal · updated)
          pure staged
        else raise ⟨"RuntimeError",
          "campaign state changed concurrently while claiming occurrences", true, []⟩

/-- `_restore_journal_attempts` -/
def restoreAttempts (previous : CampaignJournal) : Code campaign Unit := do
  let w ← self
  let restored := w.session.journal.copy.withAttempts previous
  let outcome : Except Raised Bool ← ask world (.compareAndSwap w.session.journal.copy restored)
  let swapped ← ofExcept outcome
  if swapped then assign (Runtime.withJournal · restored)
  else raise ⟨"RuntimeError", "campaign state changed concurrently during attempt rollback",
    true, []⟩

def commitJournalBinding : Code campaign Unit := do
  let w ← self
  if w.journalCommitted then pure ()
  else do
    let committed : Code campaign Unit := assign fun w =>
      { w with journalBase := w.session.journal.copy, journalCommitted := true }
    let outcome : Except Raised Bool ←
      ask world (.compareAndSwap w.journalBase w.session.journal)
    let swapped ← ofExcept outcome
    if swapped then committed
    else do
      let loaded : Except Raised CampaignJournal ← ask world (.load campaign.name)
      let current ← ofExcept loaded
      if current.sameDict w.session.journal then committed
      else raise ⟨"RuntimeError", "campaign state changed concurrently during manifest binding",
        true, []⟩

/-! ## The ranks -/

/-- What the ranks gather: how far each has prepared, or each one's error. -/
inductive Gather where
  | preparations
  | errors
deriving DecidableEq

/-- The preparation of a rank in `enable_fault_injection`. -/
structure Preparation where
  error : Option String
  campaignIdentity : Option String
  currentIteration : Option Int
  journalAttemptsIdentity : Option String
deriving DecidableEq

/-- What one rank passes. -/
def Gather.Passed : Gather → Type
  | preparations => Preparation
  | errors => Option String

/-- `all_gather_object` -/
def gathers : Lockstep.Collective where
  Kind := Gather
  Val := Gather.Passed
  Res kind := List kind.Passed

/-- Code of a session with collective operations, any of which may fail. -/
abbrev Method (campaign : FaultCampaign) (α : Type) : Type :=
  Meth gathers.fallible.iface (Runtime campaign) Raised α

/-- Code without collective operations. -/
def locally {α : Type} (code : Code campaign α) : Method campaign α := Meth.act code

/-- The texts of the errors that are gathered. -/
def failuresOf (gathered : List (Option String)) : List String :=
  gathered.zipIdx.filterMap fun item =>
    item.1.map fun failure => "rank " ++ Text.str item.2 ++ ": " ++ failure

def gatherRankErrors (error : Option Raised) : Method campaign (List String) := do
  let gathered ← Lockstep.collective (C := gathers) setup.lost .errors (error.map Raised.summary)
  pure (failuresOf gathered)

def gatherRuntimeRankErrors (error : Option Raised) (stage : String) :
    Method campaign (List String) :=
  (gatherRankErrors setup error).tryCatch fun collectiveError =>
    locally (cleanupAndRaise world
      (collectiveError.addNote ("fault injection " ++ stage ++ " consensus failed")))

/-- What was raised, if anything was. -/
def errorOf {α : Type} : Except Raised α → Option Raised
  | .ok _ => none
  | .error error => some error

/-- The error of all ranks when some have failed. -/
def boundaryError (stage : String) (failures : List String) : Raised :=
  ⟨"RuntimeError", "fault injection " ++ stage ++ " failed; " ++ "; ".intercalate failures,
    true, []⟩

/-- A rank raises its own error when it is no `Exception`, else that of all ranks, with the same
notes. -/
def raisedTogether (own : Option Raised) (boundary : Raised) (notes : Raised → Raised) : Raised :=
  match own with
  | some error =>
      if error.isException then notes boundary else notes (error.addNote boundary.text)
  | none => notes boundary

/-- A rank closes after a stage that has failed somewhere. -/
def failStage {α : Type} (stage : String) (own : Option Raised) (failures : List String) :
    Code campaign α := do
  let cleanupError ← cleanup world false
  raise (raisedTogether own (boundaryError stage failures)
    (·.noting "fault injection cleanup also failed" cleanupError))

/-! ## Entering an iteration -/

/-- `_enter_iteration_consistently`, after faults that were not activated everywhere: those of
the records and effects from here on are taken back. -/
def abandonArming (activeStart recordStart : Nat) (own : Option Raised) (failures : List String) :
    Code campaign Unit := do
  let boundary := boundaryError "iteration arming" failures
  let rollbackError ← rollbackNewActivations world activeStart recordStart boundary
  let cleanupError ← cleanup world false
  raise (raisedTogether own boundary fun error =>
    (error.noting "fault activation rollback also failed" rollbackError).noting
      "fault injection cleanup also failed" cleanupError)

/-- The end of `_enter_iteration_consistently`: the faults are activated. -/
def armIteration (iteration : Int) (staged : List StagedIncident) (requiresConsensus : Bool) :
    Method campaign Unit := do
  let before ← Meth.self
  let outcome ← locally (attempt (activateStagedIteration setup world iteration staged))
  let failures ←
    if requiresConsensus then
      gatherRuntimeRankErrors setup world (errorOf outcome) "iteration arming"
    else pure []
  if failures.isEmpty then
    match outcome with
    | .ok _ => pure ()
    | .error error => locally (cleanupAndRaise world error)
  else locally (abandonArming world before.active.length before.records.length (errorOf outcome)
    failures)

/-- What a rank raises for attempts that were not recorded everywhere. -/
def raiseUnrecorded (own : Option Raised) (failures rollbackFailures : List String) :
    Code campaign Unit := do
  let cleanupError ← cleanup world false
  raise (raisedTogether own (boundaryError "attempt persistence" failures) fun error =>
    (if rollbackFailures.isEmpty then error
      else error.addNote ("fault injection attempt rollback also failed; " ++
        "; ".intercalate rollbackFailures)).noting
      "fault injection cleanup also failed" cleanupError)

/-- `_enter_iteration_consistently`, after attempts that were not recorded everywhere. -/
def abandonAttempts (previous : CampaignJournal) (own : Option Raised) (failures : List String) :
    Method campaign Unit := do
  let outcome ← locally (attempt (restoreAttempts world previous))
  let rollbackFailures ← gatherRuntimeRankErrors setup world (errorOf outcome) "attempt rollback"
  locally (raiseUnrecorded world own failures rollbackFailures)

/-- `_enter_iteration_consistently` on one rank alone. -/
def enterAlone (iteration : Int) (candidates : List (FaultIncident × Int)) :
    Code campaign Unit :=
  (do
    preflightIteration setup world iteration
    let staged ← stageAttempts setup world iteration candidates
    activateStagedIteration setup world iteration staged).tryCatch (cleanupAndRaise world)

/-- `_enter_iteration_consistently` among other ranks. -/
def enterTogether (iteration : Int) (candidates : List (FaultIncident × Int))
    (requiresConsensus : Bool) : Method campaign Unit := do
  let preflight ← locally (attempt (preflightIteration setup world iteration))
  let failures ← gatherRuntimeRankErrors setup world (errorOf preflight) "iteration preflight"
  if failures.isEmpty then do
    let before ← Meth.self
    let staged ← locally (attempt (stageAttempts setup world iteration candidates))
    let failures ← gatherRuntimeRankErrors setup world (errorOf staged) "attempt persistence"
    if failures.isEmpty then
      armIteration setup world iteration (staged.toOption.getD []) requiresConsensus
    else abandonAttempts setup world before.session.journal (errorOf staged) failures
  else locally (failStage world "iteration preflight" (errorOf preflight) failures)

/-- `_enter_iteration_consistently` -/
def enterIteration (iteration : Int) : Method campaign Unit := do
  let candidates ← locally (candidatesFor iteration)
  if candidates.isEmpty then pure ()
  else do
    let requiresConsensus ← locally (hasSafeActivation setup iteration)
    if setup.worldSize ≤ 1 then locally (enterAlone setup world iteration candidates)
    else enterTogether setup world iteration candidates requiresConsensus

/-! ## Steps -/

/-- `_on_step_complete`, after a step that worked: the effects that are over end. -/
def prepareIteration (finished next : Int) : Code campaign Unit := do
  let w ← self
  let expirationError ← firstError
    (unlessDone fun active =>
      if expires finished active then completeFault world active false false else pure ())
    w.active
  discardCompleted
  match expirationError with
  | some error => raise error
  | none => do
      assign fun w => { w with completedIterations := finished, currentIteration := next }
      let history ← historyFaultsFor setup next
      ofExcept (← ask world (.syncHistory history))

/-- The error of a rank that has the optimizer's. -/
def raisedAfterStep (optimizerError preparation : Option Raised) (boundary : Raised)
    (notes : Raised → Raised) : Raised :=
  match optimizerError with
  | some error => notes (error.addNote boundary.text)
  | none => raisedTogether preparation boundary notes

/-- `_on_step_complete`, where some rank has failed. -/
def failStep (stage : String) (optimizerError preparation : Option Raised)
    (failures : List String) : Code campaign Unit := do
  let cleanupError ← cleanup world false
  raise (raisedAfterStep optimizerError preparation (boundaryError stage failures)
    (·.noting "fault injection cleanup also failed" cleanupError))

/-- What keeps a rank from the next iteration. -/
def stepError (optimizerError : Option Raised) (finished : Int) :
    Code campaign (Option Raised) :=
  match optimizerError with
  | some error => pure (some error)
  | none => do
      let outcome ← attempt (prepareIteration setup world finished (finished + 1))
      pure (errorOf outcome)

/-- Whether the ranks have to agree on a step. -/
def stepConsensus (finished : Int) : Code campaign Bool :=
  if 1 < setup.worldSize then requiresBoundaryConsensus setup finished (finished + 1)
  else pure false

/-- `_on_step_complete` of a session that is open. -/
def completeStep (optimizerError : Option Raised) (finished : Int) : Method campaign Unit := do
  let required ← locally (stepConsensus setup finished)
  let preparation ← locally (stepError setup world optimizerError finished)
  if required then do
    let stage := if optimizerError.isSome then "optimizer step" else "iteration preparation"
    let failures ← gatherRuntimeRankErrors setup world preparation stage
    if failures.isEmpty then do
      let w ← Meth.self
      enterIteration setup world w.currentIteration
    else locally (failStep world stage optimizerError preparation failures)
  else
    match preparation with
    | some error => locally (cleanupAndRaise world error)
    | none => do
        let w ← Meth.self
        enterIteration setup world w.currentIteration

def onStepComplete (optimizerError : Option Raised) : Method campaign Unit := do
  let w ← Meth.self
  if w.closed then
    match optimizerError with
    | some error => Meth.raise error
    | none => pure ()
  else completeStep setup world optimizerError w.currentIteration

/-! ## Enablement -/

def start : Method campaign Unit := do
  let w ← Meth.self
  if w.closed then
    Meth.raise ⟨"RuntimeError", "cannot start a closed fault injection session", true, []⟩
  else if w.started then pure ()
  else if !w.journalCommitted then
    Meth.raise ⟨"RuntimeError", "campaign journal binding has not been committed", true, []⟩
  else do
    enterIteration setup world w.currentIteration
    Meth.assign fun w => { w with started := true }

/-- The checks of `__init__`. -/
def checkSession : Code campaign Unit := do
  validateCapabilities setup
  ofExcept (← ask world .validateTargets)
  ofExcept (← ask world .validateSchedule)
  let w ← self
  let history ← historyFaultsFor setup w.currentIteration
  ofExcept (← ask world (.syncHistory history))
  preflightIteration setup world w.currentIteration

/-- `__init__` of a session that is not deferred. -/
def makeAlone : Method campaign Unit :=
  (do
    locally (checkSession setup world)
    locally (commitJournalBinding world)
    start setup world).tryCatch fun error => locally (cleanupAndRaise world error)

/-- `_validate_distributed_target_ranks` -/
def validateTargetRanks : Code campaign Unit :=
  let invalid := sortedSet ((campaign.incidents.flatMap fun incident =>
    incident.faults.map (·.target.executionRank)).filter ((setup.worldSize : Int) ≤ ·))
  if invalid.isEmpty then pure ()
  else raise ⟨"ValueError", "campaign targets global ranks outside world size " ++
    Text.str setup.worldSize ++ ": [" ++ ", ".intercalate (invalid.map Text.str) ++ "]", true, []⟩

/-- What a rank passes of its preparation; the identity is there once the target ranks are
valid. -/
def preparationOf (w : Runtime campaign) (ranksValid : Bool) : Except Raised Unit → Preparation
  | .ok _ => ⟨none, some setup.campaignIdentity, some w.currentIteration,
      some (setup.attemptsIdentity w.session.journal.attempts)⟩
  | .error error =>
      ⟨some error.summary, if ranksValid then some setup.campaignIdentity else none, none, none⟩

/-- The differences of a preparation from that of rank 0. -/
def differences (reference prepared : Preparation) (rank : Nat) : List String :=
  let shown (iteration : Option Int) := (iteration.map Text.str).getD "None"
  (if prepared.campaignIdentity ≠ reference.campaignIdentity then
    ["rank " ++ Text.str rank ++ " campaign manifest differs from rank 0"] else []) ++
  (if prepared.currentIteration ≠ reference.currentIteration then
    ["rank " ++ Text.str rank ++ " current_iteration " ++ shown prepared.currentIteration ++
      " differs from rank 0 " ++ shown reference.currentIteration] else []) ++
  (if prepared.journalAttemptsIdentity ≠ reference.journalAttemptsIdentity then
    ["rank " ++ Text.str rank ++ " campaign journal attempts differ from rank 0"] else [])

/-- What is wrong with the preparations. -/
def preparationFailures (gathered : List Preparation) : List String :=
  let failures := failuresOf (gathered.map Preparation.error)
  if failures.isEmpty then
    match gathered with
    | [] => []
    | reference :: others => others.zipIdx.flatMap fun item =>
        differences reference item.1 (item.2 + 1)
  else failures

/-- The local part of `enable_fault_injection`: a session that is deferred, where the target
ranks are valid. -/
def makeDeferred (ranks : Except Raised Unit) : Code campaign Unit := do
  ofExcept ranks
  (checkSession setup world).tryCatch (cleanupAndRaise world)

/-- The session is closed, if there is one. -/
def closeMade (made : Except Raised Unit) : Code campaign (Option Raised) :=
  if made.isOk then do
    let closing ← attempt (close world)
    pure (errorOf closing)
  else pure none

/-- `enable_fault_injection`, when the preparations could not be gathered. -/
def abandonGather (made : Except Raised Unit) (error : Raised) :
    Code campaign (List Preparation) := do
  let cleanupError ← closeMade world made
  raise (error.noting "fault injection cleanup also failed" cleanupError)

/-- `enable_fault_injection`, when some rank is not prepared as the others are. -/
def abandonEnablement (made : Except Raised Unit) (failures : List String) :
    Code campaign Unit := do
  let cleanupError ← closeMade world made
  raise (raisedTogether (errorOf made)
    ⟨"RuntimeError", "fault injection enablement failed; " ++ "; ".intercalate failures, true, []⟩
    (·.noting "fault injection cleanup also failed" cleanupError))

/-- `enable_fault_injection`, when some rank's journal is not bound. -/
def abandonBinding (bound : Except Raised Unit) (failures : List String) :
    Code campaign Unit := do
  let cleanupError ← cleanup world false
  raise (raisedTogether (errorOf bound)
    ⟨"RuntimeError", "fault injection journal binding failed; " ++ "; ".intercalate failures,
      true, []⟩
    (·.noting "fault injection cleanup also failed" cleanupError))

/-- `enable_fault_injection` among other ranks, once all are prepared alike. -/
def bindAndStart : Method campaign Unit := do
  let bound ← locally (attempt (commitJournalBinding world))
  let failures ← (gatherRankErrors setup (errorOf bound)).tryCatch fun error =>
    locally (cleanupAndRaise world error)
  if failures.isEmpty then
    (start setup world).tryCatch fun error => locally (cleanupAndRaise world error)
  else locally (abandonBinding world bound failures)

/-- `enable_fault_injection` -/
def enable : Method campaign Unit :=
  if setup.worldSize ≤ 1 then makeAlone setup world
  else do
    let ranks ← locally (attempt (validateTargetRanks setup))
    let made ← locally (attempt (makeDeferred setup world ranks))
    let w ← Meth.self
    let gathered ← (Lockstep.collective (C := gathers) setup.lost .preparations
      (preparationOf setup w ranks.isOk made)).tryCatch fun error =>
        locally (abandonGather world made error)
    let failures := preparationFailures gathered
    if failures.isEmpty then bindAndStart setup world
    else locally (abandonEnablement world made failures)

end LmResiliency.FaultInjection.Effects
