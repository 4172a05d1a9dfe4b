/-
# Effects — the faults that a session has active

A session activates the faults of an incident one after another, keeps the effects that
are still active, and completes or rolls them back.  An executor, a hook of the model, the
store and the training context may do and raise anything: what they answer is a function
of all that they were asked before.

Records and effects are shared objects.  A record is known by its place in the list of the
session, an effect by the record that it was made for.
-/
import LmResiliency.FaultInjection.AttemptRollback
import LmResiliency.FaultInjection.Executors
import LmResiliency.FaultInjection.Manifest
import LmResiliency.FaultInjection.Scoring
import LmResiliency.Lib.Raising

namespace LmResiliency.FaultInjection.Effects

/-! ## What is raised -/

/-- An exception: its class, its text, whether it is an `Exception`, and its notes. -/
structure Raised where
  kind : String
  text : String
  isException : Bool := true
  notes : List String := []

namespace Raised

/-- `_add_exception_note` -/
def addNote (error : Raised) (note : String) : Raised :=
  { error with notes := error.notes ++ [note] }

/-- A note of another failure, when there is one. -/
def noting (error : Raised) (what : String) : Option Raised → Raised
  | none => error
  | some other => error.addNote (what ++ ": " ++ other.text)

/-- `f"{type(error).__name__}: {error}"` -/
def summary (error : Raised) : String := error.kind ++ ": " ++ error.text

end Raised

/-- A text, with what failed behind it. -/
def alsoFailed (text what : String) : Option Raised → String
  | none => text
  | some other => text ++ "; " ++ what ++ " also failed: " ++ other.text

/-! ## Records -/

/-- `FaultInjectionRecord` -/
structure FaultInjectionRecord extends FaultInjection.FaultInjectionRecord where
  injectionId : String
  occurrenceId : String
  incidentId : String
  iteration : Int
  attempt : Int
  temporalBehavior : String
  failureType : FailureType
  expectedKind : String
  safety : SafetyClass
  framework : String
  executor : String
  executionRank : Int
  target : FaultTarget
  evidence : Evidence := []
  error : Option String := none

/-- A record that says why its fault failed. -/
def FaultInjectionRecord.fail (record : FaultInjectionRecord) (error : String) :
    FaultInjectionRecord := { record with status := .failed, error := some error }

def jsonMapping (value : Option Evidence) (label : String) : Except Raised Evidence :=
  match freezeJsonMapping (.obj (value.getD [])) label with
  | .ok frozen =>
      match frozen.thaw with
      | .obj members => .ok members
      | _ => .error ⟨"AssertionError", "JSON mapping thaw did not produce a dictionary", true, []⟩
  | .error error =>
      -- freezing raises nothing but a `TypeError` or a `ValueError`
      let message := match error with
        | .typeError message => message
        | .valueError message => message
        | _ => ""
      .error ⟨"ValueError", label ++ " must be strictly JSON-serializable: " ++ message, true, []⟩

/-! ## What is asked of the surroundings -/

/-- What `LocalFaultExecutor.activate` does: it raises before there is an effect, it arms the
effect and may verify it, it has no earlier value to use, or it raises later. -/
inductive Armed where
  | refused (error : Raised)
  | armed (replacementIdentity : Option Nat) (verified : Option Evidence)
  | unavailable (replacementIdentity : Option Nat) (error : Raised)
  | failed (replacementIdentity : Option Nat) (error : Raised)

/-- What a session calls. -/
inductive Call where
  | validateTargets
  | validateSchedule
  | validateActivations (requests : List FaultExecutionRequest) (requiredHistory : List String)
  | syncHistory (faults : List FaultSpec)
  | arm (request : FaultExecutionRequest) (number : Nat)
  | cleanUp (number : Nat) (preserveReplacedState replacementConfirmed : Bool)
  | validate (executor : FaultExecutor) (request : FaultExecutionRequest)
  | activate (executor : FaultExecutor) (request : FaultExecutionRequest)
  | deactivate (executor : FaultExecutor) (request : FaultExecutionRequest)
      (result : FaultExecutionResult)
  | load (campaign : String)
  | compareAndSwap (expected updated : CampaignJournal)
  | closeLocal
  | closeContext

/-- What comes back; an executor may return something else than a result. -/
def Call.Res : Call → Type
  | arm _ _ => Armed
  | activate _ _ => Except Raised (Option FaultExecutionResult)
  | deactivate _ _ _ => Except Raised (Option Evidence)
  | load _ => Except Raised CampaignJournal
  | compareAndSwap _ _ => Except Raised Bool
  | _ => Except Raised Unit

/-- A call with its answer. -/
abbrev Answered : Type := Σ c : Call, c.Res

/-- The surroundings: the answer to a call after those that were answered before. -/
abbrev World : Type := List Answered → (c : Call) → c.Res

/-! ## The session -/

/-- `_ExternalEffect`: what does not change. -/
structure ExternalEffect where
  request : FaultExecutionRequest
  executor : FaultExecutor
  result : FaultExecutionResult

/-- The effect of a fault, of a local one with its `replacement_identity`. -/
inductive Effect where
  | local (replacementIdentity : Option Nat)
  | external (effect : ExternalEffect)

/-- `_ActiveFault`; its effect is known by the number of its record. -/
structure ActiveFault where
  number : Nat
  incident : FaultIncident
  startIteration : Int
  effect : Effect

/-- What changes of a `LocalFaultEffect`. -/
structure LocalState where
  done : Bool := true
  stateReplaced : Bool := false
  remainingCalls : Option Int := none

/-- What changes of an `_ExternalEffect`. -/
structure ExternalState where
  done : Bool := true
  retryCleanupOnInterrupt : Bool := false

/-- The attributes of a session that do not change, with the seeded generators, the digests, and
what a collective operation raises when it fails. -/
structure Setup where
  rank : Int
  worldSize : Nat
  framework : String
  executors : List FaultExecutor
  draw : Int → String → Int → ℚ
  faultSeed : Int → String → String → Int → Int
  campaignIdentity : String
  attemptsIdentity : List (String × Int) → String
  lost : Raised

/-- `FaultInjectionSession`, with the calls it has made. -/
structure Runtime (campaign : FaultCampaign) where
  session : Session campaign
  expirations : ScheduleCursor
  journalBase : CampaignJournal
  journalCommitted : Bool := false
  completedIterations : Int
  currentIteration : Int
  started : Bool := false
  closed : Bool := false
  records : List FaultInjectionRecord := []
  locals : Nat → LocalState := fun _ => {}
  externals : Nat → ExternalState := fun _ => {}
  active : List ActiveFault := []
  activated : List ActiveFault := []
  log : List Answered := []
  expirations_valid : expirations.Valid
  expirations_incidents : expirations.incidents = campaign.incidents
  expirations_expire : expirations.expiration = true

variable {campaign : FaultCampaign}

def Runtime.done (w : Runtime campaign) (active : ActiveFault) : Bool :=
  match active.effect with
  | .local _ => (w.locals active.number).done
  | .external _ => (w.externals active.number).done

/-- Code of a session. -/
abbrev Code (campaign : FaultCampaign) (α : Type) : Type := Act (Runtime campaign) Raised α

open Act (self assign raise attempt ofExcept forEach firstError)

variable (setup : Setup) (world : World)

/-- One call. -/
def ask (c : Call) : Code campaign c.Res := fun w =>
  (.ok (world w.log c), { w with log := w.log ++ [⟨c, world w.log c⟩] })

def modifyRecord (number : Nat) (f : FaultInjectionRecord → FaultInjectionRecord) :
    Code campaign Unit :=
  assign fun w => { w with records := w.records.modify number f }

def modifyLocal (number : Nat) (f : LocalState → LocalState) : Code campaign Unit :=
  assign fun w => { w with locals := Function.update w.locals number (f (w.locals number)) }

def modifyExternal (number : Nat) (f : ExternalState → ExternalState) : Code campaign Unit :=
  assign fun w =>
    { w with externals := Function.update w.externals number (f (w.externals number)) }

/-- The status, the error and the end of a record whose fault failed. -/
def failRecord (number : Nat) (error : String) : Code campaign Unit :=
  modifyRecord number (·.fail error)

/-! ## Local effects -/

def verify (number : Nat) (evidence : Evidence) : Code campaign Unit := do
  let w ← self
  if (w.locals number).done then pure ()
  else modifyRecord number fun record =>
    if record.verified then record
    else { record with verified := true, status := .active, evidence := evidence }

/-- The status of a local fault that is completed. -/
def completedStatus (cancelled : Bool) (record : FaultInjectionRecord) : InjectionStatus :=
  if cancelled then .cancelled
  else if record.verified then .completed
  else if record.status = .pending then .cancelled
  else record.status

/-- `LocalFaultEffect.complete` -/
def completeLocal (number : Nat) (cancelled preserveReplacedState : Bool) :
    Code campaign Unit := do
  let w ← self
  if (w.locals number).done then pure ()
  else do
    let outcome : Except Raised Unit ←
      ask world (.cleanUp number preserveReplacedState (w.locals number).stateReplaced)
    match outcome with
    | .error error => do
        failRecord number ("fault cleanup failed: " ++ error.text)
        modifyLocal number ({ · with done := true })
        raise error
    | .ok _ => do
        modifyRecord number fun record =>
          { record with status := completedStatus cancelled record }
        modifyLocal number ({ · with done := true })

def matched (number : Nat) : Code campaign Unit := do
  let w ← self
  match (w.locals number).done, (w.locals number).remainingCalls with
  | false, some remaining => do
      modifyLocal number ({ · with remainingCalls := some (remaining - 1) })
      if remaining - 1 = 0 then completeLocal world number false false else pure ()
  | _, _ => pure ()

/-- `LocalFaultEffect.fail` -/
def failLocal (number : Nat) (error : String)
    (propagateCleanupError preserveReplacedState : Bool) : Code campaign Unit := do
  let w ← self
  if (w.locals number).done then pure ()
  else do
    let outcome : Except Raised Unit ←
      ask world (.cleanUp number preserveReplacedState (w.locals number).stateReplaced)
    match outcome with
    | .error cleanupError => do
        failRecord number (alsoFailed error "cleanup" (some cleanupError))
        modifyLocal number ({ · with done := true })
        if propagateCleanupError then
          raise ⟨"RuntimeError", "fault rollback cleanup failed: " ++ cleanupError.text, true, []⟩
        else pure ()
    | .ok _ => do
        failRecord number error
        modifyLocal number ({ · with done := true })

/-- `LocalFaultExecutor.activate` -/
def activateLocal (request : FaultExecutionRequest) (number : Nat) :
    Code campaign (Option Nat) := do
  let fresh : Code campaign Unit := modifyLocal number fun _ =>
    { done := false, remainingCalls := request.lifetime.callCount }
  let answer : Armed ← ask world (.arm request number)
  match answer with
  | .refused error => raise error
  | .armed identity none => do
      fresh
      pure identity
  | .armed identity (some evidence) => do
      fresh
      verify number evidence
      pure identity
  | .unavailable identity error => do
      fresh
      failLocal world number error.text false false
      pure identity
  | .failed _ error => do
      fresh
      failLocal world number error.text false false
      raise error

/-! ## External effects -/

/-- `_ExternalEffect.complete` -/
def completeExternal (number : Nat) (effect : ExternalEffect) (cancelled : Bool) :
    Code campaign Unit := do
  let w ← self
  if (w.externals number).done then pure ()
  else do
    let outcome : Except Raised (Option Evidence) ←
      ask world (.deactivate effect.executor effect.request effect.result)
    match outcome.bind (jsonMapping · "fault executor deactivation evidence") with
    | .error error => do
        failRecord number ("fault deactivation failed: " ++ error.text)
        modifyExternal number ({ · with done := true })
        raise error
    | .ok evidence => do
        modifyRecord number fun record =>
          { record with
            evidence := Dict.update record.evidence evidence
            status := if record.verified && !cancelled then .completed else .cancelled }
        modifyExternal number ({ · with done := true })

/-- `_ExternalEffect.rollback` -/
def rollbackExternal (number : Nat) (effect : ExternalEffect) (error : String) :
    Code campaign Unit := do
  let w ← self
  if (w.externals number).done then pure ()
  else do
    let outcome : Except Raised (Option Evidence) ←
      if effect.result.active then
        ask world (.deactivate effect.executor effect.request effect.result)
      else pure (.ok none)
    match outcome with
    | .error cleanupError => do
        failRecord number
          (alsoFailed ("fault activation rolled back: " ++ error) "rollback cleanup"
            (some cleanupError))
        modifyExternal number fun state =>
          { state with done := !(state.retryCleanupOnInterrupt && !cleanupError.isException) }
        if cleanupError.isException then
          raise ⟨"RuntimeError", "fault rollback cleanup failed: " ++ cleanupError.text, true, []⟩
        else raise cleanupError
    | .ok _ => do
        failRecord number ("fault activation rolled back: " ++ error)
        modifyExternal number ({ · with done := true })

/-! ## Active faults -/

/-- `_ActiveFault.complete` -/
def completeFault (active : ActiveFault) (cancelled preserveReplacedState : Bool) :
    Code campaign Unit :=
  match active.effect with
  | .local _ => completeLocal world active.number cancelled preserveReplacedState
  | .external effect => completeExternal world active.number effect cancelled

/-- `_ActiveFault.rollback` -/
def rollbackFault (error : Raised) (active : ActiveFault) : Code campaign Unit :=
  match active.effect with
  | .local _ =>
      failLocal world active.number ("fault activation rolled back: " ++ error.text) true false
  | .external effect => rollbackExternal world active.number effect error.text

/-- A fault, unless it is done. -/
def unlessDone (f : ActiveFault → Code campaign Unit) (active : ActiveFault) :
    Code campaign Unit := do
  let w ← self
  if w.done active then pure () else f active

def discardCompleted : Code campaign Unit :=
  assign fun w => { w with active := w.active.filter fun active => !w.done active }

/-! ## Activation -/

def executorFor (fault : FaultSpec) : Code campaign FaultExecutor :=
  match setup.executors.find? (·.supports fault) with
  | some executor => pure executor
  | none =>
      raise ⟨"UnsupportedFaultError", "no executor supports " ++ fault.type.value, true, []⟩

def validateExecutorLifecycle (executor : FaultExecutor) : Code campaign Unit :=
  if !executor.canDeactivate && !executor.oneShot then
    raise ⟨"ValueError", "fault executor '" ++ executor.name ++
      "' without deactivation must declare one_shot=True", true, []⟩
  else pure ()

/-- An executor that was called for its effect alone: `except Exception`. -/
def deactivateOnce (effect : ExternalEffect) : Code campaign (Option Raised) := do
  let outcome : Except Raised (Option Evidence) ←
    ask world (.deactivate effect.executor effect.request effect.result)
  match outcome with
  | .ok _ => pure none
  | .error error => if error.isException then pure (some error) else raise error

/-- `_activate_external`, of a one-shot executor whose effect is active. -/
def refuseOneShot (number : Nat) (effect : ExternalEffect) : Code campaign Unit := do
  let deactivationError ←
    if effect.executor.canDeactivate then deactivateOnce world effect else pure none
  let error := alsoFailed "one-shot fault executor returned an active effect" "deactivation"
    deactivationError
  modifyRecord number fun record => { record.fail error with verified := effect.result.verified }
  raise ⟨"ValueError", error, true, []⟩

/-- `_activate_external`, of an executor that cannot deactivate its effect. -/
def refuseActive (number : Nat) (effect : ExternalEffect) : Code campaign Unit := do
  let error := "fault executor returned an active effect without a deactivation callback"
  modifyRecord number fun record => { record.fail error with verified := effect.result.verified }
  raise ⟨"ValueError", error, true, []⟩

/-- `_activate_external`, of evidence that is not JSON. -/
def refuseEvidence (number : Nat) (effect : ExternalEffect) (error : Raised) :
    Code campaign Unit := do
  let outcome : Except Raised (Option Evidence) ←
    if effect.result.active then
      ask world (.deactivate effect.executor effect.request effect.result)
    else pure (.ok none)
  match outcome with
  | .error caught => do
      modifyExternal number ({ · with retryCleanupOnInterrupt := !caught.isException })
      let error := alsoFailed error.text "deactivation" (some caught)
      failRecord number error
      if caught.isException then raise ⟨"ValueError", error, true, []⟩ else raise caught
  | .ok _ => do
      if effect.result.active then modifyExternal number ({ · with done := true }) else pure ()
      failRecord number error.text
      raise ⟨"ValueError", error.text, true, []⟩

/-- `_activate_external`, of an activation that could not be verified. -/
def refuseUnverified (number : Nat) (effect : ExternalEffect) : Code campaign Unit := do
  let outcome ← attempt
    (if effect.result.active then deactivateOnce world effect else pure none)
  if effect.result.active then modifyExternal number ({ · with done := true }) else pure ()
  let deactivationError ← ofExcept outcome
  let error := alsoFailed "fault executor could not verify activation" "deactivation"
    deactivationError
  failRecord number error
  raise ⟨"RuntimeError", error, true, []⟩

/-- `_activate_external`, of an effect that should be over. -/
def refuseMatchingCalls (number : Nat) (effect : ExternalEffect) : Code campaign Unit := do
  let deactivationError ← deactivateOnce world effect
  modifyExternal number ({ · with done := true })
  match deactivationError with
  | some caught => do
      let error := "external executor returned an active matching_calls fault " ++
        "and deactivation failed: " ++ caught.text
      failRecord number error
      raise ⟨"RuntimeError", error, true, []⟩
  | none => do
      let error := "external executors must complete matching_calls faults during activation"
      failRecord number error
      raise ⟨"ValueError", error, true, []⟩

/-- `_activate_external`, of an effect that the session knows. -/
def settleExternal (number : Nat) (effect : ExternalEffect) : Code campaign Unit := do
  match jsonMapping (some effect.result.evidence) "fault executor activation evidence" with
  | .error error => refuseEvidence world number effect error
  | .ok evidence => do
      modifyRecord number
        ({ · with verified := effect.result.verified, evidence := evidence })
      if !effect.result.verified then refuseUnverified world number effect
      else if requiresActiveExternalEffect effect.request.lifetime && !effect.result.active then do
        let error := "external executor completed inline before its configured " ++
          "multi-iteration or until lifetime"
        failRecord number error
        raise ⟨"ValueError", error, true, []⟩
      else if effect.request.lifetime.callCount.isSome && effect.result.active then
        refuseMatchingCalls world number effect
      else modifyRecord number fun record =>
        { record with status := if effect.result.active then .active else .completed }

/-- `activated.append(active)`, and `self._active.append(active)` unless it is done. -/
def register (active : ActiveFault) : Code campaign Unit :=
  assign fun w =>
    { w with
      activated := w.activated ++ [active]
      active := if w.done active then w.active else w.active ++ [active] }

def activateExternal (request : FaultExecutionRequest) (number : Nat) (incident : FaultIncident)
    (iteration : Int) : Code campaign Unit := do
  let executor ← executorFor setup request.fault
  modifyRecord number ({ · with executor := executor.name })
  validateExecutorLifecycle executor
  let outcome : Except Raised (Option FaultExecutionResult) ← ask world (.activate executor request)
  match outcome with
  | .error error => do
      if error.isException then failRecord number error.text else pure ()
      raise error
  | .ok none => do
      let error := "fault executor activate must return FaultExecutionResult"
      failRecord number error
      raise ⟨"TypeError", error, true, []⟩
  | .ok (some result) => do
      let effect : ExternalEffect := ⟨request, executor, result⟩
      if result.active && executor.oneShot then refuseOneShot world number effect
      else if result.active && !executor.canDeactivate then refuseActive number effect
      else do
        modifyExternal number fun _ => { done := !result.active }
        register ⟨number, incident, iteration, .external effect⟩
        settleExternal world number effect

variable (campaign) in
def buildRequest (incident : FaultIncident) (fault : FaultSpec) (occurrenceId : String)
    (iteration attempt : Int) : FaultExecutionRequest where
  campaign := campaign.name
  seed := setup.faultSeed campaign.seed incident.incidentId fault.faultId iteration
  occurrenceId := occurrenceId
  incidentId := incident.incidentId
  iteration := iteration
  attempt := attempt
  temporalBehavior := incident.temporalBehavior
  lifetime := incident.lifetime
  fault := fault

def newRecord (request : FaultExecutionRequest) : FaultInjectionRecord where
  faultId := request.fault.faultId
  status := .pending
  verified := false
  injectionId := request.occurrenceId ++ "/" ++ request.fault.faultId
  occurrenceId := request.occurrenceId
  incidentId := request.incidentId
  iteration := request.iteration
  attempt := request.attempt
  temporalBehavior := request.temporalBehavior
  failureType := request.fault.type
  expectedKind := request.fault.expectedKind
  safety := request.fault.safety
  framework := setup.framework
  executor := "local"
  executionRank := request.fault.target.executionRank
  target := request.fault.target

/-- One fault of `_activate_incident`. -/
def activateFault (item : StagedIncident) (iteration : Int) (fault : FaultSpec) :
    Code campaign Unit :=
  if fault.target.executionRank ≠ setup.rank then pure ()
  else do
    let request := buildRequest campaign setup item.incident fault
      item.occurrenceId iteration item.attempt
    let w ← self
    let number := w.records.length
    assign fun w => { w with records := w.records ++ [newRecord setup request] }
    if localSupports fault then do
      let identity ← activateLocal world request number
      register ⟨number, item.incident, iteration, .local identity⟩
    else activateExternal setup world request number item.incident iteration

def activateIncident (item : StagedIncident) (iteration : Int) : Code campaign Unit := do
  assign fun w => { w with activated := [] }
  (forEach (activateFault setup world item iteration) item.incident.faults).tryCatch
    fun error => do
      let w ← self
      let cleanupError ← firstError (unlessDone (rollbackFault world error)) w.activated.reverse
      discardCompleted
      raise (error.noting "fault rollback also failed" cleanupError)

def recordProbabilitySkip (item : StagedIncident) (iteration : Int) : Code campaign Unit :=
  forEach
    (fun fault =>
      if fault.target.executionRank ≠ setup.rank then pure ()
      else assign fun w =>
        { w with
          records := w.records ++ [{
            newRecord setup (buildRequest campaign setup item.incident fault
              item.occurrenceId iteration item.attempt) with
            executor := "none"
            status := .skippedProbability }] })
    item.incident.faults

/-- The records that `_rollback_new_activations` fails. -/
def rolledBack (error : Raised) (record : FaultInjectionRecord) : FaultInjectionRecord :=
  if record.status = .skippedProbability ∨ record.status = .failed then record
  else record.fail ("fault activation rolled back: " ++ error.text)

def rollbackNewActivations (activeStart recordStart : Nat) (error : Raised) :
    Code campaign (Option Raised) := do
  let w ← self
  let cleanupError ← firstError (unlessDone (rollbackFault world error))
    (w.active.drop activeStart).reverse
  assign fun w =>
    { w with
      active := w.active.take activeStart
      records := w.records.take recordStart ++
        (w.records.drop recordStart).map (rolledBack error) }
  pure cleanupError

def activateStagedIteration (iteration : Int) (staged : List StagedIncident) :
    Code campaign Unit := do
  let w ← self
  (forEach
    (fun item =>
      if item.selected then activateIncident setup world item iteration
      else recordProbabilitySkip setup item iteration)
    staged).tryCatch fun error => do
      let cleanupError ← rollbackNewActivations world w.active.length w.records.length error
      raise (error.noting "fault rollback also failed" cleanupError)

/-! ## The end of effects -/

def completeUntil (boundary : Until) : Code campaign Unit := do
  let w ← self
  let first ← firstError
    (unlessDone fun active =>
      if active.incident.lifetime.endsAt = some boundary then
        completeFault world active false (boundary = .recovery)
      else pure ())
    w.active
  discardCompleted
  match first with
  | none => pure ()
  | some error =>
      if error.isException then
        raise ⟨"RuntimeError", "fault " ++ boundary.value ++ " cleanup failed", true, []⟩
      else raise error

def notifyRecovery : Code campaign Unit := completeUntil world .recovery

def notifyReplacement : Code campaign Unit := completeUntil world .replacement

/-- The state families whose replacement is noticed. -/
inductive StateFamily where
  | model
  | optimizer
  | checkpoint
deriving DecidableEq

/-- The surfaces of a state family. -/
def StateFamily.surfaces : StateFamily → List FaultSurface
  | model => [.weight, .bias]
  | optimizer => [.optimizerState]
  | checkpoint => [.weight, .bias, .optimizerState]

/-- `_mark_state_replaced`, of one active fault. -/
def markReplaced (family : StateFamily) (identities : List Nat) (active : ActiveFault) :
    Code campaign Unit := do
  let w ← self
  match active.effect with
  | .external _ => pure ()
  | .local identity =>
      if (w.records[active.number]?.any (·.target.surface ∈ family.surfaces)) &&
          (family = .checkpoint || identity.any (· ∈ identities)) then do
        modifyLocal active.number ({ · with stateReplaced := true })
        if active.incident.lifetime.iterationCount.any fun count =>
            w.completedIterations < active.startIteration + count - 1 then
          failLocal world active.number
            ("bounded fault state was replaced before its configured lifetime completed")
            false true
        else pure ()
      else pure ()

def markStateReplaced (family : StateFamily) (identities : List Nat) : Code campaign Unit := do
  let w ← self
  forEach (unlessDone (markReplaced world family identities)) w.active
  discardCompleted

/-- The effects that are over with an iteration. -/
def expires (finished : Int) (active : ActiveFault) : Bool :=
  active.incident.lifetime.iterationCount.any
      (fun count => active.startIteration + count - 1 ≤ finished) ||
    (active.incident.lifetime.callCount = some 1 && active.startIteration ≤ finished)

/-! ## Closing -/

/-- `_cleanup_locked` -/
def cleanup (completeCampaignEnd : Bool) : Code campaign (Option Raised) := do
  let w ← self
  if w.closed then pure none
  else do
    let first ← firstError
      (unlessDone fun active => completeFault world active
        (!completeCampaignEnd || active.incident.lifetime.endsAt ≠ some .campaignEnd) false)
      w.active.reverse
    assign fun w => { w with active := [] }
    let localEnd : Except Raised Unit ← ask world .closeLocal
    let contextEnd : Except Raised Unit ← ask world .closeContext
    assign fun w => { w with closed := true }
    pure (match first, localEnd, contextEnd with
      | some error, _, _ => some error
      | none, .error error, _ => some error
      | none, .ok _, .error error => some error
      | none, .ok _, .ok _ => none)

/-- The cleanup after a failure, which is raised with a note. -/
def cleanupAndRaise {α : Type} (error : Raised) : Code campaign α := do
  let cleanupError ← cleanup world false
  raise (error.noting "fault injection cleanup also failed" cleanupError)

def close : Code campaign Unit := do
  let first ← cleanup world true
  match first with
  | none => pure ()
  | some _ => raise ⟨"RuntimeError", "fault injection cleanup failed", true, []⟩

/-- `__exit__`, after an exception or without one; the exception goes on by itself. -/
def exit (error : Option Raised) : Code campaign Unit := do
  match error with
  | none => close world
  | some _ => do
      let _ ← cleanup world false
      pure ()

end LmResiliency.FaultInjection.Effects
