/-
# Executors — what carries out the faults that are scheduled

A fault that the training objects can show by themselves is local; every other one goes to
the first executor that supports it.  An executor may keep an effect active until it is
deactivated, or finish before it returns.
-/
import LmResiliency.FaultInjection.Config
import LmResiliency.Lib.Json

namespace LmResiliency.FaultInjection

/-! ## Safety -/

/-- `SafetyClass` -/
inductive SafetyClass where
  | safeInProcess
  | isolatedDestructive
  | clusterDestructive
deriving DecidableEq

/-- `_SAFETY_ORDER` -/
def SafetyClass.order : SafetyClass → Nat
  | safeInProcess => 0
  | isolatedDestructive => 1
  | clusterDestructive => 2

def isolatedDestructive : List FailureType :=
  [.hang, .timeout, .exception, .resourceExhaustion, .processTermination, .checkpointCorruption,
    .checkpointTruncation, .checkpointMissing, .ioError]

def clusterDestructive : List FailureType :=
  [.resourceUnavailable, .collectiveDesync, .messageDrop, .networkPartition]

def minimumSafety (failureType : FailureType) (surface : Option FaultSurface) : SafetyClass :=
  if failureType ∈ [.drop, .duplicate, .reorder] ∧ surface = some .collective then
    .clusterDestructive
  else if failureType ∈ clusterDestructive then .clusterDestructive
  else if failureType ∈ isolatedDestructive then .isolatedDestructive
  else .safeInProcess

def FaultSpec.safety (fault : FaultSpec) : SafetyClass :=
  minimumSafety fault.type (some fault.target.surface)

/-- `FaultIncident.safety`: the highest class of a fault; the lowest class is the first one. -/
def FaultIncident.safety (incident : FaultIncident) : SafetyClass :=
  (incident.faults.map FaultSpec.safety).foldl
    (fun highest safety => if highest.order < safety.order then safety else highest)
    .safeInProcess

/-! ## Lifetimes -/

/-- `lifetime.matching_calls` -/
def IncidentLifetime.callCount : IncidentLifetime → Option Int
  | matchingCalls calls _ => some calls
  | _ => none

/-- `lifetime.until` -/
def IncidentLifetime.endsAt : IncidentLifetime → Option Until
  | permanent ends => some ends
  | _ => none

def FaultIncident.temporalBehavior (incident : FaultIncident) : String :=
  if incident.lifetime.isPermanent then "permanent"
  else if incident.trigger.hasMultipleCandidates ∨ incident.trigger.probability < 1 then
    "intermittent"
  else "transient"

def requiresActiveExternalEffect (lifetime : IncidentLifetime) : Bool :=
  lifetime.endsAt.isSome || lifetime.iterationCount.any (1 < ·)

/-! ## Executors -/

/-- `FaultExecutionRequest` -/
structure FaultExecutionRequest where
  campaign : String
  seed : Int
  occurrenceId : String
  incidentId : String
  iteration : Int
  attempt : Int
  temporalBehavior : String
  lifetime : IncidentLifetime
  fault : FaultSpec

/-- The mapping of an evidence, as the executor gave it. -/
abbrev Evidence : Type := List (String × Json)

/-- `FaultExecutionResult` -/
structure FaultExecutionResult where
  verified : Bool
  active : Bool := true
  token : Json := .null
  evidence : Evidence := []

/-- `FaultExecutor`: which object it is, and what the session reads of it. -/
structure FaultExecutor where
  identity : Nat
  name : String
  supports : FaultSpec → Bool
  canDeactivate : Bool := true
  oneShot : Bool := false
  completesInline : Bool := false
  validates : Bool := false

/-- `CallbackFaultExecutor`; of `deactivate` only whether there is one. -/
structure CallbackFaultExecutor where
  identity : Nat
  name : String
  supportedTypes : List FailureType
  deactivate : Bool := false
  oneShot : Bool := false
  completesInline : Bool := false
  maxSafety : SafetyClass := .safeInProcess
  name_named : Text.nonBlank name = true
  deactivates : deactivate = true ∨ oneShot = true

/-- The executor as a session sees it. -/
def CallbackFaultExecutor.executor (self : CallbackFaultExecutor) : FaultExecutor where
  identity := self.identity
  name := self.name
  supports fault :=
    fault.type ∈ self.supportedTypes ∧ fault.safety.order ≤ self.maxSafety.order
  canDeactivate := self.deactivate
  oneShot := self.oneShot
  completesInline := self.completesInline || self.oneShot
  validates := true

/-! ## Local faults -/

def tensorSurfaces : List FaultSurface :=
  [.input, .output, .weight, .bias, .gradient, .optimizerState]

def flowSurfaces : List FaultSurface := [.input, .output, .gradient]

def moduleDelaySurfaces : List FaultSurface := [.input, .output, .compute]

/-- `LocalFaultExecutor.supports` -/
def localSupports (fault : FaultSpec) : Bool :=
  if fault.type = .tensorCorruption then fault.target.surface ∈ tensorSurfaces
  else if fault.type ∈ [.staleState, .duplicate] then fault.target.surface ∈ tensorSurfaces
  else if fault.type ∈ [.drop, .reorder] then fault.target.surface ∈ flowSurfaces
  else if fault.type = .delay then fault.target.surface ∈ moduleDelaySurfaces
  else false

end LmResiliency.FaultInjection
