/-
# Config — the incidents of a fault campaign

An incident says at which iterations it may begin, for how long it is active, and
which faults it has.  The checks of the constructors are fields, so every incident
here is one that the code accepts.
-/
import LmResiliency.Lib.Text
import Mathlib.Algebra.Order.Ring.Rat
import Mathlib.Data.List.Basic

namespace LmResiliency.FaultInjection

/-! ## Faults -/

/-- `FailureType` -/
inductive FailureType where
  | tensorCorruption
  | staleState
  | drop
  | duplicate
  | reorder
  | delay
  | hang
  | timeout
  | exception
  | resourceExhaustion
  | processTermination
  | resourceUnavailable
  | checkpointCorruption
  | checkpointTruncation
  | checkpointMissing
  | ioError
  | payloadCorruption
  | collectiveDesync
  | messageDrop
  | networkPartition
  | configDrift
deriving DecidableEq

/-- `FaultSurface` -/
inductive FaultSurface where
  | input
  | output
  | weight
  | bias
  | gradient
  | optimizerState
  | rngState
  | samplerState
  | data
  | checkpoint
  | compute
  | collective
  | process
  | resource
  | config
deriving DecidableEq

def expectedFailureKind (failureType : FailureType) (surface : FaultSurface) : String :=
  if surface = .collective ∧ failureType ∈ [.drop, .duplicate, .reorder] then "hang"
  else if failureType ∈ [.delay, .timeout] then "straggler"
  else if failureType ∈ [.hang, .collectiveDesync, .messageDrop, .networkPartition] then "hang"
  else if failureType ∈
      [.exception, .resourceExhaustion, .processTermination, .resourceUnavailable] then
    "process_failure"
  else "sdc"

/-- A text that is left out, or not blank. -/
def Named (name : Option String) : Prop := ∀ text, name = some text → Text.nonBlank text = true

theorem named_none : Named none := by simp [Named]

/-- The surfaces of a module. -/
def moduleSurfaces : List FaultSurface :=
  [.input, .output, .weight, .bias, .gradient, .optimizerState, .compute]

/-- `FaultTarget`: what the scoring reads. -/
structure FaultTarget where
  surface : FaultSurface
  rank : Option Int := none
  component : Option String := none
  modulePath : Option String := none
  resource : Option String := none
  rank_nonneg : ∀ r, rank = some r → 0 ≤ r
  component_named : Named component
  modulePath_named : Named modulePath
  resource_named : Named resource
  located : surface ∈ moduleSurfaces → modulePath ≠ none ∨ component ≠ none

/-! The process of a rank is a target by itself. -/

theorem process_located : FaultSurface.process ∈ moduleSurfaces →
    (none : Option String) ≠ none ∨ (none : Option String) ≠ none := by decide

theorem first_rank : ∀ r : Int, some 0 = some r → 0 ≤ r := by simp

def FaultTarget.executionRank (target : FaultTarget) : Int := target.rank.getD 0

/-- `FaultSpec` -/
structure FaultSpec where
  faultId : String
  type : FailureType
  target : FaultTarget

def FaultSpec.expectedKind (fault : FaultSpec) : String :=
  expectedFailureKind fault.type fault.target.surface

/-! ## Triggers and lifetimes -/

/-- `IterationRange` -/
structure IterationRange where
  start : Int
  endAt : Int
  every : Int := 1
  start_pos : 0 < start
  start_le : start ≤ endAt
  every_pos : 0 < every

/-- `IterationRange.matches` -/
def IterationRange.matchesAt (range : IterationRange) (iteration : Int) : Bool :=
  range.start ≤ iteration ∧ iteration ≤ range.endAt ∧
    (iteration - range.start) % range.every = 0

/-- `IncidentTrigger`; `at` are the exact iterations. -/
structure IncidentTrigger where
  exactAt : List Int := []
  range : Option IterationRange := none
  probability : ℚ := 1
  one_of : exactAt = [] ↔ range ≠ none
  at_pos : ∀ iteration ∈ exactAt, 0 < iteration
  at_sorted : exactAt.Pairwise (· < ·)
  probability_nonneg : 0 ≤ probability
  probability_le : probability ≤ 1

/-! The probability of a trigger that makes no draw. -/

theorem certain_nonneg : (0 : ℚ) ≤ 1 := by decide

theorem certain_le : (1 : ℚ) ≤ 1 := by decide

/-- `bisect_left`, in a sorted list. -/
def bisectLeft (xs : List Int) (x : Int) : Nat := (xs.takeWhile (· < x)).length

namespace IncidentTrigger

variable (trigger : IncidentTrigger)

/-- `matches` -/
def matchesAt (iteration : Int) : Bool :=
  match trigger.range with
  | some range => range.matchesAt iteration
  | none => trigger.exactAt[bisectLeft trigger.exactAt iteration]? = some iteration

def hasMultipleCandidates : Bool :=
  match trigger.range with
  | some range => 1 < 1 + (range.endAt - range.start) / range.every
  | none => 1 < trigger.exactAt.length

/-- The trigger of iteration 7 alone. -/
def seventh : IncidentTrigger where
  exactAt := [7]
  one_of := by decide
  at_pos := by decide
  at_sorted := by decide
  probability_nonneg := certain_nonneg
  probability_le := certain_le

end IncidentTrigger

/-- What ends a permanent incident. -/
inductive Until where
  | recovery
  | replacement
  | campaignEnd
deriving DecidableEq

/-- `IncidentLifetime` -/
inductive IncidentLifetime where
  | matchingCalls (calls : Int) (pos : 0 < calls)
  | iterations (count : Int) (pos : 0 < count)
  | permanent (ends : Until)

namespace IncidentLifetime

/-- `lifetime.iterations` -/
def iterationCount : IncidentLifetime → Option Int
  | iterations count _ => some count
  | _ => none

/-- `lifetime.permanent` -/
def isPermanent : IncidentLifetime → Bool
  | permanent _ => true
  | _ => false

def isMatchingCalls : IncidentLifetime → Bool
  | matchingCalls _ _ => true
  | _ => false

end IncidentLifetime

/-- The candidates are too close together for an occurrence of so many iterations. -/
def triggerOverlaps (trigger : IncidentTrigger) (iterations : Int) : Bool :=
  match trigger.range with
  | some range => trigger.hasMultipleCandidates && range.every < iterations
  | none =>
      (trigger.exactAt.zip trigger.exactAt.tail).any fun (earlier, later) =>
        later - earlier < iterations

/-- `RetriggerPolicy` -/
inductive RetriggerPolicy where
  | once
  | everyAttempt
  | maxOccurrences
deriving DecidableEq

/-- `FaultIncident` -/
structure FaultIncident where
  incidentId : String
  trigger : IncidentTrigger
  lifetime : IncidentLifetime
  faults : List FaultSpec
  retrigger : RetriggerPolicy := .once
  maxOccurrences : Option Int := none
  id_named : Text.nonBlank incidentId = true
  faults_ne : faults ≠ []
  faultIds : (faults.map FaultSpec.faultId).Nodup
  occurrences_some : retrigger = .maxOccurrences → ∃ n, maxOccurrences = some n ∧ 0 < n
  occurrences_none : retrigger ≠ .maxOccurrences → maxOccurrences = none
  permanent_once : lifetime.isPermanent = true → trigger.hasMultipleCandidates = false
  separate : ∀ n, lifetime.iterationCount = some n → 1 < n → triggerOverlaps trigger n = false
  calls_surface : lifetime.isMatchingCalls = true → ∀ fault ∈ faults,
    fault.target.surface ∉ [FaultSurface.weight, .bias, .optimizerState]

/-! What an incident at iteration 7 that is never retriggered satisfies. -/

theorem once_some :
    RetriggerPolicy.once = .maxOccurrences → ∃ n : Int, none = some n ∧ 0 < n := by
  intro h
  cases h

theorem once_none :
    RetriggerPolicy.once ≠ .maxOccurrences → (none : Option Int) = none := fun _ => rfl

theorem seventh_once : (IncidentLifetime.permanent .recovery).isPermanent = true →
    IncidentTrigger.seventh.hasMultipleCandidates = false := fun _ => by decide

theorem seventh_separate : ∀ n, (IncidentLifetime.permanent .recovery).iterationCount = some n →
    1 < n → triggerOverlaps .seventh n = false := fun _ h => nomatch h

/-- `FaultCampaign`: what a session reads. -/
structure FaultCampaign where
  name : String
  incidents : List FaultIncident
  seed : Int := 0
  name_named : Text.nonBlank name = true
  incidents_ne : incidents ≠ []
  seed_low : -2 ^ 127 ≤ seed
  seed_high : seed < 2 ^ 127
  incidentIds : (incidents.map FaultIncident.incidentId).Nodup

end LmResiliency.FaultInjection
