/-
# Manifest — the records of a campaign, their checks and their JSON form

`FaultCampaign` and the records in it with all their fields: what `from_dict` accepts
and what `to_dict` writes.  A record is made only when its checks hold, which are its
fields.  An object of the JSON library is its members in order.
-/
import LmResiliency.FaultInjection.Config
import LmResiliency.FaultInjection.FrozenJson

namespace LmResiliency.FaultInjection

open LmResiliency.Outcome

/-! ## Names of enumerations -/

namespace FailureType

/-- The value of the enumeration's member. -/
def value : FailureType → String
  | tensorCorruption => "tensor_corruption"
  | staleState => "stale_state"
  | drop => "drop"
  | duplicate => "duplicate"
  | reorder => "reorder"
  | delay => "delay"
  | hang => "hang"
  | timeout => "timeout"
  | exception => "exception"
  | resourceExhaustion => "resource_exhaustion"
  | processTermination => "process_termination"
  | resourceUnavailable => "resource_unavailable"
  | checkpointCorruption => "checkpoint_corruption"
  | checkpointTruncation => "checkpoint_truncation"
  | checkpointMissing => "checkpoint_missing"
  | ioError => "io_error"
  | payloadCorruption => "payload_corruption"
  | collectiveDesync => "collective_desync"
  | messageDrop => "message_drop"
  | networkPartition => "network_partition"
  | configDrift => "config_drift"

def all : List FailureType :=
  [tensorCorruption, staleState, drop, duplicate, reorder, delay, hang, timeout, exception,
    resourceExhaustion, processTermination, resourceUnavailable, checkpointCorruption,
    checkpointTruncation, checkpointMissing, ioError, payloadCorruption, collectiveDesync,
    messageDrop, networkPartition, configDrift]

end FailureType

namespace FaultSurface

def value : FaultSurface → String
  | input => "input"
  | output => "output"
  | weight => "weight"
  | bias => "bias"
  | gradient => "gradient"
  | optimizerState => "optimizer_state"
  | rngState => "rng_state"
  | samplerState => "sampler_state"
  | data => "data"
  | checkpoint => "checkpoint"
  | compute => "compute"
  | collective => "collective"
  | process => "process"
  | resource => "resource"
  | config => "config"

def all : List FaultSurface :=
  [input, output, weight, bias, gradient, optimizerState, rngState, samplerState, data,
    checkpoint, compute, collective, process, resource, config]

end FaultSurface

namespace RetriggerPolicy

def value : RetriggerPolicy → String
  | once => "once"
  | everyAttempt => "every_attempt"
  | maxOccurrences => "max_occurrences"

def all : List RetriggerPolicy := [once, everyAttempt, maxOccurrences]

end RetriggerPolicy

namespace Until

def value : Until → String
  | recovery => "recovery"
  | replacement => "replacement"
  | campaignEnd => "campaign_end"

def all : List Until := [recovery, replacement, campaignEnd]

end Until

namespace Manifest

/-- `CorruptionOperation` -/
inductive CorruptionOperation where
  | singleBitflip
  | multiBitflip
  | setValue
  | scale
  | noise
  | signFlip
deriving DecidableEq

namespace CorruptionOperation

def value : CorruptionOperation → String
  | singleBitflip => "single_bitflip"
  | multiBitflip => "multi_bitflip"
  | setValue => "set_value"
  | scale => "scale"
  | noise => "noise"
  | signFlip => "sign_flip"

def all : List CorruptionOperation :=
  [singleBitflip, multiBitflip, setValue, scale, noise, signFlip]

end CorruptionOperation

/-- `FaultMagnitude` -/
inductive FaultMagnitude where
  | catastrophic
  | large
  | medium
  | subtle
  | nearInvisible
deriving DecidableEq

namespace FaultMagnitude

def value : FaultMagnitude → String
  | catastrophic => "catastrophic"
  | large => "large"
  | medium => "medium"
  | subtle => "subtle"
  | nearInvisible => "near_invisible"

def all : List FaultMagnitude := [catastrophic, large, medium, subtle, nearInvisible]

end FaultMagnitude

/-- `FaultScope` -/
inductive FaultScope where
  | single
  | row
  | percent1
  | percent10
  | full
deriving DecidableEq

namespace FaultScope

def value : FaultScope → String
  | single => "single"
  | row => "row"
  | percent1 => "1%"
  | percent10 => "10%"
  | full => "100%"

def all : List FaultScope := [single, row, percent1, percent10, full]

end FaultScope

/-- `SystemFailureType` -/
inductive SystemFailureType where
  | hostMemoryExhaustion
  | hostResourceExhaustion
  | cudaOutOfMemory
  | cudaRuntimeFailure
  | durableStorageExhaustion
  | durableStorageFailure
  | pcieLinkFailure
  | pcieLinkDegradation
  | fabricLinkFailure
  | fabricCongestion
  | dataSampleCorruption
  | dataShardUnavailable
  | inputPositionDivergence
  | softwareEnvironmentDrift
  | hostPerformanceDegradation
  | gpuThrottling
  | trainingRuntimeFailure
  | controlPlaneFailure
  | transientComputeCorruption
  | commonModeCorruption
  | singleOwnerStateCorruption
deriving DecidableEq

namespace SystemFailureType

def value : SystemFailureType → String
  | hostMemoryExhaustion => "host_memory_exhaustion"
  | hostResourceExhaustion => "host_resource_exhaustion"
  | cudaOutOfMemory => "cuda_out_of_memory"
  | cudaRuntimeFailure => "cuda_runtime_failure"
  | durableStorageExhaustion => "durable_storage_exhaustion"
  | durableStorageFailure => "durable_storage_failure"
  | pcieLinkFailure => "pcie_link_failure"
  | pcieLinkDegradation => "pcie_link_degradation"
  | fabricLinkFailure => "fabric_link_failure"
  | fabricCongestion => "fabric_congestion"
  | dataSampleCorruption => "data_sample_corruption"
  | dataShardUnavailable => "data_shard_unavailable"
  | inputPositionDivergence => "input_position_divergence"
  | softwareEnvironmentDrift => "software_environment_drift"
  | hostPerformanceDegradation => "host_performance_degradation"
  | gpuThrottling => "gpu_throttling"
  | trainingRuntimeFailure => "training_runtime_failure"
  | controlPlaneFailure => "control_plane_failure"
  | transientComputeCorruption => "transient_compute_corruption"
  | commonModeCorruption => "common_mode_corruption"
  | singleOwnerStateCorruption => "single_owner_state_corruption"

def all : List SystemFailureType :=
  [hostMemoryExhaustion, hostResourceExhaustion, cudaOutOfMemory, cudaRuntimeFailure,
    durableStorageExhaustion, durableStorageFailure, pcieLinkFailure, pcieLinkDegradation,
    fabricLinkFailure, fabricCongestion, dataSampleCorruption, dataShardUnavailable,
    inputPositionDivergence, softwareEnvironmentDrift, hostPerformanceDegradation,
    gpuThrottling, trainingRuntimeFailure, controlPlaneFailure, transientComputeCorruption,
    commonModeCorruption, singleOwnerStateCorruption]

/-- `_SYSTEM_FAILURE_EFFECTS` -/
def effects : SystemFailureType → List FailureType
  | hostMemoryExhaustion => [.resourceExhaustion, .processTermination, .exception]
  | hostResourceExhaustion => [.resourceExhaustion, .processTermination, .exception]
  | cudaOutOfMemory => [.resourceExhaustion, .processTermination, .exception]
  | cudaRuntimeFailure =>
      [.exception, .processTermination, .resourceUnavailable, .hang, .timeout]
  | durableStorageExhaustion =>
      [.ioError, .resourceExhaustion, .checkpointTruncation, .checkpointMissing]
  | durableStorageFailure =>
      [.ioError, .resourceUnavailable, .checkpointCorruption, .checkpointTruncation,
        .checkpointMissing, .timeout, .hang]
  | pcieLinkFailure => [.resourceUnavailable, .processTermination, .exception, .ioError, .hang]
  | pcieLinkDegradation => [.delay, .timeout, .ioError]
  | fabricLinkFailure =>
      [.networkPartition, .messageDrop, .resourceUnavailable, .timeout, .hang,
        .collectiveDesync]
  | fabricCongestion => [.delay, .timeout, .messageDrop, .hang]
  | dataSampleCorruption => [.payloadCorruption, .tensorCorruption]
  | dataShardUnavailable => [.resourceUnavailable, .ioError, .drop, .timeout, .hang]
  | inputPositionDivergence => [.configDrift, .staleState, .duplicate, .drop, .reorder]
  | softwareEnvironmentDrift => [.configDrift, .exception, .resourceUnavailable]
  | hostPerformanceDegradation => [.delay, .timeout, .hang]
  | gpuThrottling => [.delay, .timeout, .hang]
  | trainingRuntimeFailure => [.exception, .hang, .timeout, .processTermination]
  | controlPlaneFailure =>
      [.resourceUnavailable, .networkPartition, .timeout, .hang, .configDrift, .messageDrop]
  | transientComputeCorruption => [.tensorCorruption, .payloadCorruption]
  | commonModeCorruption =>
      [.tensorCorruption, .payloadCorruption, .staleState, .configDrift]
  | singleOwnerStateCorruption =>
      [.tensorCorruption, .staleState, .configDrift, .checkpointCorruption]

end SystemFailureType

/-- `ClockType` -/
inductive ClockType where
  | trainingIteration
deriving DecidableEq

namespace ClockType

def value : ClockType → String
  | trainingIteration => "training_iteration"

def all : List ClockType := [trainingIteration]

end ClockType

/-- `ClockOrigin` -/
inductive ClockOrigin where
  | trainingRun
  | campaignStart
deriving DecidableEq

namespace ClockOrigin

def value : ClockOrigin → String
  | trainingRun => "training_run"
  | campaignStart => "campaign_start"

def all : List ClockOrigin := [trainingRun, campaignStart]

end ClockOrigin

/-! ## Reading a JSON value -/

/-- `if not p: raise e`; what follows has `p`. -/
def require (p : Prop) [Decidable p] (e : ConfigError) : Except ConfigError (PLift p) :=
  if h : p then .ok ⟨h⟩ else .error e

/-- The members of a mapping. -/
def mapping (label : String) : Json → Except ConfigError (List (String × Json))
  | .obj ms => .ok ms
  | _ => .error (.typeError (label ++ " must be a mapping"))

/-- `value[key]` -/
def item (ms : List (String × Json)) (key : String) : Except ConfigError Json :=
  match Json.get? key ms with
  | some v => .ok v
  | none => .error (.keyError key)

/-- `value.get(key, default)` -/
def itemOr (ms : List (String × Json)) (key : String) (default : Json) : Json :=
  (Json.get? key ms).getD default

/-- What a loop over the value goes through. -/
def iterate : Json → Except ConfigError (List Json)
  | .arr vs => .ok vs
  | .str s => .ok (s.toList.map fun c => .str (String.singleton c))
  | .obj ms => .ok (ms.map fun m => .str m.1)
  | _ => .error (.typeError "object is not iterable")

/-- `sorted(set(value) - allowed)` -/
def unknownKeys (ms : List (String × Json)) (allowed : List String) : List String :=
  ((Json.keys ms).filter fun key => key ∉ allowed).insertionSort (· ≤ ·)

def rejectUnknownKeys (ms : List (String × Json)) (allowed : List String) (label : String) :
    Except ConfigError Unit :=
  let unknown := unknownKeys ms allowed
  if unknown = [] then .ok () else .error (.unknownFields label unknown)

def rejectAliasPair (ms : List (String × Json)) (canonical other label : String) :
    Except ConfigError Unit :=
  if canonical ∈ Json.keys ms ∧ other ∈ Json.keys ms then
    .error (.valueError
      (label ++ " cannot contain both '" ++ canonical ++ "' and '" ++ other ++ "'"))
  else .ok ()

def strictInt (label : String) : Json → Except ConfigError Int
  | .int n => .ok n
  | _ => .error (.typeError (label ++ " must be an integer"))

/-- `_strict_int` of a value that may be `None`. -/
def optionalInt (label : String) : Json → Except ConfigError (Option Int)
  | .null => .ok none
  | v => (strictInt label v).map some

def requiredNonEmptyString (label : String) :
    Json → Except ConfigError {s : String // Text.nonBlank s = true}
  | .str s =>
      if h : Text.nonBlank s = true then .ok ⟨s, h⟩
      else .error (.valueError (label ++ " must be non-empty"))
  | _ => .error (.typeError (label ++ " must be a string"))

/-- A field that is `None`, or a string that is not blank. -/
def optionalName (label : String) :
    Json → Except ConfigError {name : Option String // Named name}
  | .null => .ok ⟨none, named_none⟩
  | v => do
      let ⟨s, hs⟩ ← requiredNonEmptyString label v
      return ⟨some s, fun _ h => Option.some.inj h ▸ hs⟩

/-- The member of an enumeration that has this value. -/
def enumMember {α : Type} (all : List α) (value : α → String) (name : String) :
    Json → Except ConfigError α
  | .str s =>
      match all.find? fun x => value x = s with
      | some x => .ok x
      | none => .error (.valueError ("'" ++ s ++ "' is not a valid " ++ name))
  | _ => .error (.valueError ("not a valid " ++ name))

def finiteNumber (label : String) : Json → Except ConfigError ℚ
  | .int n =>
      match Double.ofInt n with
      | some q => .ok q
      | none => .error .overflowError
  | .float l =>
      match Double.ofText l with
      | some q => .ok q
      | none => .error (.valueError (label ++ " must be finite"))
  | _ => .error (.typeError (label ++ " must be a number"))

/-- An integer, or `None`. -/
def optionalNumber : Option Int → Json
  | none => .null
  | some n => .int n

/-- A string, or `None`. -/
def optionalText : Option String → Json
  | none => .null
  | some s => .str s

/-! ## Clock, triggers and lifetimes -/

/-- `ClockSpec` -/
structure ClockSpec where
  type : ClockType := .trainingIteration
  origin : ClockOrigin := .trainingRun

namespace ClockSpec

def fromDict (value : Json) : Except ConfigError ClockSpec := do
  let ms ← mapping "clock" value
  rejectUnknownKeys ms ["type", "origin"] "clock"
  let type ← enumMember ClockType.all ClockType.value "ClockType"
    (itemOr ms "type" (.str "training_iteration"))
  let origin ← enumMember ClockOrigin.all ClockOrigin.value "ClockOrigin"
    (itemOr ms "origin" (.str "training_run"))
  return ⟨type, origin⟩

def toMembers (clock : ClockSpec) : List (String × Json) :=
  [("type", .str clock.type.value), ("origin", .str clock.origin.value)]

end ClockSpec

/-- The constructor of `IterationRange`. -/
def IterationRange.make (start endAt every : Int) :
    Except ConfigError IterationRange := do
  let ⟨hstart⟩ ← require (0 < start) (.valueError "trigger range start must be positive")
  let ⟨hend⟩ ← require (start ≤ endAt) (.valueError "trigger range end must be at least start")
  let ⟨hevery⟩ ← require (0 < every) (.valueError "trigger range every must be positive")
  return ⟨start, endAt, every, hstart, hend, hevery⟩

def IterationRange.fromDict (value : Json) : Except ConfigError IterationRange := do
  let ms ← mapping "trigger range" value
  rejectUnknownKeys ms ["start", "end", "every"] "trigger range"
  let start ← item ms "start"
  let endAt ← item ms "end"
  let start ← strictInt "trigger range start" start
  let endAt ← strictInt "trigger range end" endAt
  let every ← strictInt "trigger range every" (itemOr ms "every" (.int 1))
  IterationRange.make start endAt every

def IterationRange.toMembers (range : IterationRange) : List (String × Json) :=
  [("start", .int range.start), ("end", .int range.endAt), ("every", .int range.every)]

/-- `IncidentTrigger`, with the literal of its probability. -/
structure IncidentTrigger extends FaultInjection.IncidentTrigger where
  literal : String := "1.0"
  literal_value : Double.ofText literal = some probability

namespace IncidentTrigger

/-- The literal of `float(probability)`: an integer that is a probability is 0 or 1. -/
def probabilityLiteral : Json → Except ConfigError String
  | .int n =>
      if n = 0 then .ok "0.0"
      else if n = 1 then .ok "1.0"
      else if Double.ofInt n = none then .error .overflowError
      else .error (.valueError "trigger probability must be between 0 and 1")
  | .float l => .ok l
  | _ => .error (.typeError "trigger probability must be a number")

/-- The value of a literal, if it is finite. -/
def literalValue (literal : String) :
    Except ConfigError {q : ℚ // Double.ofText literal = some q} :=
  if h : (Double.ofText literal).isSome = true then
    .ok ⟨(Double.ofText literal).get h, (Option.some_get h).symm⟩
  else .error (.valueError "trigger probability must be between 0 and 1")

/-- The constructor, from the checks of a normalized trigger on. -/
def make (exactAt : List Int) (range : Option IterationRange) (probability : Json) :
    Except ConfigError IncidentTrigger := do
  let ⟨hone⟩ ← require (exactAt = [] ↔ range.isSome = true)
    (.valueError "incident trigger requires exactly one of at or range")
  let ⟨hpos⟩ ← require (∀ iteration ∈ exactAt, 0 < iteration)
    (.valueError "trigger iterations must be positive")
  let ⟨hnodup⟩ ← require exactAt.Nodup
    (.valueError "trigger iterations must not contain duplicates")
  let ⟨hsorted⟩ ← require (exactAt.Pairwise (· ≤ ·))
    (.valueError "trigger iterations must be sorted")
  let literal ← probabilityLiteral probability
  let ⟨q, hq⟩ ← literalValue literal
  let ⟨hprobability⟩ ← require (0 ≤ q ∧ q ≤ 1)
    (.valueError "trigger probability must be between 0 and 1")
  return { exactAt := exactAt
           range := range
           probability := q
           one_of := hone.trans Option.isSome_iff_ne_none
           at_pos := hpos
           at_sorted := (List.Pairwise.and hsorted hnodup).imp fun h => lt_of_le_of_ne h.1 h.2
           probability_nonneg := hprobability.1
           probability_le := hprobability.2
           literal := literal
           literal_value := hq }

/-- The range of a trigger that is written. -/
def readRange : Json → Except ConfigError (Option IterationRange)
  | .null => .ok none
  | value => (IterationRange.fromDict value).map some

def fromDict (value : Json) : Except ConfigError IncidentTrigger := do
  let ms ← mapping "incident trigger" value
  rejectUnknownKeys ms ["at", "range", "probability"] "incident trigger"
  let exactAt ← iterate (itemOr ms "at" (.arr []))
  let range ← readRange (itemOr ms "range" .null)
  let exactAt ← exactAt.mapM (strictInt "trigger iteration")
  make exactAt range (itemOr ms "probability" (.float "1.0"))

def toMembers (trigger : IncidentTrigger) : List (String × Json) :=
  ("probability", .float trigger.literal) ::
    match trigger.range with
    | some range => [("range", .obj (IterationRange.toMembers range))]
    | none => [("at", .arr (trigger.exactAt.map .int))]

end IncidentTrigger

/-- The constructor of `IncidentLifetime`. -/
def IncidentLifetime.make (matchingCalls iterations : Option Int) (until_ : Json) :
    Except ConfigError IncidentLifetime :=
  match matchingCalls, iterations, until_ with
  | some n, none, .null => do
      let ⟨h⟩ ← require (0 < n) (.valueError "lifetime matching_calls must be positive")
      return .matchingCalls n h
  | none, some n, .null => do
      let ⟨h⟩ ← require (0 < n) (.valueError "lifetime iterations must be positive")
      return .iterations n h
  | none, none, .str s =>
      match Until.all.find? fun ends => ends.value = s with
      | some ends => .ok (.permanent ends)
      | none =>
          .error (.valueError
            "lifetime until must be recovery, replacement, or campaign_end")
  | none, none, .arr _ => .error (.typeError "unhashable type: 'list'")
  | none, none, .obj _ => .error (.typeError "unhashable type: 'dict'")
  | none, none, .null | some _, some _, _ | some _, none, _ | none, some _, _ =>
      .error (.valueError
        "incident lifetime requires exactly one of matching_calls, iterations, or until")
  | none, none, _ =>
      .error (.valueError "lifetime until must be recovery, replacement, or campaign_end")

def IncidentLifetime.fromDict (value : Json) : Except ConfigError IncidentLifetime := do
  let ms ← mapping "incident lifetime" value
  rejectUnknownKeys ms ["matching_calls", "iterations", "until"] "incident lifetime"
  let matchingCalls ← optionalInt "lifetime matching_calls" (itemOr ms "matching_calls" .null)
  let iterations ← optionalInt "lifetime iterations" (itemOr ms "iterations" .null)
  IncidentLifetime.make matchingCalls iterations (itemOr ms "until" .null)

def IncidentLifetime.toMembers : IncidentLifetime → List (String × Json)
  | .matchingCalls calls _ => [("matching_calls", .int calls)]
  | .iterations count _ => [("iterations", .int count)]
  | .permanent ends => [("until", .str ends.value)]

/-! ## Targets -/

def indexedLogicalComponents : List String :=
  ["expert", "layer", "transformer_block", "transformer_layer"]

/-- `str.lower` of a character, as far as a letter of a component's name comes out: a
capital letter, or the Kelvin sign. -/
def lowerChar (c : Char) : Char :=
  if 'A' ≤ c ∧ c ≤ 'Z' then Char.ofNat (c.toNat + 32)
  else if c.toNat = 0x212a then 'k'
  else c

/-- `component.lower().replace("-", "_")` -/
def normalizedComponent (component : String) : String :=
  String.ofList ((component.toList.map lowerChar).map fun c => if c = '-' then '_' else c)

theorem first_part : (0 : Int) ≤ 0 := le_rfl

/-! A target without an index. -/

theorem noIndex_nonneg : ∀ n ∈ (none : Option Int), 0 ≤ n := by simp

theorem noIndex_component : ∀ _ ∈ (none : Option Int), ∃ name ∈ (none : Option String),
    normalizedComponent name ∈ indexedLogicalComponents := by simp

/-- `FaultTarget` -/
structure FaultTarget extends FaultInjection.FaultTarget where
  modelPart : Int := 0
  index : Option Int := none
  operation : Option String := none
  path : Option String := none
  metadata : FrozenMapping
  modelPart_nonneg : 0 ≤ modelPart
  index_nonneg : ∀ n ∈ index, 0 ≤ n
  index_component : ∀ _ ∈ index,
    ∃ name ∈ component, normalizedComponent name ∈ indexedLogicalComponents
  operation_named : Named operation
  path_named : Named path

namespace FaultTarget

/-- The constructor; its arguments are what the JSON library has read. -/
def make (surface : FaultSurface)
    (rank modelPart component index modulePath operation resource path metadata : Json) :
    Except ConfigError FaultTarget := do
  let rank ← optionalInt "fault target rank" rank
  let modelPart ← strictInt "fault target model_part" modelPart
  let index ← optionalInt "fault target index" index
  let ⟨component, hcomponent⟩ ← optionalName "fault target component" component
  let ⟨modulePath, hmodulePath⟩ ← optionalName "fault target module_path" modulePath
  let ⟨operation, hoperation⟩ ← optionalName "fault target operation" operation
  let ⟨path, hpath⟩ ← optionalName "fault target path" path
  let metadata ← freezeJsonMapping metadata "fault target metadata"
  let ⟨hrank⟩ ← require (∀ n ∈ rank, 0 ≤ n)
    (.valueError "fault target rank must be non-negative")
  let ⟨hmodelPart⟩ ← require (0 ≤ modelPart)
    (.valueError "fault target model_part must be non-negative")
  let ⟨hindex⟩ ← require (∀ n ∈ index, 0 ≤ n)
    (.valueError "fault target index must be non-negative")
  let ⟨hindexed⟩ ← require (∀ _ ∈ index,
      ∃ name ∈ component, normalizedComponent name ∈ indexedLogicalComponents)
    (.valueError "fault target index is supported only for layer or expert logical components")
  let ⟨resource, hresource⟩ ← optionalName "fault target resource" resource
  let ⟨hlocated⟩ ← require (surface ∈ moduleSurfaces → modulePath ≠ none ∨ component ≠ none)
    (.valueError "module fault targets require module_path or a logical component")
  return { surface := surface
           rank := rank
           component := component
           modulePath := modulePath
           resource := resource
           rank_nonneg := hrank
           component_named := hcomponent
           modulePath_named := hmodulePath
           resource_named := hresource
           located := hlocated
           modelPart := modelPart
           index := index
           operation := operation
           path := path
           metadata := metadata
           modelPart_nonneg := hmodelPart
           index_nonneg := hindex
           index_component := hindexed
           operation_named := hoperation
           path_named := hpath }

def keys : List String :=
  ["surface", "rank", "model_part", "component", "index", "module_path", "operation",
    "resource", "path", "metadata"]

def fromDict (value : Json) : Except ConfigError FaultTarget := do
  let ms ← mapping "fault target" value
  rejectUnknownKeys ms keys "fault target"
  let surface ← enumMember FaultSurface.all FaultSurface.value "FaultSurface"
    (← item ms "surface")
  make surface (itemOr ms "rank" .null) (itemOr ms "model_part" (.int 0))
    (itemOr ms "component" .null) (itemOr ms "index" .null) (itemOr ms "module_path" .null)
    (itemOr ms "operation" .null) (itemOr ms "resource" .null) (itemOr ms "path" .null)
    (itemOr ms "metadata" (.obj []))

/-- `value is not None and value != {}` -/
def written : Json → Bool
  | .null => false
  | .obj [] => false
  | _ => true

/-- The fields of a target. -/
def fields (target : FaultTarget) : List (String × Json) :=
  [("surface", .str target.surface.value), ("rank", optionalNumber target.rank),
    ("model_part", .int target.modelPart), ("component", optionalText target.component),
    ("index", optionalNumber target.index), ("module_path", optionalText target.modulePath),
    ("operation", optionalText target.operation), ("resource", optionalText target.resource),
    ("path", optionalText target.path), ("metadata", target.metadata.thaw)]

/-- `to_dict` -/
def toMembers (target : FaultTarget) : List (String × Json) :=
  target.fields.filter fun m => written m.2

end FaultTarget

/-! ## Parameters -/

/-- `threading.TIMEOUT_MAX`, in seconds. -/
def timeoutMax : ℚ := 9223372036

/-- The surfaces on which a fault of this type is injected in the process itself. -/
def isLocal (type : FailureType) (surface : FaultSurface) : Bool :=
  (type ∈ [.tensorCorruption, .staleState, .duplicate] ∧
      surface ∈ [.input, .output, .weight, .bias, .gradient, .optimizerState]) ||
    (type ∈ [.drop, .reorder] ∧ surface ∈ [.input, .output, .gradient]) ||
    (type = .delay ∧ surface ∈ [.input, .output, .compute])

/-- The parameters that such a fault may have; `operation` is the text of that parameter. -/
def allowedParameters (type : FailureType) (surface : FaultSurface)
    (operation : Option String) : List String :=
  if type = .delay then ["delay_ms"]
  else
    (if type ≠ .reorder then ["scope"] else []) ++
      (if surface ∈ [.weight, .bias, .gradient, .optimizerState] then ["parameter"] else []) ++
      (if surface = .optimizerState then ["state_key"] else []) ++
      if type = .tensorCorruption then
        ["operation"] ++
          (if operation ∈ [some "single_bitflip", some "multi_bitflip", some "scale",
              some "noise"] then
            ["magnitude"] else []) ++
          (if operation = some "set_value" then ["value"]
          else if operation = some "scale" then ["factor"]
          else if operation = some "noise" then ["std"]
          else [])
      else []

section Parameters

variable (ps : List (String × Json))

/-- A check of a parameter that is given. -/
def ifGiven (key : String) (check : Json → Except ConfigError Unit) : Except ConfigError Unit :=
  match Json.get? key ps with
  | some v => check v
  | none => .ok ()

/-- The parameter as a string. -/
def textParameter (key : String) : Option String :=
  match Json.get? key ps with
  | some (.str s) => some s
  | _ => none

/-- A parameter that must be given. -/
def requiredParameter (key message : String) (check : Json → Except ConfigError Unit) :
    Except ConfigError Unit :=
  match Json.get? key ps with
  | none | some .null => .error (.valueError message)
  | some v => check v

/-- A parameter that selects by name. -/
def checkSelector (label : String) (v : Json) : Except ConfigError Unit :=
  (requiredNonEmptyString label v).map fun _ => ()

def validateBuiltinLocalParameters (type : FailureType) (surface : FaultSurface) :
    Except ConfigError Unit :=
  if isLocal type surface = false then .ok ()
  else do
    let unknown := unknownKeys ps
      (allowedParameters type surface (textParameter ps "operation"))
    if unknown ≠ [] then
      .error (.unknownFields ("unsupported built-in local parameters for " ++ type.value ++
        " on " ++ surface.value) unknown)
    ifGiven ps "parameter" (checkSelector (type.value ++ " parameters.parameter"))
    ifGiven ps "state_key" (checkSelector (type.value ++ " parameters.state_key"))

def corruptionValue : Json → Except ConfigError Unit
  | .str s =>
      if String.ofList (s.toList.map lowerChar) ∈ ["nan", "inf", "+inf", "infinity",
          "+infinity", "-inf", "-infinity"] then .ok ()
      else
        .error (.valueError
          "tensor_corruption parameters.value must be numeric, nan, inf, or -inf")
  | v => (finiteNumber "tensor_corruption parameters.value" v).map fun _ => ()

/-- `parameters.scope` -/
def checkScope (v : Json) : Except ConfigError Unit :=
  (enumMember FaultScope.all FaultScope.value "FaultScope" v).map fun _ => ()

/-- `parameters.operation` -/
def checkOperation (v : Json) : Except ConfigError Unit :=
  (enumMember CorruptionOperation.all CorruptionOperation.value "CorruptionOperation" v).map
    fun _ => ()

/-- `parameters.magnitude` -/
def checkMagnitude (v : Json) : Except ConfigError Unit :=
  (enumMember FaultMagnitude.all FaultMagnitude.value "FaultMagnitude" v).map fun _ => ()

/-- `parameters.factor`; a scale by one changes nothing. -/
def checkFactor (operation : Option String) (v : Json) : Except ConfigError Unit := do
  let factor ← finiteNumber "tensor_corruption parameters.factor" v
  if operation = some "scale" ∧ factor = 1 then
    .error (.valueError "scale corruption parameters.factor must change the target value")

/-- `parameters.std` -/
def checkStd (v : Json) : Except ConfigError Unit := do
  let standardDeviation ← finiteNumber "tensor_corruption parameters.std" v
  if standardDeviation ≤ 0 then
    .error (.valueError "tensor_corruption parameters.std must be greater than zero")

/-- `float(delay_ms)` -/
def delayMilliseconds : Json → Except ConfigError ℚ
  | .int n =>
      match Double.ofInt n with
      | some q => .ok q
      | none => .error .overflowError
  | .float l =>
      match Double.ofText l with
      | some q => .ok q
      | none =>
          .error (.valueError "delay requires finite parameters.delay_ms greater than zero")
  | _ => .error (.typeError "delay parameters.delay_ms must be a number")

/-- `parameters.delay_ms` -/
def checkDelay (v : Json) : Except ConfigError Unit := do
  let delayMs ← delayMilliseconds v
  if delayMs ≤ 0 then
    .error (.valueError "delay requires finite parameters.delay_ms greater than zero")
  match Double.nearest (delayMs / 1000) with
  | some seconds =>
      if timeoutMax < seconds then
        .error (.valueError "delay parameters.delay_ms exceeds the platform timer limit")
  | none => .error .overflowError

/-- The checks of a tensor corruption. -/
def validateCorruption : Except ConfigError Unit := do
  requiredParameter ps "operation" "tensor_corruption requires parameters.operation"
    checkOperation
  ifGiven ps "magnitude" checkMagnitude
  ifGiven ps "factor" (checkFactor (textParameter ps "operation"))
  ifGiven ps "std" checkStd
  ifGiven ps "value" corruptionValue

def validateParameters (type : FailureType) (surface : FaultSurface) :
    Except ConfigError Unit := do
  validateBuiltinLocalParameters ps type surface
  if type ∈ [.tensorCorruption, .staleState, .drop, .duplicate, .reorder] then
    ifGiven ps "scope" checkScope
  if type = .tensorCorruption then validateCorruption ps
  if type = .delay then
    requiredParameter ps "delay_ms" "delay requires parameters.delay_ms" checkDelay
  if type = .tensorCorruption ∧ textParameter ps "operation" = some "set_value" ∧
      "value" ∉ Json.keys ps then
    .error (.valueError "set_value corruption requires parameters.value")

end Parameters

/-! ## Faults -/

/-- `FaultSpec` -/
structure FaultSpec where
  faultId : String
  type : FailureType
  target : FaultTarget
  parameters : FrozenMapping
  systemFailureType : Option SystemFailureType := none
  id_named : Text.nonBlank faultId = true
  effect_allowed : ∀ cause ∈ systemFailureType, type ∈ cause.effects
  parameters_valid :
    validateParameters parameters.members type target.surface = .ok ()

namespace FaultSpec

/-- What is wrong with a cause that cannot have this effect. -/
def effectError (type : FailureType) : Option SystemFailureType → ConfigError
  | some cause =>
      .valueError ("system failure " ++ cause.value ++ " cannot produce observable effect " ++
        type.value ++ "; expected one of: " ++ String.intercalate ", "
          ((cause.effects.map FailureType.value).insertionSort (· ≤ ·)))
  | none => .valueError "no system failure"

/-- The checks of the parameters, which are then known to hold. -/
def checkParameters (parameters : FrozenMapping) (type : FailureType) (surface : FaultSurface) :
    Except ConfigError
      (PLift (validateParameters parameters.members type surface = .ok ())) :=
  match validateParameters parameters.members type surface with
  | .ok () => .ok ⟨rfl⟩
  | .error e => .error e

/-- The constructor. -/
def make (faultId : Json) (type : FailureType) (target : FaultTarget) (parameters : Json)
    (systemFailureType : Option SystemFailureType) : Except ConfigError FaultSpec := do
  let ⟨faultId, hid⟩ ← requiredNonEmptyString "fault_id" faultId
  let parameters ← freezeJsonMapping parameters "fault parameters"
  let ⟨heffect⟩ ← require (∀ cause ∈ systemFailureType, type ∈ cause.effects)
    (effectError type systemFailureType)
  let ⟨hparameters⟩ ← checkParameters parameters type target.surface
  return ⟨faultId, type, target, parameters, systemFailureType, hid, heffect, hparameters⟩

/-- The cause that a fault is given. -/
def readSystemFailureType : Json → Except ConfigError (Option SystemFailureType)
  | .null => .ok none
  | v =>
      (enumMember SystemFailureType.all SystemFailureType.value "SystemFailureType" v).map some

def keys : List String :=
  ["fault_id", "id", "type", "system_failure_type", "target", "parameters"]

def fromDict (value : Json) : Except ConfigError FaultSpec := do
  let ms ← mapping "fault" value
  rejectUnknownKeys ms keys "fault"
  rejectAliasPair ms "fault_id" "id" "fault"
  let type ← enumMember FailureType.all FailureType.value "FailureType" (← item ms "type")
  let target ← FaultTarget.fromDict (← item ms "target")
  let systemFailureType ← readSystemFailureType (itemOr ms "system_failure_type" .null)
  make (itemOr ms "fault_id" (itemOr ms "id" (.str ""))) type target
    (itemOr ms "parameters" (.obj [])) systemFailureType

/-- `to_dict` -/
def toMembers (fault : FaultSpec) : List (String × Json) :=
  [("fault_id", .str fault.faultId), ("type", .str fault.type.value),
    ("target", .obj fault.target.toMembers), ("parameters", fault.parameters.thaw)] ++
    match fault.systemFailureType with
    | some cause => [("system_failure_type", .str cause.value)]
    | none => []

end FaultSpec

/-! ## Incidents -/

/-- `FaultIncident` -/
structure FaultIncident where
  incidentId : String
  trigger : IncidentTrigger
  lifetime : IncidentLifetime
  faults : List FaultSpec
  retrigger : RetriggerPolicy := .once
  maxOccurrences : Option Int := none
  id_named : Text.nonBlank incidentId = true
  faults_ne : faults ≠ []
  faultIds : (faults.map FaultSpec.faultId).Nodup
  occurrences : if retrigger = .maxOccurrences then ∃ n ∈ maxOccurrences, 0 < n
    else maxOccurrences = none
  permanent_once :
    ¬ (lifetime.isPermanent = true ∧ trigger.hasMultipleCandidates = true)
  separate : ∀ n ∈ lifetime.iterationCount,
    ¬ (1 < n ∧ triggerOverlaps trigger.toIncidentTrigger n = true)
  calls_surface : ¬ (lifetime.isMatchingCalls = true ∧
    ∃ fault ∈ faults, fault.target.surface ∈ [FaultSurface.weight, .bias, .optimizerState])

namespace FaultIncident

/-- The constructor, from the normalized faults on. -/
def make (incidentId : {s : String // Text.nonBlank s = true}) (trigger : IncidentTrigger)
    (lifetime : IncidentLifetime) (faults : List FaultSpec) (retrigger : RetriggerPolicy)
    (maxOccurrences : Json) : Except ConfigError FaultIncident := do
  let maxOccurrences ← optionalInt "max_occurrences" maxOccurrences
  let ⟨hne⟩ ← require (faults ≠ []) (.valueError "incident must contain at least one fault")
  let ⟨hids⟩ ← require (faults.map FaultSpec.faultId).Nodup
    (.valueError "fault_id values must be unique within an incident")
  let ⟨hoccurrences⟩ ← require
    (if retrigger = .maxOccurrences then ∃ n ∈ maxOccurrences, 0 < n else maxOccurrences = none)
    (.valueError
      (if retrigger = .maxOccurrences then
        "max_occurrences retrigger requires a positive max_occurrences"
      else "max_occurrences is only valid with the max_occurrences retrigger policy"))
  let ⟨honce⟩ ← require
    (¬ (lifetime.isPermanent = true ∧ trigger.hasMultipleCandidates = true))
    (.valueError "permanent incidents require a single trigger candidate")
  let ⟨hseparate⟩ ← require
    (∀ n ∈ lifetime.iterationCount,
      ¬ (1 < n ∧ triggerOverlaps trigger.toIncidentTrigger n = true))
    (.valueError
      "bounded incident trigger candidates must not overlap their iteration lifetime")
  let ⟨hsurface⟩ ← require
    (¬ (lifetime.isMatchingCalls = true ∧ ∃ fault ∈ faults,
      fault.target.surface ∈ [FaultSurface.weight, .bias, .optimizerState]))
    (.valueError ("weight, bias, and optimizer_state faults do not support matching_calls; " ++
      "use an iterations or until lifetime so the mutation remains active through backward " ++
      "and the optimizer boundary"))
  return ⟨incidentId.1, trigger, lifetime, faults, retrigger, maxOccurrences, incidentId.2, hne,
    hids, hoccurrences, honce, hseparate, hsurface⟩

def keys : List String :=
  ["incident_id", "id", "trigger", "lifetime", "faults", "retrigger", "max_occurrences"]

def fromDict (value : Json) : Except ConfigError FaultIncident := do
  let ms ← mapping "incident" value
  rejectUnknownKeys ms keys "incident"
  rejectAliasPair ms "incident_id" "id" "incident"
  let trigger ← IncidentTrigger.fromDict (← item ms "trigger")
  let lifetime ← IncidentLifetime.fromDict (← item ms "lifetime")
  let faults ← (← iterate (← item ms "faults")).mapM FaultSpec.fromDict
  let retrigger ← enumMember RetriggerPolicy.all RetriggerPolicy.value "RetriggerPolicy"
    (itemOr ms "retrigger" (.str "once"))
  let incidentId ← requiredNonEmptyString "incident_id"
    (itemOr ms "incident_id" (itemOr ms "id" (.str "")))
  make incidentId trigger lifetime faults retrigger (itemOr ms "max_occurrences" .null)

/-- `to_dict` -/
def toMembers (incident : FaultIncident) : List (String × Json) :=
  [("incident_id", .str incident.incidentId), ("trigger", .obj incident.trigger.toMembers),
    ("lifetime", .obj (IncidentLifetime.toMembers incident.lifetime)),
    ("retrigger", .str incident.retrigger.value),
    ("faults", .arr (incident.faults.map fun fault => .obj fault.toMembers))] ++
    match incident.maxOccurrences with
    | some n => [("max_occurrences", .int n)]
    | none => []

end FaultIncident

/-! ## Campaigns -/

/-- `FaultCampaign` -/
structure FaultCampaign where
  name : String
  incidents : List FaultIncident
  schemaVersion : Int := 1
  seed : Int := 0
  clock : ClockSpec := {}
  metadata : FrozenMapping
  name_named : Text.nonBlank name = true
  schema_supported : schemaVersion ∈ [1, 2]
  legacy_causes : ¬ (schemaVersion = 1 ∧ ∃ incident ∈ incidents, ∃ fault ∈ incident.faults,
    fault.systemFailureType.isSome = true)
  seed_fits : -2 ^ 127 ≤ seed ∧ seed < 2 ^ 127
  incidents_ne : incidents ≠ []
  incidentIds : (incidents.map FaultIncident.incidentId).Nodup

namespace FaultCampaign

/-- The constructor, from the normalized incidents on. -/
def make (name : Json) (incidents : List FaultIncident) (schemaVersion seed : Json)
    (clock : ClockSpec) (metadata : Json) : Except ConfigError FaultCampaign := do
  let ⟨name, hname⟩ ← requiredNonEmptyString "campaign name" name
  let schemaVersion ← strictInt "campaign schema_version" schemaVersion
  let seed ← strictInt "campaign seed" seed
  let metadata ← freezeJsonMapping metadata "campaign metadata"
  let ⟨hschema⟩ ← require (schemaVersion ∈ [1, 2])
    (.valueError ("unsupported campaign schema_version " ++ Text.str schemaVersion ++
      "; expected one of: 1, 2"))
  let ⟨hlegacy⟩ ← require
    (¬ (schemaVersion = 1 ∧ ∃ incident ∈ incidents, ∃ fault ∈ incident.faults,
      fault.systemFailureType.isSome = true))
    (.valueError "system_failure_type requires campaign schema_version 2")
  let ⟨hseed⟩ ← require (-2 ^ 127 ≤ seed ∧ seed < 2 ^ 127)
    (.valueError "campaign seed must fit in a signed 128-bit integer")
  let ⟨hne⟩ ← require (incidents ≠ [])
    (.valueError "campaign must contain at least one incident")
  let ⟨hids⟩ ← require (incidents.map FaultIncident.incidentId).Nodup
    (.valueError "campaign incident_id values must be unique")
  return ⟨name, incidents, schemaVersion, seed, clock, metadata, hname, hschema, hlegacy, hseed,
    hne, hids⟩

/-- `schema_version == _LEGACY_SCHEMA_VERSION` -/
def isLegacy : Json → Bool
  | .int n => n = 1
  | .bool b => b
  | .float l => Double.ofText l = some 1
  | _ => false

/-- The fault is a mapping that names a cause. -/
def namesCause : Json → Bool
  | .obj ms => "system_failure_type" ∈ Json.keys ms
  | _ => false

/-- A fault of the incident names a cause. -/
def incidentNamesCause : Json → Bool
  | .obj ms =>
      match itemOr ms "faults" (.arr []) with
      | .arr faults => faults.any namesCause
      | _ => false
  | _ => false

def keys : List String := ["schema_version", "name", "seed", "clock", "incidents", "metadata"]

/-- The fields of a legacy campaign. -/
def rejectLegacyCauses (ms : List (String × Json)) : Except ConfigError Unit :=
  if isLegacy (itemOr ms "schema_version" (.int 1)) = false then .ok ()
  else do
    let incidents ← iterate (itemOr ms "incidents" (.arr []))
    if incidents.any incidentNamesCause = true then
      .error (.valueError "system_failure_type requires campaign schema_version 2")

def fromDict (value : Json) : Except ConfigError FaultCampaign := do
  let ms ← mapping "campaign" value
  rejectUnknownKeys ms keys "campaign"
  rejectLegacyCauses ms
  let name ← item ms "name"
  let clock ← ClockSpec.fromDict (itemOr ms "clock" (.obj []))
  let incidents ← (← iterate (← item ms "incidents")).mapM FaultIncident.fromDict
  make name incidents (itemOr ms "schema_version" (.int 1)) (itemOr ms "seed" (.int 0)) clock
    (itemOr ms "metadata" (.obj []))

/-- `to_dict` -/
def toMembers (campaign : FaultCampaign) : List (String × Json) :=
  [("schema_version", .int campaign.schemaVersion), ("name", .str campaign.name),
    ("seed", .int campaign.seed), ("clock", .obj campaign.clock.toMembers),
    ("incidents", .arr (campaign.incidents.map fun incident => .obj incident.toMembers)),
    ("metadata", campaign.metadata.thaw)]

/-- `manifest_identity`; `digest` is the SHA-256 of a text, in hexadecimal. -/
def manifestIdentity (digest : String → String) (campaign : FaultCampaign) : String :=
  digest (Json.dumps (.obj campaign.toMembers))

/-- The mappings of a campaign. -/
def mappings (campaign : FaultCampaign) : List FrozenMapping :=
  campaign.metadata :: campaign.incidents.flatMap fun incident =>
    incident.faults.flatMap fun fault => [fault.target.metadata, fault.parameters]

end FaultCampaign

end Manifest

end LmResiliency.FaultInjection
