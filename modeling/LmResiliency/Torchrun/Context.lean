/-
# Context — `RestartContext`, the hand-off of one node

The part of a committed plan that the workers of one node are started with.
`fromPlan` is the only way the rendezvous handler builds one, and the wire
form is canonical as that of a plan is.
-/
import LmResiliency.Torchrun.Plan

namespace LmResiliency.Torchrun

/-- The fields of a restart context. -/
structure ContextFields where
  planId : String
  runId : String
  generation : Int
  nodeId : String
  logicalNodeSlot : Int
  firstGlobalRank : Int
  localWorldSize : Int
  expectedWorldSize : Int
  topologyDigest : String
  recoveryMode : String
  checkpointSource : String
  checkpointStep : Int
  checkpointId : Option String
  checkpointManifestId : String
  reasonCode : String
  restartDeadlineMonotonicNs : Int
  deriving DecidableEq

/-- What `RestartContext.__post_init__` establishes. -/
structure ContextFields.Valid (f : ContextFields) : Prop where
  planId : Text.nonBlank f.planId = true
  runId : Text.nonBlank f.runId = true
  generation : 1 ≤ f.generation
  nodeId : Text.nonBlank f.nodeId = true
  logicalNodeSlot : 0 ≤ f.logicalNodeSlot
  firstGlobalRank : 0 ≤ f.firstGlobalRank
  localWorldSize : 1 ≤ f.localWorldSize
  slot : f.firstGlobalRank = f.logicalNodeSlot * f.localWorldSize
  expectedWorldSize : 1 ≤ f.expectedWorldSize
  complete : f.expectedWorldSize % f.localWorldSize = 0
  fits : f.firstGlobalRank + f.localWorldSize ≤ f.expectedWorldSize
  topologyDigest : Text.nonBlank f.topologyDigest = true
  recoveryMode : f.recoveryMode ∈ recoveryModes
  checkpointSource : f.checkpointSource ∈ checkpointSources
  checkpointStep : 1 ≤ f.checkpointStep
  checkpointId : ∀ s ∈ f.checkpointId, Text.nonBlank s = true
  durable : ¬ (f.checkpointSource = "durable" ∧ f.checkpointId = none)
  gemini : ¬ (f.checkpointSource = "gemini" ∧ f.checkpointId ≠ none)
  checkpointManifestId : Text.nonBlank f.checkpointManifestId = true
  reasonCode : Text.nonBlank f.reasonCode = true
  restartDeadline : 1 ≤ f.restartDeadlineMonotonicNs

/-- Node-local handoff derived exactly from one committed plan. -/
structure RestartContext extends ContextFields where
  valid : toContextFields.Valid

namespace RestartContext

/-- `RestartContext(…)`, through `__post_init__`. -/
def init (f : ContextFields) : Checked RestartContext := do
  let ⟨planId⟩ ← nonEmpty "RestartContext.plan_id" f.planId
  let ⟨runId⟩ ← nonEmpty "RestartContext.run_id" f.runId
  let ⟨generation⟩ ← atLeast "RestartContext.generation" 1 f.generation
  let ⟨nodeId⟩ ← nonEmpty "RestartContext.node_id" f.nodeId
  let ⟨logicalNodeSlot⟩ ← atLeast "RestartContext.logical_node_slot" 0 f.logicalNodeSlot
  let ⟨firstGlobalRank⟩ ← atLeast "RestartContext.first_global_rank" 0 f.firstGlobalRank
  let ⟨localWorldSize⟩ ← atLeast "RestartContext.local_world_size" 1 f.localWorldSize
  let ⟨slot⟩ ← require (f.firstGlobalRank = f.logicalNodeSlot * f.localWorldSize)
    "RestartContext.first_global_rank" (.text "does not match logical slot")
  let ⟨expectedWorldSize⟩ ←
    atLeast "RestartContext.expected_world_size" 1 f.expectedWorldSize
  let ⟨complete⟩ ← require (f.expectedWorldSize % f.localWorldSize = 0)
    "RestartContext.expected_world_size" (.text "must contain complete local worker slots")
  let ⟨fits⟩ ← require (f.firstGlobalRank + f.localWorldSize ≤ f.expectedWorldSize)
    "RestartContext" (.text "local rank range exceeds expected world size")
  let ⟨topologyDigest⟩ ← nonEmpty "RestartContext.topology_digest" f.topologyDigest
  let ⟨recoveryMode⟩ ← oneOf "RestartContext.recovery_mode" recoveryModes f.recoveryMode
  let ⟨checkpointSource⟩ ←
    oneOf "RestartContext.checkpoint_source" checkpointSources f.checkpointSource
  let ⟨checkpointStep⟩ ← atLeast "RestartContext.checkpoint_step" 1 f.checkpointStep
  let ⟨checkpointId⟩ ← optionalNonEmpty "RestartContext.checkpoint_id" f.checkpointId
  let ⟨durable⟩ ← require (¬ (f.checkpointSource = "durable" ∧ f.checkpointId = none))
    "RestartContext.checkpoint_id" (.text "durable recovery requires an ID")
  let ⟨gemini⟩ ← require (¬ (f.checkpointSource = "gemini" ∧ f.checkpointId ≠ none))
    "RestartContext.checkpoint_id" (.text "GEMINI recovery must not set an ID")
  let ⟨checkpointManifestId⟩ ←
    nonEmpty "RestartContext.checkpoint_manifest_id" f.checkpointManifestId
  let ⟨reasonCode⟩ ← nonEmpty "RestartContext.reason_code" f.reasonCode
  let ⟨restartDeadline⟩ ← atLeast "RestartContext.restart_deadline_monotonic_ns" 1
    f.restartDeadlineMonotonicNs
  .ok
    { f with
      valid :=
        { planId, runId, generation, nodeId, logicalNodeSlot, firstGlobalRank, localWorldSize,
          slot, expectedWorldSize, complete, fits, topologyDigest, recoveryMode,
          checkpointSource, checkpointStep, checkpointId, durable, gemini,
          checkpointManifestId, reasonCode, restartDeadline } }

def fromPlan (plan : RestartPlan) (nodeId : String) (restartDeadlineMonotonicNs : Int) :
    Checked RestartContext :=
  match plan.slotAssignments.find? (·.nodeId = nodeId) with
  | none => .error ⟨"RestartContext", .notAssigned nodeId⟩
  | some assignment =>
      init
        { planId := plan.planId
          runId := plan.runId
          generation := plan.toGeneration
          nodeId := assignment.nodeId
          logicalNodeSlot := assignment.logicalNodeSlot
          firstGlobalRank := assignment.firstGlobalRank
          localWorldSize := assignment.localWorldSize
          expectedWorldSize := plan.expectedWorldSize
          topologyDigest := plan.topologyDigest
          recoveryMode := plan.recoveryMode
          checkpointSource := plan.checkpointSource
          checkpointStep := plan.checkpointStep
          checkpointId := plan.checkpointId
          checkpointManifestId := plan.checkpointManifestId
          reasonCode := plan.reasonCode
          restartDeadlineMonotonicNs }

def toDict (c : ContextFields) : List (String × Json) :=
  [("schema_version", .int 1),
    ("plan_id", .str c.planId),
    ("run_id", .str c.runId),
    ("generation", .int c.generation),
    ("node_id", .str c.nodeId),
    ("logical_node_slot", .int c.logicalNodeSlot),
    ("first_global_rank", .int c.firstGlobalRank),
    ("local_world_size", .int c.localWorldSize),
    ("expected_world_size", .int c.expectedWorldSize),
    ("topology_digest", .str c.topologyDigest),
    ("recovery_mode", .str c.recoveryMode),
    ("checkpoint_source", .str c.checkpointSource),
    ("checkpoint_step", .int c.checkpointStep),
    ("checkpoint_id", optionalStr c.checkpointId),
    ("checkpoint_manifest_id", .str c.checkpointManifestId),
    ("reason_code", .str c.reasonCode),
    ("restart_deadline_monotonic_ns", .int c.restartDeadlineMonotonicNs)]

def toJson (c : RestartContext) : String := (Json.obj (toDict c.toContextFields)).dumps

def required : List String :=
  ["plan_id", "run_id", "generation", "node_id", "logical_node_slot", "first_global_rank",
    "local_world_size", "expected_world_size", "topology_digest", "recovery_mode",
    "checkpoint_source", "checkpoint_step", "checkpoint_id", "checkpoint_manifest_id",
    "reason_code", "restart_deadline_monotonic_ns"]

def fromDict (value : List (String × Json)) : Checked RestartContext := do
  recordFields value "RestartContext" required
  let planId ← stringOf (field value "plan_id") "RestartContext.plan_id"
  let runId ← stringOf (field value "run_id") "RestartContext.run_id"
  let generation ← integerOf (field value "generation") "RestartContext.generation" 1
  let nodeId ← stringOf (field value "node_id") "RestartContext.node_id"
  let logicalNodeSlot ← integerOf (field value "logical_node_slot")
    "RestartContext.logical_node_slot" 0
  let firstGlobalRank ← integerOf (field value "first_global_rank")
    "RestartContext.first_global_rank" 0
  let localWorldSize ← integerOf (field value "local_world_size")
    "RestartContext.local_world_size" 1
  let expectedWorldSize ← integerOf (field value "expected_world_size")
    "RestartContext.expected_world_size" 1
  let topologyDigest ← stringOf (field value "topology_digest")
    "RestartContext.topology_digest"
  let recoveryMode ← choiceOf (field value "recovery_mode") "RestartContext.recovery_mode"
    recoveryModes
  let checkpointSource ← choiceOf (field value "checkpoint_source")
    "RestartContext.checkpoint_source" checkpointSources
  let checkpointStep ← integerOf (field value "checkpoint_step")
    "RestartContext.checkpoint_step" 1
  let checkpointId ← optionalStringOf (field value "checkpoint_id")
    "RestartContext.checkpoint_id"
  let checkpointManifestId ← stringOf (field value "checkpoint_manifest_id")
    "RestartContext.checkpoint_manifest_id"
  let reasonCode ← stringOf (field value "reason_code") "RestartContext.reason_code"
  let restartDeadlineMonotonicNs ← integerOf (field value "restart_deadline_monotonic_ns")
    "RestartContext.restart_deadline_monotonic_ns" 1
  init
    { planId, runId, generation, nodeId, logicalNodeSlot, firstGlobalRank, localWorldSize,
      expectedWorldSize, topologyDigest, recoveryMode, checkpointSource, checkpointStep,
      checkpointId, checkpointManifestId, reasonCode, restartDeadlineMonotonicNs }

/-! ## The round trip -/

theorem init_valid {f : ContextFields} (h : f.Valid) : init f = .ok ⟨f, h⟩ := by
  have hmode : Text.nonBlank f.recoveryMode = true := nonBlank_mode h.recoveryMode
  have hsource : Text.nonBlank f.checkpointSource = true := nonBlank_source h.checkpointSource
  simp only [init, bind, Except.bind, nonEmpty_ok h.planId, nonEmpty_ok h.runId,
    atLeast_ok h.generation, nonEmpty_ok h.nodeId, atLeast_ok h.logicalNodeSlot,
    atLeast_ok h.firstGlobalRank, atLeast_ok h.localWorldSize, require_ok h.slot,
    atLeast_ok h.expectedWorldSize, require_ok h.complete, require_ok h.fits,
    nonEmpty_ok h.topologyDigest, oneOf_ok h.recoveryMode hmode,
    oneOf_ok h.checkpointSource hsource, atLeast_ok h.checkpointStep,
    optionalNonEmpty_ok h.checkpointId, require_ok h.durable, require_ok h.gemini,
    nonEmpty_ok h.checkpointManifestId, nonEmpty_ok h.reasonCode, atLeast_ok h.restartDeadline]

theorem keys_toDict (c : ContextFields) : Json.keys (toDict c) = "schema_version" :: required :=
  rfl

theorem nodup_keys_toDict (c : ContextFields) : (Json.keys (toDict c)).Nodup := by
  rw [keys_toDict]
  decide

theorem fromDict_canon (c : RestartContext) :
    ∃ ms, (Json.obj (toDict c.toContextFields)).canon = .obj ms ∧ fromDict ms = .ok c := by
  obtain ⟨ms, hms, hget, hkeys⟩ := Json.canon_obj (nodup_keys_toDict c.toContextFields)
  rw [keys_toDict] at hkeys
  refine ⟨ms, hms, ?_⟩
  have h := c.valid
  have hf : ∀ {k v}, Json.get? k (toDict c.toContextFields) = some v → field ms k = v.canon :=
    fun {k} _ h => field_canon (hget k) h
  have hv : Json.get? "schema_version" ms = some (.int 1) := hget _
  have hmode : Text.nonBlank c.recoveryMode = true := nonBlank_mode h.recoveryMode
  have hsource : Text.nonBlank c.checkpointSource = true := nonBlank_source h.checkpointSource
  rw [fromDict, recordFields_ok hv hkeys,
    hf (k := "plan_id") rfl, hf (k := "run_id") rfl, hf (k := "generation") rfl,
    hf (k := "node_id") rfl, hf (k := "logical_node_slot") rfl,
    hf (k := "first_global_rank") rfl, hf (k := "local_world_size") rfl,
    hf (k := "expected_world_size") rfl, hf (k := "topology_digest") rfl,
    hf (k := "recovery_mode") rfl, hf (k := "checkpoint_source") rfl,
    hf (k := "checkpoint_step") rfl, hf (k := "checkpoint_id") rfl,
    hf (k := "checkpoint_manifest_id") rfl, hf (k := "reason_code") rfl,
    hf (k := "restart_deadline_monotonic_ns") rfl, canon_optionalStr]
  simp only [bind, Except.bind, optionalStringOf_optionalStr h.checkpointId]
  simp only [Json.canon, stringOf_str h.planId, stringOf_str h.runId, integerOf_int h.generation,
    stringOf_str h.nodeId, integerOf_int h.logicalNodeSlot, integerOf_int h.firstGlobalRank,
    integerOf_int h.localWorldSize, integerOf_int h.expectedWorldSize,
    stringOf_str h.topologyDigest, choiceOf_str h.recoveryMode hmode,
    choiceOf_str h.checkpointSource hsource, integerOf_int h.checkpointStep,
    stringOf_str h.checkpointManifestId, stringOf_str h.reasonCode,
    integerOf_int h.restartDeadline]
  exact init_valid h

theorem plain_toDict (c : ContextFields) : Json.Plain (.obj (toDict c)) := by
  refine ⟨nodup_keys_toDict c, ?_⟩
  have hid : Json.Plain (optionalStr c.checkpointId) := by
    cases c.checkpointId <;> trivial
  simp only [toDict, Json.PlainMembers, Json.Plain, hid, and_self]

theorem loads_toJson (c : RestartContext) :
    ∃ ms, Json.loads c.toJson = some (.obj ms) ∧ fromDict ms = .ok c := by
  obtain ⟨ms, hms, hread⟩ := fromDict_canon c
  exact ⟨ms, by rw [toJson, Json.loads_dumps (plain_toDict _), hms], hread⟩

end RestartContext

end LmResiliency.Torchrun
