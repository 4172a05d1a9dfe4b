/-
# Plan — `RestartPlan` and its wire form

The record a manager publishes for one restart.  `PlanFields` are the
arguments of the constructor; a `RestartPlan` is a set of fields that
`__post_init__` returned, with what it checked as a field of the record.

The wire form is canonical: reading back what `to_json` wrote gives the
plan again, so two plans with one text are one plan.
-/
import Mathlib.Algebra.Order.Ring.Int
import LmResiliency.Torchrun.Protocol

namespace LmResiliency.Torchrun

/-- The fields of a restart plan. -/
structure PlanFields where
  planId : String
  intentId : String
  runId : String
  fromGeneration : Int
  toGeneration : Int
  incidentIds : List String
  reasonCode : String
  recoveryMode : String
  checkpointSource : String
  checkpointStep : Int
  checkpointId : Option String
  checkpointManifestId : String
  slotAssignments : List SlotAssignment
  quarantinedNodeIds : List String
  expectedWorldSize : Int
  topologyDigest : String
  restartDeadlineUnixMs : Int
  deriving DecidableEq

/-- What `RestartPlan.__post_init__` establishes. -/
structure PlanFields.Valid (f : PlanFields) : Prop where
  planId : Text.nonBlank f.planId = true
  intentId : Text.nonBlank f.intentId = true
  runId : Text.nonBlank f.runId = true
  fromGeneration : 0 ≤ f.fromGeneration
  toGeneration : 1 ≤ f.toGeneration
  successor : f.toGeneration = f.fromGeneration + 1
  incidentIds : Identifiers f.incidentIds
  incident : f.incidentIds ≠ []
  reasonCode : Text.nonBlank f.reasonCode = true
  recoveryMode : f.recoveryMode ∈ recoveryModes
  checkpointSource : f.checkpointSource ∈ checkpointSources
  checkpointStep : 1 ≤ f.checkpointStep
  checkpointId : ∀ s ∈ f.checkpointId, Text.nonBlank s = true
  durable : ¬ (f.checkpointSource = "durable" ∧ f.checkpointId = none)
  gemini : ¬ (f.checkpointSource = "gemini" ∧ f.checkpointId ≠ none)
  checkpointManifestId : Text.nonBlank f.checkpointManifestId = true
  slotAssignments : Placed f.slotAssignments
  quarantinedNodeIds : Identifiers f.quarantinedNodeIds
  disjoint : ∀ n ∈ nodesOf f.slotAssignments, n ∉ f.quarantinedNodeIds
  expectedWorldSize : 1 ≤ f.expectedWorldSize
  worldSize : f.expectedWorldSize = (f.slotAssignments.map SlotAssignment.localWorldSize).sum
  topologyDigest : Text.nonBlank f.topologyDigest = true
  restartDeadline : 1 ≤ f.restartDeadlineUnixMs

/-- One manager-owned replacement and checkpoint decision. -/
structure RestartPlan extends PlanFields where
  valid : toPlanFields.Valid

theorem nonBlank_mode {s : String} (h : s ∈ recoveryModes) : Text.nonBlank s = true := by
  simp only [recoveryModes, List.mem_cons, List.not_mem_nil, or_false] at h
  rcases h with rfl | rfl <;> decide

theorem nonBlank_source {s : String} (h : s ∈ checkpointSources) : Text.nonBlank s = true := by
  simp only [checkpointSources, List.mem_cons, List.not_mem_nil, or_false] at h
  rcases h with rfl | rfl <;> decide

namespace RestartPlan

theorem eq_of_fields {p q : RestartPlan} (h : p.toPlanFields = q.toPlanFields) : p = q := by
  cases p; cases q; cases h; rfl

instance : DecidableEq RestartPlan := fun p q =>
  decidable_of_iff (p.toPlanFields = q.toPlanFields) ⟨eq_of_fields, fun h => h ▸ rfl⟩

/-- `sorted(overlap)`: the assigned nodes that are quarantined. -/
def overlap (slots : List SlotAssignment) (quarantined : List String) : List String :=
  ((nodesOf slots).filter (· ∈ quarantined)).insertionSort (· ≤ ·)

/-- `RestartPlan(…)`, through `__post_init__`. -/
def init (f : PlanFields) : Checked RestartPlan := do
  let ⟨planId⟩ ← nonEmpty "RestartPlan.plan_id" f.planId
  let ⟨intentId⟩ ← nonEmpty "RestartPlan.intent_id" f.intentId
  let ⟨runId⟩ ← nonEmpty "RestartPlan.run_id" f.runId
  let ⟨fromGeneration⟩ ← atLeast "RestartPlan.from_generation" 0 f.fromGeneration
  let ⟨toGeneration⟩ ← atLeast "RestartPlan.to_generation" 1 f.toGeneration
  let ⟨successor⟩ ← require (f.toGeneration = f.fromGeneration + 1)
    "RestartPlan.to_generation" (.text "must be the successor generation")
  let ⟨incidentIds⟩ ← uniqueStrings "RestartPlan.incident_ids" f.incidentIds
  let ⟨incident⟩ ← require (f.incidentIds ≠ []) "RestartPlan.incident_ids"
    (.text "at least one incident is required")
  let ⟨reasonCode⟩ ← nonEmpty "RestartPlan.reason_code" f.reasonCode
  let ⟨recoveryMode⟩ ← oneOf "RestartPlan.recovery_mode" recoveryModes f.recoveryMode
  let ⟨checkpointSource⟩ ←
    oneOf "RestartPlan.checkpoint_source" checkpointSources f.checkpointSource
  let ⟨checkpointStep⟩ ← atLeast "RestartPlan.checkpoint_step" 1 f.checkpointStep
  let ⟨checkpointId⟩ ← optionalNonEmpty "RestartPlan.checkpoint_id" f.checkpointId
  let ⟨durable⟩ ← require (¬ (f.checkpointSource = "durable" ∧ f.checkpointId = none))
    "RestartPlan.checkpoint_id" (.text "durable recovery requires an ID")
  let ⟨gemini⟩ ← require (¬ (f.checkpointSource = "gemini" ∧ f.checkpointId ≠ none))
    "RestartPlan.checkpoint_id" (.text "GEMINI recovery must not set an ID")
  let ⟨checkpointManifestId⟩ ←
    nonEmpty "RestartPlan.checkpoint_manifest_id" f.checkpointManifestId
  let ⟨slots, slotAssignments⟩ ← assignments "RestartPlan.slot_assignments" f.slotAssignments
  let ⟨quarantinedNodeIds⟩ ←
    uniqueStrings "RestartPlan.quarantined_node_ids" f.quarantinedNodeIds
  let ⟨disjoint⟩ ← require (∀ n ∈ nodesOf slots, n ∉ f.quarantinedNodeIds) "RestartPlan"
    (.quarantinedAssigned (overlap slots f.quarantinedNodeIds))
  let ⟨expectedWorldSize⟩ ← atLeast "RestartPlan.expected_world_size" 1 f.expectedWorldSize
  let ⟨worldSize⟩ ← require
    (f.expectedWorldSize = (slots.map SlotAssignment.localWorldSize).sum)
    "RestartPlan.expected_world_size" (.text "does not match slot assignments")
  let ⟨topologyDigest⟩ ← nonEmpty "RestartPlan.topology_digest" f.topologyDigest
  let ⟨restartDeadline⟩ ←
    atLeast "RestartPlan.restart_deadline_unix_ms" 1 f.restartDeadlineUnixMs
  .ok
    { f with
      slotAssignments := slots
      valid :=
        { planId, intentId, runId, fromGeneration, toGeneration, successor, incidentIds,
          incident, reasonCode, recoveryMode, checkpointSource, checkpointStep, checkpointId,
          durable, gemini, checkpointManifestId, slotAssignments, quarantinedNodeIds, disjoint,
          expectedWorldSize, worldSize, topologyDigest, restartDeadline } }

def toDict (p : PlanFields) : List (String × Json) :=
  [("schema_version", .int 1),
    ("plan_id", .str p.planId),
    ("intent_id", .str p.intentId),
    ("run_id", .str p.runId),
    ("from_generation", .int p.fromGeneration),
    ("to_generation", .int p.toGeneration),
    ("incident_ids", strs p.incidentIds),
    ("reason_code", .str p.reasonCode),
    ("recovery_mode", .str p.recoveryMode),
    ("checkpoint_source", .str p.checkpointSource),
    ("checkpoint_step", .int p.checkpointStep),
    ("checkpoint_id", optionalStr p.checkpointId),
    ("checkpoint_manifest_id", .str p.checkpointManifestId),
    ("slot_assignments", .arr (p.slotAssignments.map fun a => .obj a.toDict)),
    ("quarantined_node_ids", strs p.quarantinedNodeIds),
    ("expected_world_size", .int p.expectedWorldSize),
    ("topology_digest", .str p.topologyDigest),
    ("restart_deadline_unix_ms", .int p.restartDeadlineUnixMs)]

def toJson (p : RestartPlan) : String := (Json.obj (toDict p.toPlanFields)).dumps

def required : List String :=
  ["plan_id", "intent_id", "run_id", "from_generation", "to_generation", "incident_ids",
    "reason_code", "recovery_mode", "checkpoint_source", "checkpoint_step", "checkpoint_id",
    "checkpoint_manifest_id", "slot_assignments", "quarantined_node_ids",
    "expected_world_size", "topology_digest", "restart_deadline_unix_ms"]

/-- The items of `_assignments` read from JSON, from the given index on. -/
def assignmentItems (path : String) : Nat → List Json → Checked (List SlotAssignment)
  | _, [] => .ok []
  | index, v :: vs => do
      let ms ← mappingOf v s!"{path}[{index}]"
      let a ← SlotAssignment.fromDict ms
      let rest ← assignmentItems path (index + 1) vs
      .ok (a :: rest)

/-- `_assignments` on a JSON value. -/
def assignmentsOf (value : Json) (path : String) : Checked (List SlotAssignment) := do
  let items ← sequenceOf value path
  let as ← assignmentItems path 0 items
  (assignments path as).map Subtype.val

def fromDict (value : List (String × Json)) : Checked RestartPlan := do
  recordFields value "RestartPlan" required
  let planId ← stringOf (field value "plan_id") "RestartPlan.plan_id"
  let intentId ← stringOf (field value "intent_id") "RestartPlan.intent_id"
  let runId ← stringOf (field value "run_id") "RestartPlan.run_id"
  let fromGeneration ← integerOf (field value "from_generation")
    "RestartPlan.from_generation" 0
  let toGeneration ← integerOf (field value "to_generation") "RestartPlan.to_generation" 1
  let incidentIds ← uniqueStringsOf (field value "incident_ids") "RestartPlan.incident_ids"
  let reasonCode ← stringOf (field value "reason_code") "RestartPlan.reason_code"
  let recoveryMode ← choiceOf (field value "recovery_mode") "RestartPlan.recovery_mode"
    recoveryModes
  let checkpointSource ← choiceOf (field value "checkpoint_source")
    "RestartPlan.checkpoint_source" checkpointSources
  let checkpointStep ← integerOf (field value "checkpoint_step")
    "RestartPlan.checkpoint_step" 1
  let checkpointId ← optionalStringOf (field value "checkpoint_id")
    "RestartPlan.checkpoint_id"
  let checkpointManifestId ← stringOf (field value "checkpoint_manifest_id")
    "RestartPlan.checkpoint_manifest_id"
  let slotAssignments ← assignmentsOf (field value "slot_assignments")
    "RestartPlan.slot_assignments"
  let quarantinedNodeIds ← uniqueStringsOf (field value "quarantined_node_ids")
    "RestartPlan.quarantined_node_ids"
  let expectedWorldSize ← integerOf (field value "expected_world_size")
    "RestartPlan.expected_world_size" 1
  let topologyDigest ← stringOf (field value "topology_digest") "RestartPlan.topology_digest"
  let restartDeadlineUnixMs ← integerOf (field value "restart_deadline_unix_ms")
    "RestartPlan.restart_deadline_unix_ms" 1
  init
    { planId, intentId, runId, fromGeneration, toGeneration, incidentIds, reasonCode,
      recoveryMode, checkpointSource, checkpointStep, checkpointId, checkpointManifestId,
      slotAssignments, quarantinedNodeIds, expectedWorldSize, topologyDigest,
      restartDeadlineUnixMs }

/-! ## The round trip -/

theorem init_fields (p : RestartPlan) : init p.toPlanFields = .ok p := by
  have h := p.valid
  have hmode : Text.nonBlank p.recoveryMode = true := nonBlank_mode h.recoveryMode
  have hsource : Text.nonBlank p.checkpointSource = true := nonBlank_source h.checkpointSource
  simp only [init, bind, Except.bind, nonEmpty_ok h.planId, nonEmpty_ok h.intentId,
    nonEmpty_ok h.runId, atLeast_ok h.fromGeneration, atLeast_ok h.toGeneration,
    require_ok h.successor, uniqueStrings_ok h.incidentIds, require_ok h.incident,
    nonEmpty_ok h.reasonCode, oneOf_ok h.recoveryMode hmode,
    oneOf_ok h.checkpointSource hsource, atLeast_ok h.checkpointStep,
    optionalNonEmpty_ok h.checkpointId, require_ok h.durable, require_ok h.gemini,
    nonEmpty_ok h.checkpointManifestId, assignments_ok h.slotAssignments,
    uniqueStrings_ok h.quarantinedNodeIds, require_ok h.disjoint,
    atLeast_ok h.expectedWorldSize, require_ok h.worldSize, nonEmpty_ok h.topologyDigest,
    atLeast_ok h.restartDeadline]

/-- A plan is built from its arguments, the slots sorted. -/
theorem init_eq_ok {f : PlanFields} {p : RestartPlan} (h : init f = .ok p) :
    p.toPlanFields = { f with slotAssignments := sortSlots f.slotAssignments } := by
  rw [init] at h
  iterate 16 (obtain ⟨_, -, h⟩ := Checked.bind_eq_ok.mp h)
  obtain ⟨⟨slots, hplaced⟩, hslots, h⟩ := Checked.bind_eq_ok.mp h
  obtain rfl : slots = sortSlots f.slotAssignments := assignments_eq_ok hslots
  iterate 6 (obtain ⟨_, -, h⟩ := Checked.bind_eq_ok.mp h)
  cases h
  rfl

theorem assignmentItems_canon (path : String) : ∀ (as : List SlotAssignment) (index : Nat),
    assignmentItems path index (Json.canonItems (as.map fun a => .obj a.toDict)) = .ok as
  | [], _ => rfl
  | a :: as, index => by
      obtain ⟨ms, hms, hread⟩ := SlotAssignment.fromDict_canon a
      simp only [List.map_cons, Json.canonItems, hms, assignmentItems, mappingOf, bind,
        Except.bind, hread, assignmentItems_canon path as (index + 1)]

theorem assignmentsOf_canon {as : List SlotAssignment} (h : Placed as) (path : String) :
    assignmentsOf (Json.arr (as.map fun a => .obj a.toDict)).canon path = .ok as := by
  simp only [Json.canon, assignmentsOf, sequenceOf, bind, Except.bind,
    assignmentItems_canon path as 0, assignments_ok h, Except.map]

theorem keys_toDict (p : PlanFields) : Json.keys (toDict p) = "schema_version" :: required :=
  rfl

theorem nodup_keys_toDict (p : PlanFields) : (Json.keys (toDict p)).Nodup := by
  rw [keys_toDict]
  decide

theorem fromDict_canon (p : RestartPlan) :
    ∃ ms, (Json.obj (toDict p.toPlanFields)).canon = .obj ms ∧ fromDict ms = .ok p := by
  obtain ⟨ms, hms, hget, hkeys⟩ := Json.canon_obj (nodup_keys_toDict p.toPlanFields)
  rw [keys_toDict] at hkeys
  refine ⟨ms, hms, ?_⟩
  have h := p.valid
  have hf : ∀ {k v}, Json.get? k (toDict p.toPlanFields) = some v → field ms k = v.canon :=
    fun {k} _ h => field_canon (hget k) h
  have hv : Json.get? "schema_version" ms = some (.int 1) := hget _
  have hmode : Text.nonBlank p.recoveryMode = true := nonBlank_mode h.recoveryMode
  have hsource : Text.nonBlank p.checkpointSource = true := nonBlank_source h.checkpointSource
  rw [fromDict, recordFields_ok hv hkeys,
    hf (k := "plan_id") rfl, hf (k := "intent_id") rfl, hf (k := "run_id") rfl,
    hf (k := "from_generation") rfl, hf (k := "to_generation") rfl,
    hf (k := "incident_ids") rfl, hf (k := "reason_code") rfl, hf (k := "recovery_mode") rfl,
    hf (k := "checkpoint_source") rfl, hf (k := "checkpoint_step") rfl,
    hf (k := "checkpoint_id") rfl, hf (k := "checkpoint_manifest_id") rfl,
    hf (k := "slot_assignments") rfl, hf (k := "quarantined_node_ids") rfl,
    hf (k := "expected_world_size") rfl, hf (k := "topology_digest") rfl,
    hf (k := "restart_deadline_unix_ms") rfl, canon_strs, canon_strs, canon_optionalStr]
  simp only [bind, Except.bind, assignmentsOf_canon h.slotAssignments,
    optionalStringOf_optionalStr h.checkpointId, uniqueStringsOf_strs h.incidentIds,
    uniqueStringsOf_strs h.quarantinedNodeIds]
  simp only [Json.canon, stringOf_str h.planId, stringOf_str h.intentId, stringOf_str h.runId,
    integerOf_int h.fromGeneration, integerOf_int h.toGeneration, stringOf_str h.reasonCode,
    choiceOf_str h.recoveryMode hmode, choiceOf_str h.checkpointSource hsource,
    integerOf_int h.checkpointStep, stringOf_str h.checkpointManifestId,
    integerOf_int h.expectedWorldSize, stringOf_str h.topologyDigest,
    integerOf_int h.restartDeadline]
  exact init_fields p

theorem plain_toDict (p : PlanFields) : Json.Plain (.obj (toDict p)) := by
  refine ⟨nodup_keys_toDict p, ?_⟩
  have hid : Json.Plain (optionalStr p.checkpointId) := by
    cases p.checkpointId <;> trivial
  have hslots : Json.PlainItems (p.slotAssignments.map fun a => .obj a.toDict) :=
    Json.plainItems_map SlotAssignment.plain_toDict p.slotAssignments
  simp only [toDict, Json.PlainMembers, Json.Plain, plain_strs, hid, hslots, and_self]

/-- **The wire form is canonical**: loading what was dumped gives the plan. -/
theorem loads_toJson (p : RestartPlan) :
    ∃ ms, Json.loads p.toJson = some (.obj ms) ∧ fromDict ms = .ok p := by
  obtain ⟨ms, hms, hread⟩ := fromDict_canon p
  exact ⟨ms, by rw [toJson, Json.loads_dumps (plain_toDict _), hms], hread⟩

theorem toJson_injective {p q : RestartPlan} (h : p.toJson = q.toJson) : p = q := by
  obtain ⟨ms, hms, hp⟩ := loads_toJson p
  obtain ⟨ms', hms', hq⟩ := loads_toJson q
  rw [h, hms'] at hms
  obtain rfl : ms' = ms := by simpa using hms
  exact Except.ok.inj (hp.symm.trans hq)

theorem toJson_ne_empty (p : RestartPlan) : p.toJson ≠ "" :=
  Json.dumps_ne_empty (plain_toDict _)

end RestartPlan

end LmResiliency.Torchrun
