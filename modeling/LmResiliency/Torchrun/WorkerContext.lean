/-
# WorkerContext — what a restarted worker accepts of its environment

The launcher of a node writes the node's `RestartContext` to a private file
and starts the workers; each worker reads its place from the environment and
checks it against the file (`_context_from_environment`).

The contexts of one plan tile the world with their rank ranges, and a worker
accepts exactly the environments that name one local rank of its node.  The
names are read without the whitespace around them: a run or node whose
identifier has some is named by no environment.

The main result is `contexts_tile_world`.
-/
import Mathlib.Algebra.BigOperators.Group.List.Basic
import Mathlib.Order.Interval.Set.Basic
import Mathlib.Tactic.Ring
import LmResiliency.Lib.Outcome
import LmResiliency.Torchrun.PlanLog
import LmResiliency.Torchrun.WireFormat

namespace LmResiliency.Torchrun.WorkerAdapter

/-- The exceptions of this module. -/
inductive WorkerError where
  /-- `TorchrunWorkerAdapterError` -/
  | adapter (text : String)
  /-- `SimpleRuntimeError` -/
  | runtime (text : String)
  /-- `ValueError` -/
  | value (text : String)

/-- `os.environ`. -/
abbrev Environment := String → Option String

/-! ## Reading the environment -/

/-- The code points of the digit zero in the decimal systems of Unicode. -/
def decimalZeros : List Nat :=
  [0x30, 0x660, 0x6f0, 0x7c0, 0x966, 0x9e6, 0xa66, 0xae6, 0xb66, 0xbe6, 0xc66, 0xce6, 0xd66,
    0xde6, 0xe50, 0xed0, 0xf20, 0x1040, 0x1090, 0x17e0, 0x1810, 0x1946, 0x19d0, 0x1a80, 0x1a90,
    0x1b50, 0x1bb0, 0x1c40, 0x1c50, 0xa620, 0xa8d0, 0xa900, 0xa9d0, 0xa9f0, 0xaa50, 0xabf0,
    0xff10, 0x104a0, 0x10d30, 0x11066, 0x110f0, 0x11136, 0x111d0, 0x112f0, 0x11450, 0x114d0,
    0x11650, 0x116c0, 0x11730, 0x118e0, 0x11950, 0x11c50, 0x11d50, 0x11da0, 0x16a60, 0x16ac0,
    0x16b50, 0x1d7ce, 0x1d7d8, 0x1d7e2, 0x1d7ec, 0x1d7f6, 0x1e140, 0x1e2f0, 0x1e950, 0x1fbf0]

def decimalDigit (c : Char) : Option Nat :=
  (decimalZeros.find? fun z => z ≤ c.toNat ∧ c.toNat < z + 10).map (c.toNat - ·)

/-- `int(value)` where `value.isdecimal()`. -/
def decimal? (value : String) : Option Nat :=
  if value = "" then none
  else (value.toList.mapM decimalDigit).map (List.foldl (fun n d => n * 10 + d) 0)

def requiredEnvironment (environment : Environment) (name : String) :
    Except WorkerError String :=
  match environment name with
  | some value =>
      if Text.nonBlank value then .ok (Text.strip value)
      else .error (.adapter (name ++ " must be configured"))
  | none => .error (.adapter (name ++ " must be configured"))

/-- `_nonnegative_int`; a number longer than the limit of `int` is its `ValueError`. -/
def nonnegativeInt (value name : String) : Except WorkerError Nat :=
  match decimal? value with
  | some n =>
      if value.length ≤ 4300 then .ok n
      else .error (.value "Exceeds the limit (4300 digits) for integer string conversion")
  | none => .error (.adapter (name ++ " must be a non-negative integer"))

def positiveInt (value name : String) : Except WorkerError Nat :=
  match decimal? value with
  | some n =>
      if 4300 < value.length then
        .error (.value "Exceeds the limit (4300 digits) for integer string conversion")
      else if n < 1 then .error (.adapter (name ++ " must be a positive integer"))
      else .ok n
  | none => .error (.adapter (name ++ " must be a positive integer"))

/-! ## The context file -/

def maxContextBytes : Nat := 2 ^ 20

/-- `SimpleRestartContextFile.write`: the bytes of the file it leaves. -/
def writeContext (context : RestartContext) : Except WorkerError ByteArray :=
  let encoded := context.toJson.toUTF8
  if maxContextBytes < encoded.size then .error (.runtime "restart context is too large")
  else .ok encoded

/-- `SimpleRestartContextFile.read` of a file that is absent, or a private regular one. -/
def readContext (file : Option ByteArray) : Except WorkerError (Option RestartContext) :=
  match file with
  | none => .ok none
  | some encoded =>
      if maxContextBytes < encoded.size then .error (.runtime "restart context is too large")
      else
        match Json.loadsBytes encoded with
        | some (.obj ms) =>
            match RestartContext.fromDict ms with
            | .error _ => .error (.runtime "restart context is malformed")
            | .ok context =>
                if context.toJson.toUTF8 ≠ encoded then
                  .error (.runtime "restart context is not canonical JSON")
                else .ok (some context)
        | _ => .error (.runtime "restart context is malformed")

/-- The paths of a host, and the private files there. -/
structure Host (P : Type) where
  /-- `Path(text).expanduser()` -/
  path : String → P
  isAbsolute : P → Bool
  file : P → Option ByteArray

/-! ## The worker's context -/

/-- The fields of a `TorchrunWorkerContext`. -/
structure WorkerFields (P : Type) where
  runId : String
  nodeId : String
  localWorldSize : Int
  restartContextPath : P
  configPath : Option P := none
  generation : Int := 0
  logicalNodeSlot : Option Int := none
  firstGlobalRank : Option Int := none
  checkpointStep : Option Int := none
  checkpointId : Option String := none
  checkpointManifestId : Option String := none
  checkpointSource : Option String := none
  recoveryMode : Option String := none
  topologyDigest : Option String := none
  restartDeadlineMonotonicNs : Option Int := none

namespace WorkerFields

variable {P : Type}

/-- No field of the recovery state but the checkpoint id is set. -/
def noRecovery (f : WorkerFields P) : Prop :=
  f.logicalNodeSlot = none ∧ f.firstGlobalRank = none ∧ f.checkpointStep = none ∧
    f.checkpointManifestId = none ∧ f.checkpointSource = none ∧ f.recoveryMode = none ∧
    f.topologyDigest = none ∧ f.restartDeadlineMonotonicNs = none

/-- Each field of the recovery state but the checkpoint id is set. -/
def fullRecovery (f : WorkerFields P) : Prop :=
  f.logicalNodeSlot ≠ none ∧ f.firstGlobalRank ≠ none ∧ f.checkpointStep ≠ none ∧
    f.checkpointManifestId ≠ none ∧ f.checkpointSource ≠ none ∧ f.recoveryMode ≠ none ∧
    f.topologyDigest ≠ none ∧ f.restartDeadlineMonotonicNs ≠ none

instance (f : WorkerFields P) : Decidable f.noRecovery := by
  unfold noRecovery
  infer_instance

instance (f : WorkerFields P) : Decidable f.fullRecovery := by
  unfold fullRecovery
  infer_instance

/-- `first_global_rank` is the first rank of `logical_node_slot`, where both are set. -/
def rankOfSlot (f : WorkerFields P) : Bool :=
  match f.logicalNodeSlot, f.firstGlobalRank with
  | some slot, some rank => rank = slot * f.localWorldSize
  | _, _ => true

def postInit (host : Host P) (f : WorkerFields P) : Except WorkerError Unit :=
  if Text.nonBlank f.runId = false then .error (.value "run_id must be a non-empty string")
  else if Text.nonBlank f.nodeId = false then .error (.value "node_id must be a non-empty string")
  else if f.localWorldSize < 1 then .error (.value "local_world_size must be a positive integer")
  else if host.isAbsolute f.restartContextPath = false then
    .error (.value "restart_context_path must be absolute")
  else if f.configPath.any (host.isAbsolute · = false) then
    .error (.value "config_path must be absolute")
  else if f.generation < 0 then .error (.value "generation must be a non-negative integer")
  else if f.logicalNodeSlot.any (· < 0) then
    .error (.value "logical_node_slot must be a non-negative integer")
  else if f.firstGlobalRank.any (· < 0) then
    .error (.value "first_global_rank must be a non-negative integer")
  else if f.checkpointStep.any (· < 1) then
    .error (.value "checkpoint_step must be a positive integer")
  else if f.restartDeadlineMonotonicNs.any (· < 1) then
    .error (.value "restart_deadline_monotonic_ns must be a positive integer")
  else if f.checkpointId.any (Text.nonBlank · = false) then
    .error (.value "checkpoint_id must be a non-empty string")
  else if f.checkpointManifestId.any (Text.nonBlank · = false) then
    .error (.value "checkpoint_manifest_id must be a non-empty string")
  else if f.checkpointSource.any (· ∉ checkpointSources) then
    .error (.value "checkpoint_source must be 'gemini' or 'durable'")
  else if f.recoveryMode.any (· ∉ recoveryModes) then
    .error (.value "recovery_mode must be 'latest' or 'recovery_verified'")
  else if f.topologyDigest.any (Text.nonBlank · = false) then
    .error (.value "topology_digest must be a non-empty string")
  else if f.generation = 0 ∧ (f.checkpointId ≠ none ∨ ¬f.noRecovery) then
    .error (.value "initial worker context must not contain recovery state")
  else if 0 < f.generation ∧ ¬f.fullRecovery then
    .error (.value "replacement worker context requires complete recovery state")
  else if f.rankOfSlot = false then
    .error (.value "first_global_rank does not match logical_node_slot")
  else if f.checkpointSource = some "gemini" ∧ f.checkpointId ≠ none then
    .error (.value "GEMINI recovery must not set checkpoint_id")
  else if f.checkpointSource = some "durable" ∧ f.checkpointId = none then
    .error (.value "durable recovery requires checkpoint_id")
  else .ok ()

end WorkerFields

/-- `TorchrunWorkerContext`: the fields passed the checks. -/
structure TorchrunWorkerContext {P : Type} (host : Host P) extends WorkerFields P where
  valid : toWorkerFields.postInit host = .ok ()

/-- `TorchrunWorkerContext(…)`. -/
def WorkerFields.make {P : Type} (host : Host P) (f : WorkerFields P) :
    Except WorkerError (TorchrunWorkerContext host) :=
  match h : f.postInit host with
  | .ok () => .ok ⟨f, h⟩
  | .error e => .error e

/-- What the worker checks of its restart context, in order. -/
def checkRestart (restart : RestartContext) (runId nodeId : String)
    (localWorldSize generation worldSize groupRank localRank globalRank : Nat) (now : Int) :
    Except WorkerError Unit :=
  if restart.runId ≠ runId then
    .error (.adapter "restart context belongs to another run")
  else if restart.nodeId ≠ nodeId then
    .error (.adapter "restart context belongs to another node")
  else if restart.localWorldSize ≠ localWorldSize then
    .error (.adapter "restart context changes local_world_size")
  else if restart.generation ≠ generation then
    .error (.adapter ("restart context generation " ++ Text.str restart.generation ++
      " does not match rendezvous generation " ++ Text.str generation))
  else if restart.expectedWorldSize ≠ worldSize then
    .error (.adapter "restart context changes WORLD_SIZE")
  else if restart.logicalNodeSlot ≠ groupRank then
    .error (.adapter "restart context changes GROUP_RANK")
  else if restart.firstGlobalRank + localRank ≠ globalRank then
    .error (.adapter "restart context changes RANK")
  else if restart.restartDeadlineMonotonicNs ≤ now then
    .error (.adapter "restart context deadline elapsed")
  else .ok ()

/-- The fields that a restart context gives a worker. -/
def recoveryFields {P : Type} (f : WorkerFields P) (restart : RestartContext) :
    WorkerFields P :=
  { f with
    logicalNodeSlot := some restart.logicalNodeSlot
    firstGlobalRank := some restart.firstGlobalRank
    checkpointStep := some restart.checkpointStep
    checkpointId := restart.checkpointId
    checkpointManifestId := some restart.checkpointManifestId
    checkpointSource := some restart.checkpointSource
    recoveryMode := some restart.recoveryMode
    topologyDigest := some restart.topologyDigest
    restartDeadlineMonotonicNs := some restart.restartDeadlineMonotonicNs }

/-- The worker config's path; an empty value is none. -/
def configPath {P : Type} (host : Host P) (environment : Environment) : Option P :=
  match environment "LM_RESILIENCY_TORCHRUN_WORKER_CONFIG" with
  | some value => if value = "" then none else some (host.path value)
  | none => none

/-- `_context_from_environment`, at the time `now` of the monotonic clock. -/
def contextFromEnvironment {P : Type} (host : Host P) (now : Int) (environment : Environment) :
    Except WorkerError (TorchrunWorkerContext host) := do
  let runId ← requiredEnvironment environment "LM_RESILIENCY_TORCHRUN_RUN_ID"
  let nodeId ← requiredEnvironment environment "LM_RESILIENCY_TORCHRUN_NODE_ID"
  let localWorldSize ← positiveInt (← requiredEnvironment environment "LOCAL_WORLD_SIZE")
    "local_world_size"
  let localRank ← nonnegativeInt (← requiredEnvironment environment "LOCAL_RANK") "local_rank"
  let globalRank ← nonnegativeInt (← requiredEnvironment environment "RANK") "global_rank"
  let groupRank ← nonnegativeInt (← requiredEnvironment environment "GROUP_RANK") "group_rank"
  let worldSize ← positiveInt (← requiredEnvironment environment "WORLD_SIZE") "world_size"
  if localWorldSize ≤ localRank then
    .error (.adapter "LOCAL_RANK must be smaller than LOCAL_WORLD_SIZE")
  else if worldSize ≤ globalRank then
    .error (.adapter "RANK must be smaller than WORLD_SIZE")
  else if globalRank ≠ groupRank * localWorldSize + localRank then
    .error (.adapter
      "torchrun rank does not match GROUP_RANK, LOCAL_RANK, and LOCAL_WORLD_SIZE")
  else do
    let path ← requiredEnvironment environment "LM_RESILIENCY_TORCHRUN_RESTART_CONTEXT"
    let restartContextPath := host.path path
    if host.isAbsolute restartContextPath = false then
      .error (.adapter "restart context path must be absolute")
    else if (configPath host environment).any (host.isAbsolute · = false) then
      .error (.adapter "worker config path must be absolute")
    else do
      let generation ← nonnegativeInt
        (← requiredEnvironment environment "LM_RESILIENCY_TORCHRUN_EXPECTED_GENERATION")
        "generation"
      let f : WorkerFields P :=
        { runId, nodeId, localWorldSize, restartContextPath
          configPath := configPath host environment
          generation }
      if generation = 0 then
        if (host.file restartContextPath).isSome then
          .error (.adapter "initial worker generation must not have a restart context")
        else f.make host
      else
        match ← readContext (host.file restartContextPath) with
        | none => .error (.adapter "successor worker requires a restart context")
        | some restart => do
            checkRestart restart runId nodeId localWorldSize generation worldSize groupRank
              localRank globalRank now
            (recoveryFields f restart).make host

/-! ## The contexts of a plan -/

/-- The fields of the context that a plan gives one of its nodes. -/
def contextFields (plan : RestartPlan) (a : SlotAssignment) (deadline : Int) : ContextFields where
  planId := plan.planId
  runId := plan.runId
  generation := plan.toGeneration
  nodeId := a.nodeId
  logicalNodeSlot := a.logicalNodeSlot
  firstGlobalRank := a.firstGlobalRank
  localWorldSize := a.localWorldSize
  expectedWorldSize := plan.expectedWorldSize
  topologyDigest := plan.topologyDigest
  recoveryMode := plan.recoveryMode
  checkpointSource := plan.checkpointSource
  checkpointStep := plan.checkpointStep
  checkpointId := plan.checkpointId
  checkpointManifestId := plan.checkpointManifestId
  reasonCode := plan.reasonCode
  restartDeadlineMonotonicNs := deadline

section

variable {plan : RestartPlan} {a : SlotAssignment}

/-- The world is as many local worlds as there are slots. -/
theorem worldSize_eq (ha : a ∈ plan.slotAssignments) :
    plan.expectedWorldSize = plan.slotAssignments.length * a.localWorldSize := by
  rw [plan.valid.worldSize]
  have hsame : plan.slotAssignments.map SlotAssignment.localWorldSize =
      List.replicate plan.slotAssignments.length a.localWorldSize := by
    refine List.eq_replicate_iff.mpr ⟨List.length_map _, fun n hn => ?_⟩
    obtain ⟨b, hb, rfl⟩ := List.mem_map.mp hn
    exact plan.valid.slotAssignments.sizes b hb a ha
  rw [hsame, List.sum_replicate, nsmul_eq_mul]

theorem slot_lt (ha : a ∈ plan.slotAssignments) :
    a.logicalNodeSlot < plan.slotAssignments.length := by
  have hin : a.logicalNodeSlot ∈ slotsOf plan.slotAssignments := List.mem_map_of_mem ha
  rw [plan.valid.slotAssignments.slots] at hin
  obtain ⟨n, hn, heq⟩ := List.mem_map.mp hin
  rw [← heq]
  exact Int.ofNat_lt.mpr (List.mem_range.mp hn)

theorem contextFields_valid (ha : a ∈ plan.slotAssignments) {deadline : Int}
    (hdeadline : 1 ≤ deadline) : (contextFields plan a deadline).Valid := by
  have hv := plan.valid
  have hworld := worldSize_eq ha
  have hrank := hv.slotAssignments.ranks a ha
  have hslot : a.logicalNodeSlot + 1 ≤ plan.slotAssignments.length := slot_lt ha
  exact
    { planId := hv.planId
      runId := hv.runId
      generation := hv.toGeneration
      nodeId := a.nodeId_nonBlank
      logicalNodeSlot := a.slot_nonneg
      firstGlobalRank := a.rank_nonneg
      localWorldSize := a.size_pos
      slot := hrank
      expectedWorldSize := hv.expectedWorldSize
      complete := by
        show plan.expectedWorldSize % a.localWorldSize = 0
        rw [hworld]
        exact Int.mul_emod_left _ _
      fits := by
        show a.firstGlobalRank + a.localWorldSize ≤ plan.expectedWorldSize
        calc a.firstGlobalRank + a.localWorldSize
            = (a.logicalNodeSlot + 1) * a.localWorldSize := by rw [hrank]; ring
          _ ≤ plan.slotAssignments.length * a.localWorldSize :=
              Int.mul_le_mul_of_nonneg_right hslot (Int.le_of_lt a.size_pos)
          _ = plan.expectedWorldSize := hworld.symm
      topologyDigest := hv.topologyDigest
      recoveryMode := hv.recoveryMode
      checkpointSource := hv.checkpointSource
      checkpointStep := hv.checkpointStep
      checkpointId := hv.checkpointId
      durable := hv.durable
      gemini := hv.gemini
      checkpointManifestId := hv.checkpointManifestId
      reasonCode := hv.reasonCode
      restartDeadline := hdeadline }

theorem fromPlan_eq (ha : a ∈ plan.slotAssignments) {deadline : Int} (hdeadline : 1 ≤ deadline) :
    RestartContext.fromPlan plan a.nodeId deadline =
      .ok ⟨contextFields plan a deadline, contextFields_valid ha hdeadline⟩ := by
  have hfind : plan.slotAssignments.find? (·.nodeId = a.nodeId) = some a := by
    cases hf : plan.slotAssignments.find? (·.nodeId = a.nodeId) with
    | none =>
        rw [List.find?_eq_none] at hf
        exact absurd (decide_eq_true rfl) (hf a ha)
    | some b =>
        have hnode : b.nodeId = a.nodeId := by simpa using List.find?_some hf
        have hinj := List.inj_on_of_nodup_map plan.valid.slotAssignments.nodes
        rw [hinj (List.mem_of_find?_eq_some hf) ha hnode]
  rw [RestartContext.fromPlan, hfind]
  exact RestartContext.init_valid (contextFields_valid ha hdeadline)

/-! ## The rank ranges -/

theorem exists_slot {x : Int} (hx : 0 ≤ x) (hlt : x < plan.expectedWorldSize) :
    ∃ a ∈ plan.slotAssignments,
      a.firstGlobalRank ≤ x ∧ x < a.firstGlobalRank + a.localWorldSize := by
  have hplaced := plan.valid.slotAssignments
  obtain ⟨b, hb⟩ := List.exists_mem_of_ne_nil _ hplaced.ne_nil
  have hpos : 0 < b.localWorldSize := b.size_pos
  rw [worldSize_eq hb] at hlt
  have hquot : x / b.localWorldSize < plan.slotAssignments.length :=
    Int.ediv_lt_of_lt_mul hpos hlt
  have hnonneg : 0 ≤ x / b.localWorldSize := Int.ediv_nonneg hx (Int.le_of_lt hpos)
  have hin : x / b.localWorldSize ∈ slotsOf plan.slotAssignments := by
    rw [hplaced.slots, slotRange]
    refine List.mem_map.mpr ⟨(x / b.localWorldSize).toNat, List.mem_range.mpr ?_,
      Int.toNat_of_nonneg hnonneg⟩
    exact (Int.toNat_lt hnonneg).mpr hquot
  obtain ⟨a, ha, hslot⟩ := List.mem_map.mp hin
  have hsize : a.localWorldSize = b.localWorldSize := hplaced.sizes a ha b hb
  refine ⟨a, ha, ?_, ?_⟩
  · rw [hplaced.ranks a ha, hslot, hsize]
    exact Int.ediv_mul_le x (Int.ne_of_gt hpos)
  · rw [hplaced.ranks a ha, hslot, hsize]
    have h := Int.lt_ediv_add_one_mul_self x hpos
    rwa [Int.add_mul, Int.one_mul] at h

theorem rank_in_world (ha : a ∈ plan.slotAssignments) {x : Int} (hx : a.firstGlobalRank ≤ x)
    (hlt : x < a.firstGlobalRank + a.localWorldSize) :
    0 ≤ x ∧ x < plan.expectedWorldSize :=
  ⟨Int.le_trans a.rank_nonneg hx, Int.lt_of_lt_of_le hlt (contextFields_valid ha Int.one_pos).fits⟩

theorem slot_unique {b : SlotAssignment} (ha : a ∈ plan.slotAssignments)
    (hb : b ∈ plan.slotAssignments) {x : Int} (hax : a.firstGlobalRank ≤ x)
    (hax' : x < a.firstGlobalRank + a.localWorldSize) (hbx : b.firstGlobalRank ≤ x)
    (hbx' : x < b.firstGlobalRank + b.localWorldSize) : a = b := by
  have hplaced := plan.valid.slotAssignments
  have hsize : a.localWorldSize = b.localWorldSize := hplaced.sizes a ha b hb
  have hpos : 0 < b.localWorldSize := b.size_pos
  rw [hplaced.ranks a ha, hsize] at hax hax'
  rw [hplaced.ranks b hb] at hbx hbx'
  have hslot : a.logicalNodeSlot = b.logicalNodeSlot := by
    have h₁ : a.logicalNodeSlot < b.logicalNodeSlot + 1 := by
      by_contra hle
      have hmul := Int.mul_le_mul_of_nonneg_right (Int.not_lt.mp hle) (Int.le_of_lt hpos)
      rw [Int.add_mul, Int.one_mul] at hmul
      omega
    have h₂ : b.logicalNodeSlot < a.logicalNodeSlot + 1 := by
      by_contra hle
      have hmul := Int.mul_le_mul_of_nonneg_right (Int.not_lt.mp hle) (Int.le_of_lt hpos)
      rw [Int.add_mul, Int.one_mul] at hmul
      omega
    omega
  have hnodup : (slotsOf plan.slotAssignments).Nodup := by
    rw [hplaced.slots]
    exact nodup_slotRange _
  exact List.inj_on_of_nodup_map hnodup ha hb hslot

end

/-! ## What the environment names -/

/-- The identifier under a name, without the whitespace around it. -/
def identifier (environment : Environment) (name : String) : Option String :=
  (environment name).bind fun value =>
    if Text.nonBlank value then some (Text.strip value) else none

/-- The value under a name is the decimal number `n`. -/
def Reads (environment : Environment) (name : String) (n : Int) : Prop :=
  ∃ value, identifier environment name = some value ∧ value.length ≤ 4300 ∧
    ∃ m, decimal? value = some m ∧ (m : Int) = n

/-- The environment names a local rank of the context's node. -/
structure Named (environment : Environment) (c : ContextFields) (r : Nat) : Prop where
  run : identifier environment "LM_RESILIENCY_TORCHRUN_RUN_ID" = some c.runId
  node : identifier environment "LM_RESILIENCY_TORCHRUN_NODE_ID" = some c.nodeId
  generation : Reads environment "LM_RESILIENCY_TORCHRUN_EXPECTED_GENERATION" c.generation
  localWorldSize : Reads environment "LOCAL_WORLD_SIZE" c.localWorldSize
  localRank : Reads environment "LOCAL_RANK" r
  inRange : (r : Int) < c.localWorldSize
  rank : Reads environment "RANK" (c.firstGlobalRank + r)
  groupRank : Reads environment "GROUP_RANK" c.logicalNodeSlot
  worldSize : Reads environment "WORLD_SIZE" c.expectedWorldSize

open LmResiliency.Outcome

theorem requiredEnvironment_ok_iff {environment : Environment} {name value : String} :
    requiredEnvironment environment name = .ok value ↔
      identifier environment name = some value := by
  unfold requiredEnvironment identifier
  cases environment name with
  | none => exact iff_of_false (fun h => by cases h) fun h => by cases h
  | some v =>
      show (if _ then _ else _) = _ ↔ (if _ then _ else _) = _
      by_cases hv : Text.nonBlank v = true
      · rw [if_pos hv, if_pos hv, Except.ok.injEq, Option.some.injEq]
      · rw [if_neg hv, if_neg hv]
        exact iff_of_false (fun h => by cases h) fun h => by cases h

theorem nonnegativeInt_ok_iff {value name : String} {n : Nat} :
    nonnegativeInt value name = .ok n ↔ value.length ≤ 4300 ∧ decimal? value = some n := by
  unfold nonnegativeInt
  cases decimal? value with
  | none => exact iff_of_false (fun h => by cases h) fun h => by cases h.2
  | some m =>
      by_cases hlen : value.length ≤ 4300
      · simp [hlen]
      · simp [hlen]

theorem positiveInt_ok_iff {value name : String} {n : Nat} :
    positiveInt value name = .ok n ↔
      value.length ≤ 4300 ∧ decimal? value = some n ∧ 1 ≤ n := by
  unfold positiveInt
  cases decimal? value with
  | none => exact iff_of_false (fun h => by cases h) fun h => by cases h.2.1
  | some m =>
      dsimp only
      rw [check_ok_iff, check_ok_iff, Except.ok.injEq, Option.some.injEq, Nat.not_lt,
        Nat.not_lt]
      constructor
      · rintro ⟨hlen, hpos, rfl⟩
        exact ⟨hlen, rfl, hpos⟩
      · rintro ⟨hlen, rfl, hpos⟩
        exact ⟨hlen, hpos, rfl⟩

theorem required_bind {β : Type} {environment : Environment} {name : String}
    {rest : String → Except WorkerError β} {w : β} :
    (requiredEnvironment environment name >>= rest) = .ok w ↔
      ∃ value, identifier environment name = some value ∧ rest value = .ok w := by
  rw [bind_ok_iff]
  simp only [requiredEnvironment_ok_iff]

theorem read_bind {β : Type} {environment : Environment} {name label : String}
    {rest : Nat → Except WorkerError β} {w : β} :
    (requiredEnvironment environment name >>= fun v => nonnegativeInt v label >>= rest) = .ok w ↔
      ∃ n : Nat, Reads environment name n ∧ rest n = .ok w := by
  rw [required_bind]
  simp only [bind_ok_iff, nonnegativeInt_ok_iff]
  constructor
  · rintro ⟨v, hv, n, ⟨hlen, hn⟩, hrest⟩
    exact ⟨n, ⟨v, hv, hlen, n, hn, rfl⟩, hrest⟩
  · rintro ⟨n, ⟨v, hv, hlen, m, hm, hmn⟩, hrest⟩
    rw [Int.ofNat_inj.mp hmn] at hm
    exact ⟨v, hv, n, ⟨hlen, hm⟩, hrest⟩

theorem readPositive_bind {β : Type} {environment : Environment} {name label : String}
    {rest : Nat → Except WorkerError β} {w : β} :
    (requiredEnvironment environment name >>= fun v => positiveInt v label >>= rest) = .ok w ↔
      ∃ n : Nat, Reads environment name n ∧ 1 ≤ n ∧ rest n = .ok w := by
  rw [required_bind]
  simp only [bind_ok_iff, positiveInt_ok_iff]
  constructor
  · rintro ⟨v, hv, n, ⟨hlen, hn, hpos⟩, hrest⟩
    exact ⟨n, ⟨v, hv, hlen, n, hn, rfl⟩, hpos, hrest⟩
  · rintro ⟨n, ⟨v, hv, hlen, m, hm, hmn⟩, hpos, hrest⟩
    rw [Int.ofNat_inj.mp hmn] at hm
    exact ⟨v, hv, n, ⟨hlen, hm, hpos⟩, hrest⟩

theorem Reads.exists_nat {environment : Environment} {name : String} {n : Int}
    (h : Reads environment name n) : ∃ m : Nat, Reads environment name m ∧ (m : Int) = n := by
  obtain ⟨v, hv, hlen, m, hm, rfl⟩ := h
  exact ⟨m, ⟨v, hv, hlen, m, hm, rfl⟩, rfl⟩

theorem readContext_writeContext {c : RestartContext} {file : ByteArray}
    (h : writeContext c = .ok file) : readContext (some file) = .ok (some c) := by
  unfold writeContext at h
  dsimp only at h
  split at h
  · cases h
  · rename_i hsize
    obtain ⟨ms, hms, hread⟩ := c.loads_toJson
    have hbytes : Json.loadsBytes c.toJson.toUTF8 = some (.obj ms) := by
      rw [RestartContext.toJson, Json.loadsBytes_dumps (RestartContext.plain_toDict _)]
      exact hms
    rw [← Except.ok.inj h, readContext]
    simp only [hbytes, hread]
    rw [if_neg hsize, if_neg (not_not.mpr rfl)]

theorem checkRestart_ok_iff {c : RestartContext} {runId nodeId : String}
    {localWorldSize generation worldSize groupRank localRank globalRank : Nat} {now : Int} :
    checkRestart c runId nodeId localWorldSize generation worldSize groupRank localRank
        globalRank now = .ok () ↔
      c.runId = runId ∧ c.nodeId = nodeId ∧ c.localWorldSize = localWorldSize ∧
        c.generation = generation ∧ c.expectedWorldSize = worldSize ∧
        c.logicalNodeSlot = groupRank ∧ c.firstGlobalRank + localRank = globalRank ∧
        now < c.restartDeadlineMonotonicNs := by
  unfold checkRestart
  simp only [check_ok_iff, ne_eq, not_not, Int.not_le, and_true]

/-- The worker's fields: the node's place in the run, and the recovery state of its context. -/
def carried {P : Type} (host : Host P) (environment : Environment) (path : String)
    (c : ContextFields) : WorkerFields P where
  runId := c.runId
  nodeId := c.nodeId
  localWorldSize := c.localWorldSize
  restartContextPath := host.path path
  configPath := configPath host environment
  generation := c.generation
  logicalNodeSlot := some c.logicalNodeSlot
  firstGlobalRank := some c.firstGlobalRank
  checkpointStep := some c.checkpointStep
  checkpointId := c.checkpointId
  checkpointManifestId := some c.checkpointManifestId
  checkpointSource := some c.checkpointSource
  recoveryMode := some c.recoveryMode
  topologyDigest := some c.topologyDigest
  restartDeadlineMonotonicNs := some c.restartDeadlineMonotonicNs

section

variable {P : Type} {host : Host P} {environment : Environment} {path : String}

/-- A worker is started before the deadline with its node's context: the environment gives the
path of the file, which is absolute, as is that of the configuration if there is one. -/
structure Started (host : Host P) (environment : Environment) (now : Int) (path : String)
    (c : RestartContext) : Prop where
  named : identifier environment "LM_RESILIENCY_TORCHRUN_RESTART_CONTEXT" = some path
  absolute : host.isAbsolute (host.path path) = true
  config : (configPath host environment).any (host.isAbsolute · = false) = false
  file : ∃ bytes, writeContext c = .ok bytes ∧ host.file (host.path path) = some bytes
  early : now < c.restartDeadlineMonotonicNs

theorem Started.reads {now : Int} {c : RestartContext}
    (h : Started host environment now path c) :
    readContext (host.file (host.path path)) = .ok (some c) := by
  obtain ⟨bytes, hwrite, hfile⟩ := h.file
  rw [hfile, readContext_writeContext hwrite]

theorem Started.exists {now : Int} {c : RestartContext}
    (h : Started host environment now path c) : (host.file (host.path path)).isSome = true := by
  obtain ⟨bytes, -, hfile⟩ := h.file
  rw [hfile]
  rfl

theorem make_ok_iff {f : WorkerFields P} {w : TorchrunWorkerContext host} :
    f.make host = .ok w ↔ w.toWorkerFields = f := by
  unfold WorkerFields.make
  constructor
  · intro h
    split at h
    · cases h
      rfl
    · cases h
  · rintro rfl
    split
    · rfl
    · rename_i e he
      rw [w.valid] at he
      cases he

/-- The context's rules imply those of the worker. -/
theorem postInit_carried {c : ContextFields} (hv : c.Valid)
    (habs : host.isAbsolute (host.path path) = true)
    (hconfig : (configPath host environment).any (host.isAbsolute · = false) = false) :
    (carried host environment path c).postInit host = .ok () := by
  have hgen : ¬c.generation = 0 := Int.ne_of_gt hv.generation
  have hfull : (carried host environment path c).fullRecovery :=
    ⟨by rintro ⟨⟩, by rintro ⟨⟩, by rintro ⟨⟩, by rintro ⟨⟩, by rintro ⟨⟩, by rintro ⟨⟩,
      by rintro ⟨⟩, by rintro ⟨⟩⟩
  have hid : c.checkpointId.any (Text.nonBlank · = false) = false := by
    cases hc : c.checkpointId with
    | none => rfl
    | some s => simp [hv.checkpointId s hc]
  unfold WorkerFields.postInit
  simp only [check_ok_iff, carried, Option.any_some, Option.some.injEq, decide_eq_true_eq]
  refine ⟨by simp [hv.runId], by simp [hv.nodeId], Int.not_lt.mpr hv.localWorldSize,
    by simp [habs], ne_true_of_eq_false hconfig, Int.not_lt.mpr (Int.le_trans Int.one_nonneg hv.generation),
    Int.not_lt.mpr hv.logicalNodeSlot, Int.not_lt.mpr hv.firstGlobalRank,
    Int.not_lt.mpr hv.checkpointStep, Int.not_lt.mpr hv.restartDeadline, ne_true_of_eq_false hid,
    by simp [hv.checkpointManifestId], not_not.mpr hv.checkpointSource,
    not_not.mpr hv.recoveryMode, by simp [hv.topologyDigest], fun h => hgen h.1,
    fun h => h.2 hfull, ?_, hv.gemini, hv.durable, trivial⟩
  simp [WorkerFields.rankOfSlot, hv.slot]

variable {c : RestartContext} {now : Int} {w : TorchrunWorkerContext host}

/-- An environment that a worker accepts names a local rank of the node. -/
theorem named_of_accepted (hs : Started host environment now path c)
    (h : contextFromEnvironment host now environment = .ok w) :
    (∃ r, Named environment c.toContextFields r) ∧
      w.toWorkerFields = carried host environment path c.toContextFields := by
  obtain ⟨runId, hrun, h⟩ := required_bind.mp h
  obtain ⟨nodeId, hnode, h⟩ := required_bind.mp h
  obtain ⟨localWorldSize, hlocal, -, h⟩ := readPositive_bind.mp h
  obtain ⟨r, hr, h⟩ := read_bind.mp h
  obtain ⟨globalRank, hglobal, h⟩ := read_bind.mp h
  obtain ⟨groupRank, hgroup, h⟩ := read_bind.mp h
  obtain ⟨worldSize, hworld, -, h⟩ := readPositive_bind.mp h
  obtain ⟨hlt, h⟩ := check_ok_iff.mp h
  obtain ⟨-, h⟩ := check_ok_iff.mp h
  obtain ⟨-, h⟩ := check_ok_iff.mp h
  obtain ⟨path', hpath', h⟩ := required_bind.mp h
  cases Option.some.inj (hs.named.symm.trans hpath')
  obtain ⟨-, h⟩ := check_ok_iff.mp h
  obtain ⟨-, h⟩ := check_ok_iff.mp h
  obtain ⟨generation, hgen, h⟩ := read_bind.mp h
  dsimp only at h
  rw [if_pos hs.exists, hs.reads] at h
  split at h
  · cases h
  · obtain ⟨read, hread, h⟩ := bind_ok_iff.mp h
    cases hread
    obtain ⟨⟨⟩, hcheck, hmake⟩ := bind_ok_iff.mp h
    obtain ⟨rfl, rfl, hls, hg, hws, hgr, hrank, -⟩ := checkRestart_ok_iff.mp hcheck
    refine ⟨⟨r, hrun, hnode, hg ▸ hgen, hls ▸ hlocal, hr, by omega, hrank ▸ hglobal,
      hgr ▸ hgroup, hws ▸ hworld⟩, ?_⟩
    rw [make_ok_iff.mp hmake, recoveryFields, carried, hls, hg]

/-- An environment that names a local rank of the node is accepted before the deadline. -/
theorem accepted_of_named (hs : Started host environment now path c) {r : Nat}
    (hnamed : Named environment c.toContextFields r)
    (hw : w.toWorkerFields = carried host environment path c.toContextFields) :
    contextFromEnvironment host now environment = .ok w := by
  have hv := c.valid
  obtain ⟨generation, hgen, hg⟩ := hnamed.generation.exists_nat
  obtain ⟨localWorldSize, hlocal, hls⟩ := hnamed.localWorldSize.exists_nat
  obtain ⟨globalRank, hglobal, hrank⟩ := hnamed.rank.exists_nat
  obtain ⟨groupRank, hgroup, hgr⟩ := hnamed.groupRank.exists_nat
  obtain ⟨worldSize, hworld, hws⟩ := hnamed.worldSize.exists_nat
  have hin := hnamed.inRange
  have hfits := hv.fits
  have hgenPos := hv.generation
  have hlocalPos := hv.localWorldSize
  have hworldPos := hv.expectedWorldSize
  have hsum : globalRank = groupRank * localWorldSize + r := by
    have hslot := hv.slot
    rw [← hls, ← hgr] at hslot
    rw [hslot] at hrank
    exact_mod_cast hrank
  refine required_bind.mpr ⟨_, hnamed.run, required_bind.mpr ⟨_, hnamed.node,
    readPositive_bind.mpr ⟨_, hlocal, by omega, read_bind.mpr ⟨_, hnamed.localRank,
    read_bind.mpr ⟨_, hglobal, read_bind.mpr ⟨_, hgroup,
    readPositive_bind.mpr ⟨_, hworld, by omega, check_ok_iff.mpr ⟨by omega,
    check_ok_iff.mpr ⟨by omega, check_ok_iff.mpr ⟨not_not.mpr hsum,
    required_bind.mpr ⟨_, hs.named, check_ok_iff.mpr ⟨by simp [hs.absolute],
    check_ok_iff.mpr ⟨ne_true_of_eq_false hs.config,
    read_bind.mpr ⟨_, hgen, ?_⟩⟩⟩⟩⟩⟩⟩⟩⟩⟩⟩⟩⟩⟩
  dsimp only
  rw [if_neg (by omega), hs.reads]
  refine bind_ok_iff.mpr ⟨some c, rfl, ?_⟩
  refine bind_ok_iff.mpr ⟨(), checkRestart_ok_iff.mpr
    ⟨rfl, rfl, hls.symm, hg.symm, hws.symm, hgr.symm, hrank.symm, hs.early⟩, make_ok_iff.mpr ?_⟩
  rw [hw, recoveryFields, carried, hls, hg]

/-- **A worker started with its node's context accepts the environments that name a local
rank.** -/
theorem accepts_iff (hs : Started host environment now path c) :
    (∃ w : TorchrunWorkerContext host, contextFromEnvironment host now environment = .ok w) ↔
      ∃ r, Named environment c.toContextFields r := by
  constructor
  · rintro ⟨w, h⟩
    exact (named_of_accepted hs h).1
  · rintro ⟨r, hr⟩
    exact ⟨⟨_, postInit_carried c.valid hs.absolute hs.config⟩, accepted_of_named hs hr rfl⟩

end

/-! ## The plan, its contexts and their workers -/

/-- The global ranks of a context. -/
def ranks (c : ContextFields) : Set Int :=
  Set.Ico c.firstGlobalRank (c.firstGlobalRank + c.localWorldSize)

/-- A worker carries the plan's choice of checkpoint. -/
structure Carries {P : Type} (f : WorkerFields P) (plan : RestartPlan) : Prop where
  recoveryMode : f.recoveryMode = some plan.recoveryMode
  checkpointSource : f.checkpointSource = some plan.checkpointSource
  checkpointStep : f.checkpointStep = some plan.checkpointStep
  checkpointId : f.checkpointId = plan.checkpointId
  checkpointManifestId : f.checkpointManifestId = some plan.checkpointManifestId

/-- **The contexts of a valid plan tile its world, and a worker accepts the environments that
name a local rank of its node.** -/
theorem contexts_tile_world (plan : RestartPlan) {deadline : Int} (hdeadline : 1 ≤ deadline) :
    (∀ a ∈ plan.slotAssignments,
      ∃ c, RestartContext.fromPlan plan a.nodeId deadline = .ok c) ∧
    (∀ a ∈ plan.slotAssignments, ∀ b ∈ plan.slotAssignments, a ≠ b → ∀ c d,
      RestartContext.fromPlan plan a.nodeId deadline = .ok c →
      RestartContext.fromPlan plan b.nodeId deadline = .ok d →
        Disjoint (ranks c.toContextFields) (ranks d.toContextFields)) ∧
    (∀ x, x ∈ Set.Ico 0 plan.expectedWorldSize ↔ ∃ a ∈ plan.slotAssignments, ∃ c,
      RestartContext.fromPlan plan a.nodeId deadline = .ok c ∧ x ∈ ranks c.toContextFields) ∧
    ∀ a ∈ plan.slotAssignments, ∀ c,
      RestartContext.fromPlan plan a.nodeId deadline = .ok c →
      ∀ {P : Type} (host : Host P) (environment : Environment) (now : Int) (path : String),
        Started host environment now path c →
          ((∃ w : TorchrunWorkerContext host,
              contextFromEnvironment host now environment = .ok w) ↔
            ∃ r, Named environment (contextFields plan a deadline) r) ∧
          ∀ w : TorchrunWorkerContext host,
            contextFromEnvironment host now environment = .ok w →
              Carries w.toWorkerFields plan := by
  have hcontext : ∀ a ∈ plan.slotAssignments, ∀ c,
      RestartContext.fromPlan plan a.nodeId deadline = .ok c →
        c.toContextFields = contextFields plan a deadline := by
    intro a ha c hc
    rw [fromPlan_eq ha hdeadline] at hc
    rw [← Except.ok.inj hc]
  refine ⟨fun a ha => ⟨_, fromPlan_eq ha hdeadline⟩, ?_, fun x => ⟨?_, ?_⟩, ?_⟩
  · intro a ha b hb hne c d hc hd
    rw [Set.disjoint_left, hcontext a ha c hc, hcontext b hb d hd]
    intro x hxa hxb
    exact hne (slot_unique ha hb hxa.1 hxa.2 hxb.1 hxb.2)
  · rintro ⟨hx, hlt⟩
    obtain ⟨a, ha, hle, hlt⟩ := exists_slot hx hlt
    exact ⟨a, ha, _, fromPlan_eq ha hdeadline, hle, hlt⟩
  · rintro ⟨a, ha, c, hc, hx⟩
    rw [hcontext a ha c hc] at hx
    exact rank_in_world ha hx.1 hx.2
  · intro a ha c hc P host environment now path hs
    rw [accepts_iff hs, hcontext a ha c hc]
    refine ⟨Iff.rfl, fun w hw => ?_⟩
    have hfields := (named_of_accepted hs hw).2
    rw [hcontext a ha c hc] at hfields
    rw [hfields]
    exact ⟨rfl, rfl, rfl, rfl, rfl⟩

/-- The sample plan, of a run whose identifier is given. -/
def planOf (runId : String) (h : Text.nonBlank runId = true) : RestartPlan :=
  { samplePlan with runId, valid := { samplePlan.valid with runId := h } }

/-- The environment of local rank 3 of the sample plan's node. -/
def environmentOf (runId : String) : Environment := fun name =>
  if name = "LM_RESILIENCY_TORCHRUN_RUN_ID" then some runId
  else if name = "LM_RESILIENCY_TORCHRUN_NODE_ID" then some "node-a"
  else if name = "LM_RESILIENCY_TORCHRUN_EXPECTED_GENERATION" then some "1"
  else if name = "LM_RESILIENCY_TORCHRUN_RESTART_CONTEXT" then some "/context.json"
  else if name = "LOCAL_RANK" ∨ name = "RANK" then some "3"
  else if name = "LOCAL_WORLD_SIZE" ∨ name = "WORLD_SIZE" then some "8"
  else if name = "GROUP_RANK" then some "0"
  else none

/-- A host with one file. -/
def hostOf (encoded : ByteArray) : Host String where
  path := id
  isAbsolute p := p.toList.head? = some '/'
  file p := if p = "/context.json" then some encoded else none

/-- The sample plan's node. -/
def sampleNode : SlotAssignment := sampleSlot

theorem sampleNode_mem {runId : String} {h : Text.nonBlank runId = true} :
    sampleNode ∈ (planOf runId h).slotAssignments := List.mem_cons_self

/-- The context of the sample plan's node. -/
def contextOf (runId : String) (h : Text.nonBlank runId = true) : RestartContext :=
  ⟨contextFields (planOf runId h) sampleNode 100, contextFields_valid sampleNode_mem (by decide)⟩

theorem environmentOf_of_ne {runId name : String}
    (h : name ≠ "LM_RESILIENCY_TORCHRUN_RUN_ID") :
    environmentOf runId name = environmentOf "" name := by
  unfold environmentOf
  rw [if_neg h, if_neg h]

theorem started_of {runId : String} {h : Text.nonBlank runId = true} {encoded : ByteArray}
    (hwrite : writeContext (contextOf runId h) = .ok encoded) :
    Started (hostOf encoded) (environmentOf runId) 99 "/context.json" (contextOf runId h) where
  named := by
    rw [identifier, environmentOf_of_ne (by decide)]
    decide +kernel
  absolute := by
    show (hostOf ByteArray.empty).isAbsolute "/context.json" = true
    decide +kernel
  config := rfl
  file := ⟨encoded, hwrite, rfl⟩
  early := by
    show (99 : Int) < 100
    decide

theorem writeContext_short {c : RestartContext}
    (h : (Json.write (Json.canon (Json.obj (RestartContext.toDict c.toContextFields)))).length ≤
      2 ^ 18) :
    writeContext c = .ok c.toJson.toUTF8 := by
  have hsize : c.toJson.toUTF8.size ≤ maxContextBytes :=
    Nat.le_trans (Json.size_dumps_le _) (Nat.mul_le_mul_left 4 h)
  unfold writeContext
  dsimp only
  rw [if_neg (Nat.not_lt.mpr hsize)]

/-- The sample plan's node has its context, and its worker accepts local rank 3. -/
theorem contexts_tile_world_sample :
    RestartContext.fromPlan (planOf "run" (by decide)) "node-a" 100 =
        .ok (contextOf "run" (by decide)) ∧
      ∃ encoded, writeContext (contextOf "run" (by decide)) = .ok encoded ∧
        ∃ w : TorchrunWorkerContext (hostOf encoded),
          contextFromEnvironment (hostOf encoded) 99 (environmentOf "run") = .ok w ∧
            Carries w.toWorkerFields (planOf "run" (by decide)) := by
  have hwrite : writeContext (contextOf "run" (by decide)) =
      .ok (contextOf "run" (by decide)).toJson.toUTF8 :=
    writeContext_short (by decide +kernel)
  have hfrom : RestartContext.fromPlan (planOf "run" (by decide)) sampleNode.nodeId 100 = _ :=
    fromPlan_eq sampleNode_mem (by decide)
  have hworker := (contexts_tile_world (planOf "run" (by decide)) (show (1 : Int) ≤ 100 by decide)
    ).2.2.2 sampleNode sampleNode_mem _ hfrom _ _ _ _ (started_of hwrite)
  have hnamed : Named (environmentOf "run")
      (contextFields (planOf "run" (by decide)) sampleNode 100) 3 :=
    { run := by decide +kernel
      node := by decide +kernel
      generation := ⟨"1", by decide +kernel, by decide +kernel, 1, by decide +kernel, rfl⟩
      localWorldSize := ⟨"8", by decide +kernel, by decide +kernel, 8, by decide +kernel, rfl⟩
      localRank := ⟨"3", by decide +kernel, by decide +kernel, 3, by decide +kernel, rfl⟩
      inRange := by decide +kernel
      rank := ⟨"3", by decide +kernel, by decide +kernel, 3, by decide +kernel, rfl⟩
      groupRank := ⟨"0", by decide +kernel, by decide +kernel, 0, by decide +kernel, rfl⟩
      worldSize := ⟨"8", by decide +kernel, by decide +kernel, 8, by decide +kernel, rfl⟩ }
  obtain ⟨w, hw⟩ := hworker.1.mpr ⟨3, hnamed⟩
  exact ⟨hfrom, _, hwrite, w, hw, hworker.2 w hw⟩

/-- A run whose identifier starts with a blank is named by its environment, and refused. -/
theorem padded_run_refused :
    RestartContext.fromPlan (planOf " run" (by decide)) "node-a" 100 =
        .ok (contextOf " run" (by decide)) ∧
      ∃ encoded, writeContext (contextOf " run" (by decide)) = .ok encoded ∧
        Started (hostOf encoded) (environmentOf " run") 99 "/context.json"
          (contextOf " run" (by decide)) ∧
        environmentOf " run" "LM_RESILIENCY_TORCHRUN_RUN_ID" =
          some (planOf " run" (by decide)).runId ∧
        environmentOf " run" "LM_RESILIENCY_TORCHRUN_NODE_ID" = some sampleNode.nodeId ∧
        environmentOf " run" "LM_RESILIENCY_TORCHRUN_EXPECTED_GENERATION" = some "1" ∧
        environmentOf " run" "LOCAL_RANK" = some "3" ∧
        environmentOf " run" "RANK" = some "3" ∧
        environmentOf " run" "GROUP_RANK" = some "0" ∧
        environmentOf " run" "LOCAL_WORLD_SIZE" = some "8" ∧
        environmentOf " run" "WORLD_SIZE" = some "8" ∧
        ¬∃ w : TorchrunWorkerContext (hostOf encoded),
          contextFromEnvironment (hostOf encoded) 99 (environmentOf " run") = .ok w := by
  have hwrite : writeContext (contextOf " run" (by decide)) =
      .ok (contextOf " run" (by decide)).toJson.toUTF8 :=
    writeContext_short (by decide +kernel)
  refine ⟨fromPlan_eq sampleNode_mem (show (1 : Int) ≤ 100 by decide), _, hwrite,
    started_of hwrite, rfl, rfl, rfl, rfl, rfl, rfl, rfl, rfl, ?_⟩
  rw [accepts_iff (started_of hwrite)]
  rintro ⟨r, hr⟩
  have hrun : identifier (environmentOf " run") "LM_RESILIENCY_TORCHRUN_RUN_ID" = some " run" :=
    hr.run
  exact absurd hrun (by decide +kernel)

end LmResiliency.Torchrun.WorkerAdapter

