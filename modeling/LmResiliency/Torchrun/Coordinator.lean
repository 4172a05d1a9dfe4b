/-
# Coordinator — `TorchrunRecoveryCoordinator`

The manager's side of a restart: `publish_successor` checks the placement it
is given against the committed one, replaces at most one slot, rebuilds the
whole plan and publishes it.  The steps of the long method are functions of
their own here, in the order of the source.

The thread that keeps renewing the lease of a published plan only calls
`renew_plan_lease`; it is a process like any other.
-/
import LmResiliency.Torchrun.PlanStore

namespace LmResiliency.Torchrun

open Interleave

/-- `TorchrunRecoveryRequest`. -/
structure RecoveryRequest where
  planId : String
  intentId : String
  reasonCode : String
  recoveryMode : String
  checkpointSource : String
  checkpointStep : Int
  checkpointManifestId : String
  topologyDigest : String
  restartDeadlineUnixMs : Int
  checkpointId : Option String

/-- `TorchrunInitialPlacement`. -/
structure InitialPlacement where
  activeNodeIds : List String
  standbyNodeIds : List String

/-- `TorchrunSuccessorPlacement`. -/
structure SuccessorPlacement where
  generation : Int
  activeNodeIds : List String
  quarantinedNodeIds : List String

/-- The arguments of `publish_successor`. -/
structure SuccessorCall where
  generation : Int
  activeNodeIds : List String
  quarantinedNodeIds : List String
  request : RecoveryRequest
  localWorldSize : Int
  replacement : Option (Int × String)

/-- The attributes of a coordinator that its constructor fixes. -/
structure Coordinator where
  runId : String
  plans : PlanStore

namespace Coordinator

/-- `TorchrunRecoveryCoordinator.__init__`: the plan store strips the run id. -/
def init (runId : String) (digest : String → String) : Except Raised Coordinator := do
  let stripped ← nonempty runId "run_id"
  .ok ⟨runId, ⟨stripped, digest⟩⟩

def leaseError : StoreM Bool := perform .leaseError

def unixMs : StoreM Int := perform .unixMs

def checkHealth : StoreM Unit := do
  if ← leaseError then raise (.runtimeError "recovery plan lease renewal failed")
  else pure ()

def initialPlacement (activeNodeCount allocatedNodeCount : Int) :
    StoreM (Option InitialPlacement) := do
  checkHealth
  if activeNodeCount < 1 then raise (.valueError "active_node_count must be positive")
  else if allocatedNodeCount < activeNodeCount then
    raise (.valueError "allocated_node_count must be at least active_node_count")
  else do
    let active ← PlanStore.readInitialNodes
    match active with
    | none => pure none
    | some active => do
        let registered ← PlanStore.registeredNodes (some allocatedNodeCount)
        if (registered.length : Int) < allocatedNodeCount then pure none
        else if (active.length : Int) ≠ activeNodeCount then
          raise (.runtimeError "committed initial placement has the wrong active-node count")
        else do
          let standbys := registered.filter (· ∉ active)
          if (standbys.length : Int) ≠ allocatedNodeCount - activeNodeCount then
            raise (.runtimeError "committed initial placement has the wrong standby count")
          else pure (some ⟨active, standbys⟩)

/-- The checks of the arguments, before the store is read. -/
def checkArguments (call : SuccessorCall) : Except Raised Unit :=
  if call.generation < 0 then .error (.valueError "generation must be non-negative")
  else if call.localWorldSize < 1 then
    .error (.valueError "local_world_size must be positive")
  else if call.activeNodeIds = [] ∨ ¬ call.activeNodeIds.Nodup then
    .error (.valueError "active_node_ids must be non-empty and unique")
  else if ¬ call.quarantinedNodeIds.Nodup then
    .error (.valueError "quarantined_node_ids must be unique")
  else if ∃ n ∈ call.activeNodeIds, n ∈ call.quarantinedNodeIds then
    .error (.valueError "active and quarantined node IDs must be disjoint")
  else .ok ()

/-- The committed plan of a generation from one on, and its topology. -/
def committedPlan (self : Coordinator) (call : SuccessorCall) :
    StoreM (List String × List String) := do
  let committed ← self.plans.read call.generation
  match committed with
  | none =>
      let generation := call.generation
      raise (.runtimeError s!"generation {generation} has no committed recovery plan")
  | some plan =>
      if plan.slotAssignments.head?.map SlotAssignment.localWorldSize ≠
          some call.localWorldSize then
        raise (.runtimeError "local_world_size does not match the committed worker topology")
      else if call.request.topologyDigest ≠ plan.topologyDigest then
        raise (.runtimeError
          "recovery request topology_digest does not match the committed topology")
      else pure (nodesOf plan.slotAssignments, plan.quarantinedNodeIds)

/-- The committed placement and quarantine list of the current generation. -/
def committedPlacement (self : Coordinator) (call : SuccessorCall) :
    StoreM (List String × List String) := do
  if call.generation = 0 then do
    let committed ← PlanStore.readInitialNodes
    match committed with
    | none => raise (.runtimeError "generation-zero placement is not committed")
    | some active => pure (active, [])
  else self.committedPlan call

/-- The placement and quarantine list of the successor. -/
def replaceSlot (active quarantined : List String) (replacement : Option (Int × String)) :
    StoreM (List String × List String) := do
  match replacement with
  | none => pure (active, quarantined)
  | some (slot, nodeId) =>
      if hslot : slot < 0 ∨ (active.length : Int) ≤ slot then
        raise (.valueError "replacement slot is outside the active placement")
      else if Text.nonBlank nodeId = false then
        raise (.valueError "replacement node ID must be non-empty")
      else if nodeId ∈ active ∨ nodeId ∈ quarantined then
        raise (.valueError "replacement node is already active or quarantined")
      else do
        let registered ← PlanStore.registeredNodes none
        if nodeId ∉ registered then
          raise (.valueError "replacement node is not registered in this torchrun allocation")
        else do
          let failedNodeId := active.get ⟨slot.toNat, by omega⟩
          pure (active.set slot.toNat nodeId, quarantined ++ [failedNodeId])

/-- `tuple(SlotAssignment(…) for slot, node_id in enumerate(active))`. -/
def slotAssignments (localWorldSize : Int) : Int → List String → Checked (List SlotAssignment)
  | _, [] => .ok []
  | slot, nodeId :: rest => do
      let a ← SlotAssignment.init slot nodeId (slot * localWorldSize) localWorldSize
      let as ← slotAssignments localWorldSize (slot + 1) rest
      .ok (a :: as)

/-- The plan of the successor generation. -/
def successorPlan (self : Coordinator) (call : SuccessorCall)
    (active quarantined : List String) : Checked RestartPlan := do
  let request := call.request
  let slots ← slotAssignments call.localWorldSize 0 active
  RestartPlan.init
    { planId := request.planId
      intentId := request.intentId
      runId := self.runId
      fromGeneration := call.generation
      toGeneration := call.generation + 1
      incidentIds := [request.intentId]
      reasonCode := request.reasonCode
      recoveryMode := request.recoveryMode
      checkpointSource := request.checkpointSource
      checkpointStep := request.checkpointStep
      checkpointId := request.checkpointId
      checkpointManifestId := request.checkpointManifestId
      slotAssignments := slots
      quarantinedNodeIds := quarantined
      expectedWorldSize := active.length * call.localWorldSize
      topologyDigest := request.topologyDigest
      restartDeadlineUnixMs := request.restartDeadlineUnixMs }

/-- The first renewal of `_start_plan_lease`; a failure is left to the thread. -/
def startPlanLease (self : Coordinator) (plan : RestartPlan) (remainingMs : Int) :
    StoreM Unit :=
  Prog.tryCatch
    (do
      let _ ← self.plans.renewPlanLease plan (if remainingMs ≤ 0 then 0 else remainingMs)
      pure ())
    fun _ => pure ()

/-- A validation error, raised. -/
def ofChecked {α : Type} : Checked α → StoreM α
  | .ok a => pure a
  | .error e => raise (.validation e)

/-- `publish_successor`, once the committed placement is known to match. -/
def commitSuccessor (self : Coordinator) (call : SuccessorCall) (remainingMs : Int) :
    StoreM SuccessorPlacement := do
  let (active, quarantined) ←
    replaceSlot call.activeNodeIds call.quarantinedNodeIds call.replacement
  let plan ← ofChecked (self.successorPlan call active quarantined)
  self.plans.publish plan
  self.startPlanLease plan remainingMs
  pure ⟨plan.toGeneration, active, quarantined⟩

def publishSuccessor (self : Coordinator) (call : SuccessorCall) :
    StoreM SuccessorPlacement := do
  checkHealth
  ofExcept (checkArguments call)
  let currentGeneration ← PlanStore.currentGeneration
  if currentGeneration ≠ call.generation then
    let generation := call.generation
    raise (.runtimeError (s!"manager generation {generation} is stale; " ++
      s!"committed generation is {currentGeneration}"))
  else do
    let (committedActive, committedQuarantined) ← self.committedPlacement call
    if call.activeNodeIds ≠ committedActive then
      raise (.runtimeError "active_node_ids do not match the committed placement")
    else if call.quarantinedNodeIds ≠ committedQuarantined then
      raise (.runtimeError
        "quarantined_node_ids do not match the committed quarantine history")
    else do
      -- `remaining_seconds * 1_000`; the deadline and the clock are whole milliseconds
      let now ← unixMs
      let remainingMs := call.request.restartDeadlineUnixMs - now
      if remainingMs ≤ 0 then raise (.valueError "restart deadline must be in the future")
      else self.commitSuccessor call remainingMs

def close : StoreM Unit := do
  PlanStore.closeRun
  checkHealth

/-! ## The plan of a successor -/

theorem slotAssignments_eq_ok {w : Int} : ∀ {ns : List String} {i : Int}
    {as : List SlotAssignment}, slotAssignments w i ns = .ok as →
    nodesOf as = ns ∧ (∀ a ∈ as, i ≤ a.logicalNodeSlot ∧ a.localWorldSize = w) ∧
      as.Pairwise fun a b => a.logicalNodeSlot ≤ b.logicalNodeSlot
  | [], _, _, h => by
      cases h
      exact ⟨rfl, fun _ h => by simp at h, .nil⟩
  | n :: ns, i, as, h => by
      obtain ⟨a, ha, h⟩ := Checked.bind_eq_ok.mp h
      obtain ⟨as, has, h⟩ := Checked.bind_eq_ok.mp h
      cases h
      obtain ⟨hnodes, hmem, hsorted⟩ := slotAssignments_eq_ok has
      have hinit : a.logicalNodeSlot = i ∧ a.nodeId = n ∧ a.localWorldSize = w := by
        rw [SlotAssignment.init] at ha
        iterate 4 (obtain ⟨_, -, ha⟩ := Checked.bind_eq_ok.mp ha)
        cases ha
        exact ⟨rfl, rfl, rfl⟩
      obtain ⟨hslot, hnode, hsize⟩ := hinit
      refine ⟨?_, fun b hb => ?_, List.pairwise_cons.mpr ⟨fun b hb => ?_, hsorted⟩⟩
      · rw [nodesOf, List.map_cons, hnode]
        exact congrArg (n :: ·) hnodes
      · rcases List.mem_cons.mp hb with rfl | hb
        · exact ⟨by omega, hsize⟩
        · have := (hmem b hb).1
          exact ⟨by omega, (hmem b hb).2⟩
      · have := (hmem b hb).1
        omega

/-- What a successor plan says: the placement and the quarantine list it was
built from, the next generation, the topology of the request. -/
theorem successorPlan_eq_ok {self : Coordinator} {call : SuccessorCall}
    {active quarantined : List String} {p : RestartPlan}
    (h : self.successorPlan call active quarantined = .ok p) :
    nodesOf p.slotAssignments = active ∧ p.quarantinedNodeIds = quarantined ∧
      p.fromGeneration = call.generation ∧ p.topologyDigest = call.request.topologyDigest ∧
      ∀ a ∈ p.slotAssignments, a.localWorldSize = call.localWorldSize := by
  obtain ⟨slots, hslots, hp⟩ := Checked.bind_eq_ok.mp h
  obtain ⟨hnodes, hmem, hsorted⟩ := slotAssignments_eq_ok hslots
  have hfields := RestartPlan.init_eq_ok hp
  have hsame : sortSlots slots = slots := List.Pairwise.insertionSort_eq hsorted
  simp only [hsame] at hfields
  rw [hfields]
  exact ⟨hnodes, rfl, rfl, rfl, fun a ha => (hmem a ha).2⟩

end Coordinator

end LmResiliency.Torchrun
