/-
# Rendezvous — `SimpleRendezvousHandler`

The agent's side: a handler polls the generation, reads the placement
committed for it, announces itself and waits until every assigned node has.
The attributes that its methods assign are `HandlerState`; what they keep
of leases and heartbeats is computed by pure functions of one observation.

A polling loop runs for as long as its `budget` lasts and then stops for
ever, so the runs for all budgets are the runs of the source cut off at any
iteration.
-/
import LmResiliency.Torchrun.PlanStore
import Mathlib.Algebra.Order.Floor.Ring
import Mathlib.Data.Rat.Floor

namespace LmResiliency.Torchrun

open Interleave

/-- `SimpleRuntimeConfig`, the fields that the methods read. -/
structure RuntimeConfig where
  nodeId : String
  minNodes : Int
  maxNodes : Int
  joinTimeoutMs : Int
  heartbeatTimeoutMs : Int

/-- One logical node slot used only for rendezvous admission. -/
structure NodeAssignment where
  logicalNodeSlot : Int
  nodeId : String
  deriving DecidableEq

/-- `(agent_id, sequence, observed_at, live)`. -/
structure HeartbeatObservation where
  agentId : String
  sequence : Int
  observedAt : ℚ
  live : Bool

/-- `(sequence, freshness_deadline, manager_deadline, live)`. -/
structure LeaseObservation where
  sequence : Int
  freshnessDeadline : ℚ
  managerDeadline : ℚ
  live : Bool

/-- The attributes of a handler that its constructor fixes. -/
structure Handler where
  config : RuntimeConfig
  plans : PlanStore
  agentId : String
  workerPolicyDigest : String

/-- The attributes that the methods of a handler assign. -/
structure HandlerState where
  lastGeneration : Option Int
  lastAssignment : List NodeAssignment
  heartbeatObservations : List (String × HeartbeatObservation)
  planLeaseObservations : List ((Int × String) × LeaseObservation)

/-- The handler state that `__init__` starts with. -/
def HandlerState.initial : HandlerState := ⟨none, [], [], []⟩

/-- `RendezvousInfo`: the generation names the bootstrap store. -/
structure RendezvousInfo where
  generation : Int
  rank : Int
  worldSize : Int
  bootstrap : BootstrapInfo

abbrev HandlerM (α : Type) : Type := Meth iface HandlerState Raised α

/-- `d[key] = value`. -/
def assignKey {κ ν : Type} [DecidableEq κ] (key : κ) (value : ν) (d : List (κ × ν)) :
    List (κ × ν) := (key, value) :: d.filter (·.1 ≠ key)

section

variable {κ ν : Type} [DecidableEq κ] [BEq κ] [LawfulBEq κ] {key k : κ} {value : ν}
  {d : List (κ × ν)}

theorem lookup_assignKey_self : (assignKey key value d).lookup key = some value :=
  List.lookup_cons_self

theorem lookup_assignKey_of_ne (h : k ≠ key) : (assignKey key value d).lookup k = d.lookup k := by
  have hhead : (k == key) = false := beq_eq_false_iff_ne.mpr h
  rw [assignKey, List.lookup_cons, hhead]
  show (d.filter (·.1 ≠ key)).lookup k = d.lookup k
  induction d with
  | nil => rfl
  | cons m d ih =>
      rw [List.filter_cons]
      by_cases hm : m.1 = key
      · have hk : (k == m.1) = false := beq_eq_false_iff_ne.mpr (hm ▸ h)
        rw [if_neg (by simp [hm]), ih, List.lookup_cons, hk]
      · rw [if_pos (by simp [hm]), List.lookup_cons, List.lookup_cons, ih]

end

/-! ## Observations -/

def planLeaseRenewIntervalSeconds : ℚ := 1 / 10

/-- One look at a lease, after the previous one: whether it is live, and the
observation to keep, if any. -/
def observeLease (heartbeatTimeoutMs : Int) (previous : Option LeaseObservation)
    (sequence remainingMs : Int) (now : ℚ) :
    Except Raised (Bool × Option LeaseObservation) :=
  let freshnessDeadline := now + min ((remainingMs : ℚ) / 1000)
    (max ((heartbeatTimeoutMs : ℚ) / 1000) (planLeaseRenewIntervalSeconds * 3))
  let managerDeadline := now + (remainingMs : ℚ) / 1000
  match previous with
  | none => .ok (false, some ⟨sequence, freshnessDeadline, managerDeadline, false⟩)
  | some p =>
      if sequence < p.sequence then
        .error (.rendezvousState "recovery plan lease sequence moved backwards")
      else if p.sequence < sequence then
        let live : Bool := 0 < remainingMs ∧ now < freshnessDeadline
        .ok (live, some ⟨sequence, freshnessDeadline, managerDeadline, live⟩)
      else .ok (p.live && now < p.freshnessDeadline, none)

/-- One look at a heartbeat, after the previous one. -/
def observeHeartbeat (heartbeatTimeoutMs : Int) (previous : Option HeartbeatObservation)
    (agentId : String) (sequence : Int) (now : ℚ) : Bool × Option HeartbeatObservation :=
  match previous with
  | none => (false, some ⟨agentId, sequence, now, false⟩)
  | some p =>
      if p.agentId ≠ agentId ∨ sequence < p.sequence then
        (false, some ⟨agentId, sequence, now, false⟩)
      else if p.sequence < sequence then (true, some ⟨agentId, sequence, now, true⟩)
      else
        (p.live && (0 ≤ now - p.observedAt ∧
          now - p.observedAt < (heartbeatTimeoutMs : ℚ) / 1000 : Bool), none)

/-! ## Ready and heartbeat records -/

def readyRecord (agentId policyDigest : String) : List (String × Json) :=
  [("agent_id", .str agentId), ("policy_digest", .str policyDigest),
    ("schema_version", .int 1)]

/-- The decoding half of `_ready_agent_record`: `(agent_id, policy_digest)`. -/
def decodeReady (encoded : String) : Option (String × String) :=
  match Json.loads encoded with
  | none => none
  | some value =>
      match recordWith ["agent_id", "policy_digest", "schema_version"] value with
      | none => none
      | some ms =>
          match nonemptyField (Json.get? "agent_id" ms) "agent_id",
              nonemptyField (Json.get? "policy_digest" ms) "policy_digest" with
          | .ok agentId, .ok policyDigest => some (agentId, policyDigest)
          | _, _ => none

def heartbeatRecord (agentId nodeId : String) (sequence : Int) : List (String × Json) :=
  [("agent_id", .str agentId), ("node_id", .str nodeId), ("sequence", .int sequence)]

/-- The decoding half of `_heartbeat_is_live`: the sender and its sequence. -/
def decodeHeartbeat (encoded nodeId : String) (agentId : Option String) :
    Option (String × Int) :=
  match Json.loads encoded with
  | some (.obj ms) =>
      if (∀ k ∈ Json.keys ms, k ∈ ["agent_id", "node_id", "sequence"]) ∧
          ∀ k ∈ ["agent_id", "node_id", "sequence"], k ∈ Json.keys ms then
        match Json.get? "node_id" ms, Json.get? "agent_id" ms, Json.get? "sequence" ms with
        | some (.str node), some (.str observed), some (.int sequence) =>
            if node ≠ nodeId ∨ observed = "" ∨ (agentId ≠ none ∧ agentId ≠ some observed) ∨
                sequence < 0 then none
            else some (observed, sequence)
        | _, _, _ => none
      else none
  | _ => none

/-! ## The methods -/

namespace Handler

variable (self : Handler)

/-- Code of the handler that is an operation or a method of the plan store. -/
def store {α : Type} (p : StoreM α) : HandlerM α := Meth.lift p

def clock : HandlerM ℚ := store (perform .clock)

def wait : HandlerM Unit := store (perform .wait)

def closedFlag : HandlerM Bool := store (perform .closedFlag)

def heartbeatError : HandlerM Bool := store (perform .heartbeatError)

def raise {α : Type} (e : Raised) : HandlerM α := Meth.raise e

def readyKey (generation : Int) (nodeId : String) : Key :=
  .ready generation (self.plans.digest nodeId)

def heartbeatKey (nodeId : String) : Key := .heartbeat (self.plans.digest nodeId)

/-- The record that the handler announces itself with. -/
def readyText : String := canonicalJson (readyRecord self.agentId self.workerPolicyDigest)

def raiseIfClosed : HandlerM Unit := do
  if ← closedFlag then raise .rendezvousClosed
  else if ← store (check [.closed]) then raise .systemExit
  else pure ()

def raiseHeartbeatError : HandlerM Unit := do
  if ← heartbeatError then
    raise (.rendezvousConnection "standby heartbeat failed")
  else pure ()

def planLeaseIsLive (plan : RestartPlan) : HandlerM Bool := do
  let lease ← store (self.plans.readPlanLease plan)
  match lease with
  | none => pure false
  | some (sequence, remainingMs) => do
      let now ← clock
      if now < 0 then
        raise (.rendezvousState "monotonic clock returned an invalid value")
      else do
        let key := (plan.toGeneration, plan.planId)
        let w ← Meth.self
        let seen ← store (ofExcept (observeLease self.config.heartbeatTimeoutMs
          (w.planLeaseObservations.lookup key) sequence remainingMs now))
        match seen with
        | (live, none) => pure live
        | (live, some o) => do
            Meth.assign fun w =>
              { w with planLeaseObservations := assignKey key o w.planLeaseObservations }
            pure live

def checkPlanLease (plan : RestartPlan) : HandlerM Unit := do
  if ← self.planLeaseIsLive plan then pure ()
  else raise (.rendezvousTimeout "recovery plan lease elapsed")

/-- `int(x)` of a float. -/
def truncate (x : ℚ) : Int := if x < 0 then -⌊-x⌋ else ⌊x⌋

def planLeaseDeadlineNs (plan : RestartPlan) : HandlerM Int := do
  let w ← Meth.self
  match w.planLeaseObservations.lookup (plan.toGeneration, plan.planId) with
  | some o =>
      if o.live then pure (truncate (o.managerDeadline * 1000000000))
      else raise (.rendezvousState "recovery plan lease was not observed as live")
  | none => raise (.rendezvousState "recovery plan lease was not observed as live")

def heartbeatIsLive (nodeId : String) (agentId : Option String) : HandlerM Bool := do
  let key := self.heartbeatKey nodeId
  if ← store (check [key]) then do
    let encoded ← store (get key)
    match decodeHeartbeat encoded nodeId agentId with
    | none => pure false
    | some (observed, sequence) => do
        let now ← clock
        if now < 0 then pure false
        else do
          let w ← Meth.self
          match observeHeartbeat self.config.heartbeatTimeoutMs
              (w.heartbeatObservations.lookup nodeId) observed sequence now with
          | (live, none) => pure live
          | (live, some o) => do
              Meth.assign fun w =>
                { w with heartbeatObservations := assignKey nodeId o w.heartbeatObservations }
              pure live
  else pure false

def readyAgentRecord (generation : Int) (nodeId : String) :
    HandlerM (Option (String × String)) := do
  let encoded ← store (get (self.readyKey generation nodeId))
  pure (decodeReady encoded)

/-- `[_ready_agent_record(generation, item.node_id) for item in assignment]`. -/
def readyRecords (generation : Int) :
    List NodeAssignment → HandlerM (List (Option (String × String)))
  | [] => pure []
  | a :: as => do
      let r ← self.readyAgentRecord generation a.nodeId
      let rs ← readyRecords generation as
      pure (r :: rs)

/-- `[_heartbeat_is_live(item.node_id, agent_id=record[0]) for …]`. -/
def heartbeatStates : List (NodeAssignment × String × String) → HandlerM (List Bool)
  | [] => pure []
  | (a, record) :: rest => do
      let live ← self.heartbeatIsLive a.nodeId (some record.1)
      let lives ← heartbeatStates rest
      pure (live :: lives)

/-- What `_wait_for_group` makes of the ready records of one iteration: whether
the group is complete. -/
def groupIsReady (assignment : List NodeAssignment)
    (records : List (Option (String × String))) : HandlerM Bool := do
  let present := records.filterMap id
  if present.length = records.length then do
    if ((present.map Prod.snd).eraseDups).length ≠ 1 then
      raise (.rendezvousState "assigned nodes disagree on the LM Resiliency worker policy")
    else do
      let lives ← self.heartbeatStates (assignment.zip present)
      pure (lives.all id)
  else pure false

/-- One look of `_wait_for_group` at the ready records. -/
def lookAtGroup (generation : Int) (assignment : List NodeAssignment) : HandlerM Bool := do
  if ← store (check (assignment.map fun a => self.readyKey generation a.nodeId)) then do
    let records ← self.readyRecords generation assignment
    self.groupIsReady assignment records
  else pure false

/-- `if plan is not None: self._check_plan_lease(plan)`. -/
def checkLease : Option RestartPlan → HandlerM Unit
  | some plan => self.checkPlanLease plan
  | none => pure ()

def waitForGroup (generation : Int) (assignment : List NodeAssignment) (deadline : ℚ)
    (plan : Option RestartPlan) : Nat → HandlerM Bool
  | 0 => Meth.halt
  | budget + 1 => do
      raiseIfClosed
      raiseHeartbeatError
      if (← store PlanStore.currentGeneration) ≠ generation then pure false
      else do
        self.checkLease plan
        if ← self.lookAtGroup generation assignment then pure true
        else if deadline ≤ (← clock) then
          raise (.rendezvousTimeout "timed out waiting for assigned nodes")
        else do
          wait
          waitForGroup generation assignment deadline plan budget

def waitForPlanLease (plan : RestartPlan) (deadline : ℚ) : Nat → HandlerM Bool
  | 0 => Meth.halt
  | budget + 1 => do
      raiseIfClosed
      raiseHeartbeatError
      if (← store PlanStore.currentGeneration) ≠ plan.toGeneration then pure false
      else if ← self.planLeaseIsLive plan then pure true
      else if deadline ≤ (← clock) then
        raise (.rendezvousTimeout "timed out waiting for recovery plan lease")
      else do
        wait
        waitForPlanLease plan deadline budget

def assignment (generation : Int) (plan : Option RestartPlan) :
    HandlerM (Option (List NodeAssignment)) := do
  if generation = 0 then do
    let nodeIds ← store
      (PlanStore.ensureInitialNodes self.config.minNodes self.config.maxNodes)
    pure (nodeIds.map fun ids => ids.zipIdx.map fun x => ⟨(x.2 : Int), x.1⟩)
  else
    match plan with
    | none => raise (.rendezvousState "current generation has no recovery plan")
    | some plan =>
        pure (some (plan.slotAssignments.map fun a => ⟨a.logicalNodeSlot, a.nodeId⟩))

def buildBootstrap (generation slot : Int) (deadline : ℚ) : HandlerM BootstrapInfo := do
  let remaining := deadline - (← clock)
  if remaining ≤ 0 then raise (.rendezvousTimeout "timed out before bootstrap")
  else do
    let built ← store (perform (.bootstrap generation slot) :
      StoreM (Except Raised BootstrapInfo))
    match built with
    | .ok info => pure info
    | .error _ =>
        raise (.rendezvousConnection "failed to build worker bootstrap store")

/-- `self._context.clear()` before generation zero. -/
def clearContext : HandlerM Unit := do
  let cleared ← store (perform .clearContext : StoreM (Except Raised Unit))
  match cleared with
  | .ok () => pure ()
  | .error (.simpleRuntime _) =>
      raise (.rendezvousState "failed to clear stale restart context")
  | .error e => raise e

/-- The restart context of a plan is written once its lease is seen again. -/
def publishContext (plan : RestartPlan) : HandlerM Unit := do
  self.checkPlanLease plan
  let deadline ← planLeaseDeadlineNs plan
  match RestartContext.fromPlan plan self.config.nodeId deadline with
  | .error _ => raise (.rendezvousState "failed to publish restart context")
  | .ok context => do
      let written ← store (perform (.writeContext context) : StoreM (Except Raised Unit))
      match written with
      | .ok () => pure ()
      | .error (.simpleRuntime _) =>
          raise (.rendezvousState "failed to publish restart context")
      | .error e => raise e

/-- `if plan is not None:` the restart context is published. -/
def publishContextOf : Option RestartPlan → HandlerM Unit
  | some plan => self.publishContext plan
  | none => pure ()

/-- The way from a complete group to the result. -/
def join (generation slot : Int) (assignment : List NodeAssignment) (deadline : ℚ)
    (plan : Option RestartPlan) : HandlerM RendezvousInfo := do
  self.checkLease plan
  Meth.assign fun w => { w with lastGeneration := some generation, lastAssignment := assignment }
  let bootstrap ← buildBootstrap generation slot deadline
  self.publishContextOf plan
  pure ⟨generation, slot, assignment.length, bootstrap⟩

/-- What comes before the ready record: generation zero clears the context of
an earlier run, a later generation waits for its plan's lease. -/
def leased (budget : Nat) (generation : Int) (plan : Option RestartPlan) (deadline : ℚ) :
    HandlerM Bool := do
  if generation = 0 then do
    clearContext
    pure true
  else
    match plan with
    | none => raise .assertionError
    | some plan => self.waitForPlanLease plan deadline budget

/-- One announcement: none when the generation moved on meanwhile. -/
def announce (budget : Nat) (generation slot : Int) (assignment : List NodeAssignment)
    (plan : Option RestartPlan) : HandlerM (Option RendezvousInfo) := do
  let deadline := (← clock) + (self.config.joinTimeoutMs : ℚ) / 1000
  if ← self.leased budget generation plan deadline then do
    store (set (self.readyKey generation self.config.nodeId) self.readyText)
    if ← self.waitForGroup generation assignment deadline plan budget then
      if (← store PlanStore.currentGeneration) ≠ generation then pure none
      else do
        let info ← self.join generation slot assignment deadline plan
        pure (some info)
    else pure none
  else pure none

/-- `next_rendezvous`, after the admission deadline is computed. -/
def nextRendezvousFrom (admissionDeadline : ℚ) (budget : Nat) : Nat → HandlerM RendezvousInfo
  | 0 => Meth.halt
  | n + 1 => do
      raiseIfClosed
      raiseHeartbeatError
      let generation ← store PlanStore.currentGeneration
      let w ← Meth.self
      if (∃ last ∈ w.lastGeneration, generation ≤ last) then
        if admissionDeadline ≤ (← clock) then
          raise (.rendezvousTimeout
            "timed out waiting for a manager-owned successor generation")
        else do
          wait
          nextRendezvousFrom admissionDeadline budget n
      else do
        let plan ← store (self.plans.read generation)
        let assigned ← self.assignment generation plan
        match assigned with
        | none =>
            if admissionDeadline ≤ (← clock) then
              raise (.rendezvousTimeout "timed out waiting for initial node registrations")
            else do
              wait
              nextRendezvousFrom admissionDeadline budget n
        | some assignment =>
            match assignment.find? fun a => a.nodeId = self.config.nodeId with
            | none => do
                wait
                nextRendezvousFrom admissionDeadline budget n
            | some item => do
                let joined ← self.announce budget generation item.logicalNodeSlot assignment plan
                match joined with
                | some info => pure info
                | none => nextRendezvousFrom admissionDeadline budget n

def nextRendezvous (budget : Nat) : HandlerM RendezvousInfo := do
  let admissionDeadline := (← clock) + (self.config.joinTimeoutMs : ℚ) / 1000
  self.nextRendezvousFrom admissionDeadline budget budget

/-- The count of live nodes of `num_nodes_waiting`. -/
def liveNodes : List String → HandlerM Int
  | [] => pure 0
  | nodeId :: rest => do
      let live ← self.heartbeatIsLive nodeId none
      let more ← liveNodes rest
      pure ((if live then 1 else 0) + more)

def numNodesWaiting : HandlerM Int := do
  let w ← Meth.self
  match w.lastGeneration with
  | none => pure 0
  | some last =>
      Meth.tryCatch
        (do
          let generation ← store PlanStore.currentGeneration
          if generation ≤ last then pure 0
          else do
            let plan ← store (self.plans.read generation)
            match plan with
            | none => pure 0
            | some plan =>
                if ← self.planLeaseIsLive plan then
                  let previous := w.lastAssignment.map NodeAssignment.nodeId
                  let selected := (nodesOf plan.slotAssignments).filter (· ∉ previous)
                  if selected = [] then pure 1 else self.liveNodes selected
                else pure 0)
        fun e =>
          match e with
          | .planCorrupt _ => raise (.rendezvousState "recovery-plan state is corrupt")
          | .valueError _ => raise (.rendezvousState "recovery-plan state is corrupt")
          | .validation _ => raise (.rendezvousState "recovery-plan state is corrupt")
          | .systemExit => raise .systemExit
          | _ => pure 0

/-- The store operations of `__init__`. -/
def construct : HandlerM Unit := do
  store PlanStore.connect
  store (PlanStore.registerNode self.config.nodeId self.agentId self.config.maxNodes)

def isClosed : HandlerM Bool := do
  if ← closedFlag then pure true
  else store (check [.closed])

def setClosed : HandlerM Unit := store (set .closed "1")

/-- `_heartbeat_loop`, from a sequence number on. -/
def heartbeatLoop (sequence : Int) : Nat → HandlerM Unit
  | 0 => Meth.halt
  | budget + 1 => do
      if ← closedFlag then pure ()
      else do
        store (set (self.heartbeatKey self.config.nodeId)
          (canonicalJson (heartbeatRecord self.agentId self.config.nodeId sequence)))
        wait
        heartbeatLoop (sequence + 1) budget

end Handler

end LmResiliency.Torchrun
