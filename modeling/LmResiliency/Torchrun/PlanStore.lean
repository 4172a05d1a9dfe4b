/-
# PlanStore — `SimpleRecoveryPlanStore`

The create-once recovery plans, the registration log and the initial
placement of one run, as programs over the shared store.  A decoder is a
pure function of the text it was given; the methods read, decode, compare
and write in the order of the source, each store call one operation.
-/
import LmResiliency.Torchrun.Store

namespace LmResiliency.Torchrun

open Interleave

/-! ## Values -/

/-- `_nonempty` on text: the stripped text. -/
def nonempty (value name : String) : Except Raised String :=
  if Text.nonBlank value then .ok (Text.strip value)
  else .error (.valueError s!"{name} must be a non-empty string")

/-- `_nonempty` on a field of a JSON object. -/
def nonemptyField (value : Option Json) (name : String) : Except Raised String :=
  match value with
  | some (.str s) => nonempty s name
  | _ => .error (.valueError s!"{name} must be a non-empty string")

/-- `_positive_int` on an integer. -/
def positiveInt (value : Int) (name : String) : Except Raised Int :=
  if value < 1 then .error (.valueError s!"{name} must be a positive integer") else .ok value

def decodePositiveInteger (encoded name : String) : Except Raised Int :=
  let digits := encoded.toList
  let n : Int := Nat.ofDigitChars 10 digits 0
  if digits ≠ [] ∧ digits.all Char.isDigit ∧ 1 ≤ n then .ok n
  else .error (.planCorrupt s!"{name} is malformed")

def decodeGeneration (encoded : String) : Except Raised Int :=
  match Text.int? encoded with
  | none => .error (.planCorrupt "current generation is malformed")
  | some generation =>
      if generation < 0 then
        .error (.planCorrupt "current generation must not be negative")
      else .ok generation

def canonicalJson (value : List (String × Json)) : String := (Json.obj value).dumps

/-- The shape every stored record but a plan is checked for: an object with
exactly these fields and schema version one. -/
def recordWith (names : List String) (value : Json) : Option (List (String × Json)) :=
  match value with
  | .obj ms =>
      if (∀ k ∈ Json.keys ms, k ∈ names) ∧ ∀ k ∈ names, k ∈ Json.keys ms then
        match Json.get? "schema_version" ms with
        | some (.int 1) => some ms
        | _ => none
      else none
  | _ => none

/-- `bytes.splitlines()`, `line` holding the current line backwards. -/
def splitLinesFrom (line : List Char) : List Char → List (List Char)
  | [] => if line = [] then [] else [line.reverse]
  | '\r' :: '\n' :: cs => line.reverse :: splitLinesFrom [] cs
  | '\r' :: cs => line.reverse :: splitLinesFrom [] cs
  | '\n' :: cs => line.reverse :: splitLinesFrom [] cs
  | c :: cs => splitLinesFrom (c :: line) cs

def splitLines (encoded : String) : List String :=
  (splitLinesFrom [] encoded.toList).map String.ofList

/-! ## Registrations -/

def registrationRecord (nodeId agentId : String) : List (String × Json) :=
  [("agent_id", .str agentId), ("node_id", .str nodeId), ("schema_version", .int 1)]

/-- One line of the registration log. -/
def decodeRegistration (line : String) : Except Raised (String × String) :=
  match Json.loads line with
  | none => .error (.planCorrupt "initial node registration is malformed")
  | some value =>
      match recordWith ["agent_id", "node_id", "schema_version"] value with
      | none => .error (.planCorrupt "initial node registration has invalid fields")
      | some ms =>
          match nonemptyField (Json.get? "node_id" ms) "node_id",
              nonemptyField (Json.get? "agent_id" ms) "agent_id" with
          | .ok nodeId, .ok agentId =>
              if canonicalJson ms ≠ line then
                .error (.planCorrupt "initial node registration is not canonical JSON")
              else .ok (nodeId, agentId)
          | _, _ => .error (.planCorrupt "initial node registration has invalid identities")

/-- The loop of `_decode_registrations`.  `registrations` is the list built so
far; `node_agents` is the dictionary with the same pairs and `agent_nodes` its
inverse. -/
def scanRegistrations : List String → List (String × String) →
    Except Raised (List (String × String))
  | [], registrations => .ok registrations
  | line :: lines, registrations => do
      let (nodeId, agentId) ← decodeRegistration line
      let existingAgent := registrations.lookup nodeId
      let existingNode := (registrations.map Prod.swap).lookup agentId
      if existingAgent ≠ none ∧ existingAgent ≠ some agentId then
        .error (.planCorrupt "multiple torchrun agents resolved to the same machine identity")
      else if existingNode ≠ none ∧ existingNode ≠ some nodeId then
        .error (.planCorrupt "one torchrun agent registered multiple machine identities")
      else if existingAgent = none then
        scanRegistrations lines (registrations ++ [(nodeId, agentId)])
      else scanRegistrations lines registrations

def maxRegistrationBytes : Nat := 2 ^ 20

/-- `_decode_registrations`, once the log is read. -/
def registrationsOf (encoded : String) (maxNodes : Int) :
    Except Raised (List (String × String)) :=
  if maxRegistrationBytes < encoded.utf8ByteSize then
    .error (.planCorrupt "initial node registrations are too large")
  else do
    let registrations ← scanRegistrations (splitLines encoded) []
    if maxNodes < registrations.length then
      .error (.planCorrupt "registered nodes exceed torchrun max_nodes")
    else .ok registrations

/-! ## The initial placement -/

def initialNodesRecord (nodeIds : List String) : List (String × Json) :=
  [("node_ids", strs nodeIds), ("schema_version", .int 1)]

/-- `tuple(_nonempty(item, "node_id") for item in items)`. -/
def nonemptyItems : List Json → Except Raised (List String)
  | [] => .ok []
  | v :: vs => do
      let s ← nonemptyField (some v) "node_id"
      let rest ← nonemptyItems vs
      .ok (s :: rest)

def decodeInitialNodes (encoded : String) (expectedCount : Option Int) :
    Except Raised (List String) :=
  match Json.loads encoded with
  | none => .error (.planCorrupt "initial node assignment is malformed")
  | some value =>
      match recordWith ["node_ids", "schema_version"] value with
      | none => .error (.planCorrupt "initial node assignment has invalid fields")
      | some ms =>
          match Json.get? "node_ids" ms with
          | some (.arr items) =>
              match nonemptyItems items with
              | .error _ =>
                  .error (.planCorrupt "initial node assignment has invalid identities")
              | .ok nodeIds =>
                  if nodeIds = [] ∨ ¬ nodeIds.Nodup then
                    .error (.planCorrupt "initial node assignment must be non-empty and unique")
                  else if expectedCount ≠ none ∧ expectedCount ≠ some (nodeIds.length : Int) then
                    .error (.planCorrupt "initial node assignment has the wrong size")
                  else if canonicalJson ms ≠ encoded then
                    .error (.planCorrupt "initial node assignment is not canonical JSON")
                  else .ok nodeIds
          | _ => .error (.planCorrupt "initial node assignment has invalid fields")

/-! ## Plans and leases -/

def decodePlan (runId encoded : String) (expectedGeneration : Int) :
    Except Raised RestartPlan :=
  match Json.loads encoded with
  | some (.obj ms) =>
      match RestartPlan.fromDict ms with
      | .error _ => .error (.planCorrupt "persisted recovery plan is malformed")
      | .ok plan =>
          if plan.toJson ≠ encoded then
            .error (.planCorrupt "persisted recovery plan is not canonical JSON")
          else if plan.runId ≠ runId ∨ plan.toGeneration ≠ expectedGeneration then
            .error (.planCorrupt "persisted recovery plan has the wrong identity")
          else .ok plan
  | _ => .error (.planCorrupt "persisted recovery plan is malformed")

def leaseRecord (remainingMs sequence : Int) : List (String × Json) :=
  [("remaining_ms", .int remainingMs), ("schema_version", .int 1), ("sequence", .int sequence)]

/-- The decoding half of `read_plan_lease`: `(sequence, remaining_ms)`. -/
def decodePlanLease (encoded : String) : Except Raised (Int × Int) :=
  match Json.loads encoded with
  | none => .error (.planCorrupt "recovery plan lease is malformed")
  | some value =>
      match recordWith ["remaining_ms", "schema_version", "sequence"] value with
      | none => .error (.planCorrupt "recovery plan lease has invalid fields")
      | some ms =>
          match Json.get? "sequence" ms, Json.get? "remaining_ms" ms with
          | some (.int sequence), some (.int remainingMs) =>
              if sequence < 1 ∨ remainingMs < 0 ∨ canonicalJson ms ≠ encoded then
                .error (.planCorrupt "recovery plan lease has invalid fields")
              else .ok (sequence, remainingMs)
          | _, _ => .error (.planCorrupt "recovery plan lease has invalid fields")

/-! ## The methods -/

/-- The attributes of a `SimpleRecoveryPlanStore`, fixed by its constructor:
the run, and the digest that names nodes and plans in keys (`_key`). -/
structure PlanStore where
  runId : String
  digest : String → String

namespace PlanStore

variable (self : PlanStore)

/-- The store operation of `__init__`. -/
def connect : StoreM Unit := do
  let _ ← compareSet .generation "" "0"
  pure ()

def currentGeneration : StoreM Int := do
  ofExcept (decodeGeneration (← get .generation))

def decodeRegistrations (maxNodes : Int) : StoreM (List (String × String)) := do
  ofExcept (registrationsOf (← get .registrations) maxNodes)

def registerNode (nodeId agentId : String) (maxNodes : Int) : StoreM Unit := do
  let nodeId ← ofExcept (nonempty nodeId "node_id")
  let agentId ← ofExcept (nonempty agentId "agent_id")
  let _ ← ofExcept (positiveInt maxNodes "max_nodes")
  let storedMaxNodes ← compareSet .maxNodes "" (Text.str maxNodes)
  if storedMaxNodes ≠ Text.str maxNodes then
    raise (.planCorrupt "torchrun agents disagree on max_nodes")
  else do
    append .registrations (canonicalJson (registrationRecord nodeId agentId) ++ "\n")
    let _ ← decodeRegistrations maxNodes
    pure ()

/-- The error that a placement other than the stored one would be. -/
def placementConflict : Raised :=
  .planCorrupt "initial node assignment conflicts with registration order"

def ensureInitialNodes (minNodes maxNodes : Int) : StoreM (Option (List String)) := do
  let _ ← ofExcept (positiveInt minNodes "min_nodes")
  let _ ← ofExcept (positiveInt maxNodes "max_nodes")
  if maxNodes < minNodes then
    raise (.valueError "max_nodes must be greater than or equal to min_nodes")
  else do
    let registrations ← decodeRegistrations maxNodes
    if (registrations.length : Int) < minNodes then pure none
    else do
      let expected := (registrations.take minNodes.toNat).map Prod.fst
      let encoded := canonicalJson (initialNodesRecord expected)
      let stored ← compareSet .initialNodes "" encoded
      let selected ← ofExcept (decodeInitialNodes stored (some minNodes))
      if selected ≠ expected then raise placementConflict else pure (some selected)

def readInitialNodes : StoreM (Option (List String)) := do
  if ← check [.initialNodes] then
    let nodeIds ← ofExcept (decodeInitialNodes (← get .initialNodes) none)
    pure (some nodeIds)
  else pure none

/-- The committed `max_nodes` of `registered_nodes`. -/
def committedMaxNodes (maxNodes : Option Int) : StoreM Int := do
  if ← check [.maxNodes] then
    ofExcept (decodePositiveInteger (← get .maxNodes) "registered max_nodes")
  else
    match maxNodes with
    | some n => do
        let n ← ofExcept (positiveInt n "max_nodes")
        let _ ← compareSet .maxNodes "" (Text.str n)
        pure n
    | none => raise (.planCorrupt "registered allocation is missing max_nodes")

def registeredNodes (maxNodes : Option Int) : StoreM (List String) := do
  let committed ← committedMaxNodes maxNodes
  if maxNodes ≠ none ∧ maxNodes ≠ some committed then
    raise (.planCorrupt "manager max_nodes does not match registered allocation")
  else do
    let registrations ← decodeRegistrations committed
    pure (registrations.map Prod.fst)

def read (generation : Int) : StoreM (Option RestartPlan) := do
  if generation < 1 then pure none
  else if ← check [.plan generation] then
    let plan ← ofExcept (decodePlan self.runId (← get (.plan generation)) generation)
    pure (some plan)
  else pure none

def conflict {α : Type} : StoreM α :=
  raise (.planConflict "another plan is committed for this generation")

/-- `cannot advance generation …`. -/
def cannotAdvance {α : Type} (plan : RestartPlan) (current : Int) : StoreM α :=
  let fromGeneration := plan.fromGeneration
  let toGeneration := plan.toGeneration
  raise (.planConflict
    (s!"cannot advance generation {fromGeneration} to {toGeneration}; " ++
      s!"current generation is {current}"))

/-- The last step of `publish`: the generation moves on to the plan's. -/
def advance (plan : RestartPlan) : StoreM Unit := do
  let current ← compareSet .generation (Text.str plan.fromGeneration)
    (Text.str plan.toGeneration)
  let observed ← ofExcept (decodeGeneration current)
  if observed ≠ plan.toGeneration then cannotAdvance plan observed else pure ()

def publish (plan : RestartPlan) : StoreM Unit := do
  if plan.runId ≠ self.runId then raise (.valueError "plan belongs to another run")
  else do
    let currentGeneration ← currentGeneration
    if currentGeneration = plan.toGeneration then do
      let committed ← self.read plan.toGeneration
      if committed ≠ some plan then conflict else pure ()
    else if currentGeneration ≠ plan.fromGeneration then cannotAdvance plan currentGeneration
    else do
      let encoded := plan.toJson
      let stored ← compareSet (.plan plan.toGeneration) "" encoded
      if stored ≠ encoded then do
        let existing ← ofExcept (decodePlan self.runId stored plan.toGeneration)
        if existing ≠ plan then conflict else advance plan
      else advance plan

/-- `_plan_lease_key`. -/
def leaseKey (plan : RestartPlan) : Key := .lease plan.toGeneration (self.digest plan.planId)

/-- `_plan_lease_sequence_key`. -/
def leaseSequenceKey (plan : RestartPlan) : Key :=
  .leaseSequence plan.toGeneration (self.digest plan.planId)

def renewPlanLease (plan : RestartPlan) (remainingMs : Int) : StoreM Int := do
  if plan.runId ≠ self.runId then raise (.valueError "plan belongs to another run")
  else if remainingMs < 0 then
    raise (.valueError "remaining_ms must be a non-negative integer")
  else do
    let committed ← self.read plan.toGeneration
    if committed ≠ some plan then
      raise (.planConflict "cannot renew an uncommitted recovery plan")
    else do
      let sequence ← add (self.leaseSequenceKey plan) 1
      if sequence < 1 then
        raise (.planCorrupt "recovery plan lease sequence is invalid")
      else do
        set (self.leaseKey plan) (canonicalJson (leaseRecord remainingMs sequence))
        pure sequence

def readPlanLease (plan : RestartPlan) : StoreM (Option (Int × Int)) := do
  if plan.runId ≠ self.runId then raise (.valueError "plan belongs to another run")
  else if ← check [self.leaseKey plan] then
    let lease ← ofExcept (decodePlanLease (← get (self.leaseKey plan)))
    pure (some lease)
  else pure none

def closeRun : StoreM Unit := set .closed "1"

end PlanStore

end LmResiliency.Torchrun
