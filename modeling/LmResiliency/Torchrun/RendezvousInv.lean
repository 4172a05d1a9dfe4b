/-
# RendezvousInv — what one handler's methods keep and establish

Every method of a handler keeps the invariant of the shared store.  Most of
them (`Keeps`) also leave the last joined generation alone, whether they
return or raise; the exception is the way to a result, which sets it.

A result rests on facts that were read at different moments: the placement
of a generation, and the ready records of its nodes.  Both are written once,
so they still hold together when the call returns.
-/
import LmResiliency.Torchrun.Methods
import LmResiliency.Torchrun.Rendezvous

namespace LmResiliency.Torchrun

open Interleave

variable {α β : Type} {R : Rules} {w : HandlerState} {s : Store}

/-- A method that leaves the last generation alone and, where it returns,
establishes `P`. -/
def Keeps (R : Rules) (P : α → Store → Prop) (m : HandlerM α) (w : HandlerState)
    (s : Store) : Prop :=
  Safe (world R) (fun x s' => x.2.lastGeneration = w.lastGeneration ∧ P x.1 s')
    (fun x _ => x.2.lastGeneration = w.lastGeneration) (m w) s

section Rules

variable {P : α → Store → Prop} {P' : β → Store → Prop}

theorem keeps_bind {m : HandlerM α} {f : α → HandlerM β} (hs : StoreInv R s)
    (h : Keeps R P m w s)
    (hf : ∀ a w' s', StoreInv R s' → (world R).Later s s' → P a s' → Keeps R P' (f a) w' s') :
    Keeps R P' (m >>= f) w s := by
  refine Safe.mbind hs (Safe.mono hs h (fun x s' _ _ hx => hx) fun x s' _ _ hx => hx) ?_
  rintro a w' s' hs' hl ⟨hw, hp⟩
  exact Safe.mono hs' (hf a w' s' hs' hl hp) (fun x _ _ _ hx => ⟨hx.1.trans hw, hx.2⟩)
    fun x _ _ _ hx => hx.trans hw

/-- A method that leaves the last generation alone, before one that may not. -/
theorem safe_keeps_bind {m : HandlerM α} {f : α → HandlerM β}
    {Q : β × HandlerState → Store → Prop} {E : Raised × HandlerState → Store → Prop}
    (hs : StoreInv R s) (h : Keeps R P m w s)
    (hE : ∀ x s', x.2.lastGeneration = w.lastGeneration → E x s')
    (hf : ∀ a w' s', StoreInv R s' → (world R).Later s s' →
      w'.lastGeneration = w.lastGeneration → P a s' → Safe (world R) Q E (f a w') s') :
    Safe (world R) Q E ((m >>= f) w) s :=
  Safe.mbind hs (Safe.mono hs h (fun _ _ _ _ hx => hx) fun x s' _ _ hx => hE x s' hx)
    fun a w' s' hs' hl hx => hf a w' s' hs' hl hx.1 hx.2

theorem keeps_pure {a : α} (h : ∀ s', (world R).Later s s' → P a s') :
    Keeps R P (pure a) w s := Safe.ret fun s' hl => ⟨rfl, h s' hl⟩

theorem keeps_raise {e : Raised} : Keeps R P (Handler.raise e) w s := Safe.raise fun _ _ => rfl

theorem keeps_halt : Keeps R P Meth.halt w s := Safe.halt

theorem keeps_store {p : StoreM α} (h : Safe (world R) P (fun _ _ => True) p s)
    (hs : StoreInv R s) : Keeps R P (Handler.store p) w s :=
  Safe.lift (Safe.mono hs h (fun _ _ _ _ hp => ⟨rfl, hp⟩) fun _ _ _ _ _ => rfl)

theorem keeps_tryCatch {m : HandlerM α} {f : Raised → HandlerM α} (hs : StoreInv R s)
    (h : Keeps R P m w s) (hf : ∀ e w' s', StoreInv R s' → Keeps R P (f e) w' s') :
    Keeps R P (Meth.tryCatch m f) w s :=
  Safe.mtryCatch hs h fun e w' s' hs' _ hw => Safe.mono hs' (hf e w' s' hs')
    (fun _ _ _ _ hx => ⟨hx.1.trans hw, hx.2⟩) fun _ _ _ _ hx => hx.trans hw

theorem keeps_assign {f : HandlerState → HandlerState}
    (hf : ∀ w, (f w).lastGeneration = w.lastGeneration) :
    Keeps R (fun _ _ => True) (Meth.assign f) w s := Safe.ret fun _ _ => ⟨hf w, trivial⟩

theorem keeps_self {f : HandlerState → HandlerM β} (h : Keeps R P' (f w) w s) :
    Keeps R P' (Meth.self >>= f) w s := h

/-- An operation on the handler's own environment. -/
theorem keeps_perform {o : Op} (hs : StoreInv R s)
    (hread : ∀ s₁ r s₂, exec s₁ o r s₂ → s₂ = s₁) :
    Keeps R (fun _ _ => True) (Handler.store (perform o)) w s :=
  keeps_store (Safe.read hs hread fun _ _ _ _ _ => Safe.ret fun _ _ => trivial) hs

theorem keeps_ite {c : Prop} [Decidable c] {m m' : HandlerM α} (h : c → Keeps R P m w s)
    (h' : ¬ c → Keeps R P m' w s) : Keeps R P (if c then m else m') w s := by
  by_cases hc : c
  · rw [if_pos hc]
    exact h hc
  · rw [if_neg hc]
    exact h' hc

end Rules

/-! ## Facts that a result rests on -/

/-- The placement of a generation: the initial one, or that of its plan. -/
def PlacementOf (g : Int) (as : List NodeAssignment) (s : Store) : Prop :=
  (g = 0 ∧ ∃ ids, Initial ids s ∧ PlacedNodes ids ∧
      as = ids.zipIdx.map fun x => ⟨(x.2 : Int), x.1⟩) ∨
    ∃ p, Committed p s ∧ p.toGeneration = g ∧
      as = p.slotAssignments.map fun a => ⟨a.logicalNodeSlot, a.nodeId⟩

theorem PlacementOf.later {g : Int} {as : List NodeAssignment} {s s' : Store}
    (hl : (world R).Later s s') (hs : StoreInv R s) (h : PlacementOf g as s) :
    PlacementOf g as s' := by
  rcases h with ⟨hg, ids, hids, h⟩ | ⟨p, hp, h⟩
  · exact .inl ⟨hg, ids, later_initial hl hs hids, h⟩
  · exact .inr ⟨p, later_committed hl hs hp, h⟩

theorem PlacementOf.unique {g : Int} {as as' : List NodeAssignment} {s : Store}
    (h : PlacementOf g as s) (h' : PlacementOf g as' s) : as = as' := by
  rcases h with ⟨hg, ids, hids, -, rfl⟩ | ⟨p, hp, hpg, rfl⟩
  · rcases h' with ⟨-, ids', hids', -, rfl⟩ | ⟨p', -, hpg', -⟩
    · rw [encodeInitialNodes_injective (Option.some.inj (hids.symm.trans hids'))]
    · have := p'.valid.toGeneration
      omega
  · rcases h' with ⟨hg', -⟩ | ⟨p', hp', hpg', rfl⟩
    · have := p.valid.toGeneration
      omega
    · rw [Committed, hpg', ← hpg] at hp'
      rw [RestartPlan.toJson_injective (Option.some.inj (hp.symm.trans hp'))]

theorem slots_zipIdx (ids : List String) :
    ((ids.zipIdx.map fun x => (⟨(x.2 : Int), x.1⟩ : NodeAssignment)).map
      NodeAssignment.logicalNodeSlot) = slotRange ids.length := by
  have hsnd : ids.zipIdx.map Prod.snd = List.range ids.length := by
    rw [List.zipIdx_map_snd, List.range_eq_range']
  rw [slotRange, ← hsnd, List.map_map, List.map_map]
  rfl

/-- The slots of a placement are the numbers from zero. -/
theorem PlacementOf.slots {g : Int} {as : List NodeAssignment} {s : Store}
    (h : PlacementOf g as s) :
    as.map NodeAssignment.logicalNodeSlot = slotRange as.length := by
  rcases h with ⟨-, ids, -, -, rfl⟩ | ⟨p, -, -, rfl⟩
  · rw [slots_zipIdx, List.length_map, List.length_zipIdx]
  · rw [List.map_map, List.length_map]
    exact p.valid.slotAssignments.slots

theorem PlacementOf.node_unique {g slot : Int} {as : List NodeAssignment} {s : Store}
    (h : PlacementOf g as s) {n n' : String} (hn : ⟨slot, n⟩ ∈ as) (hn' : ⟨slot, n'⟩ ∈ as) :
    n = n' := by
  have hnd : (as.map NodeAssignment.logicalNodeSlot).Nodup := by
    rw [h.slots]
    exact nodup_slotRange _
  exact congrArg NodeAssignment.nodeId (List.inj_on_of_nodup_map hnd hn hn' rfl)

/-- Every node of the group has written a ready record, all with one policy. -/
def ReadyGroup (self : Handler) (g : Int) (as : List NodeAssignment) (s : Store) : Prop :=
  ∃ policy, ∀ a ∈ as, ∃ v agent, s (self.readyKey g a.nodeId) = some v ∧
    decodeReady v = some (agent, policy)

theorem ReadyGroup.later {self : Handler} {g : Int} {as : List NodeAssignment} {s s' : Store}
    (hl : (world R).Later s s') (hs : StoreInv R s) (h : ReadyGroup self g as s) :
    ReadyGroup self g as s' := by
  obtain ⟨policy, h⟩ := h
  refine ⟨policy, fun a ha => ?_⟩
  obtain ⟨v, agent, hv, hdec⟩ := h a ha
  exact ⟨v, agent, later_ready hl hs hv, hdec⟩

/-! ## The texts of ready and heartbeat records -/

theorem loads_readyRecord (agentId policyDigest : String) :
    Json.loads (canonicalJson (readyRecord agentId policyDigest)) =
      some (.obj (readyRecord agentId policyDigest)) := by
  have hkeys : Json.keys (readyRecord agentId policyDigest) =
      ["agent_id", "policy_digest", "schema_version"] := rfl
  refine Json.loads_dumps_record ⟨by rw [hkeys]; decide, ?_⟩ (by rw [hkeys]; decide)
    fun m hm => ?_
  · simp only [readyRecord, Json.PlainMembers, Json.Plain, and_self]
  · simp only [readyRecord, List.mem_cons, List.not_mem_nil, or_false] at hm
    rcases hm with rfl | rfl | rfl <;> rfl

/-- The ready record of a handler gives its identities back, stripped. -/
theorem decodeReady_readyRecord (agentId policyDigest : String) :
    decodeReady (canonicalJson (readyRecord agentId policyDigest)) =
      match nonempty agentId "agent_id", nonempty policyDigest "policy_digest" with
      | .ok agentId, .ok policyDigest => some (agentId, policyDigest)
      | _, _ => none := by
  have hr : recordWith ["agent_id", "policy_digest", "schema_version"]
      (.obj (readyRecord agentId policyDigest)) = some (readyRecord agentId policyDigest) := rfl
  simp only [decodeReady, loads_readyRecord, hr]
  rfl

theorem policy_of_decodeReady {agentId policyDigest agent policy : String}
    (h : decodeReady (canonicalJson (readyRecord agentId policyDigest)) =
      some (agent, policy)) : policy = Text.strip policyDigest := by
  rw [decodeReady_readyRecord, nonempty, nonempty] at h
  by_cases ha : Text.nonBlank agentId <;> by_cases hp : Text.nonBlank policyDigest
  · rw [if_pos ha, if_pos hp] at h
    cases h
    rfl
  all_goals simp [ha, hp] at h

theorem loads_heartbeatRecord (agentId nodeId : String) (sequence : Int) :
    Json.loads (canonicalJson (heartbeatRecord agentId nodeId sequence)) =
      some (.obj (heartbeatRecord agentId nodeId sequence)) := by
  have hkeys : Json.keys (heartbeatRecord agentId nodeId sequence) =
      ["agent_id", "node_id", "sequence"] := rfl
  refine Json.loads_dumps_record ⟨by rw [hkeys]; decide, ?_⟩ (by rw [hkeys]; decide)
    fun m hm => ?_
  · simp only [heartbeatRecord, Json.PlainMembers, Json.Plain, and_self]
  · simp only [heartbeatRecord, List.mem_cons, List.not_mem_nil, or_false] at hm
    rcases hm with rfl | rfl | rfl <;> rfl

theorem decodeHeartbeat_heartbeatRecord {agentId : String} (nodeId : String) {sequence : Int}
    (hagent : agentId ≠ "") (hseq : 0 ≤ sequence) :
    decodeHeartbeat (canonicalJson (heartbeatRecord agentId nodeId sequence)) nodeId
      (some agentId) = some (agentId, sequence) := by
  have hkeys : Json.keys (heartbeatRecord agentId nodeId sequence) =
      ["agent_id", "node_id", "sequence"] := rfl
  have hnode : Json.get? "node_id" (heartbeatRecord agentId nodeId sequence) =
      some (.str nodeId) := rfl
  have hsender : Json.get? "agent_id" (heartbeatRecord agentId nodeId sequence) =
      some (.str agentId) := rfl
  have hnumber : Json.get? "sequence" (heartbeatRecord agentId nodeId sequence) =
      some (.int sequence) := rfl
  simp only [decodeHeartbeat, loads_heartbeatRecord, hkeys, hnode, hsender, hnumber]
  rw [if_pos ⟨fun _ h => h, fun _ h => h⟩, if_neg]
  rintro (h | h | ⟨-, h⟩ | h)
  · exact h rfl
  · exact hagent h
  · exact h rfl
  · omega

/-! ## The methods -/

namespace Handler

variable (self : Handler)

theorem keeps_clock (hs : StoreInv R s) : Keeps R (fun _ _ => True) clock w s :=
  keeps_perform (o := .clock) hs fun _ _ _ h => h

theorem keeps_wait (hs : StoreInv R s) : Keeps R (fun _ _ => True) wait w s :=
  keeps_perform (o := .wait) hs fun _ _ _ h => h

theorem keeps_check {ks : List Key} (hs : StoreInv R s) :
    Keeps R (fun _ _ => True) (store (check ks)) w s :=
  keeps_perform (o := .check ks) hs fun _ _ _ h => h.1

theorem keeps_currentGeneration (hs : StoreInv R s) :
    Keeps R (fun _ _ => True) (store PlanStore.currentGeneration) w s :=
  keeps_store (Safe.mono hs (PlanStore.safe_currentGeneration (E := fun _ _ => True) hs
    fun _ _ => trivial) (fun _ _ _ _ _ => trivial) fun _ _ _ _ _ => trivial) hs

theorem keeps_raiseIfClosed (hs : StoreInv R s) :
    Keeps R (fun _ _ => True) raiseIfClosed w s := by
  refine keeps_bind hs (keeps_perform (o := .closedFlag) hs fun _ _ _ h => h)
    fun b w₁ s₁ hs₁ _ _ => ?_
  refine keeps_ite (fun _ => keeps_raise) fun _ => ?_
  refine keeps_bind hs₁ (keeps_check hs₁) fun b w₂ s₂ _ _ _ => ?_
  exact keeps_ite (fun _ => keeps_raise) fun _ => keeps_pure fun _ _ => trivial

theorem keeps_raiseHeartbeatError (hs : StoreInv R s) :
    Keeps R (fun _ _ => True) raiseHeartbeatError w s := by
  refine keeps_bind hs (keeps_perform (o := .heartbeatError) hs fun _ _ _ h => h)
    fun b w₁ s₁ _ _ _ => ?_
  exact keeps_ite (fun _ => keeps_raise) fun _ => keeps_pure fun _ _ => trivial

theorem keeps_planLeaseIsLive {p : RestartPlan} (hs : StoreInv R s) :
    Keeps R (fun _ _ => True) (self.planLeaseIsLive p) w s := by
  refine keeps_bind (P := fun _ _ => True) hs (keeps_store (PlanStore.safe_readPlanLease
    self.plans hs (fun _ _ => trivial) fun _ _ => trivial) hs) fun lease w₁ s₁ hs₁ _ _ => ?_
  cases lease with
  | none => exact keeps_pure fun _ _ => trivial
  | some lease =>
      obtain ⟨sequence, remainingMs⟩ := lease
      refine keeps_bind hs₁ (keeps_clock hs₁) fun now w₂ s₂ hs₂ _ _ => ?_
      refine keeps_ite (fun _ => keeps_raise) fun _ => keeps_self ?_
      refine keeps_bind (P := fun _ _ => True) hs₂ ?_ fun seen w₃ s₃ hs₃ _ _ => ?_
      · cases observeLease self.config.heartbeatTimeoutMs _ sequence remainingMs now with
        | ok a => exact keeps_pure fun _ _ => trivial
        | error e => exact keeps_raise
      · obtain ⟨live, o⟩ := seen
        cases o with
        | none => exact keeps_pure fun _ _ => trivial
        | some o =>
            exact keeps_bind hs₃ (keeps_assign fun _ => rfl) fun _ _ _ _ _ _ =>
              keeps_pure fun _ _ => trivial

theorem keeps_checkPlanLease {p : RestartPlan} (hs : StoreInv R s) :
    Keeps R (fun _ _ => True) (self.checkPlanLease p) w s := by
  refine keeps_bind hs (keeps_planLeaseIsLive self hs) fun b w₁ s₁ _ _ _ => ?_
  exact keeps_ite (fun _ => keeps_pure fun _ _ => trivial) fun _ => keeps_raise

/-- The lease check that a generation without a plan does without. -/
theorem keeps_checkLease {plan : Option RestartPlan} (hs : StoreInv R s) :
    Keeps R (fun _ _ => True) (self.checkLease plan) w s := by
  cases plan with
  | none => exact keeps_pure fun _ _ => trivial
  | some p => exact keeps_checkPlanLease self hs

theorem keeps_heartbeatIsLive {nodeId : String} {agentId : Option String} (hs : StoreInv R s) :
    Keeps R (fun _ _ => True) (self.heartbeatIsLive nodeId agentId) w s := by
  refine keeps_bind hs (keeps_check hs) fun b w₁ s₁ hs₁ _ _ => ?_
  refine keeps_ite (fun _ => ?_) fun _ => keeps_pure fun _ _ => trivial
  refine keeps_bind (P := fun _ _ => True) hs₁ (keeps_store ?_ hs₁)
    fun encoded w₂ s₂ hs₂ _ _ => ?_
  · have hget := safe_get (R := R) (k := self.heartbeatKey nodeId)
      (f := (pure : String → StoreM String)) (Q := fun _ _ => True) (E := fun _ _ => True) hs₁
      (fun _ _ _ _ _ => safe_ret fun _ _ => trivial) fun _ _ => trivial
    rwa [bind_pure] at hget
  cases decodeHeartbeat encoded nodeId agentId with
  | none => exact keeps_pure fun _ _ => trivial
  | some beat =>
      obtain ⟨observed, sequence⟩ := beat
      refine keeps_bind hs₂ (keeps_clock hs₂) fun now w₃ s₃ hs₃ _ _ => ?_
      refine keeps_ite (fun _ => keeps_pure fun _ _ => trivial) fun _ => keeps_self ?_
      obtain ⟨live, o⟩ := observeHeartbeat self.config.heartbeatTimeoutMs
        (w₃.heartbeatObservations.lookup nodeId) observed sequence now
      cases o with
      | none => exact keeps_pure fun _ _ => trivial
      | some o =>
          exact keeps_bind hs₃ (keeps_assign fun _ => rfl) fun _ _ _ _ _ _ =>
            keeps_pure fun _ _ => trivial

/-- A ready record that was read is there, and stays. -/
theorem keeps_readyAgentRecord {g : Int} {nodeId : String} (hs : StoreInv R s) :
    Keeps R (fun r s' => ∃ v, s' (self.readyKey g nodeId) = some v ∧ r = decodeReady v)
      (self.readyAgentRecord g nodeId) w s := by
  refine keeps_bind (P := fun v s' => s' (self.readyKey g nodeId) = some v) hs
    (keeps_store ?_ hs) fun v w₁ s₁ hs₁ _ hv => ?_
  · have hget := safe_get (R := R) (k := self.readyKey g nodeId)
      (f := (pure : String → StoreM String))
      (Q := fun v s' => s' (self.readyKey g nodeId) = some v) (E := fun _ _ => True) hs
      (fun s₁ v hs₁ _ hv => safe_ret fun s' hl => later_ready hl hs₁ hv) fun _ _ => trivial
    rwa [bind_pure] at hget
  · exact keeps_pure fun s' hl => ⟨v, later_ready hl hs₁ hv, rfl⟩

theorem keeps_readyRecords {g : Int} : ∀ {as : List NodeAssignment} {w : HandlerState}
    {s : Store}, StoreInv R s →
    Keeps R (fun rs s' => ∀ a ∈ as,
        ∃ v, s' (self.readyKey g a.nodeId) = some v ∧ decodeReady v ∈ rs)
      (self.readyRecords g as) w s
  | [], _, _, _ => keeps_pure fun _ _ _ ha => by cases ha
  | a :: as, _, _, hs => by
      refine keeps_bind hs (keeps_readyAgentRecord self hs) fun r w₁ s₁ hs₁ _ hr => ?_
      refine keeps_bind hs₁ (keeps_readyRecords hs₁) fun rs w₂ s₂ hs₂ hl₂ hrs => ?_
      refine keeps_pure fun s' hl b hb => ?_
      rcases List.mem_cons.mp hb with rfl | hb
      · obtain ⟨v, hv, rfl⟩ := hr
        exact ⟨v, later_ready (hl₂.trans hl) hs₁ hv, List.mem_cons_self⟩
      · obtain ⟨v, hv, hmem⟩ := hrs b hb
        exact ⟨v, later_ready hl hs₂ hv, List.mem_cons_of_mem _ hmem⟩

theorem keeps_heartbeatStates : ∀ {xs : List (NodeAssignment × String × String)}
    {w : HandlerState} {s : Store}, StoreInv R s →
    Keeps R (fun _ _ => True) (self.heartbeatStates xs) w s
  | [], _, _, _ => keeps_pure fun _ _ => trivial
  | (a, record) :: xs, _, _, hs => by
      refine keeps_bind hs (keeps_heartbeatIsLive self hs) fun b w₁ s₁ hs₁ _ _ => ?_
      refine keeps_bind hs₁ (keeps_heartbeatStates hs₁) fun bs w₂ s₂ _ _ _ => ?_
      exact keeps_pure fun _ _ => trivial

theorem one_policy {records : List (Option (String × String))}
    (hall : (records.filterMap id).length = records.length)
    (hone : ((records.filterMap id).map Prod.snd).eraseDups.length = 1) :
    ∃ policy, ∀ r ∈ records, ∃ agent, r = some (agent, policy) := by
  obtain ⟨policy, hpolicy⟩ := List.length_eq_one_iff.mp hone
  refine ⟨policy, fun r hr => ?_⟩
  have hsome : ∀ r ∈ records, (id r).isSome = true :=
    List.filterMap_length_eq_length.mp hall
  obtain ⟨⟨agent, policy'⟩, hp⟩ := Option.isSome_iff_exists.mp (hsome r hr)
  obtain rfl : r = some (agent, policy') := hp
  have hmem : policy' ∈ ((records.filterMap id).map Prod.snd).eraseDups :=
    List.mem_eraseDups.mpr (List.mem_map.mpr
      ⟨(agent, policy'), List.mem_filterMap.mpr ⟨_, hr, rfl⟩, rfl⟩)
  rw [hpolicy, List.mem_singleton] at hmem
  exact ⟨agent, by rw [hmem]⟩

theorem keeps_groupIsReady {as : List NodeAssignment}
    {records : List (Option (String × String))} (hs : StoreInv R s) :
    Keeps R (fun b _ => b = true →
        ∃ policy, ∀ r ∈ records, ∃ agent, r = some (agent, policy))
      (self.groupIsReady as records) w s := by
  refine keeps_ite (fun hall => ?_) fun _ => keeps_pure fun _ _ h => by cases h
  refine keeps_ite (fun _ => keeps_raise) fun hone => ?_
  refine keeps_bind hs (keeps_heartbeatStates self hs) fun _ _ _ _ _ _ => ?_
  exact keeps_pure fun _ _ _ => one_policy hall (not_not.mp hone)

/-- A complete group has announced itself. -/
theorem keeps_lookAtGroup {g : Int} {as : List NodeAssignment} (hs : StoreInv R s) :
    Keeps R (fun b s' => b = true → ReadyGroup self g as s') (self.lookAtGroup g as) w s := by
  refine keeps_bind hs (keeps_check hs) fun present w₁ s₁ hs₁ _ _ => ?_
  refine keeps_ite (fun _ => ?_) fun _ => keeps_pure fun _ _ h => by cases h
  refine keeps_bind hs₁ (keeps_readyRecords self hs₁) fun records w₂ s₂ hs₂ _ hrs => ?_
  refine Safe.mono hs₂ (keeps_groupIsReady self hs₂)
    (fun x s' _ hl hx => ⟨hx.1, fun hb => ?_⟩) fun _ _ _ _ hx => hx
  obtain ⟨policy, hp⟩ := hx.2 hb
  refine ⟨policy, fun a ha => ?_⟩
  obtain ⟨v, hv, hmem⟩ := hrs a ha
  obtain ⟨agent, hdec⟩ := hp _ hmem
  exact ⟨v, agent, later_ready hl hs₂ hv, hdec⟩

theorem keeps_waitForGroup {g : Int} {as : List NodeAssignment} {deadline : ℚ}
    {plan : Option RestartPlan} (budget : Nat) :
    ∀ {w : HandlerState} {s : Store}, StoreInv R s →
      Keeps R (fun b s' => b = true → ReadyGroup self g as s')
        (self.waitForGroup g as deadline plan budget) w s := by
  induction budget with
  | zero => exact fun _ => keeps_halt
  | succ budget ih =>
      intro w s hs
      refine keeps_bind hs (keeps_raiseIfClosed hs) fun _ w₁ s₁ hs₁ _ _ => ?_
      refine keeps_bind hs₁ (keeps_raiseHeartbeatError hs₁) fun _ w₂ s₂ hs₂ _ _ => ?_
      refine keeps_bind hs₂ (keeps_currentGeneration hs₂) fun g' w₃ s₃ hs₃ _ _ => ?_
      refine keeps_ite (fun _ => keeps_pure fun _ _ h => by cases h) fun _ => ?_
      refine keeps_bind hs₃ (keeps_checkLease self hs₃) fun _ w₄ s₄ hs₄ _ _ => ?_
      refine keeps_bind hs₄ (keeps_lookAtGroup self hs₄) fun ready w₅ s₅ hs₅ _ hready => ?_
      refine keeps_ite (fun hb => keeps_pure fun s' hl _ => (hready hb).later hl hs₅)
        fun _ => ?_
      refine keeps_bind hs₅ (keeps_clock hs₅) fun now w₆ s₆ hs₆ _ _ => ?_
      refine keeps_ite (fun _ => keeps_raise) fun _ => ?_
      exact keeps_bind hs₆ (keeps_wait hs₆) fun _ _ _ hs₇ _ _ => ih hs₇

theorem keeps_waitForPlanLease {p : RestartPlan} {deadline : ℚ} (budget : Nat) :
    ∀ {w : HandlerState} {s : Store}, StoreInv R s →
      Keeps R (fun _ _ => True) (self.waitForPlanLease p deadline budget) w s := by
  induction budget with
  | zero => exact fun _ => keeps_halt
  | succ budget ih =>
      intro w s hs
      refine keeps_bind hs (keeps_raiseIfClosed hs) fun _ w₁ s₁ hs₁ _ _ => ?_
      refine keeps_bind hs₁ (keeps_raiseHeartbeatError hs₁) fun _ w₂ s₂ hs₂ _ _ => ?_
      refine keeps_bind hs₂ (keeps_currentGeneration hs₂) fun g' w₃ s₃ hs₃ _ _ => ?_
      refine keeps_ite (fun _ => keeps_pure fun _ _ => trivial) fun _ => ?_
      refine keeps_bind hs₃ (keeps_planLeaseIsLive self hs₃) fun live w₄ s₄ hs₄ _ _ => ?_
      refine keeps_ite (fun _ => keeps_pure fun _ _ => trivial) fun _ => ?_
      refine keeps_bind hs₄ (keeps_clock hs₄) fun now w₅ s₅ hs₅ _ _ => ?_
      refine keeps_ite (fun _ => keeps_raise) fun _ => ?_
      exact keeps_bind hs₅ (keeps_wait hs₅) fun _ _ _ hs₆ _ _ => ih hs₆

/-- `_assignment` returns the placement of the generation. -/
theorem keeps_assignment {g : Int} {plan : Option RestartPlan} (hs : StoreInv R s)
    (hplan : ∀ p, plan = some p → Committed p s ∧ p.toGeneration = g) :
    Keeps R (fun r s' => ∀ as, r = some as → PlacementOf g as s') (self.assignment g plan) w s := by
  refine keeps_ite (fun h0 => ?_) fun _ => ?_
  · refine keeps_bind hs (keeps_store (Safe.mono hs (PlanStore.safe_ensureInitialNodes
      (E := fun _ _ => True) hs fun _ _ _ => trivial) (fun _ _ _ _ h => h)
      fun _ _ _ _ _ => trivial) hs) fun r w₁ s₁ hs₁ _ hr => ?_
    refine keeps_pure fun s' hl as has => ?_
    obtain ⟨ids, rfl, rfl⟩ := Option.map_eq_some_iff.mp has
    obtain ⟨hids, hplaced, -⟩ := hr ids rfl
    exact .inl ⟨h0, ids, later_initial hl hs₁ hids, hplaced, rfl⟩
  · cases plan with
    | none => exact keeps_raise
    | some p =>
        refine keeps_pure fun s' hl as has => ?_
        obtain ⟨hc, hto⟩ := hplan p rfl
        cases has
        exact .inr ⟨p, later_committed hl hs hc, hto, rfl⟩

theorem keeps_buildBootstrap {g slot : Int} {deadline : ℚ} (hs : StoreInv R s) :
    Keeps R (fun _ _ => True) (buildBootstrap g slot deadline) w s := by
  refine keeps_bind hs (keeps_clock hs) fun now w₁ s₁ hs₁ _ _ => ?_
  refine keeps_ite (fun _ => keeps_raise) fun _ => ?_
  refine keeps_bind (P := fun _ _ => True) hs₁ (keeps_store ?_ hs₁) fun built w₂ s₂ _ _ _ => ?_
  · refine Safe.write hs₁ (fun s r s' hs _ hx => moves_of_agree hs fun k hk => ?_)
      fun _ _ _ _ _ _ _ _ => Safe.ret fun _ _ => trivial
    exact hx k fun name hkey => hk (by rw [hkey]; trivial)
  · cases built with
    | ok info => exact keeps_pure fun _ _ => trivial
    | error e => exact keeps_raise

theorem keeps_clearContext (hs : StoreInv R s) : Keeps R (fun _ _ => True) clearContext w s := by
  refine keeps_bind hs (keeps_perform (o := .clearContext) hs fun _ _ _ h => h)
    fun r w₁ s₁ _ _ _ => ?_
  cases r with
  | ok _ => exact keeps_pure fun _ _ => trivial
  | error e => cases e <;> exact keeps_raise

theorem keeps_publishContext {p : RestartPlan} (hs : StoreInv R s) :
    Keeps R (fun _ _ => True) (self.publishContext p) w s := by
  refine keeps_bind hs (keeps_checkPlanLease self hs) fun _ w₁ s₁ hs₁ _ _ => ?_
  refine keeps_bind (P := fun _ _ => True) hs₁ (keeps_self ?_) fun deadline w₂ s₂ hs₂ _ _ => ?_
  · cases w₁.planLeaseObservations.lookup (p.toGeneration, p.planId) with
    | none => exact keeps_raise
    | some o => exact keeps_ite (fun _ => keeps_pure fun _ _ => trivial) fun _ => keeps_raise
  · cases RestartContext.fromPlan p self.config.nodeId deadline with
    | error e => exact keeps_raise
    | ok context =>
        refine keeps_bind hs₂ (keeps_perform (o := .writeContext context) hs₂
          fun _ _ _ h => h) fun r w₃ s₃ _ _ _ => ?_
        cases r with
        | ok _ => exact keeps_pure fun _ _ => trivial
        | error e => cases e <;> exact keeps_raise

theorem keeps_liveNodes : ∀ {ns : List String} {w : HandlerState} {s : Store}, StoreInv R s →
    Keeps R (fun _ _ => True) (self.liveNodes ns) w s
  | [], _, _, _ => keeps_pure fun _ _ => trivial
  | n :: ns, _, _, hs => by
      refine keeps_bind hs (keeps_heartbeatIsLive self hs) fun b w₁ s₁ hs₁ _ _ => ?_
      exact keeps_bind hs₁ (keeps_liveNodes hs₁) fun _ _ _ _ _ _ => keeps_pure fun _ _ => trivial

theorem keeps_publishContextOf {plan : Option RestartPlan} (hs : StoreInv R s) :
    Keeps R (fun _ _ => True) (self.publishContextOf plan) w s := by
  cases plan with
  | none => exact keeps_pure fun _ _ => trivial
  | some p => exact keeps_publishContext self hs

/-! ## The way to a result -/

/-- The way from a complete group: the generation is the last one from here
on, also where the bootstrap fails. -/
theorem safe_join {g slot : Int} {as : List NodeAssignment} {deadline : ℚ}
    {plan : Option RestartPlan} (hs : StoreInv R s) :
    Safe (world R)
      (fun x _ => x.1.generation = g ∧ x.1.rank = slot ∧ x.1.worldSize = (as.length : Int) ∧
        x.2.lastGeneration = some g)
      (fun x _ => x.2.lastGeneration = w.lastGeneration ∨ x.2.lastGeneration = some g)
      (self.join g slot as deadline plan w) s := by
  refine safe_keeps_bind hs (keeps_checkLease self hs) (fun _ _ hx => .inl hx)
    fun _ w₁ s₁ hs₁ _ _ _ => ?_
  have hrest : Keeps R (fun (info : RendezvousInfo) _ => info.generation = g ∧
      info.rank = slot ∧ info.worldSize = (as.length : Int))
      (do
        let bootstrap ← buildBootstrap g slot deadline
        self.publishContextOf plan
        pure ⟨g, slot, as.length, bootstrap⟩)
      { w₁ with lastGeneration := some g, lastAssignment := as } s₁ := by
    refine keeps_bind hs₁ (keeps_buildBootstrap hs₁) fun bootstrap w₂ s₂ hs₂ _ _ => ?_
    refine keeps_bind hs₂ (keeps_publishContextOf self hs₂) fun _ _ _ _ _ _ => ?_
    exact keeps_pure fun _ _ => ⟨rfl, rfl, rfl⟩
  exact Safe.mono hs₁ hrest (fun x _ _ _ hx => ⟨hx.2.1, hx.2.2.1, hx.2.2.2, hx.1⟩)
    fun _ _ _ _ hx => .inr hx

theorem keeps_set {k : Key} {v : String} (hs : StoreInv R s)
    (hput : ∀ s₁, StoreInv R s₁ → MayPut R s₁ k v) :
    Keeps R (fun _ _ => True) (store (set k v)) w s := by
  refine keeps_store ?_ hs
  have hset := safe_set (R := R) (f := (pure : Unit → StoreM Unit)) (Q := fun _ _ => True)
    (E := fun _ _ => True) hs (fun s₁ hs₁ _ => hput s₁ hs₁)
    fun _ _ _ _ => safe_ret fun _ _ => trivial
  rwa [bind_pure] at hset

/-- The lease that a group waits for, or the context that generation zero clears. -/
theorem keeps_leased (budget : Nat) {g : Int} {plan : Option RestartPlan} {deadline : ℚ}
    (hs : StoreInv R s) :
    Keeps R (fun _ _ => True) (self.leased budget g plan deadline) w s := by
  refine keeps_ite (fun _ => ?_) fun _ => ?_
  · exact keeps_bind hs (keeps_clearContext hs) fun _ _ _ _ _ _ => keeps_pure fun _ _ => trivial
  · cases plan with
    | none => exact keeps_raise
    | some p => exact keeps_waitForPlanLease self budget hs

/-- An announcement: either the generation moved on and nothing is known, or
the group was complete and its generation is the last one. -/
theorem safe_announce (budget : Nat) {g slot : Int} {as : List NodeAssignment}
    {plan : Option RestartPlan} (hs : StoreInv R s)
    (hown : R.owner (self.plans.digest self.config.nodeId) self.readyText) :
    Safe (world R)
      (fun x s' => (x.1 = none ∧ x.2.lastGeneration = w.lastGeneration) ∨
        ∃ info, x.1 = some info ∧ info.generation = g ∧ info.rank = slot ∧
          info.worldSize = (as.length : Int) ∧ x.2.lastGeneration = some g ∧
          ReadyGroup self g as s')
      (fun x _ => x.2.lastGeneration = w.lastGeneration ∨ x.2.lastGeneration = some g)
      (self.announce budget g slot as plan w) s := by
  have hnone : ∀ {w' : HandlerState} {s'}, w'.lastGeneration = w.lastGeneration →
      Safe (world R) (fun x s' => (x.1 = none ∧ x.2.lastGeneration = w.lastGeneration) ∨
        ∃ info, x.1 = some info ∧ info.generation = g ∧ info.rank = slot ∧
          info.worldSize = (as.length : Int) ∧ x.2.lastGeneration = some g ∧
          ReadyGroup self g as s')
        (fun x _ => x.2.lastGeneration = w.lastGeneration ∨ x.2.lastGeneration = some g)
        ((pure none : HandlerM (Option RendezvousInfo)) w') s' := fun hw =>
    Safe.ret fun _ _ => .inl ⟨rfl, hw⟩
  refine safe_keeps_bind hs (keeps_clock hs) (fun _ _ hx => .inl hx)
    fun now w₁ s₁ hs₁ _ hw₁ _ => ?_
  refine safe_keeps_bind hs₁ (keeps_leased self budget hs₁) (fun _ _ hx => .inl (hx.trans hw₁))
    fun b w₂ s₂ hs₂ _ hw₂ _ => ?_
  cases b with
  | false => exact hnone (hw₂.trans hw₁)
  | true =>
      refine safe_keeps_bind hs₂ (keeps_set hs₂ fun _ _ => hown)
        (fun _ _ hx => .inl (hx.trans (hw₂.trans hw₁))) fun _ w₃ s₃ hs₃ _ hw₃ _ => ?_
      refine safe_keeps_bind hs₃ (keeps_waitForGroup self budget hs₃)
        (fun _ _ hx => .inl (hx.trans (hw₃.trans (hw₂.trans hw₁))))
        fun b w₄ s₄ hs₄ _ hw₄ hready => ?_
      cases b with
      | false => exact hnone (hw₄.trans (hw₃.trans (hw₂.trans hw₁)))
      | true =>
          have hw : w₄.lastGeneration = w.lastGeneration :=
            hw₄.trans (hw₃.trans (hw₂.trans hw₁))
          refine safe_keeps_bind hs₄ (keeps_currentGeneration hs₄)
            (fun _ _ hx => .inl (hx.trans hw)) fun g' w₅ s₅ hs₅ hl₅ hw₅ _ => ?_
          by_cases hg : g' ≠ g
          · rw [if_pos hg]
            exact hnone (hw₅.trans hw)
          · rw [if_neg hg]
            refine Safe.mbind hs₅ (Safe.mono hs₅ (safe_join self hs₅)
              (fun _ _ _ _ hx => hx) fun _ _ _ _ hx => hx.imp (·.trans (hw₅.trans hw)) id)
              fun info w₆ s₆ hs₆ hl₆ hinfo => Safe.ret fun s' hl => .inr ?_
            obtain ⟨h₁, h₂, h₃, h₄⟩ := hinfo
            exact ⟨info, rfl, h₁, h₂, h₃, h₄,
              (hready rfl).later (hl₅.trans (hl₆.trans hl)) hs₄⟩

/-- The last generation of a handler only moves forward. -/
def Advances (w w' : HandlerState) : Prop :=
  w'.lastGeneration = w.lastGeneration ∨
    ∃ g, w'.lastGeneration = some g ∧ ∀ last ∈ w.lastGeneration, last < g

/-- What a result of `next_rendezvous` says of the store. -/
def Joined (info : RendezvousInfo) (s : Store) : Prop :=
  ∃ as, PlacementOf info.generation as s ∧ info.worldSize = (as.length : Int) ∧
    ⟨info.rank, self.config.nodeId⟩ ∈ as ∧ ReadyGroup self info.generation as s

theorem Joined.later {self : Handler} {info : RendezvousInfo} {s s' : Store}
    (hl : (world R).Later s s') (hs : StoreInv R s) (h : self.Joined info s) :
    self.Joined info s' := by
  obtain ⟨as, hplaced, hsize, hmem, hready⟩ := h
  exact ⟨as, hplaced.later hl hs, hsize, hmem, hready.later hl hs⟩

/-- A way to a result, seen from the state `w` that the call started with: a
result is joined and past `w`, and an exception leaves the last generation
where it was or further on. -/
def Enters (R : Rules) (w : HandlerState) (m : HandlerM RendezvousInfo) (w' : HandlerState)
    (s : Store) : Prop :=
  Safe (world R)
    (fun x s' => self.Joined x.1 s' ∧ x.2.lastGeneration = some x.1.generation ∧
      ∀ last ∈ w.lastGeneration, last < x.1.generation)
    (fun x _ => Advances w x.2) (m w') s

theorem enters_bind {m : HandlerM α} {f : α → HandlerM RendezvousInfo} {w w' : HandlerState}
    {P : α → Store → Prop} (hs : StoreInv R s) (hw : w'.lastGeneration = w.lastGeneration)
    (h : Keeps R P m w' s)
    (hf : ∀ a w'' s', StoreInv R s' → (world R).Later s s' →
      w''.lastGeneration = w.lastGeneration → P a s' → self.Enters R w (f a) w'' s') :
    self.Enters R w (m >>= f) w' s :=
  safe_keeps_bind hs h (fun _ _ hx => .inl (hx.trans hw))
    fun a w'' s' hs' hl hw' hp => hf a w'' s' hs' hl (hw'.trans hw) hp

theorem enters_raise {e : Raised} {w w' : HandlerState}
    (hw : w'.lastGeneration = w.lastGeneration) : self.Enters R w (raise e) w' s :=
  Safe.raise fun _ _ => .inl hw

theorem enters_ite {c : Prop} [Decidable c] {m m' : HandlerM RendezvousInfo}
    {w w' : HandlerState} (h : c → self.Enters R w m w' s)
    (h' : ¬ c → self.Enters R w m' w' s) : self.Enters R w (if c then m else m') w' s := by
  by_cases hc : c
  · rw [if_pos hc]
    exact h hc
  · rw [if_neg hc]
    exact h' hc

/-- Another round of the loop, until the admission deadline. -/
theorem enters_retry {message : String} {admissionDeadline : ℚ} {m : HandlerM RendezvousInfo}
    {w w' : HandlerState} (hs : StoreInv R s) (hw : w'.lastGeneration = w.lastGeneration)
    (hm : ∀ w'' s', StoreInv R s' → w''.lastGeneration = w.lastGeneration →
      self.Enters R w m w'' s') :
    self.Enters R w
      (do
        if admissionDeadline ≤ (← clock) then raise (.rendezvousTimeout message)
        else do
          wait
          m) w' s := by
  refine enters_bind self hs hw (keeps_clock hs) fun now w₁ s₁ hs₁ _ hw₁ _ => ?_
  refine enters_ite self (fun _ => enters_raise self hw₁) fun _ => ?_
  exact enters_bind self hs₁ hw₁ (keeps_wait hs₁) fun _ w₂ s₂ hs₂ _ hw₂ _ => hm w₂ s₂ hs₂ hw₂

/-- The announcement of an assigned node, for a generation past the last one. -/
theorem enters_announce (budget : Nat) {g : Int} {as : List NodeAssignment}
    {item : NodeAssignment} {plan : Option RestartPlan} {m : HandlerM RendezvousInfo}
    {w w' : HandlerState} (hs : StoreInv R s) (hw : w'.lastGeneration = w.lastGeneration)
    (hown : R.owner (self.plans.digest self.config.nodeId) self.readyText)
    (hlast : ∀ last ∈ w.lastGeneration, last < g) (hplaced : PlacementOf g as s)
    (hitem : item ∈ as) (hnode : item.nodeId = self.config.nodeId)
    (hm : ∀ w'' s', StoreInv R s' → w''.lastGeneration = w.lastGeneration →
      self.Enters R w m w'' s') :
    self.Enters R w
      (do
        let joined ← self.announce budget g item.logicalNodeSlot as plan
        match joined with
        | some info => pure info
        | none => m) w' s := by
  refine Safe.mbind hs (Safe.mono hs (safe_announce self budget hs hown)
    (fun _ _ _ _ hx => hx) fun x _ _ _ hx => ?_) fun joined w₁ s₁ hs₁ hl₁ hjoined => ?_
  · exact hx.imp (·.trans hw) fun hg => ⟨g, hg, hlast⟩
  · rcases hjoined with ⟨rfl, hw₁⟩ | ⟨info, rfl, rfl, hrank, hsize, hlast₁, hready⟩
    · exact hm w₁ s₁ hs₁ (hw₁.trans hw)
    · refine Safe.ret fun s' hl => ⟨⟨as, hplaced.later (hl₁.trans hl) hs, hsize, ?_,
        hready.later hl hs₁⟩, hlast₁, hlast⟩
      rw [hrank, ← hnode]
      exact hitem

/-- **A rendezvous** joins the placement of its generation, as the node of its
rank, and leaves every earlier generation behind. -/
theorem enters_nextRendezvousFrom (budget : Nat) {admissionDeadline : ℚ}
    (hown : R.owner (self.plans.digest self.config.nodeId) self.readyText) {w : HandlerState}
    (n : Nat) :
    ∀ {w' : HandlerState} {s : Store}, StoreInv R s → w'.lastGeneration = w.lastGeneration →
      self.Enters R w (self.nextRendezvousFrom admissionDeadline budget n) w' s := by
  induction n with
  | zero => exact fun _ _ => Safe.halt
  | succ n ih =>
      intro w' s hs hw
      refine enters_bind self hs hw (keeps_raiseIfClosed hs) fun _ w₁ s₁ hs₁ _ hw₁ _ => ?_
      refine enters_bind self hs₁ hw₁ (keeps_raiseHeartbeatError hs₁)
        fun _ w₂ s₂ hs₂ _ hw₂ _ => ?_
      refine enters_bind self hs₂ hw₂ (keeps_currentGeneration hs₂)
        fun g w₃ s₃ hs₃ _ hw₃ _ => ?_
      refine enters_ite self (fun _ => enters_retry self hs₃ hw₃ fun _ _ => ih)
        fun hlast => ?_
      have hpast : ∀ last ∈ w.lastGeneration, last < g := fun last hl =>
        not_le.mp fun hle => hlast ⟨last, hw₃ ▸ hl, hle⟩
      refine enters_bind self hs₃ hw₃ (keeps_store (PlanStore.safe_read self.plans hs₃
        fun _ _ => trivial) hs₃) fun plan w₄ s₄ hs₄ _ hw₄ hplan => ?_
      refine enters_bind self hs₄ hw₄ (keeps_assignment self hs₄ hplan)
        fun assigned w₅ s₅ hs₅ _ hw₅ hplaced => ?_
      cases assigned with
      | none => exact enters_retry self hs₅ hw₅ fun _ _ => ih
      | some as =>
          dsimp only
          cases hitem : as.find? fun a => a.nodeId = self.config.nodeId with
          | none =>
              exact enters_bind self hs₅ hw₅ (keeps_wait hs₅) fun _ _ _ hs₆ _ hw₆ _ =>
                ih hs₆ hw₆
          | some item =>
              have hnode := List.find?_some hitem
              exact enters_announce self budget hs₅ hw₅ hown hpast (hplaced as rfl)
                (List.mem_of_find?_eq_some hitem) (by simpa using hnode) fun _ _ => ih

theorem enters_nextRendezvous (budget : Nat) {w : HandlerState} (hs : StoreInv R s)
    (hown : R.owner (self.plans.digest self.config.nodeId) self.readyText) :
    self.Enters R w (self.nextRendezvous budget) w s :=
  enters_bind self hs rfl (keeps_clock hs) fun _ _ _ hs₁ _ hw₁ _ =>
    enters_nextRendezvousFrom self budget hown budget hs₁ hw₁

/-! ## The other methods -/

theorem keeps_numNodesWaiting (hs : StoreInv R s) :
    Keeps R (fun _ _ => True) self.numNodesWaiting w s := by
  refine keeps_self ?_
  cases w.lastGeneration with
  | none => exact keeps_pure fun _ _ => trivial
  | some last =>
      refine keeps_tryCatch hs ?_ fun e w₁ s₁ _ => ?_
      · refine keeps_bind hs (keeps_currentGeneration hs) fun g w₁ s₁ hs₁ _ _ => ?_
        refine keeps_ite (fun _ => keeps_pure fun _ _ => trivial) fun _ => ?_
        refine keeps_bind (P := fun _ _ => True) hs₁ (keeps_store (Safe.mono hs₁
          (PlanStore.safe_read self.plans hs₁ fun _ _ => trivial) (fun _ _ _ _ _ => trivial)
          fun _ _ _ _ _ => trivial) hs₁) fun plan w₂ s₂ hs₂ _ _ => ?_
        cases plan with
        | none => exact keeps_pure fun _ _ => trivial
        | some p =>
            refine keeps_bind hs₂ (keeps_planLeaseIsLive self hs₂) fun live w₃ s₃ hs₃ _ _ => ?_
            refine keeps_ite (fun _ => ?_) fun _ => keeps_pure fun _ _ => trivial
            exact keeps_ite (fun _ => keeps_pure fun _ _ => trivial)
              fun _ => keeps_liveNodes self hs₃
      · cases e <;> first | exact keeps_raise | exact keeps_pure fun _ _ => trivial

theorem keeps_construct (hs : StoreInv R s) :
    Keeps R (fun _ _ => True) self.construct w s := by
  refine keeps_bind hs (keeps_store (PlanStore.safe_connect (Q := fun _ _ => True)
    (E := fun _ _ => True) hs fun _ => trivial) hs) fun _ w₁ s₁ hs₁ _ _ => ?_
  exact keeps_store (PlanStore.safe_registerNode hs₁ (fun _ _ _ => trivial)
    fun _ => trivial) hs₁

theorem keeps_isClosed (hs : StoreInv R s) : Keeps R (fun _ _ => True) isClosed w s := by
  refine keeps_bind hs (keeps_perform (o := .closedFlag) hs fun _ _ _ h => h)
    fun b w₁ s₁ hs₁ _ _ => ?_
  exact keeps_ite (fun _ => keeps_pure fun _ _ => trivial) fun _ => keeps_check hs₁

theorem keeps_setClosed (hs : StoreInv R s) : Keeps R (fun _ _ => True) setClosed w s :=
  keeps_set hs fun _ _ => trivial

theorem keeps_heartbeatLoop (budget : Nat) : ∀ {sequence : Int} {w : HandlerState} {s : Store},
    StoreInv R s → Keeps R (fun _ _ => True) (self.heartbeatLoop sequence budget) w s := by
  induction budget with
  | zero => exact fun _ => keeps_halt
  | succ budget ih =>
      intro sequence w s hs
      refine keeps_bind hs (keeps_perform (o := .closedFlag) hs fun _ _ _ h => h)
        fun b w₁ s₁ hs₁ _ _ => ?_
      refine keeps_ite (fun _ => keeps_pure fun _ _ => trivial) fun _ => ?_
      refine keeps_bind hs₁ (keeps_set hs₁ fun _ _ => trivial) fun _ w₂ s₂ hs₂ _ _ => ?_
      exact keeps_bind hs₂ (keeps_wait hs₂) fun _ _ _ hs₃ _ _ => ih hs₃

end Handler

end LmResiliency.Torchrun
