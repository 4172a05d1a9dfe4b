/-
# Quarantine — what any number of coordinators commit

Each coordinator rebuilds its plan from the placement it finds committed
and publishes it by racing operations.  A plan that is committed therefore
succeeds a committed placement: that is the rule `Succeeds`, which every
coordinator keeps and which stays true once it holds.  Following it down
the committed plans gives the history: the quarantine list only grows, and
who is on it is never active again.

The main result is `quarantine_permanent`.  Why a node is put on the list is the
coordinator's request and plays no part.
-/
import LmResiliency.Torchrun.Coordinator
import LmResiliency.Torchrun.Placement

namespace LmResiliency.Torchrun

open Interleave

/-! ## Succession -/

/-- A successor's placement and quarantine list: those of the predecessor, or
one slot is given to a node that is neither active nor quarantined, and the
node it had is quarantined. -/
inductive Replaces (active quarantined active' quarantined' : List String) : Prop where
  | same (ha : active' = active) (hq : quarantined' = quarantined)
  | replaced (slot : Nat) (h : slot < active.length) (node : String) (hnew : node ∉ active)
      (hclean : node ∉ quarantined) (ha : active' = active.set slot node)
      (hq : quarantined' = quarantined ++ [active.get ⟨slot, h⟩])

namespace Replaces

variable {active quarantined active' quarantined' : List String}

theorem length_eq (h : Replaces active quarantined active' quarantined') :
    active'.length = active.length := by
  cases h with
  | same ha => rw [ha]
  | replaced slot h node hnew hclean ha => rw [ha, List.length_set]

theorem quarantined_prefix (h : Replaces active quarantined active' quarantined') :
    quarantined <+: quarantined' := by
  cases h with
  | same ha hq => exact hq ▸ List.prefix_rfl
  | replaced slot h node hnew hclean ha hq => rw [hq]; exact List.prefix_append _ _

end Replaces

/-- One topology: the digest, and the local world size of every slot. -/
structure SameTopology (q p : RestartPlan) : Prop where
  digest : p.topologyDigest = q.topologyDigest
  sizes : ∀ a ∈ p.slotAssignments, ∀ b ∈ q.slotAssignments,
    a.localWorldSize = b.localWorldSize

/-- The plan succeeds what is committed for the generation before it. -/
def Succeeds (s : Store) (p : RestartPlan) : Prop :=
  (p.fromGeneration = 0 ∧ ∃ ids, Initial ids s ∧
      Replaces ids [] (nodesOf p.slotAssignments) p.quarantinedNodeIds) ∨
    ∃ q, Committed q s ∧ q.toGeneration = p.fromGeneration ∧
      Replaces (nodesOf q.slotAssignments) q.quarantinedNodeIds
        (nodesOf p.slotAssignments) p.quarantinedNodeIds ∧ SameTopology q p

theorem Succeeds.grows {s s' : Store} {p : RestartPlan} (hg : Grows s s')
    (h : Succeeds s p) : Succeeds s' p := by
  rcases h with ⟨h0, ids, hids, hr⟩ | ⟨q, hq, hto, hr⟩
  · exact .inl ⟨h0, ids, hg.initialNodes _ hids, hr⟩
  · exact .inr ⟨q, hg.plan _ _ hq, hto, hr⟩

/-- The rules of a run whose plans come from coordinators only. -/
def coordinated (runId : String) : Rules where
  runId
  admits := Succeeds
  admits_grows := Succeeds.grows
  owner _ _ := False
  owner_unique := unowned_unique

/-! ## The coordinator keeps the rules -/

namespace Coordinator

variable {R : Rules} {E : Raised → Store → Prop} {s : Store}

theorem safe_checkHealth (hs : StoreInv R s) (hE : ∀ e s', E e s') :
    Safe (world R) (fun _ _ => True) E checkHealth s := by
  refine safe_perform hs (fun _ _ _ hx => hx) fun s₁ r _ _ => ?_
  cases r with
  | true => exact safe_raise fun s' _ => hE _ s'
  | false => exact safe_ret fun _ _ => trivial

theorem safe_replaceSlot {active quarantined : List String}
    {replacement : Option (Int × String)} (hs : StoreInv R s) (hE : ∀ e s', E e s') :
    Safe (world R) (fun x _ => Replaces active quarantined x.1 x.2) E
      (replaceSlot active quarantined replacement) s := by
  cases replacement with
  | none => exact safe_ret fun _ _ => .same rfl rfl
  | some r =>
      obtain ⟨slot, node⟩ := r
      rw [replaceSlot]
      split
      · exact safe_raise fun s' _ => hE _ s'
      split
      · exact safe_raise fun s' _ => hE _ s'
      split
      · exact safe_raise fun s' _ => hE _ s'
      rename_i hslot _ hfree
      refine Safe.bind hs (PlanStore.safe_registeredNodes (Q := fun _ _ => True) hs hE
        fun _ _ => trivial) fun registered s₁ _ _ _ => ?_
      split
      · exact safe_raise fun s' _ => hE _ s'
      · exact safe_ret fun _ _ => .replaced slot.toNat (by omega) node
          (fun h => hfree (.inl h)) (fun h => hfree (.inr h)) rfl rfl

/-- What the committed placement of a generation is. -/
def Predecessor (call : SuccessorCall) (active quarantined : List String) (s : Store) : Prop :=
  (call.generation = 0 ∧ quarantined = [] ∧ Initial active s) ∨
    ∃ q, Committed q s ∧ q.toGeneration = call.generation ∧
      active = nodesOf q.slotAssignments ∧ quarantined = q.quarantinedNodeIds ∧
      call.request.topologyDigest = q.topologyDigest ∧
      ∀ b ∈ q.slotAssignments, call.localWorldSize = b.localWorldSize

theorem safe_committedPlacement (self : Coordinator) {call : SuccessorCall}
    (hs : StoreInv R s) (hE : ∀ e s', E e s') :
    Safe (world R) (fun x s' => Predecessor call x.1 x.2 s') E
      (self.committedPlacement call) s := by
  rw [committedPlacement]
  split
  · rename_i h0
    refine Safe.bind hs (PlanStore.safe_readInitialNodes hs hE) fun r s₁ hs₁ _ hr => ?_
    cases r with
    | none => exact safe_raise fun s' _ => hE _ s'
    | some ids =>
        exact safe_ret fun s' hl => .inl ⟨h0, rfl, later_initial hl hs₁ (hr ids rfl).1⟩
  · refine Safe.bind hs (PlanStore.safe_read self.plans hs hE) fun r s₁ hs₁ _ hr => ?_
    cases r with
    | none => exact safe_raise fun s' _ => hE _ s'
    | some plan =>
        obtain ⟨hc, hto⟩ := hr plan rfl
        dsimp only
        split
        · exact safe_raise fun s' _ => hE _ s'
        split
        · exact safe_raise fun s' _ => hE _ s'
        rename_i hsize hdigest
        refine safe_ret fun s' hl => .inr ⟨plan, later_committed hl hs₁ hc, hto, rfl, rfl,
          not_not.mp hdigest, fun b hb => ?_⟩
        obtain ⟨a, ha, haw⟩ := Option.map_eq_some_iff.mp (not_not.mp hsize)
        rw [← haw]
        exact plan.valid.slotAssignments.sizes a (List.mem_of_mem_head? ha) b hb

/-- A successor plan built on the committed placement succeeds it. -/
theorem succeeds_successorPlan {self : Coordinator} {call : SuccessorCall}
    {active quarantined : List String} {p : RestartPlan} {s : Store}
    (hpre : Predecessor call call.activeNodeIds call.quarantinedNodeIds s)
    (hr : Replaces call.activeNodeIds call.quarantinedNodeIds active quarantined)
    (hp : self.successorPlan call active quarantined = .ok p) : Succeeds s p := by
  obtain ⟨rfl, rfl, hfrom, hdigest, hsizes⟩ := successorPlan_eq_ok hp
  rcases hpre with ⟨h0, hq, hids⟩ | ⟨q, hc, hto, ha, hq, hd, hw⟩
  · exact .inl ⟨hfrom.trans h0, call.activeNodeIds, hids, hq ▸ hr⟩
  · refine .inr ⟨q, hc, hto.trans hfrom.symm, ?_, hdigest.trans hd, fun a hamem b hb => ?_⟩
    · rw [← ha, ← hq]
      exact hr
    · rw [hsizes a hamem, hw b hb]

theorem Predecessor.later {call : SuccessorCall} {active quarantined : List String}
    {s s' : Store} (hl : (world R).Later s s') (hs : StoreInv R s)
    (h : Predecessor call active quarantined s) : Predecessor call active quarantined s' := by
  rcases h with ⟨h0, hq, hids⟩ | ⟨q, hc, h⟩
  · exact .inl ⟨h0, hq, later_initial hl hs hids⟩
  · exact .inr ⟨q, later_committed hl hs hc, h⟩

theorem safe_startPlanLease (self : Coordinator) {p : RestartPlan} {remainingMs : Int}
    (hs : StoreInv R s) :
    Safe (world R) (fun _ _ => True) E (self.startPlanLease p remainingMs) s := by
  refine Safe.tryCatch (E := fun _ _ => True) hs ?_ fun _ _ _ _ _ => safe_ret fun _ _ => trivial
  exact Safe.bind hs (PlanStore.safe_renewPlanLease self.plans (Q := fun _ _ => True) hs
    (fun _ _ => trivial) fun _ _ => trivial) fun _ _ _ _ _ => safe_ret fun _ _ => trivial

/-- **A coordinator only commits successors.** -/
theorem safe_publishSuccessor (self : Coordinator) {call : SuccessorCall}
    (hs : StoreInv (coordinated self.plans.runId) s) :
    Safe (world (coordinated self.plans.runId)) (fun _ _ => True) (fun _ _ => True)
      (self.publishSuccessor call) s := by
  have hE : ∀ (e : Raised) (s' : Store), True := fun _ _ => trivial
  refine Safe.bind hs (safe_checkHealth hs hE) fun _ s₁ hs₁ _ _ => ?_
  refine safe_ofExcept (fun _ _ => ?_) fun _ _ _ _ => trivial
  refine Safe.bind hs₁ (PlanStore.safe_currentGeneration hs₁ hE) fun g s₂ hs₂ _ _ => ?_
  split
  · exact safe_raise fun _ _ => trivial
  refine Safe.bind hs₂ (safe_committedPlacement self hs₂ hE) fun x s₃ hs₃ _ hpre => ?_
  obtain ⟨committedActive, committedQuarantined⟩ := x
  dsimp only
  split
  · exact safe_raise fun _ _ => trivial
  split
  · exact safe_raise fun _ _ => trivial
  rename_i hactive hquarantined
  obtain rfl := not_not.mp hactive
  obtain rfl := not_not.mp hquarantined
  refine safe_perform hs₃ (fun _ _ _ hx => hx) fun s₄ now hs₄ hl₄ => ?_
  have hpre₄ := hpre.later hl₄ hs₃
  split
  · exact safe_raise fun _ _ => trivial
  refine Safe.bind hs₄ (safe_replaceSlot hs₄ hE) fun y s₅ hs₅ hl₅ hr => ?_
  obtain ⟨active, quarantined⟩ := y
  cases hplan : self.successorPlan call active quarantined with
  | error e =>
      dsimp only
      rw [hplan]
      exact safe_raise fun _ _ => trivial
  | ok plan =>
      dsimp only
      rw [hplan]
      change Safe _ _ _ (self.plans.publish plan >>= _) s₅
      have hadm : Succeeds s₅ plan :=
        succeeds_successorPlan (hpre₄.later hl₅ hs₄) hr hplan
      refine Safe.bind hs₅ (PlanStore.safe_publish self.plans rfl hs₅ hadm hE)
        fun _ s₆ hs₆ _ _ => ?_
      exact Safe.bind hs₆ (safe_startPlanLease self hs₆) fun _ _ _ _ _ =>
        safe_ret fun _ _ => trivial

end Coordinator

/-! ## The history of the committed plans -/

theorem committed_unique {s : Store} {p q : RestartPlan} (hp : Committed p s)
    (hq : Committed q s) (hto : p.toGeneration = q.toGeneration) : p = q := by
  rw [Committed, ← hto] at hq
  exact RestartPlan.toJson_injective (Option.some.inj (hp.symm.trans hq))

section History

variable {runId : String} {s : Store} (hs : StoreInv (coordinated runId) s)
include hs

theorem succeeds_of_committed {p : RestartPlan} (hp : Committed p s) : Succeeds s p := by
  obtain ⟨p', hjson, -, -, -, hadm⟩ := hs.plans _ _ hp
  rw [RestartPlan.toJson_injective hjson]
  exact hadm

/-- **Following the plans**: what holds of every plan that succeeds the
initial placement, and is passed on to a successor, holds of every plan. -/
theorem committed_induction {P : RestartPlan → Prop}
    (hbase : ∀ p ids, Committed p s → p.fromGeneration = 0 → Initial ids s →
      Replaces ids [] (nodesOf p.slotAssignments) p.quarantinedNodeIds → P p)
    (hstep : ∀ p q, Committed p s → Committed q s → q.toGeneration = p.fromGeneration →
      Replaces (nodesOf q.slotAssignments) q.quarantinedNodeIds
        (nodesOf p.slotAssignments) p.quarantinedNodeIds → SameTopology q p → P q → P p) :
    ∀ p, Committed p s → P p := by
  have h : ∀ (n : Nat) p, Committed p s → p.fromGeneration = n → P p := by
    intro n
    induction n with
    | zero =>
        intro p hp hfrom
        rcases succeeds_of_committed hs hp with ⟨h0, ids, hids, hr⟩ | ⟨q, -, hto, -⟩
        · exact hbase p ids hp h0 hids hr
        · have := q.valid.toGeneration
          omega
    | succ n ih =>
        intro p hp hfrom
        rcases succeeds_of_committed hs hp with ⟨h0, -⟩ | ⟨q, hq, hto, hr, ht⟩
        · omega
        · refine hstep p q hp hq hto hr ht (ih q hq ?_)
          have := q.valid.successor
          omega
  intro p hp
  exact h p.fromGeneration.toNat p hp (Int.toNat_of_nonneg p.valid.fromGeneration).symm

/-- The quarantine list only grows from plan to plan. -/
theorem quarantined_prefix_of_le {p : RestartPlan} (hp : Committed p s) :
    ∀ q, Committed q s → p.toGeneration ≤ q.toGeneration →
      p.quarantinedNodeIds <+: q.quarantinedNodeIds := by
  refine committed_induction hs (fun q ids hq h0 _ _ hle => ?_)
    fun q r hq hr hto hrep _ ih hle => ?_
  · have h1 := p.valid.toGeneration
    have h2 := q.valid.successor
    exact committed_unique hp hq (by omega) ▸ List.prefix_rfl
  · have h2 := q.valid.successor
    by_cases heq : p.toGeneration = q.toGeneration
    · exact committed_unique hp hq heq ▸ List.prefix_rfl
    · exact (ih (by omega)).trans hrep.quarantined_prefix

/-- Who is quarantined by a plan is active in no plan from then on. -/
theorem not_active_of_quarantined {p q : RestartPlan} (hp : Committed p s)
    (hq : Committed q s) (hle : p.toGeneration ≤ q.toGeneration) :
    ∀ n ∈ p.quarantinedNodeIds, n ∉ nodesOf q.slotAssignments := fun n hn hact =>
  q.valid.disjoint n hact ((quarantined_prefix_of_le hs hp q hq hle).subset hn)

/-- Every plan has as many active nodes as the initial placement. -/
theorem length_active : ∀ p, Committed p s → ∃ ids, Initial ids s ∧
    (nodesOf p.slotAssignments).length = ids.length := by
  refine committed_induction hs (fun p ids _ _ hids hr => ⟨ids, hids, hr.length_eq⟩)
    fun p q _ _ _ hr _ ⟨ids, hids, hlen⟩ => ⟨ids, hids, hr.length_eq.trans hlen⟩

/-- There is a first plan, and every plan has its topology. -/
theorem sameTopology_first : ∀ p, Committed p s → ∃ f, Committed f s ∧ f.toGeneration = 1 ∧
    SameTopology f p := by
  refine committed_induction hs (fun p ids hp h0 _ _ => ?_) fun p q hp hq hto _ ht ih => ?_
  · have := p.valid.successor
    exact ⟨p, hp, by omega, rfl, p.valid.slotAssignments.sizes⟩
  · obtain ⟨f, hf, hf1, hfq⟩ := ih
    obtain ⟨b, hb⟩ := List.exists_mem_of_ne_nil _ q.valid.slotAssignments.ne_nil
    exact ⟨f, hf, hf1, ht.digest.trans hfq.digest, fun a ha c hc =>
      (ht.sizes a ha b hb).trans (hfq.sizes b hb c hc)⟩

theorem sameTopology {p q : RestartPlan} (hp : Committed p s) (hq : Committed q s) :
    SameTopology q p := by
  obtain ⟨f, hf, hf1, hfp⟩ := sameTopology_first hs p hp
  obtain ⟨f', hf', hf1', hfq⟩ := sameTopology_first hs q hq
  obtain rfl : f = f' := committed_unique hf hf' (hf1.trans hf1'.symm)
  obtain ⟨b, hb⟩ := List.exists_mem_of_ne_nil _ f.valid.slotAssignments.ne_nil
  exact ⟨hfp.digest.trans hfq.digest.symm, fun a ha c hc =>
    (hfp.sizes a ha b hb).trans (hfq.sizes c hc b hb).symm⟩

end History

/-! ## Concurrent coordinators -/

/-- What a process of a coordinated run may call. -/
inductive CoordinatorCall where
  | connect
  | registerNode (nodeId agentId : String) (maxNodes : Int)
  | ensureInitialNodes (minNodes maxNodes : Int)
  | initialPlacement (activeNodeCount allocatedNodeCount : Int)
  | publishSuccessor (call : SuccessorCall)
  /-- one renewal by the lease thread -/
  | renewPlanLease (plan : RestartPlan) (remainingMs : Int)
  | close

/-- Any number of coordinators of one run, and agents that register. -/
def coordinators (self : Coordinator) (ι : Type) : System iface where
  Proc := ι
  Call _ := CoordinatorCall
  Attrs := Unit
  Value := Option SuccessorPlacement
  Exn := Raised
  body
    | _, .connect => .lift (PlanStore.connect >>= fun _ => pure none)
    | _, .registerNode nodeId agentId maxNodes =>
        .lift (PlanStore.registerNode nodeId agentId maxNodes >>= fun _ => pure none)
    | _, .ensureInitialNodes minNodes maxNodes =>
        .lift (PlanStore.ensureInitialNodes minNodes maxNodes >>= fun _ => pure none)
    | _, .initialPlacement active allocated =>
        .lift (Coordinator.initialPlacement active allocated >>= fun _ => pure none)
    | _, .publishSuccessor call => .lift (self.publishSuccessor call >>= fun r => pure (some r))
    | _, .renewPlanLease plan ms =>
        .lift (self.plans.renewPlanLease plan ms >>= fun _ => pure none)
    | _, .close => .lift (Coordinator.close >>= fun _ => pure none)

theorem safe_initialPlacement {R : Rules} {active allocated : Int} {s : Store}
    (hs : StoreInv R s) :
    Safe (world R) (fun _ _ => True) (fun _ _ => True)
      (Coordinator.initialPlacement active allocated) s := by
  have hE : ∀ (e : Raised) (s' : Store), True := fun _ _ => trivial
  refine Safe.bind hs (Coordinator.safe_checkHealth hs hE) fun _ s₁ hs₁ _ _ => ?_
  split
  · exact safe_raise fun _ _ => trivial
  split
  · exact safe_raise fun _ _ => trivial
  refine Safe.bind hs₁ (PlanStore.safe_readInitialNodes hs₁ hE) fun r s₂ hs₂ _ _ => ?_
  cases r with
  | none => exact safe_ret fun _ _ => trivial
  | some ids =>
      refine Safe.bind hs₂ (PlanStore.safe_registeredNodes (Q := fun _ _ => True) hs₂ hE
        fun _ _ => trivial) fun registered s₃ _ _ _ => ?_
      split
      · exact safe_ret fun _ _ => trivial
      split
      · exact safe_raise fun _ _ => trivial
      dsimp only
      split
      · exact safe_raise fun _ _ => trivial
      · exact safe_ret fun _ _ => trivial

theorem coordinators_proof (self : Coordinator) (ι : Type) :
    System.Proof (Y := coordinators self ι) (world (coordinated self.plans.runId))
      (fun _ _ _ _ => True) where
  keeps _ _ _ _ _ _ _ _ := trivial
  call p k l w s hs _ := by
    have hE : ∀ (e : Raised) (s' : Store), True := fun _ _ => trivial
    have hpure : ∀ {α : Type} {f : α → Option SuccessorPlacement} {m : StoreM α},
        Safe (world (coordinated self.plans.runId)) (fun _ _ => True) (fun _ _ => True) m s →
        Safe (world (coordinated self.plans.runId)) (fun _ _ => True) (fun _ _ => True)
          (Meth.lift (m >>= fun a => pure (f a)) w) s := fun h =>
      Safe.lift (Safe.bind hs h fun _ _ _ _ _ => safe_ret fun _ _ => trivial)
    cases k with
    | connect => exact hpure (PlanStore.safe_connect hs fun _ => trivial)
    | registerNode nodeId agentId maxNodes =>
        exact hpure (PlanStore.safe_registerNode hs (fun _ _ _ => trivial) fun _ => trivial)
    | ensureInitialNodes minNodes maxNodes =>
        exact hpure (Safe.mono hs (PlanStore.safe_ensureInitialNodes (E := fun _ _ => True) hs
          fun _ _ _ => trivial) (fun _ _ _ _ _ => trivial) fun _ _ _ _ _ => trivial)
    | initialPlacement active allocated => exact hpure (safe_initialPlacement hs)
    | publishSuccessor call => exact hpure (Coordinator.safe_publishSuccessor self hs)
    | renewPlanLease plan ms =>
        exact hpure (PlanStore.safe_renewPlanLease self.plans hs hE fun _ _ => trivial)
    | close =>
        exact hpure (safe_set hs (fun _ _ _ => trivial) fun _ hs₂ _ _ =>
          Coordinator.safe_checkHealth hs₂ hE)

/-- The store of every configuration of a coordinated run. -/
theorem coordinated_store {self : Coordinator} {ι : Type}
    {c : (coordinators self ι).Config Store}
    (h : System.Run exec ((coordinators self ι).idle fresh ()) c) :
    StoreInv (coordinated self.plans.runId) c.store := by
  have hinit := System.Inv.idle (W := world (coordinated self.plans.runId))
    (Y := coordinators self ι) (K := fun _ _ _ _ => True) (w := ()) (storeInv_fresh _)
    fun _ => trivial
  exact (System.Run.sound (coordinators_proof self ι) hinit h).1.store

/-- **Quarantine is permanent.**  In every configuration of every run of any
number of coordinators: every generation up to the current one has its
committed plan; a committed plan replaces at most one slot of its predecessor
and quarantines exactly the replaced node; who is quarantined by a committed
plan is active neither in it nor in a later one; the number of active nodes
is that of the initial placement; the topology is one. -/
theorem quarantine_permanent {self : Coordinator} {ι : Type}
    {c : (coordinators self ι).Config Store}
    (h : System.Run exec ((coordinators self ι).idle fresh ()) c) :
    (∃ g, generationOf c.store = some g ∧ ∀ k, 1 ≤ k → k ≤ g →
      ∃ p, Committed p c.store ∧ p.toGeneration = k) ∧
    (∀ p, Committed p c.store → Succeeds c.store p) ∧
    (∀ p q, Committed p c.store → Committed q c.store → p.toGeneration ≤ q.toGeneration →
      ∀ n ∈ p.quarantinedNodeIds, n ∉ nodesOf q.slotAssignments) ∧
    (∀ p, Committed p c.store → ∃ ids, Initial ids c.store ∧
      (nodesOf p.slotAssignments).length = ids.length) ∧
    ∀ p q, Committed p c.store → Committed q c.store → SameTopology q p := by
  have hs := coordinated_store h
  refine ⟨?_, fun p => succeeds_of_committed hs,
    fun p q hp hq => not_active_of_quarantined hs hp hq, length_active hs,
    fun p q hp hq => sameTopology hs hp hq⟩
  obtain ⟨g, hg, -, hup⟩ := hs.planLog
  refine ⟨g, hg, fun k hk hkg => ?_⟩
  obtain ⟨p, hp, -, -, rfl⟩ := hup k hk hkg
  exact ⟨p, hp, rfl⟩

/-! ## One coordinator alone -/

/-- A request to restart the node of `samplePlan` in place. -/
def sampleCall : SuccessorCall where
  generation := 0
  activeNodeIds := ["node-a"]
  quarantinedNodeIds := []
  request :=
    { planId := "plan-1"
      intentId := "incident-1"
      reasonCode := "worker_failed"
      recoveryMode := "latest"
      checkpointSource := "gemini"
      checkpointStep := 10
      checkpointManifestId := "manifest-1"
      topologyDigest := "topology"
      restartDeadlineUnixMs := 1000
      checkpointId := none }
  localWorldSize := 8
  replacement := none

def sampleCoordinator : Coordinator := ⟨"run", ⟨"run", id⟩⟩

theorem successorPlan_sample :
    sampleCoordinator.successorPlan sampleCall ["node-a"] [] = .ok samplePlan := rfl

/-- A coordinator that finds the node placed comes to publish the plan. -/
theorem publishSuccessor_segment {s : Store} (hgen : s .generation = some (Text.str 0))
    (hids : Initial ["node-a"] s) :
    Alone exec (sampleCoordinator.publishSuccessor sampleCall) s
      (sampleCoordinator.plans.publish samplePlan >>= fun _ =>
        sampleCoordinator.startPlanLease samplePlan 900 >>= fun _ =>
          pure ⟨1, ["node-a"], []⟩) s := by
  have hplaced : PlacedNodes ["node-a"] := ⟨by decide, by decide, by decide, by decide⟩
  have hdec : decodeInitialNodes (encodeInitialNodes ["node-a"]) none = .ok ["node-a"] := by
    rw [decodeInitialNodes_encode hplaced]
    rfl
  have hall : [Key.initialNodes].all (fun k => (s k).isSome) = true := by
    rw [Initial] at hids
    simp [hids]
  refine Alone.bind (a := ()) (t := s)
    (alone_perform (o := .leaseError) false rfl (.done _ _)) ?_
  refine alone_ofExcept (a := ()) rfl ?_
  refine Alone.bind (currentGeneration_alone (le_refl 0) hgen) ?_
  rw [if_neg (by decide)]
  refine Alone.bind (a := (["node-a"], [])) (t := s) ?_ ?_
  · rw [Coordinator.committedPlacement, if_pos (by rfl)]
    refine Alone.bind (a := some ["node-a"]) (t := s) ?_ (.done _ _)
    exact alone_perform (o := .check [.initialNodes]) true ⟨rfl, hall.symm⟩
      (alone_get hids (alone_ofExcept hdec (.done _ _)))
  · refine alone_perform (o := .unixMs) (100 : Int) rfl ?_
    refine Alone.bind (a := (["node-a"], [])) (.done _ _) ?_
    refine Alone.bind (a := samplePlan) (t := s) ?_ (.done _ _)
    rw [show sampleCoordinator.successorPlan sampleCall ["node-a"] [] = .ok samplePlan
      from successorPlan_sample]
    exact .done _ _

/-- A node registers and is placed, by the calls of one process. -/
theorem placed_sample {ι : Type} (p : ι) :
    ∃ c : (coordinators sampleCoordinator ι).Config Store,
      System.Run exec ((coordinators sampleCoordinator ι).idle fresh ()) c ∧
      (∀ q, (c.threads q).current = none) ∧ c.store .generation = some (Text.str 0) ∧
      Initial ["node-a"] c.store ∧ (∀ g, c.store (.plan g) = none) ∧
      c.store .maxNodes = some (Text.str 4) ∧
      c.store .registrations = some (logText [sampleRegistration]) := by
  have hsize : (logText [sampleRegistration]).utf8ByteSize ≤ maxRegistrationBytes := by
    decide
  have hreg : Alone exec ((coordinators sampleCoordinator ι).body p
      (.registerNode "node-a" "agent-a" 4) ()) fresh (.ret (none, ())) _ :=
    Alone.lift (w := ()) (Alone.bind
      (registerNode_alone (r := sampleRegistration) (by decide) hsize rfl rfl) (.done _ _))
  obtain ⟨c₁, hrun₁, hs₁, ht₁, hother₁⟩ := System.Run.alone
    (Y := coordinators sampleCoordinator ι)
    (c := (coordinators sampleCoordinator ι).idle fresh ()) (p := p) rfl hreg
  have hens : Alone exec ((coordinators sampleCoordinator ι).body p
      (.ensureInitialNodes 1 4) ()) c₁.store (.ret (none, ())) _ :=
    Alone.lift (w := ()) (Alone.bind (ensureInitialNodes_alone (r := sampleRegistration)
      (by decide) hsize (by rw [hs₁]; rfl) (by rw [hs₁]; rfl)) (.done _ _))
  obtain ⟨c₂, hrun₂, hs₂, ht₂, hother₂⟩ := System.Run.alone
    (Y := coordinators sampleCoordinator ι)
    (c := c₁) (p := p) (by rw [ht₁]) (by rw [ht₁]; exact hens)
  refine ⟨c₂, hrun₁.trans hrun₂, fun q => ?_, by rw [hs₂, hs₁]; rfl, by rw [hs₂]; rfl,
    fun g => by rw [hs₂, hs₁]; rfl, by rw [hs₂, hs₁]; rfl, by rw [hs₂, hs₁]; rfl⟩
  by_cases hq : q = p
  · rw [hq, ht₂]
  · rw [hother₂ q hq, hother₁ q hq]
    rfl

end LmResiliency.Torchrun
