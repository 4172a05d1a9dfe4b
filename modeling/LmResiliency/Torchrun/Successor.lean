/-
# Successor — when a coordinator can commit the next generation

A coordinator that runs alone, with everything as it is committed and a
valid request, builds a plan that passes every check.  Whether it can commit
it depends on one key: a publisher that stopped between writing the plan of
the next generation and moving the generation on has left its own plan
there, and plans are never replaced.

The main result is `successor_committed_iff`, from every state of every run.  The
coordinator's lease thread is assumed not to have failed (`onTime`).
-/
import LmResiliency.Torchrun.Quarantine
import LmResiliency.Torchrun.Undisturbed

namespace LmResiliency.Torchrun

open Interleave

/-- The checks that `RestartPlan` makes of a request. -/
structure RecoveryRequest.Valid (r : RecoveryRequest) : Prop where
  planId : Text.nonBlank r.planId = true
  intentId : Text.nonBlank r.intentId = true
  reasonCode : Text.nonBlank r.reasonCode = true
  recoveryMode : r.recoveryMode ∈ recoveryModes
  checkpointSource : r.checkpointSource ∈ checkpointSources
  checkpointStep : 1 ≤ r.checkpointStep
  checkpointId : ∀ s ∈ r.checkpointId, Text.nonBlank s = true
  durable : ¬ (r.checkpointSource = "durable" ∧ r.checkpointId = none)
  gemini : ¬ (r.checkpointSource = "gemini" ∧ r.checkpointId ≠ none)
  checkpointManifestId : Text.nonBlank r.checkpointManifestId = true
  topologyDigest : Text.nonBlank r.topologyDigest = true
  restartDeadline : 1 ≤ r.restartDeadlineUnixMs

/-- What is committed of a placement: nodes and quarantine list. -/
structure PlacementOk (active quarantined : List String) : Prop where
  ne_nil : active ≠ []
  nodup : active.Nodup
  nonBlank : ∀ n ∈ active, Text.nonBlank n = true
  identifiers : Identifiers quarantined
  disjoint : ∀ n ∈ active, n ∉ quarantined

theorem not_mem_set {active : List String} (h : active.Nodup) {slot : Nat}
    (hslot : slot < active.length) {node : String} (hnew : node ∉ active) :
    active.get ⟨slot, hslot⟩ ∉ active.set slot node := by
  intro hmem
  obtain ⟨k, hk, hget⟩ := List.mem_iff_getElem.mp hmem
  rw [List.length_set] at hk
  rw [List.getElem_set] at hget
  split at hget
  · exact hnew (hget ▸ List.get_mem ..)
  · rename_i hne
    exact hne (h.getElem_inj_iff.mp hget).symm

namespace PlacementOk

/-- One slot goes to a new node, and the old one is quarantined. -/
theorem replace {active quarantined : List String} (h : PlacementOk active quarantined)
    {slot : Nat} (hslot : slot < active.length) {node : String}
    (hb : Text.nonBlank node = true) (hnew : node ∉ active) (hclean : node ∉ quarantined) :
    PlacementOk (active.set slot node) (quarantined ++ [active.get ⟨slot, hslot⟩]) := by
  have hfailed : active.get ⟨slot, hslot⟩ ∈ active := List.get_mem ..
  have hset : ∀ n ∈ active.set slot node, n = node ∨ n ∈ active :=
    fun n hn => (List.mem_or_eq_of_mem_set hn).symm
  refine ⟨?_, ?_, fun n hn => ?_, ⟨fun n hn => ?_, ?_⟩, fun n hn hq => ?_⟩
  · intro hnil
    have hlen := congrArg List.length hnil
    rw [List.length_set, List.length_nil] at hlen
    omega
  · exact h.nodup.set hnew
  · rcases hset n hn with rfl | hn
    · exact hb
    · exact h.nonBlank n hn
  · rcases List.mem_append.mp hn with hn | hn
    · exact h.identifiers.nonBlank n hn
    · rw [List.mem_singleton.mp hn]
      exact h.nonBlank _ hfailed
  · refine List.nodup_append.mpr ⟨h.identifiers.nodup, List.nodup_singleton _, ?_⟩
    intro a ha b hb hab
    rw [List.mem_singleton.mp hb] at hab
    exact h.disjoint _ hfailed (hab ▸ ha)
  · rcases List.mem_append.mp hq with hq | hq
    · rcases hset n hn with rfl | hn
      · exact hclean hq
      · exact h.disjoint n hn hq
    · -- the failed node is gone from the placement
      rw [List.mem_singleton.mp hq] at hn
      exact not_mem_set h.nodup hslot hnew hn

end PlacementOk

/-- What the store has committed of a placement is well formed. -/
theorem placementOk_of_predecessor {R : Rules} {s : Store} (hs : StoreInv R s)
    {call : SuccessorCall} {active quarantined : List String}
    (h : Coordinator.Predecessor call active quarantined s) :
    PlacementOk active quarantined := by
  rcases h with ⟨-, rfl, hids⟩ | ⟨q, -, -, rfl, rfl, -⟩
  · obtain ⟨ids, rs, hjson, hplaced, -⟩ := hs.initialNodes _ hids
    obtain rfl := encodeInitialNodes_injective hjson
    exact ⟨hplaced.ne_nil, hplaced.nodup, hplaced.nonBlank, ⟨by simp, List.nodup_nil⟩, by simp⟩
  · refine ⟨?_, q.valid.slotAssignments.nodes, fun n hn => ?_, q.valid.quarantinedNodeIds,
      q.valid.disjoint⟩
    · rw [nodesOf, ne_eq, List.map_eq_nil_iff]
      exact q.valid.slotAssignments.ne_nil
    · obtain ⟨a, -, rfl⟩ := List.mem_map.mp hn
      exact a.nodeId_nonBlank

/-! ## The plan is valid -/

namespace Coordinator

theorem slotAssignments_ok {w : Int} (hw : 1 ≤ w) {ns : List String}
    (hns : ∀ n ∈ ns, Text.nonBlank n = true) {i : Int} (hi : 0 ≤ i) :
    ∃ as, slotAssignments w i ns = .ok as ∧ nodesOf as = ns ∧
      slotsOf as = (List.range ns.length).map (fun k : Nat => i + k) ∧
      (∀ a ∈ as, a.localWorldSize = w ∧ a.firstGlobalRank = a.logicalNodeSlot * w) := by
  induction ns generalizing i with
  | nil => exact ⟨[], rfl, rfl, rfl, by simp⟩
  | cons n ns ih =>
      obtain ⟨hn, hns⟩ := List.forall_mem_cons.mp hns
      obtain ⟨as, has, hnodes, hslots, hmem⟩ := ih hns (i := i + 1) (by omega)
      let a : SlotAssignment := ⟨i, n, i * w, w, hi, hn, Int.mul_nonneg hi (by omega), hw⟩
      refine ⟨a :: as, ?_, ?_, ?_, ?_⟩
      · rw [slotAssignments, has, SlotAssignment.init_fields a]
        rfl
      · rw [nodesOf, List.map_cons]
        exact congrArg (n :: ·) hnodes
      · rw [slotsOf, List.map_cons, List.length_cons, List.range_succ_eq_map, List.map_cons,
          List.map_map]
        refine congrArg₂ List.cons (by simp [a]) (hslots.trans (List.map_congr_left ?_))
        intro k _
        simp only [Function.comp_apply]
        push_cast
        omega
      · exact List.forall_mem_cons.mpr ⟨⟨rfl, rfl⟩, hmem⟩

theorem sum_localWorldSize {w : Int} {as : List SlotAssignment}
    (h : ∀ a ∈ as, a.localWorldSize = w) :
    (as.map SlotAssignment.localWorldSize).sum = as.length * w := by
  induction as with
  | nil => simp
  | cons a as ih =>
      obtain ⟨ha, has⟩ := List.forall_mem_cons.mp h
      rw [List.map_cons, List.sum_cons, ih has, ha, List.length_cons]
      push_cast
      rw [Int.add_mul, Int.one_mul, Int.add_comm]

/-- The plan of a valid request passes every check. -/
theorem successorPlan_ok {self : Coordinator} {call : SuccessorCall}
    {active quarantined : List String} (hrun : Text.nonBlank self.runId = true)
    (hgen : 0 ≤ call.generation) (hw : 1 ≤ call.localWorldSize) (hr : call.request.Valid)
    (h : PlacementOk active quarantined) :
    ∃ p : RestartPlan, self.successorPlan call active quarantined = .ok p ∧
      p.runId = self.runId ∧ p.planId = call.request.planId ∧
      p.fromGeneration = call.generation ∧ p.toGeneration = call.generation + 1 ∧
      nodesOf p.slotAssignments = active ∧ p.quarantinedNodeIds = quarantined := by
  obtain ⟨slots, hslots, hnodes, hrange, hmem⟩ :=
    slotAssignments_ok hw h.nonBlank (i := 0) (le_refl 0)
  have hlen : slots.length = active.length := by rw [← hnodes, nodesOf, List.length_map]
  have hplaced : Placed slots := by
    refine ⟨?_, ?_, by rw [hnodes]; exact h.nodup, fun a ha b hb => ?_, fun a ha => ?_⟩
    · intro hnil
      rw [hnil] at hnodes
      exact h.ne_nil hnodes.symm
    · rw [hrange, slotRange, hlen]
      exact List.map_congr_left fun k _ => by simp
    · rw [(hmem a ha).1, (hmem b hb).1]
    · rw [(hmem a ha).2, (hmem a ha).1]
  have hpos : 1 ≤ (active.length : Int) := by
    have := List.length_pos_of_ne_nil h.ne_nil
    omega
  let fields : PlanFields :=
    { planId := call.request.planId
      intentId := call.request.intentId
      runId := self.runId
      fromGeneration := call.generation
      toGeneration := call.generation + 1
      incidentIds := [call.request.intentId]
      reasonCode := call.request.reasonCode
      recoveryMode := call.request.recoveryMode
      checkpointSource := call.request.checkpointSource
      checkpointStep := call.request.checkpointStep
      checkpointId := call.request.checkpointId
      checkpointManifestId := call.request.checkpointManifestId
      slotAssignments := slots
      quarantinedNodeIds := quarantined
      expectedWorldSize := active.length * call.localWorldSize
      topologyDigest := call.request.topologyDigest
      restartDeadlineUnixMs := call.request.restartDeadlineUnixMs }
  have hvalid : fields.Valid :=
    { planId := hr.planId
      intentId := hr.intentId
      runId := hrun
      fromGeneration := hgen
      toGeneration := by change 1 ≤ call.generation + 1; omega
      successor := rfl
      incidentIds := ⟨by simpa [fields] using hr.intentId, List.nodup_singleton _⟩
      incident := by simp [fields]
      reasonCode := hr.reasonCode
      recoveryMode := hr.recoveryMode
      checkpointSource := hr.checkpointSource
      checkpointStep := hr.checkpointStep
      checkpointId := hr.checkpointId
      durable := hr.durable
      gemini := hr.gemini
      checkpointManifestId := hr.checkpointManifestId
      slotAssignments := hplaced
      quarantinedNodeIds := h.identifiers
      disjoint := by rw [hnodes]; exact h.disjoint
      expectedWorldSize := by
        change 1 ≤ (active.length : Int) * call.localWorldSize
        exact Int.mul_pos (by omega) (by omega)
      worldSize := by rw [sum_localWorldSize fun a ha => (hmem a ha).1, hlen]
      topologyDigest := hr.topologyDigest
      restartDeadline := hr.restartDeadline }
  refine ⟨⟨fields, hvalid⟩, ?_, rfl, rfl, rfl, rfl, hnodes, rfl⟩
  have hinit : RestartPlan.init fields = .ok ⟨fields, hvalid⟩ :=
    RestartPlan.init_fields ⟨fields, hvalid⟩
  exact Checked.bind_eq_ok.mpr ⟨slots, hslots, hinit⟩

/-! ## The coordinator alone -/

/-- What a healthy coordinator's environment answers before the deadline. -/
def InTime (deadline : Int) : (o : Op) → o.Res → Prop
  | .leaseError, r => r = false
  | .unixMs, now => LT.lt (α := Int) now deadline
  | _, _ => True

/-- The operations of a healthy coordinator before the deadline. -/
def onTime (deadline : Int) (s : Store) (o : Op) (r : o.Res) (s' : Store) : Prop :=
  exec s o r s' ∧ InTime deadline o r

theorem shared_onTime (deadline : Int) : Shared (onTime deadline) := by
  intro s o r s' ho
  cases o <;> first | exact ho.elim | exact and_iff_left trivial

/-- A replacement that the call may ask for: a slot of the placement, and a
registered node that is neither active nor quarantined. -/
def Spare (call : SuccessorCall) (s : Store) : Prop :=
  ∀ slot node, call.replacement = some (slot, node) →
    0 ≤ slot ∧ slot < call.activeNodeIds.length ∧ Text.nonBlank node = true ∧
      node ∉ call.activeNodeIds ∧ node ∉ call.quarantinedNodeIds ∧
      PlanStore.Registered node s

/-- The placement and quarantine list of the successor. -/
def placedBy (call : SuccessorCall) : List String × List String :=
  match call.replacement with
  | none => (call.activeNodeIds, call.quarantinedNodeIds)
  | some (slot, node) =>
      (call.activeNodeIds.set slot.toNat node,
        call.quarantinedNodeIds ++ call.activeNodeIds[slot.toNat]?.toList)

/-- The call committed its plan as the successor generation. -/
def Commits (self : Coordinator) (call : SuccessorCall) (x : SuccessorPlacement)
    (s : Store) : Prop :=
  ∃ p : RestartPlan,
    self.successorPlan call x.activeNodeIds x.quarantinedNodeIds = .ok p ∧
      Committed p s ∧ s .generation = some (Text.str (call.generation + 1)) ∧
      x.generation = call.generation + 1

section Alone

variable {self : Coordinator} {call : SuccessorCall} {s : Store}
  {Q : SuccessorPlacement → Store → Prop} {E : Raised → Store → Prop}

theorem ends_checkHealth {deadline : Int} {α : Type} {Q : α → Store → Prop}
    {f : Unit → StoreM α} (h : Ends (onTime deadline) Q E (f ()) s) :
    Ends (onTime deadline) Q E (checkHealth >>= f) s := by
  refine Ends.call (I := iface) (o := Op.leaseError) ⟨false, s, rfl, rfl⟩ fun r s' hx => ?_
  obtain ⟨rfl, rfl⟩ := hx
  exact h

theorem ends_unixMs {deadline : Int} {α : Type} {Q : α → Store → Prop} {f : Int → StoreM α}
    (h : ∀ now, now < deadline → Ends (onTime deadline) Q E (f now) s) :
    Ends (onTime deadline) Q E (unixMs >>= f) s := by
  have hbefore : deadline - 1 < deadline := Int.sub_one_lt_of_le (le_refl _)
  refine Ends.call (I := iface) (o := Op.unixMs) ⟨deadline - 1, s, rfl, hbefore⟩
    fun now s' hx => ?_
  obtain ⟨rfl, hnow⟩ := hx
  exact h now hnow

theorem checkArguments_ok (hgen : 0 ≤ call.generation) (hw : 1 ≤ call.localWorldSize)
    (h : PlacementOk call.activeNodeIds call.quarantinedNodeIds) :
    checkArguments call = .ok () := by
  rw [checkArguments, if_neg (by omega), if_neg (by omega), if_neg, if_neg, if_neg]
  · rintro ⟨n, hn, hq⟩
    exact h.disjoint n hn hq
  · exact not_not.mpr h.identifiers.nodup
  · rintro (hnil | hnodup)
    · exact h.ne_nil hnil
    · exact hnodup h.nodup

theorem ends_committedPlacement {X : Store → (o : Op) → o.Res → Store → Prop}
    (hX : Shared X) {R : Rules} (hR : R.runId = self.plans.runId) (hs : StoreInv R s)
    (h : Predecessor call call.activeNodeIds call.quarantinedNodeIds s) :
    Ends X (fun x s' => x = (call.activeNodeIds, call.quarantinedNodeIds) ∧ s' = s) E
      (self.committedPlacement call) s := by
  have hok := placementOk_of_predecessor hs h
  rcases h with ⟨h0, hq, hids⟩ | ⟨q, hc, hto, ha, hq, hd, hw⟩
  · rw [committedPlacement, if_pos h0]
    obtain ⟨ids, rs, hjson, hplaced, -⟩ := hs.initialNodes _ hids
    obtain rfl := encodeInitialNodes_injective hjson
    refine Ends.bind (PlanStore.ends_readInitialNodes hX hplaced hids) ?_
    rintro _ s ⟨rfl, rfl⟩
    exact ends_ret ⟨by rw [hq], rfl⟩
  · have hpos := q.valid.toGeneration
    rw [committedPlacement, if_neg (by omega), committedPlan, ← hto]
    obtain ⟨q', hjson, hrun, -⟩ := hs.plans _ _ hc
    obtain rfl := RestartPlan.toJson_injective hjson
    refine Ends.bind (PlanStore.ends_read hX self.plans (hrun.trans hR) hc) ?_
    rintro _ s ⟨rfl, rfl⟩
    obtain ⟨a, as, has⟩ := List.exists_cons_of_ne_nil q.valid.slotAssignments.ne_nil
    have hhead : q.slotAssignments.head?.map SlotAssignment.localWorldSize =
        some call.localWorldSize := by
      rw [has, List.head?_cons, Option.map_some, hw a (by rw [has]; exact List.mem_cons_self)]
    dsimp only
    rw [if_neg (not_not.mpr hhead), if_neg (not_not.mpr hd)]
    exact ends_ret ⟨by rw [ha, hq], rfl⟩

/-- With everything as it is committed, the call comes to its plan. -/
theorem ends_publishSuccessor {R : Rules} (hR : R.runId = self.plans.runId)
    (hs : StoreInv R s) (hgen : s .generation = some (Text.str call.generation))
    (hpre : Predecessor call call.activeNodeIds call.quarantinedNodeIds s)
    (hw : 1 ≤ call.localWorldSize)
    (h : ∀ ms, 0 < ms → Ends (onTime call.request.restartDeadlineUnixMs) Q E
      (self.commitSuccessor call ms) s) :
    Ends (onTime call.request.restartDeadlineUnixMs) Q E (self.publishSuccessor call) s := by
  have hX := shared_onTime call.request.restartDeadlineUnixMs
  have hg0 : 0 ≤ call.generation := by
    obtain ⟨g, hg0, hg, -⟩ := hs.generation
    rwa [Text.str_injective (Option.some.inj (hgen.symm.trans hg))]
  refine ends_checkHealth (ends_ofExcept (fun _ _ => ?_) fun e he => ?_)
  swap
  · rw [checkArguments_ok hg0 hw (placementOk_of_predecessor hs hpre)] at he
    cases he
  refine Ends.bind (PlanStore.ends_currentGeneration hX hg0 hgen) ?_
  rintro _ s ⟨rfl, rfl⟩
  rw [if_neg (not_not.mpr rfl)]
  refine Ends.bind (ends_committedPlacement hX hR hs hpre) ?_
  rintro _ s ⟨rfl, rfl⟩
  dsimp only
  rw [if_neg (not_not.mpr rfl), if_neg (not_not.mpr rfl)]
  refine ends_unixMs fun now hnow => ?_
  rw [if_neg (by omega)]
  exact h _ (by omega)

theorem ends_replaceSlot {X : Store → (o : Op) → o.Res → Store → Prop} (hX : Shared X)
    (hok : PlacementOk call.activeNodeIds call.quarantinedNodeIds) (hspare : Spare call s) :
    Ends X (fun x s' => x = placedBy call ∧ PlacementOk x.1 x.2 ∧ s' = s) E
      (replaceSlot call.activeNodeIds call.quarantinedNodeIds call.replacement) s := by
  unfold placedBy
  cases hr : call.replacement with
  | none => exact ends_ret ⟨rfl, hok, rfl⟩
  | some r =>
      obtain ⟨slot, node⟩ := r
      obtain ⟨h0, hlt, hb, hnew, hclean, hreg⟩ := hspare slot node hr
      rw [replaceSlot, dif_neg (by omega), if_neg (by rw [hb]; simp),
        if_neg (not_or.mpr ⟨hnew, hclean⟩)]
      refine Ends.bind (PlanStore.ends_registeredNodes hX hreg) ?_
      rintro registered s ⟨hmem, rfl⟩
      rw [if_neg (not_not.mpr hmem)]
      refine ends_ret ⟨?_, hok.replace (by omega) hb hnew hclean, rfl⟩
      dsimp only
      rw [List.getElem?_eq_getElem (by omega)]
      rfl

theorem ends_startPlanLease {X : Store → (o : Op) → o.Res → Store → Prop} (hX : Shared X)
    {p : RestartPlan} {ms : Int} (hrun : p.runId = self.plans.runId) (hc : Committed p s) :
    Ends X (fun _ s' => (∀ k, s' (.plan k) = s (.plan k)) ∧ s' .generation = s .generation) E
      (self.startPlanLease p ms) s := by
  have hms : 0 ≤ if ms ≤ 0 then 0 else ms := by split <;> omega
  exact Ends.tryCatch (Ends.bind (PlanStore.ends_renewPlanLease hX self.plans hrun hc hms)
    fun _ _ h => ends_ret h) fun _ _ h => ends_ret h

section Commit

variable {R : Rules} (hR : R.runId = self.plans.runId) (hrun : Text.nonBlank self.runId = true)
  (hs : StoreInv R s) (hgen : s .generation = some (Text.str call.generation))
  (hpre : Predecessor call call.activeNodeIds call.quarantinedNodeIds s)
  (hw : 1 ≤ call.localWorldSize) (hr : call.request.Valid) (hspare : Spare call s)
include hrun hs hgen hpre hw hr hspare

/-- The call comes to the publication of its plan, on the store as it was. -/
theorem ends_commitSuccessor {X : Store → (o : Op) → o.Res → Store → Prop} (hX : Shared X)
    {ms : Int}
    (h : ∀ p : RestartPlan,
      self.successorPlan call (placedBy call).1 (placedBy call).2 = .ok p → p.runId = self.runId →
      p.planId = call.request.planId → p.fromGeneration = call.generation →
      p.toGeneration = call.generation + 1 →
      Ends X Q E (self.plans.publish p >>= fun _ => self.startPlanLease p ms >>= fun _ =>
        pure ⟨p.toGeneration, (placedBy call).1, (placedBy call).2⟩) s) :
    Ends X Q E (self.commitSuccessor call ms) s := by
  have hg0 : 0 ≤ call.generation := by
    obtain ⟨g, hg0, hg, -⟩ := hs.generation
    rwa [Text.str_injective (Option.some.inj (hgen.symm.trans hg))]
  refine Ends.bind (ends_replaceSlot hX (placementOk_of_predecessor hs hpre) hspare) ?_
  rintro _ s ⟨rfl, hok, rfl⟩
  obtain ⟨p, hp, hprun, hid, hfrom, hto, -⟩ := successorPlan_ok hrun hg0 hw hr hok
  dsimp only
  rw [hp]
  exact h p hp hprun hid hfrom hto

include hR

/-- Nothing under the key of the next generation: the plan is committed. -/
theorem ends_publishSuccessor_free (hid : self.runId = self.plans.runId)
    (hnone : s (.plan (call.generation + 1)) = none) :
    Ends (onTime call.request.restartDeadlineUnixMs)
      (fun x s' => (x.activeNodeIds, x.quarantinedNodeIds) = placedBy call ∧
        Commits self call x s' ∧ ∀ k, k ≠ call.generation + 1 → s' (.plan k) = s (.plan k))
      (fun _ _ => False) (self.publishSuccessor call) s := by
  have hX := shared_onTime call.request.restartDeadlineUnixMs
  refine ends_publishSuccessor hR hs hgen hpre hw fun ms _ =>
    ends_commitSuccessor hrun hs hgen hpre hw hr hspare hX
      fun p hp hprun _ hfrom hto => ?_
  refine Ends.bind (PlanStore.ends_publish hX self.plans (hprun.trans hid)
    (by rw [hfrom, hgen]) (by rw [hto, hnone])) ?_
  rintro _ s₁ rfl
  set s₁ := (s.put (.plan p.toGeneration) p.toJson).put .generation (Text.str p.toGeneration)
    with hs₁
  have hc : Committed p s₁ := by
    rw [Committed, hs₁, Store.put_of_ne (by simp), Store.put_self]
  refine Ends.bind (ends_startPlanLease hX (hprun.trans hid) hc) fun _ s₂ h₂ => ?_
  refine ends_ret ⟨rfl, ⟨p, hp, (h₂.1 _).trans hc, ?_, hto⟩, fun k hk => ?_⟩
  · rw [h₂.2, hs₁, Store.put_self, hto]
  · rw [h₂.1, hs₁, Store.put_of_ne (by simp), Store.put_of_ne (by simpa [hto] using hk)]

/-- **Another plan under that key**: it conflicts, and the store is as before. -/
theorem ends_publishSuccessor_taken (hid : self.runId = self.plans.runId) {q : RestartPlan}
    (hq : Committed q s) (hto : q.toGeneration = call.generation + 1)
    (hfresh : q.planId ≠ call.request.planId) :
    Ends (onTime call.request.restartDeadlineUnixMs) (fun _ _ => False)
      (fun e s' => e = .planConflict "another plan is committed for this generation" ∧ s' = s)
      (self.publishSuccessor call) s := by
  have hX := shared_onTime call.request.restartDeadlineUnixMs
  obtain ⟨q', hjson, hqrun, -⟩ := hs.plans _ _ hq
  obtain rfl := RestartPlan.toJson_injective hjson
  refine ends_publishSuccessor hR hs hgen hpre hw fun ms _ =>
    ends_commitSuccessor hrun hs hgen hpre hw hr hspare hX
      fun p _ hprun hplan hfrom hpto => ?_
  have hne : q ≠ p := fun h => hfresh (h ▸ hplan)
  exact Ends.bind (PlanStore.ends_publish_taken (Q := fun _ _ => False) hX self.plans
    (hprun.trans hid) (by rw [hfrom, hgen]) hq (hqrun.trans hR) (hto.trans hpto.symm) hne)
    fun _ _ h => h.elim

/-- A run id that the plan store has stripped belongs to no plan of its own. -/
theorem ends_publishSuccessor_stripped (hid : self.runId ≠ self.plans.runId) :
    Ends (onTime call.request.restartDeadlineUnixMs) (fun _ _ => False)
      (fun e s' => e = .valueError "plan belongs to another run" ∧ s' = s)
      (self.publishSuccessor call) s := by
  have hX := shared_onTime call.request.restartDeadlineUnixMs
  refine ends_publishSuccessor hR hs hgen hpre hw fun ms _ =>
    ends_commitSuccessor hrun hs hgen hpre hw hr hspare hX fun p _ hprun _ _ _ => ?_
  have hne : p.runId ≠ self.plans.runId := fun h => hid (hprun.symm.trans h)
  rw [PlanStore.publish, if_pos hne]
  exact ends_raise ⟨rfl, rfl⟩

end Commit

end Alone

theorem init_eq_ok {runId : String} {digest : String → String} {self : Coordinator}
    (h : init runId digest = .ok self) :
    self.runId = runId ∧ self.plans.runId = Text.strip runId ∧ Text.nonBlank runId = true := by
  rw [init, nonempty] at h
  split at h
  · rename_i hb
    cases h
    exact ⟨rfl, rfl, hb⟩
  · cases h

end Coordinator

/-- **When a successor can be committed.**  In every state that any number of
coordinators of a run can leave, some of them stopped half way: a coordinator
that then calls `publish_successor` alone, with the generation, placement and
quarantine list that are committed, their topology and a valid request with a
new plan id, returns with its plan committed exactly when its run id has no
surrounding white space and no plan is stored for the next generation; where
one is stored, it raises the conflict and leaves the store as it was. -/
theorem successor_committed_iff {runId : String} {digest : String → String}
    {self : Coordinator} (hself : Coordinator.init runId digest = .ok self) {ι : Type}
    {c : (coordinators self ι).Config Store}
    (h : System.Run exec ((coordinators self ι).idle fresh ()) c) {call : SuccessorCall}
    (hgen : c.store .generation = some (Text.str call.generation))
    (hpre : Coordinator.Predecessor call call.activeNodeIds call.quarantinedNodeIds c.store)
    (hw : 1 ≤ call.localWorldSize) (hr : call.request.Valid)
    (hfresh : ∀ q, Committed q c.store → q.planId ≠ call.request.planId)
    (hspare : Coordinator.Spare call c.store) :
    (Ends (Coordinator.onTime call.request.restartDeadlineUnixMs)
        (Coordinator.Commits self call) (fun _ _ => False) (self.publishSuccessor call) c.store ↔
      Text.strip runId = runId ∧ c.store (.plan (call.generation + 1)) = none) ∧
    (Text.strip runId = runId → c.store (.plan (call.generation + 1)) ≠ none →
      Ends (Coordinator.onTime call.request.restartDeadlineUnixMs) (fun _ _ => False)
        (fun e s' => e = .planConflict "another plan is committed for this generation" ∧
          s' = c.store) (self.publishSuccessor call) c.store) := by
  obtain ⟨hrunId, hplans, hb⟩ := Coordinator.init_eq_ok hself
  have hs := coordinated_store h
  have hb : Text.nonBlank self.runId = true := by rw [hrunId]; exact hb
  have htaken : Text.strip runId = runId → c.store (.plan (call.generation + 1)) ≠ none →
      Ends (Coordinator.onTime call.request.restartDeadlineUnixMs) (fun _ _ => False)
        (fun e s' => e = .planConflict "another plan is committed for this generation" ∧
          s' = c.store) (self.publishSuccessor call) c.store := by
    intro hid hsome
    obtain ⟨v, hv⟩ := Option.ne_none_iff_exists'.mp hsome
    obtain ⟨q, rfl, -, hto, -⟩ := hs.plans _ _ hv
    have hq : Committed q c.store := by rw [Committed, hto]; exact hv
    exact Coordinator.ends_publishSuccessor_taken rfl hb hs hgen hpre hw hr hspare
      (by rw [hrunId, hplans, hid]) hq hto (hfresh q hq)
  refine ⟨⟨fun hends => ?_, ?_⟩, htaken⟩
  · by_cases hid : Text.strip runId = runId
    · by_cases hnone : c.store (.plan (call.generation + 1)) = none
      · exact ⟨hid, hnone⟩
      · exact (hends.not_both (htaken hid hnone)).elim
    · have hne : self.runId ≠ self.plans.runId := by
        rw [hrunId, hplans]
        exact fun heq => hid heq.symm
      exact (hends.not_both (Coordinator.ends_publishSuccessor_stripped rfl hb hs hgen hpre hw
        hr hspare hne)).elim
  · rintro ⟨hid, hnone⟩
    exact (Coordinator.ends_publishSuccessor_free rfl hb hs hgen hpre hw hr hspare
      (by rw [hrunId, hplans, hid]) hnone).mono (fun _ _ hx => hx.2.1) fun _ _ he => he

/-! ## A publisher that stopped -/

theorem valid_sampleCall : sampleCall.request.Valid where
  planId := by decide
  intentId := by decide
  reasonCode := by decide
  recoveryMode := by decide
  checkpointSource := by decide
  checkpointStep := by decide
  checkpointId := by simp [sampleCall]
  durable := by decide
  gemini := by decide
  checkpointManifestId := by decide
  topologyDigest := by decide
  restartDeadline := by decide

/-- Where nothing is stored for generation one, the sample call commits. -/
theorem successor_committed_iff_sample :
    ∃ c : (coordinators sampleCoordinator Unit).Config Store,
      System.Run exec ((coordinators sampleCoordinator Unit).idle fresh ()) c ∧
      Ends (Coordinator.onTime 1000) (Coordinator.Commits sampleCoordinator sampleCall)
        (fun _ _ => False) (sampleCoordinator.publishSuccessor sampleCall) c.store := by
  obtain ⟨c, hrun, -, hgen, hids, hnone, -, -⟩ := placed_sample ()
  have hfresh : ∀ q, Committed q c.store → q.planId ≠ sampleCall.request.planId :=
    fun q hq => absurd ((hnone q.toGeneration).symm.trans hq) (Option.some_ne_none _).symm
  have hself : Coordinator.init "run" id = .ok sampleCoordinator := rfl
  have hgen : c.store .generation = some (Text.str sampleCall.generation) := hgen
  have hiff := (successor_committed_iff hself hrun hgen (.inl ⟨rfl, rfl, hids⟩) (by decide)
    valid_sampleCall hfresh (by rintro _ _ ⟨⟩)).1
  exact ⟨c, hrun, hiff.mpr ⟨by decide, hnone 1⟩⟩

/-- A call of a coordinator that is not disturbed commits its plan. -/
theorem exists_commits {runId : String} {digest : String → String} {self : Coordinator}
    (hself : Coordinator.init runId digest = .ok self) (hid : Text.strip runId = runId) {ι : Type}
    {c : (coordinators self ι).Config Store}
    (h : System.Run exec ((coordinators self ι).idle fresh ()) c) {p : ι}
    (hidle : (c.threads p).current = none) {call : SuccessorCall}
    (hgen : c.store .generation = some (Text.str call.generation))
    (hpre : Coordinator.Predecessor call call.activeNodeIds call.quarantinedNodeIds c.store)
    (hw : 1 ≤ call.localWorldSize) (hr : call.request.Valid)
    (hspare : Coordinator.Spare call c.store)
    (hnone : c.store (.plan (call.generation + 1)) = none) :
    ∃ c', System.Run exec c c' ∧ (c'.threads p).current = none ∧
      (∃ plan, self.successorPlan call (Coordinator.placedBy call).1 (Coordinator.placedBy call).2 =
          .ok plan ∧ Committed plan c'.store) ∧
      c'.store .generation = some (Text.str (call.generation + 1)) ∧
      ∀ k, k ≠ call.generation + 1 → c'.store (.plan k) = c.store (.plan k) := by
  obtain ⟨hrunId, hplans, hb⟩ := Coordinator.init_eq_ok hself
  have hends := Coordinator.ends_publishSuccessor_free rfl (by rw [hrunId]; exact hb)
    (coordinated_store h) hgen hpre hw hr hspare (by rw [hrunId, hplans, hid]) hnone
  obtain ⟨x, s', halone, hplaced, ⟨plan, hplan, hc, hgen', -⟩, hothers⟩ | ⟨e, s', -, he⟩ :=
    hends.finishes
  · have hbody : Alone exec ((coordinators self ι).body p (.publishSuccessor call)
        (c.threads p).attrs) c.store (.ret (some x, (c.threads p).attrs)) s' :=
      Alone.lift (Alone.bind (halone.mono fun _ _ _ _ hx => hx.1) (.done _ _))
    obtain ⟨c', hrun, hs', hthread, -⟩ := System.Run.alone hidle hbody
    rw [← hs'] at hc hgen' hothers
    refine ⟨c', hrun, by rw [hthread], ⟨plan, ?_, hc⟩, hgen', hothers⟩
    rw [← hplaced]
    exact hplan
  · exact he.elim

/-- The node of `samplePlan` is replaced by a spare one. -/
def replacingCall : SuccessorCall := { sampleCall with replacement := some (0, "node-b") }

/-- The spare node is restarted in place. -/
def restartingCall : SuccessorCall where
  generation := 1
  activeNodeIds := ["node-b"]
  quarantinedNodeIds := ["node-a"]
  request := { sampleCall.request with planId := "plan-2" }
  localWorldSize := 8
  replacement := none

/-- The slot of the replaced node, on the spare one. -/
def spareSlot : SlotAssignment :=
  { sampleSlot with nodeId := "node-b", nodeId_nonBlank := nodeB_named }

/-- What is committed with the replacement. -/
def replacingPlan : RestartPlan where
  toPlanFields :=
    { samplePlan.toPlanFields with
      slotAssignments := [spareSlot]
      quarantinedNodeIds := ["node-a"] }
  valid :=
    { samplePlan.valid with
      slotAssignments := ⟨by decide, by decide, by decide, by decide, by decide⟩
      quarantinedNodeIds := ⟨by decide, by decide⟩
      disjoint := by decide
      worldSize := by decide }

/-- What is committed after it. -/
def restartingPlan : RestartPlan where
  toPlanFields :=
    { replacingPlan.toPlanFields with planId := "plan-2", fromGeneration := 1, toGeneration := 2 }
  valid :=
    { replacingPlan.valid with
      planId := by decide
      fromGeneration := by decide
      toGeneration := by decide
      successor := by decide }

/-- Two nodes register, and the first one is placed; it is replaced by the second one, which is
restarted in place.  Who is quarantined by the first plan is not active in the second one. -/
theorem quarantine_permanent_sample :
    ∃ c : (coordinators sampleCoordinator Bool).Config Store,
      System.Run exec ((coordinators sampleCoordinator Bool).idle fresh ()) c ∧
      Committed replacingPlan c.store ∧ Committed restartingPlan c.store ∧
      Succeeds c.store replacingPlan ∧ Succeeds c.store restartingPlan ∧
      (∀ n ∈ replacingPlan.quarantinedNodeIds, n ∉ nodesOf restartingPlan.slotAssignments) ∧
      SameTopology restartingPlan replacingPlan := by
  let Y := coordinators sampleCoordinator Bool
  have hself : Coordinator.init "run" id = .ok sampleCoordinator := rfl
  obtain ⟨c₁, hrun₁, hidle₁, hgen₁, hids₁, hnone₁, hmax₁, hlog₁⟩ := placed_sample false
  have hspare : Alone exec (Y.body true (.registerNode "node-b" "agent-b" 4) ()) c₁.store
      (.ret (none, ())) _ := Alone.lift (w := ()) (Alone.bind
    (listed_sampleLog.registerNode
      (Or.inr hmax₁) (by rw [hlog₁]; rfl)) (.done _ _))
  obtain ⟨c₂, hrun₂, hs₂, ht₂, -⟩ := System.Run.alone (Y := Y) (c := c₁) (p := true)
    (hidle₁ true) hspare
  have hgen₂ : c₂.store .generation = some (Text.str replacingCall.generation) := by
    rw [hs₂, Store.put_of_ne (by simp), Store.put_of_ne (by simp), hgen₁]
    rfl
  have hpre₂ : Coordinator.Predecessor replacingCall ["node-a"] [] c₂.store := by
    refine .inl ⟨rfl, rfl, ?_⟩
    rw [Initial, hs₂, Store.put_of_ne (by simp), Store.put_of_ne (by simp)]
    exact hids₁
  have hnone₂ : ∀ g, c₂.store (.plan g) = none := fun g => by
    rw [hs₂, Store.put_of_ne (by simp), Store.put_of_ne (by simp)]
    exact hnone₁ g
  have hregistered : Coordinator.Spare replacingCall c₂.store := by
    rintro _ _ ⟨⟩
    refine ⟨by decide, by decide, nodeB_named, by decide, by decide, Text.str 4, 4, _, _, ?_,
      decodePositiveInteger_str (by decide) _, ?_, listed_sampleLog.registrationsOf, by decide⟩
    · rw [hs₂, Store.put_of_ne (by simp), Store.put_self]
    · rw [hs₂, Store.put_self]
      rfl
  have hrun₁₂ := hrun₁.trans hrun₂
  obtain ⟨c₃, hrun₃, hidle₃, ⟨plan, hplan, hc₃⟩, hgen₃, hothers₃⟩ := exists_commits hself
    (by decide) hrun₁₂ (p := true) (by rw [ht₂]) hgen₂ hpre₂ (by decide) valid_sampleCall
    hregistered (hnone₂ 1)
  obtain rfl : replacingPlan = plan := Except.ok.inj hplan
  have hpre₃ : Coordinator.Predecessor restartingCall ["node-b"] ["node-a"] c₃.store :=
    .inr ⟨replacingPlan, hc₃, rfl, rfl, rfl, rfl, by decide⟩
  have hrun₁₃ := hrun₁₂.trans hrun₃
  obtain ⟨c₄, hrun₄, -, ⟨plan', hplan', hc₄⟩, -, hothers₄⟩ := exists_commits hself
    (by decide) hrun₁₃ (p := true) hidle₃ hgen₃ hpre₃ (by decide)
    { valid_sampleCall with planId := by decide } (by rintro _ _ ⟨⟩)
    ((hothers₃ 2 (by decide)).trans (hnone₂ 2))
  obtain rfl : restartingPlan = plan' := Except.ok.inj hplan'
  have hc₄' : Committed replacingPlan c₄.store := (hothers₄ 1 (by decide)).trans hc₃
  obtain ⟨-, hsucceeds, hquarantined, -, htopology⟩ := quarantine_permanent (hrun₁₃.trans hrun₄)
  exact ⟨c₄, hrun₁₃.trans hrun₄, hc₄', hc₄, hsucceeds _ hc₄', hsucceeds _ hc₄,
    hquarantined _ _ hc₄' hc₄ (by decide), htopology _ _ hc₄' hc₄⟩

/-- The same decision under another plan id. -/
def secondCall : SuccessorCall :=
  { sampleCall with request := { sampleCall.request with planId := "plan-2" } }

theorem valid_secondCall : secondCall.request.Valid :=
  { valid_sampleCall with planId := by decide }

/-- A publisher writes its plan and goes no further. -/
theorem publish_segment {self : PlanStore} {p : RestartPlan} {s : Store}
    (hrun : p.runId = self.runId) (hgen : s .generation = some (Text.str p.fromGeneration))
    (hnone : s (.plan p.toGeneration) = none) :
    Alone exec (self.publish p) s (PlanStore.advance p)
      (s.put (.plan p.toGeneration) p.toJson) := by
  have hto : p.fromGeneration ≠ p.toGeneration := by rw [p.valid.successor]; omega
  rw [PlanStore.publish, if_neg (not_not.mpr hrun)]
  refine Alone.bind (currentGeneration_alone p.valid.fromGeneration hgen) ?_
  rw [if_neg hto, if_neg (not_not.mpr rfl)]
  refine alone_compareSet (Store.compareSet_missing hnone _) ?_
  rw [if_neg (not_not.mpr rfl)]
  exact .done _ _

/-- **The next generation can be blocked for ever.**  One of two coordinators
writes its plan for generation one and stops.  The other one then calls
`publish_successor` with everything as it is committed, a valid request and a
new plan id, and does not commit. -/
theorem successor_blocked :
    ∃ c : (coordinators sampleCoordinator Bool).Config Store,
      System.Run exec ((coordinators sampleCoordinator Bool).idle fresh ()) c ∧
      (c.threads true).current = none ∧
      c.store .generation = some (Text.str secondCall.generation) ∧
      Coordinator.Predecessor secondCall secondCall.activeNodeIds
        secondCall.quarantinedNodeIds c.store ∧
      1 ≤ secondCall.localWorldSize ∧ secondCall.request.Valid ∧
      (∀ q, Committed q c.store → q.planId ≠ secondCall.request.planId) ∧
      Coordinator.Spare secondCall c.store ∧
      ¬ Ends (Coordinator.onTime secondCall.request.restartDeadlineUnixMs)
        (Coordinator.Commits sampleCoordinator secondCall) (fun _ _ => False)
        (sampleCoordinator.publishSuccessor secondCall) c.store := by
  obtain ⟨c₁, hrun₁, hidle, hgen, hids, hnone, -, -⟩ := placed_sample false
  -- the first coordinator stops after its write
  have hhalf := (publishSuccessor_segment hgen hids).trans
    (publish_segment (show samplePlan.runId = sampleCoordinator.plans.runId from rfl) hgen
      (hnone 1)).segment
  have hbody : Alone exec ((coordinators sampleCoordinator Bool).body false
      (.publishSuccessor sampleCall) (c₁.threads false).attrs) c₁.store _ _ :=
    hhalf.segment.lift_segment
  obtain ⟨c, hrun, hs, -, hother⟩ := System.Run.begin (hidle false) hbody
  have hgen' : c.store .generation = some (Text.str 0) := by
    rw [hs, Store.put_of_ne (by simp), hgen]
  have hids' : Initial ["node-a"] c.store := by
    rw [Initial, hs, Store.put_of_ne (by simp), hids]
  have hplan : Committed samplePlan c.store := by rw [Committed, hs, Store.put_self]
  have hfresh : ∀ q, Committed q c.store → q.planId ≠ secondCall.request.planId := by
    intro q hq
    have hone : q.toGeneration = samplePlan.toGeneration := by
      by_contra hne
      rw [Committed, hs, Store.put_of_ne (by simpa using hne), hnone] at hq
      cases hq
    rw [committed_unique hq hplan hone]
    decide
  have hpre : Coordinator.Predecessor secondCall ["node-a"] [] c.store :=
    .inl ⟨rfl, rfl, hids'⟩
  have hspare : Coordinator.Spare secondCall c.store := by rintro _ _ ⟨⟩
  have hs := coordinated_store (hrun₁.trans hrun)
  refine ⟨c, hrun₁.trans hrun, ?_, hgen', hpre, by decide, valid_secondCall, hfresh, hspare,
    fun hends => ?_⟩
  · rw [hother true Bool.noConfusion]
    exact hidle true
  · exact hends.not_both (Coordinator.ends_publishSuccessor_taken rfl (by decide)
      hs hgen' hpre (by decide) valid_secondCall hspare rfl hplan rfl (by decide))

end LmResiliency.Torchrun
