/-
# PlanLog — the log of restart plans under concurrent publishers

Any number of processes share one store and call `publish`, each with any
plans it likes, one call after the other.  The plan of a generation and the
generation counter are two keys written by separate operations, and a
publisher may stop between the two; another one with the same plan finishes
its work.  What carries the proof is the invariant of the store (no
generation without its plan) and that both keys only ever move forward.

That is `publish_agreement`.  It is safety: that a publisher comes to an end is
not part of it.
-/
import LmResiliency.Torchrun.Methods

namespace LmResiliency.Torchrun

open Interleave

/-! ## Alone -/

section Alone

variable {α β : Type} {s s' : Store} {q : StoreM β}

theorem alone_perform {o : Op} {f : o.Res → StoreM β} {s₁ : Store} (r : o.Res)
    (hx : exec s o r s₁) (h : Alone exec (f r) s₁ q s') :
    Alone exec (perform o >>= f) s q s' := .op r hx h

theorem alone_get {k : Key} {v : String} {f : String → StoreM β} (hk : s k = some v)
    (h : Alone exec (f v) s q s') : Alone exec (get k >>= f) s q s' :=
  .op (some v) ⟨rfl, hk.symm⟩ h

theorem alone_compareSet {k : Key} {expected desired v : String} {t : Store}
    {f : String → StoreM β} (hx : s.compareSet k expected desired = (v, t))
    (h : Alone exec (f v) t q s') :
    Alone exec (compareSet k expected desired >>= f) s q s' :=
  .op v ⟨by rw [hx], by rw [hx]⟩ h

theorem alone_ofExcept {x : Except Raised α} {a : α} {f : α → StoreM β} (hx : x = .ok a)
    (h : Alone exec (f a) s q s') : Alone exec (ofExcept x >>= f) s q s' := by
  subst hx
  exact h

/-- A publisher that runs alone on the predecessor's generation commits its plan. -/
theorem publish_alone (self : PlanStore) {p : RestartPlan} (hrun : p.runId = self.runId)
    (hgen : s .generation = some (Text.str p.fromGeneration))
    (hnone : s (.plan p.toGeneration) = none) :
    Alone exec (self.publish p) s (.ret ())
      ((s.put (.plan p.toGeneration) p.toJson).put .generation (Text.str p.toGeneration)) := by
  have hto : p.fromGeneration ≠ p.toGeneration := by rw [p.valid.successor]; omega
  have hfrom : decodeGeneration (Text.str p.fromGeneration) = .ok p.fromGeneration :=
    decodeGeneration_str p.valid.fromGeneration
  have hnext : decodeGeneration (Text.str p.toGeneration) = .ok p.toGeneration :=
    decodeGeneration_str (by have := p.valid.toGeneration; omega)
  rw [PlanStore.publish, if_neg (not_not.mpr hrun)]
  rw [PlanStore.currentGeneration, bind_assoc]
  refine alone_get hgen (alone_ofExcept hfrom ?_)
  rw [if_neg hto, if_neg (not_not.mpr rfl)]
  refine alone_compareSet (Store.compareSet_missing hnone _) ?_
  rw [if_neg (not_not.mpr rfl)]
  have hadvance : (s.put (.plan p.toGeneration) p.toJson).compareSet .generation
      (Text.str p.fromGeneration) (Text.str p.toGeneration) = (Text.str p.toGeneration,
        (s.put (.plan p.toGeneration) p.toJson).put .generation (Text.str p.toGeneration)) := by
    rw [Store.compareSet, Store.put_of_ne (by simp), hgen]
    exact if_pos rfl
  refine alone_compareSet hadvance (alone_ofExcept hnext ?_)
  rw [if_neg (not_not.mpr rfl)]
  exact .done _ _

theorem currentGeneration_alone {g : Int} (hg : 0 ≤ g)
    (h : s .generation = some (Text.str g)) :
    Alone exec PlanStore.currentGeneration s (.ret g) s := by
  have hdec := decodeGeneration_str hg
  exact alone_get h (by rw [hdec]; exact .done _ _)

theorem read_alone (self : PlanStore) {p : RestartPlan} (hrun : p.runId = self.runId)
    (hc : Committed p s) : Alone exec (self.read p.toGeneration) s (.ret (some p)) s := by
  have hto := p.valid.toGeneration
  have hall : [Key.plan p.toGeneration].all (fun k => (s k).isSome) = true := by
    rw [Committed] at hc
    simp [hc]
  rw [PlanStore.read, if_neg (by omega)]
  refine alone_perform (o := .check [.plan p.toGeneration]) true ⟨rfl, hall.symm⟩ ?_
  exact alone_get hc (alone_ofExcept (decodePlan_toJson hrun) (.done _ _))

/-- A publisher whose plan is committed already changes nothing. -/
theorem publish_again_alone (self : PlanStore) {p : RestartPlan} (hrun : p.runId = self.runId)
    (hgen : s .generation = some (Text.str p.toGeneration)) (hc : Committed p s) :
    Alone exec (self.publish p) s (.ret ()) s := by
  have hto := p.valid.toGeneration
  rw [PlanStore.publish, if_neg (not_not.mpr hrun)]
  refine Alone.bind (currentGeneration_alone (by omega) hgen) ?_
  rw [if_pos rfl]
  refine Alone.bind (read_alone self hrun hc) ?_
  rw [if_neg (not_not.mpr rfl)]
  exact .done _ _

end Alone

/-! ## Concurrent publishers -/

/-- What a publisher may call. -/
inductive PlanCall where
  /-- construct the plan store -/
  | connect
  | publish (plan : RestartPlan)

/-- The publishers of one run, `ι` of them. -/
def publishers (self : PlanStore) (ι : Type) : System iface where
  Proc := ι
  Call _ := PlanCall
  Attrs := Unit
  Value := Unit
  Exn := Raised
  body
    | _, .connect => .lift PlanStore.connect
    | _, .publish plan => .lift (self.publish plan)

/-- The store that the first constructor leaves on an empty one. -/
def fresh : Store := (Store.empty.compareSet .generation "" "0").2

/-- What the generation key decodes to. -/
def generationOf (s : Store) : Option Int :=
  (s .generation).bind fun v => (decodeGeneration v).toOption

/-- Where nobody owns a key, its owner is unique. -/
theorem unowned_unique {v v' : String} (h : False) (_ : False) : v = v' := h.elim

/-- Any plan of the run may be committed; nobody is ready. -/
def anyPlan (runId : String) : Rules where
  runId
  admits _ _ := True
  admits_grows _ h := h
  owner _ _ := False
  owner_unique := unowned_unique

theorem storeInv_fresh (R : Rules) : StoreInv R fresh := by
  have hput : fresh = Store.empty.put .generation "0" := by
    rw [fresh, Store.compareSet]
    rfl
  have hne : ∀ k, k ≠ .generation → fresh k = none := fun k hk => by
    rw [hput, Store.put_of_ne hk]
    rfl
  refine ⟨⟨0, le_refl 0, by rw [hput]; rfl, fun k h1 h0 => absurd h1 (by omega)⟩, ?_, ⟨[], ?_⟩,
    ?_, ?_⟩
  · intro k v hv
    rw [hne (.plan k) (by simp)] at hv
    cases hv
  · rw [logOf, hne .registrations (by simp)]
    rfl
  · intro v hv
    rw [hne .initialNodes (by simp)] at hv
    cases hv
  · intro g d v hv
    rw [hne (.ready g d) (by simp)] at hv
    cases hv

theorem generationOf_eq {s : Store} {g : Int} (hg : 0 ≤ g)
    (h : s .generation = some (Text.str g)) : generationOf s = some g := by
  rw [generationOf, h, Option.bind_some, decodeGeneration_str hg]
  rfl

/-- The invariant, as it is read off a store. -/
theorem StoreInv.planLog {R : Rules} {s : Store} (hs : StoreInv R s) :
    ∃ g, generationOf s = some g ∧ 0 ≤ g ∧ ∀ k, 1 ≤ k → k ≤ g → ∃ plan : RestartPlan,
      s (.plan k) = some plan.toJson ∧ plan.runId = R.runId ∧ plan.fromGeneration = k - 1 ∧
        plan.toGeneration = k := by
  obtain ⟨g, hg0, hg, hup⟩ := hs.generation
  refine ⟨g, generationOf_eq hg0 hg, hg0, fun k hk hkg => ?_⟩
  obtain ⟨v, hv⟩ := hup k hk hkg
  obtain ⟨plan, rfl, hrun, hto, -, -⟩ := hs.plans k v hv
  have := plan.valid.successor
  exact ⟨plan, hv, hrun, by omega, hto⟩

theorem generationOf_moves {R : Rules} {s s' : Store} (hs : StoreInv R s)
    (h : (world R).Moves s s') :
    generationOf s' = generationOf s ∨
      ∃ g, generationOf s = some g ∧ generationOf s' = some (g + 1) := by
  rcases h with rfl | ⟨-, hg⟩
  · exact .inl rfl
  · rcases hg.generation with heq | ⟨g, hgs, hgs'⟩
    · exact .inl (by rw [generationOf, generationOf, heq])
    · obtain ⟨g₀, hg0, hg₀, -⟩ := hs.generation
      obtain rfl : g₀ = g := Text.str_injective (Option.some.inj (hg₀.symm.trans hgs))
      exact .inr ⟨g₀, generationOf_eq hg0 hgs, generationOf_eq (by omega) hgs'⟩

theorem generationOf_later {R : Rules} {s s' : Store} (hs : StoreInv R s)
    (h : (world R).Later s s') :
    ∃ g g', generationOf s = some g ∧ generationOf s' = some g' ∧ g ≤ g' := by
  obtain ⟨g, hg0, hg, -⟩ := hs.generation
  obtain ⟨g', hle, hg'⟩ := later_reached h hs ⟨g, le_refl g, hg⟩
  exact ⟨g, g', generationOf_eq hg0 hg, generationOf_eq (by omega) hg', hle⟩

/-- A plan whose publication returned is committed. -/
def PublishedPlans (self : PlanStore) (ι : Type) : (publishers self ι).Known Store :=
  fun _ l _ s => ∀ plan, (PlanCall.publish plan, Except.ok ()) ∈ l → Committed plan s

theorem publishers_proof (self : PlanStore) (ι : Type) :
    System.Proof (world (anyPlan self.runId)) (PublishedPlans self ι) where
  keeps _ _ _ _ _ hs hl h plan hmem := later_committed hl hs (h plan hmem)
  call p k l w s hs h := by
    have hraise : ∀ e s', PublishedPlans self ι p l w s' →
        PublishedPlans self ι p ((k, .error e) :: l) w s' := fun e s' h plan hmem => by
      rcases List.mem_cons.mp hmem with heq | hmem
      · cases heq
      · exact h plan hmem
    have hlater : ∀ {s'}, (world (anyPlan self.runId)).Later s s' →
        PublishedPlans self ι p l w s' := fun hl plan hmem => later_committed hl hs (h plan hmem)
    cases k with
    | connect =>
        refine Safe.lift (Safe.mono hs
          (PlanStore.safe_connect (Q := fun _ _ => True) (E := fun _ _ => True) hs
            fun _ => trivial) ?_ fun e s' _ hl _ => hraise e s' (hlater hl))
        intro _ s' _ hl _ plan hmem
        rcases List.mem_cons.mp hmem with heq | hmem
        · cases heq
        · exact hlater hl plan hmem
    | publish plan =>
        refine Safe.lift (Safe.mono hs
          (PlanStore.safe_publish self rfl hs (p := plan) trivial fun _ _ => trivial) ?_
          fun e s' _ hl (_ : True) => hraise e s' (hlater hl))
        intro _ s' _ hl hc plan' hmem
        rcases List.mem_cons.mp hmem with heq | hmem
        · cases heq
          exact hc.1
        · exact hlater hl plan' hmem

/-- **Agreement of the plan log.**  In every configuration `c` of every run of
any number of publishers: every generation up to the current one has the plan
that leads to it; in everything that may follow, `c'`, no plan key changes and
the generation does not go back; one step takes it forward by one at most;
and calls that returned for one generation were given one plan. -/
theorem publish_agreement {self : PlanStore} {ι : Type}
    {c c' : (publishers self ι).Config Store}
    (h : System.Run exec ((publishers self ι).idle fresh ()) c) (h' : System.Run exec c c') :
    (∃ g, generationOf c.store = some g ∧ 0 ≤ g ∧ ∀ k, 1 ≤ k → k ≤ g →
      ∃ plan : RestartPlan, c.store (.plan k) = some plan.toJson ∧ plan.runId = self.runId ∧
        plan.fromGeneration = k - 1 ∧ plan.toGeneration = k) ∧
    (∀ k v, c.store (.plan k) = some v → c'.store (.plan k) = some v) ∧
    (∃ g g', generationOf c.store = some g ∧ generationOf c'.store = some g' ∧ g ≤ g') ∧
    (System.Step exec c c' → generationOf c'.store = generationOf c.store ∨
      ∃ g, generationOf c.store = some g ∧ generationOf c'.store = some (g + 1)) ∧
    (∀ p q plan plan', (PlanCall.publish plan, Except.ok ()) ∈ (c.threads p).history →
      (PlanCall.publish plan', Except.ok ()) ∈ (c.threads q).history →
      plan.toGeneration = plan'.toGeneration → plan = plan') := by
  have hproof := publishers_proof self ι
  have hinit := System.Inv.idle (W := world (anyPlan self.runId)) (Y := publishers self ι)
    (K := PublishedPlans self ι) (w := ()) (storeInv_fresh _)
    fun p plan hmem => by cases hmem
  obtain ⟨hc, -⟩ := System.Run.sound hproof hinit h
  obtain ⟨-, hl⟩ := System.Run.sound hproof hc h'
  refine ⟨hc.store.planLog, fun k v hv => later_plan hl hc.store hv,
    generationOf_later hc.store hl, fun hstep => ?_, fun p q plan plan' hp hq hto => ?_⟩
  · exact generationOf_moves hc.store (hstep.sound hproof hc).2
  · have h₁ : Committed plan c.store := (hc.threads p).1 plan hp
    have h₂ : Committed plan' c.store := (hc.threads q).1 plan' hq
    rw [Committed, ← hto] at h₂
    exact RestartPlan.toJson_injective (Option.some.inj (h₁.symm.trans h₂))

theorem nodeA_named : Text.nonBlank "node-a" = true := by decide

/-- The one node of the sample plan. -/
def sampleSlot : SlotAssignment :=
  ⟨0, "node-a", 0, 8, by decide, nodeA_named, by decide, by decide⟩

/-- A plan of one node that is restarted in place. -/
def samplePlan : RestartPlan where
  planId := "plan-1"
  intentId := "incident-1"
  runId := "run"
  fromGeneration := 0
  toGeneration := 1
  incidentIds := ["incident-1"]
  reasonCode := "worker_failed"
  recoveryMode := "latest"
  checkpointSource := "gemini"
  checkpointStep := 10
  checkpointId := none
  checkpointManifestId := "manifest-1"
  slotAssignments := [sampleSlot]
  quarantinedNodeIds := []
  expectedWorldSize := 8
  topologyDigest := "topology"
  restartDeadlineUnixMs := 1000
  valid :=
    { planId := by decide
      intentId := by decide
      runId := by decide
      fromGeneration := by decide
      toGeneration := by decide
      successor := by decide
      incidentIds := ⟨by decide, by decide⟩
      incident := by decide
      reasonCode := by decide
      recoveryMode := by decide
      checkpointSource := by decide
      checkpointStep := by decide
      checkpointId := by simp
      durable := by decide
      gemini := by decide
      checkpointManifestId := by decide
      slotAssignments := ⟨by decide, by decide, by decide, by decide, by decide⟩
      quarantinedNodeIds := ⟨by decide, by decide⟩
      disjoint := by decide
      expectedWorldSize := by decide
      worldSize := by decide
      topologyDigest := by decide
      restartDeadline := by decide }

/-- The plan after it. -/
def nextPlan : RestartPlan where
  toPlanFields :=
    { samplePlan.toPlanFields with planId := "plan-2", fromGeneration := 1, toGeneration := 2 }
  valid :=
    { samplePlan.valid with
      planId := by decide
      fromGeneration := by decide
      toGeneration := by decide
      successor := by decide }

/-- One publisher commits the plan of generation one; another one is given the same plan, finds it
committed, and goes on to commit the next one. -/
theorem publish_agreement_samplePlan :
    ∃ c c' : (publishers ⟨"run", id⟩ Bool).Config Store,
      System.Run exec ((publishers ⟨"run", id⟩ Bool).idle fresh ()) c ∧ System.Run exec c c' ∧
      (PlanCall.publish samplePlan, Except.ok ()) ∈ (c.threads false).history ∧
      (PlanCall.publish samplePlan, Except.ok ()) ∈ (c.threads true).history ∧
      (PlanCall.publish nextPlan, Except.ok ()) ∈ (c'.threads true).history ∧
      (∃ g, generationOf c'.store = some g ∧ 0 ≤ g ∧ ∀ k, 1 ≤ k → k ≤ g →
        ∃ plan : RestartPlan, c'.store (.plan k) = some plan.toJson ∧ plan.runId = "run" ∧
          plan.fromGeneration = k - 1 ∧ plan.toGeneration = k) ∧
      ∀ k v, c.store (.plan k) = some v → c'.store (.plan k) = some v := by
  let Y := publishers ⟨"run", id⟩ Bool
  have hfirst : Alone exec (Y.body false (.publish samplePlan) ()) fresh (.ret ((), ())) _ :=
    Alone.lift (w := ()) (publish_alone ⟨"run", id⟩ (p := samplePlan) rfl rfl rfl)
  obtain ⟨c₁, hrun₁, hs₁, ht₁, hother₁⟩ := System.Run.alone (Y := Y) (c := Y.idle fresh ())
    (p := false) rfl hfirst
  have hgen₁ : c₁.store .generation = some (Text.str samplePlan.toGeneration) := by
    rw [hs₁, Store.put_self]
  have hc₁ : Committed samplePlan c₁.store := by
    rw [Committed, hs₁, Store.put_of_ne (by simp), Store.put_self]
  have hagain : Alone exec (Y.body true (.publish samplePlan) ()) c₁.store (.ret ((), ())) _ :=
    Alone.lift (w := ()) (publish_again_alone ⟨"run", id⟩ (p := samplePlan) rfl hgen₁ hc₁)
  obtain ⟨c₂, hrun₂, hs₂, ht₂, hother₂⟩ := System.Run.alone (Y := Y) (c := c₁) (p := true)
    (by rw [hother₁ true Bool.noConfusion]; rfl) (by rw [hother₁ true Bool.noConfusion]; exact hagain)
  have hnone₂ : c₂.store (.plan nextPlan.toGeneration) = none := by
    rw [hs₂, hs₁, Store.put_of_ne (by simp), Store.put_of_ne (by decide)]
    rfl
  have hnext : Alone exec (Y.body true (.publish nextPlan) ()) c₂.store (.ret ((), ())) _ :=
    Alone.lift (w := ()) (publish_alone ⟨"run", id⟩ (p := nextPlan) rfl (by rw [hs₂]; exact hgen₁)
      hnone₂)
  obtain ⟨c₃, hrun₃, -, ht₃, -⟩ := System.Run.alone (Y := Y) (c := c₂) (p := true)
    (by rw [ht₂]) (by rw [ht₂]; exact hnext)
  have hrun := hrun₁.trans hrun₂
  refine ⟨c₂, c₃, hrun, hrun₃, ?_, ?_, ?_, (publish_agreement (hrun.trans hrun₃) .refl).1,
    (publish_agreement hrun hrun₃).2.1⟩
  · rw [hother₂ false Bool.noConfusion, ht₁]
    exact List.mem_cons_self
  · rw [ht₂]
    exact List.mem_cons_self
  · rw [ht₃]
    exact List.mem_cons_self

end LmResiliency.Torchrun
