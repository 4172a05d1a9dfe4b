/-
# RendezvousAgreement — handlers, their heartbeats and the publishers

The handlers of one run, one for each node, their heartbeat threads and any
number of publishers share one store.  What a handler returned stays true of
the store, so that the results of different handlers, however far apart
their reads were, speak of one placement for each generation.

The main result is `rendezvous_agreement`.  The digest of a node id is assumed to
tell apart the ids that occur in the run, and no others.  That a rendezvous ever
completes is not shown.
-/
import LmResiliency.Torchrun.RendezvousAlone

namespace LmResiliency.Torchrun

open Interleave

/-! ## The system -/

/-- The handlers of one run, `ν` of them, on distinct nodes. -/
structure Fleet (ν : Type) where
  plans : PlanStore
  handler : ν → Handler
  handler_plans : ∀ n, (handler n).plans = plans
  nodeId_injective : Function.Injective fun n => (handler n).config.nodeId

/-- What the agent may call on its handler. -/
inductive HandlerCall where
  | construct
  | nextRendezvous (budget : Nat)
  | numNodesWaiting
  | isClosed
  | setClosed

/-- What a publisher may call. -/
inductive PublisherCall where
  | connect
  | publish (plan : RestartPlan)
  | renewPlanLease (plan : RestartPlan) (remainingMs : Int)

inductive Party (ν ι : Type) where
  | handler (n : ν)
  /-- the heartbeat thread of a handler -/
  | heartbeat (n : ν)
  | publisher (i : ι)

def Party.Call {ν ι : Type} : Party ν ι → Type
  | .handler _ => HandlerCall
  | .heartbeat _ => Nat
  | .publisher _ => PublisherCall

/-- What a call returns. -/
inductive Outcome where
  | none
  | info (info : RendezvousInfo)
  | bool (value : Bool)
  | int (value : Int)

/-- The parties of one run. -/
def rendezvous {ν : Type} (fleet : Fleet ν) (ι : Type) : System iface where
  Proc := Party ν ι
  Call := Party.Call
  Attrs := HandlerState
  Value := Outcome
  Exn := Raised
  body
    | .handler n, .construct => do
        (fleet.handler n).construct
        pure .none
    | .handler n, .nextRendezvous budget => do
        let info ← (fleet.handler n).nextRendezvous budget
        pure (.info info)
    | .handler n, .numNodesWaiting => do
        let count ← (fleet.handler n).numNodesWaiting
        pure (.int count)
    | .handler _, .isClosed => do
        let closed ← Handler.isClosed
        pure (.bool closed)
    | .handler _, .setClosed => do
        Handler.setClosed
        pure .none
    | .heartbeat n, (budget : Nat) => do
        (fleet.handler n).heartbeatLoop 0 budget
        pure .none
    | .publisher _, .connect => .lift do
        PlanStore.connect
        pure .none
    | .publisher _, .publish plan => .lift do
        fleet.plans.publish plan
        pure .none
    | .publisher _, .renewPlanLease plan remainingMs => .lift do
        let sequence ← fleet.plans.renewPlanLease plan remainingMs
        pure (.int sequence)

variable {ν ι : Type} {fleet : Fleet ν}

/-- The results that a call added to the history. -/
def infoOf {κ : Type} : κ × Except Raised Outcome → Option RendezvousInfo
  | (_, .ok (.info info)) => some info
  | _ => none

/-- The rendezvous that a handler returned, the latest first. -/
def returned (c : (rendezvous fleet ι).Config Store) (n : ν) : List RendezvousInfo :=
  (c.threads (.handler n)).history.filterMap infoOf

/-- The keys of the handlers' nodes are distinct. -/
def Fleet.KeysDistinct (fleet : Fleet ν) : Prop :=
  Function.Injective fun n => fleet.plans.digest (fleet.handler n).config.nodeId

/-- Any plan of the run may be committed; a ready record belongs to the handler
of its node. -/
def Fleet.rules (fleet : Fleet ν) (hkeys : fleet.KeysDistinct) : Rules where
  runId := fleet.plans.runId
  admits _ _ := True
  admits_grows _ h := h
  owner d v := ∃ n, fleet.plans.digest (fleet.handler n).config.nodeId = d ∧
    v = (fleet.handler n).readyText
  owner_unique := by
    rintro d v v' ⟨n, hn, rfl⟩ ⟨n', hn', rfl⟩
    rw [hkeys (hn.trans hn'.symm)]

/-- What is known of a handler from the results `infos` that it returned: they
are joined, their generations go up, and the last generation is not behind. -/
structure Joins (handler : Handler) (infos : List RendezvousInfo) (w : HandlerState)
    (s : Store) : Prop where
  joined : ∀ info ∈ infos, handler.Joined info s
  last : ∀ info ∈ infos, ∃ last ∈ w.lastGeneration, info.generation ≤ last
  increasing : infos.Pairwise fun late early => early.generation < late.generation

theorem Joins.nil {self : Handler} {w : HandlerState} {s : Store} : Joins self [] w s :=
  ⟨List.forall_mem_nil _, List.forall_mem_nil _, .nil⟩

theorem Joins.later {R : Rules} {self : Handler} {infos : List RendezvousInfo}
    {w : HandlerState} {s s' : Store} (hl : (world R).Later s s') (hs : StoreInv R s)
    (h : Joins self infos w s) : Joins self infos w s' :=
  ⟨fun info hi => (h.joined info hi).later hl hs, h.last, h.increasing⟩

theorem Joins.advances {self : Handler} {infos : List RendezvousInfo} {w w' : HandlerState}
    {s : Store} (h : Joins self infos w s) (hw : Handler.Advances w w') :
    Joins self infos w' s := by
  refine ⟨h.joined, fun info hi => ?_, h.increasing⟩
  obtain ⟨last, hlast, hle⟩ := h.last info hi
  rcases hw with hw | ⟨g, hg, hpast⟩
  · exact ⟨last, hw ▸ hlast, hle⟩
  · exact ⟨g, hg, hle.trans (hpast last hlast).le⟩

theorem Joins.cons {self : Handler} {infos : List RendezvousInfo} {w w' : HandlerState}
    {s : Store} {info : RendezvousInfo} (h : Joins self infos w s) (hinfo : self.Joined info s)
    (hw' : w'.lastGeneration = some info.generation)
    (hpast : ∀ last ∈ w.lastGeneration, last < info.generation) :
    Joins self (info :: infos) w' s := by
  have hearlier : ∀ early ∈ infos, early.generation < info.generation := fun early hi => by
    obtain ⟨last, hlast, hle⟩ := h.last early hi
    exact hle.trans_lt (hpast last hlast)
  refine ⟨fun i hi => ?_, fun i hi => ?_, List.pairwise_cons.mpr ⟨hearlier, h.increasing⟩⟩
  · rcases List.mem_cons.mp hi with rfl | hi
    · exact hinfo
    · exact h.joined i hi
  · rcases List.mem_cons.mp hi with rfl | hi
    · exact ⟨_, hw', le_refl _⟩
    · exact ⟨_, hw', (hearlier i hi).le⟩

/-- What is known of each party: of the handlers only. -/
def JoinedHandlers (fleet : Fleet ν) (ι : Type) : (rendezvous fleet ι).Known Store
  | .handler n, l, w, s => Joins (fleet.handler n) (l.filterMap infoOf) w s
  | _, _, _, _ => True

section Calls

variable {R : Rules} {self : Handler} {l : List (HandlerCall × Except Raised Outcome)}
  {w : HandlerState} {s : Store} {k : HandlerCall}

/-- A call that leaves the last generation alone and returns no rendezvous. -/
theorem safe_quiet {α : Type} {P : α → Store → Prop} {m : HandlerM α} {f : α → Outcome}
    (hs : StoreInv R s) (h : Joins self (l.filterMap infoOf) w s) (hm : Keeps R P m w s)
    (hf : ∀ a, infoOf (k, .ok (f a)) = none) :
    Safe (world R) (fun x s' => Joins self (((k, .ok x.1) :: l).filterMap infoOf) x.2 s')
      (fun x s' => Joins self (((k, .error x.1) :: l).filterMap infoOf) x.2 s')
      ((do
        let a ← m
        pure (f a) : HandlerM Outcome) w) s := by
  refine Safe.mbind hs (Safe.mono hs hm (fun _ _ _ hl hx => And.intro hl hx.1)
    fun x s' _ hl hx => ?_) fun a w' s' hs' _ hx => Safe.ret fun s'' hl => ?_
  · exact (h.later hl hs).advances (.inl hx)
  · rw [List.filterMap_cons_none (hf a)]
    exact ((h.later hx.1 hs).advances (.inl hx.2)).later hl hs'

theorem safe_rendezvous {budget : Nat} (hs : StoreInv R s)
    (hown : R.owner (self.plans.digest self.config.nodeId) self.readyText)
    (h : Joins self (l.filterMap infoOf) w s) :
    Safe (world R) (fun x s' => Joins self (((k, .ok x.1) :: l).filterMap infoOf) x.2 s')
      (fun x s' => Joins self (((k, .error x.1) :: l).filterMap infoOf) x.2 s')
      ((do
        let info ← self.nextRendezvous budget
        pure (.info info) : HandlerM Outcome) w) s := by
  refine Safe.mbind hs (Safe.mono hs (self.enters_nextRendezvous budget hs hown)
    (fun _ _ _ hl hx => And.intro hl hx) fun x s' _ hl hx => ?_)
    fun info w' s' hs' _ hx => Safe.ret fun s'' hl => ?_
  · exact (h.later hl hs).advances hx
  · obtain ⟨hl₁, hjoined, hw', hpast⟩ := hx
    exact ((h.later hl₁ hs).cons hjoined hw' hpast).later hl hs'

end Calls

theorem rendezvous_proof (hkeys : fleet.KeysDistinct) :
    System.Proof (world (fleet.rules hkeys)) (JoinedHandlers fleet ι) where
  keeps p l w s s' hs hl h := by
    cases p with
    | handler n => exact Joins.later hl hs h
    | heartbeat n => trivial
    | publisher i => trivial
  call p k l w s hs h := by
    cases p with
    | handler n =>
        have hown : (fleet.rules hkeys).owner
            ((fleet.handler n).plans.digest (fleet.handler n).config.nodeId)
            (fleet.handler n).readyText := by
          rw [fleet.handler_plans n]
          exact ⟨n, rfl, rfl⟩
        cases k with
        | construct => exact safe_quiet hs h (Handler.keeps_construct _ hs) fun _ => rfl
        | nextRendezvous budget => exact safe_rendezvous hs hown h
        | numNodesWaiting =>
            exact safe_quiet hs h (Handler.keeps_numNodesWaiting _ hs) fun _ => rfl
        | isClosed => exact safe_quiet hs h (Handler.keeps_isClosed hs) fun _ => rfl
        | setClosed => exact safe_quiet hs h (Handler.keeps_setClosed hs) fun _ => rfl
    | heartbeat n =>
        refine Safe.mbind hs (Safe.mono hs (Handler.keeps_heartbeatLoop _ k hs)
          (fun _ _ _ _ hx => hx) fun _ _ _ _ _ => trivial)
          fun _ _ _ _ _ _ => Safe.ret fun _ _ => trivial
    | publisher i =>
        cases k with
        | connect =>
            exact Safe.lift (Safe.bind hs (PlanStore.safe_connect (Q := fun _ _ => True) hs
              fun _ => trivial) fun _ _ _ _ _ => safe_ret fun _ _ => trivial)
        | publish plan =>
            exact Safe.lift (Safe.bind hs (PlanStore.safe_publish fleet.plans rfl hs trivial
              fun _ _ => trivial) fun _ _ _ _ _ => safe_ret fun _ _ => trivial)
        | renewPlanLease plan remainingMs =>
            exact Safe.lift (Safe.bind hs (PlanStore.safe_renewPlanLease fleet.plans hs
              (Q := fun _ _ => True) (fun _ _ => trivial) fun _ _ => trivial)
              fun _ _ _ _ _ => safe_ret fun _ _ => trivial)

/-! ## Agreement -/

/-- Every node of a placement has a handler that has written its ready record,
and the handlers have one worker policy. -/
def AllReady (fleet : Fleet ν) (g : Int) (as : List NodeAssignment) (s : Store) : Prop :=
  ∃ policy, ∀ a ∈ as, ∃ n, (fleet.handler n).config.nodeId = a.nodeId ∧
    Text.strip (fleet.handler n).workerPolicyDigest = policy ∧
    s (.ready g (fleet.plans.digest a.nodeId)) = some (fleet.handler n).readyText

/-- The node ids that occur: those of the handlers, and those in a placement. -/
def Fleet.nodeIds (fleet : Fleet ν) (s : Store) : Set String :=
  { id | (∃ n, (fleet.handler n).config.nodeId = id) ∨
    ∃ g as, PlacementOf g as s ∧ ∃ a ∈ as, a.nodeId = id }

/-- Distinct nodes have distinct keys if no two node ids that occur have one digest. -/
theorem Fleet.keysDistinct {s : Store} (h : Set.InjOn fleet.plans.digest (fleet.nodeIds s)) :
    fleet.KeysDistinct := fun n n' hsame =>
  fleet.nodeId_injective (h (.inl ⟨n, rfl⟩) (.inl ⟨n', rfl⟩) hsame)

theorem ReadyGroup.allReady {hkeys : fleet.KeysDistinct} {n : ν} {g : Int}
    {as : List NodeAssignment} {s : Store} (hs : StoreInv (fleet.rules hkeys) s)
    (hdigest : Set.InjOn fleet.plans.digest (fleet.nodeIds s)) (hplaced : PlacementOf g as s)
    (h : ReadyGroup (fleet.handler n) g as s) : AllReady fleet g as s := by
  obtain ⟨policy, h⟩ := h
  refine ⟨policy, fun a ha => ?_⟩
  obtain ⟨v, agent, hv, hdec⟩ := h a ha
  rw [Handler.readyKey, fleet.handler_plans n] at hv
  obtain ⟨m, hm, rfl⟩ := hs.ready g _ v hv
  have hsame : (fleet.handler m).config.nodeId = a.nodeId :=
    hdigest (.inl ⟨m, rfl⟩) (.inr ⟨g, as, hplaced, a, ha, rfl⟩) hm
  exact ⟨m, hsame, (policy_of_decodeReady hdec).symm, hv⟩

theorem rendezvous_inv (hkeys : fleet.KeysDistinct)
    {c : (rendezvous fleet ι).Config Store}
    (h : System.Run exec ((rendezvous fleet ι).idle fresh .initial) c) :
    StoreInv (fleet.rules hkeys) c.store ∧
      ∀ n, Joins (fleet.handler n) (returned c n) (c.threads (.handler n)).attrs c.store := by
  have hinit := System.Inv.idle (W := world (fleet.rules hkeys)) (Y := rendezvous fleet ι)
    (K := JoinedHandlers fleet ι) (w := .initial) (storeInv_fresh _) fun p => by
      cases p with
      | handler n => exact Joins.nil
      | heartbeat n => trivial
      | publisher i => trivial
  have hc := (System.Run.sound (rendezvous_proof hkeys) hinit h).1
  exact ⟨hc.store, fun n => (hc.threads (.handler n)).1⟩

/-- **Agreement of the rendezvous.**  In every configuration of every run of
the handlers of distinct nodes, their heartbeats and any number of
publishers: results of one generation have one world size, and distinct
ranks on distinct handlers; a result's rank is the slot of its own node in
the placement that is committed for its generation, every node of which has
written its ready record, with one worker policy; a node without a slot in
that placement has no result; and the generations of one handler go up.  No
two of the node ids that occur may have one digest. -/
theorem rendezvous_agreement {c : (rendezvous fleet ι).Config Store}
    (h : System.Run exec ((rendezvous fleet ι).idle fresh .initial) c)
    (hdigest : Set.InjOn fleet.plans.digest (fleet.nodeIds c.store)) :
    (∀ n n' info info', info ∈ returned c n → info' ∈ returned c n' →
      info.generation = info'.generation →
        info.worldSize = info'.worldSize ∧ (n ≠ n' → info.rank ≠ info'.rank)) ∧
    (∀ n info, info ∈ returned c n → ∃ as, PlacementOf info.generation as c.store ∧
      info.worldSize = (as.length : Int) ∧
      ⟨info.rank, (fleet.handler n).config.nodeId⟩ ∈ as ∧
      AllReady fleet info.generation as c.store) ∧
    (∀ n g as, PlacementOf g as c.store →
      (∀ a ∈ as, a.nodeId ≠ (fleet.handler n).config.nodeId) →
      ∀ info ∈ returned c n, info.generation ≠ g) ∧
    (∀ n, (returned c n).Pairwise fun late early => early.generation < late.generation) := by
  obtain ⟨hs, hjoins⟩ := rendezvous_inv (Fleet.keysDistinct hdigest) h
  refine ⟨fun n n' info info' hi hi' hg => ?_, fun n info hi => ?_,
    fun n g as hplaced hout info hi hg => ?_, fun n => (hjoins n).increasing⟩
  · obtain ⟨as, hplaced, hsize, hmem, -⟩ := (hjoins n).joined info hi
    obtain ⟨as', hplaced', hsize', hmem', -⟩ := (hjoins n').joined info' hi'
    rw [hg] at hplaced
    obtain rfl := hplaced.unique hplaced'
    refine ⟨hsize.trans hsize'.symm, fun hne hrank => hne ?_⟩
    rw [hrank] at hmem
    exact fleet.nodeId_injective (hplaced.node_unique hmem hmem')
  · obtain ⟨as, hplaced, hsize, hmem, hready⟩ := (hjoins n).joined info hi
    exact ⟨as, hplaced, hsize, hmem, hready.allReady hs hdigest hplaced⟩
  · obtain ⟨as', hplaced', -, hmem, -⟩ := (hjoins n).joined info hi
    rw [hg] at hplaced'
    obtain rfl := hplaced.unique hplaced'
    exact hout _ hmem rfl

/-- A digest of 64 characters, in the place of the SHA-256. -/
def sampleDigest (text : String) : String :=
  String.ofList ((text.toList ++ List.replicate 64 '0').take 64)

def samplePlanStore : PlanStore := ⟨"run", sampleDigest⟩

def sampleHandler : Handler where
  config := ⟨"node-a", 1, 4, 1000, 1000⟩
  plans := samplePlanStore
  agentId := "agent-a"
  workerPolicyDigest := "policy"

def sampleFleet : Fleet Unit where
  plans := samplePlanStore
  handler _ := sampleHandler
  handler_plans _ := rfl
  nodeId_injective _ _ _ := rfl

/-- The stores of the sample run: registered, with a beat, announced. -/
def sampleRegistered : Store :=
  (fresh.put .maxNodes (Text.str 4)).put .registrations (logText [sampleRegistration])

def sampleBeat (sequence : Int) (s : Store) : Store :=
  s.put (sampleHandler.heartbeatKey "node-a")
    (canonicalJson (heartbeatRecord "agent-a" "node-a" sequence))

def samplePlaced : Store :=
  (sampleBeat 0 sampleRegistered).put .initialNodes (encodeInitialNodes ["node-a"])

def sampleAnnounced : Store :=
  samplePlaced.put (sampleHandler.readyKey 0 "node-a") sampleHandler.readyText

theorem announced_sample (sequence : Int) :
    Announced sampleHandler sequence (sampleBeat sequence sampleAnnounced) :=
  ⟨rfl, rfl, rfl, rfl⟩

theorem announced_sampleAnnounced : Announced sampleHandler 0 sampleAnnounced :=
  ⟨rfl, rfl, rfl, rfl⟩

theorem length_sampleDigest (text : String) : (sampleDigest text).length = 64 := by
  rw [sampleDigest, String.length_ofList, List.length_take, List.length_append,
    List.length_replicate]
  omega

theorem nodeIds_sample {id : String}
    (h : id ∈ sampleFleet.nodeIds (sampleBeat 1 sampleAnnounced)) : id = "node-a" := by
  rcases h with ⟨n, rfl⟩ | ⟨g, as, hplaced, a, ha, rfl⟩
  · rfl
  · rcases hplaced with ⟨-, ids, hids, -, rfl⟩ | ⟨p, hp, -⟩
    · obtain rfl : ["node-a"] = ids :=
        encodeInitialNodes_injective (Option.some.inj (Eq.trans rfl hids))
      obtain rfl := List.mem_singleton.mp ha
      rfl
    · exact absurd (Eq.trans rfl hp : none = _) nofun

/-- A lone node registers, beats, and joins generation zero. -/
theorem rendezvous_agreement_sample :
    (∀ text, (sampleFleet.plans.digest text).length = 64) ∧
    ∃ c : (rendezvous sampleFleet Empty).Config Store,
      System.Run exec ((rendezvous sampleFleet Empty).idle fresh .initial) c ∧
      loneInfo ∈ returned c () ∧
      ∃ as, PlacementOf 0 as c.store ∧ 1 = (as.length : Int) ∧ ⟨0, "node-a"⟩ ∈ as ∧
        AllReady sampleFleet 0 as c.store := by
  have hsize : (logText [sampleRegistration]).utf8ByteSize ≤ maxRegistrationBytes := by
    decide
  have hdec : decodeReady sampleHandler.readyText = some ("agent-a", "policy") := by
    rw [Handler.readyText, decodeReady_readyRecord]
    decide
  -- the handler registers its node
  have hregister : Alone exec (PlanStore.registerNode "node-a" "agent-a" 4) fresh (.ret ())
      sampleRegistered :=
    registerNode_alone (r := sampleRegistration) (by decide) hsize rfl rfl
  have hconstruct : Alone exec (sampleHandler.construct .initial) fresh (.ret ((), .initial))
      sampleRegistered :=
    (Alone.lift (alone_compareSet (f := fun _ => Prog.ret ()) (v := "0") (t := fresh) rfl
      (.done _ _))).mbind (Alone.lift hregister)
  obtain ⟨c₁, hrun₁, hs₁, ht₁, hother₁⟩ := System.Run.alone (Y := rendezvous sampleFleet Empty)
    (c := (rendezvous sampleFleet Empty).idle fresh .initial) (p := .handler ()) (k := .construct)
    rfl (hconstruct.mbind .pure)
  have hidle₁ : c₁.threads (.heartbeat ()) = ⟨[], .initial, none⟩ := hother₁ _ nofun
  -- its heartbeat starts, it asks for a rendezvous, and both pause
  have hbeat : Paused exec ((rendezvous sampleFleet Empty).body (.heartbeat ()) (3 : Nat)
      .initial) sampleRegistered (sampleBeat 0 sampleRegistered) sampleAnnounced
      (.ret (Outcome.none, .initial)) (sampleBeat 1 sampleAnnounced) :=
    (heartbeatLoop_paused sampleAnnounced).mbind .pure
  have hnext : Paused exec ((rendezvous sampleFleet Empty).body (.handler ())
      (.nextRendezvous 2) .initial) (sampleBeat 0 sampleRegistered) sampleAnnounced
      (sampleBeat 1 sampleAnnounced)
      (.ret (Outcome.info loneInfo, afterJoin sampleHandler .initial))
      (sampleBeat 1 sampleAnnounced) :=
    (nextRendezvous_paused (r := sampleRegistration) rfl hsize rfl rfl
      rfl rfl rfl (by decide) announced_sampleAnnounced (announced_sample 1) (by decide)
      (by decide) hdec).mbind .pure
  obtain ⟨qb, hb₁, hb₂⟩ := hbeat
  obtain ⟨qn, hn₁, hn₂⟩ := hnext
  obtain ⟨c₂, hrun₂, hs₂, ht₂, hother₂⟩ := System.Run.begin (Y := rendezvous sampleFleet Empty)
    (c := c₁) (p := .heartbeat ()) (k := (3 : Nat)) (q := qb) (by rw [hidle₁])
    (by rw [hidle₁, hs₁]; exact hb₁)
  have hidle₂ : c₂.threads (.handler ()) = ⟨_, .initial, none⟩ :=
    (hother₂ (.handler ()) nofun).trans ht₁
  obtain ⟨c₃, hrun₃, hs₃, ht₃, hother₃⟩ := System.Run.begin (Y := rendezvous sampleFleet Empty)
    (c := c₂) (p := .handler ()) (k := .nextRendezvous 2) (q := qn) (by rw [hidle₂])
    (by rw [hidle₂, hs₂]; exact hn₁)
  -- the heartbeat moves on, and the rendezvous returns
  obtain ⟨c₄, hrun₄, hs₄, -, hother₄⟩ := System.Run.finish (Y := rendezvous sampleFleet Empty)
    (c := c₃) (p := .heartbeat ()) (k := (3 : Nat)) (m := qb)
    (by rw [hother₃ (.heartbeat ()) nofun, ht₂]) (by rw [hs₃]; exact hb₂)
  obtain ⟨c₅, hrun₅, hs₅, ht₅, -⟩ := System.Run.finish (Y := rendezvous sampleFleet Empty)
    (c := c₄) (p := .handler ()) (k := .nextRendezvous 2) (m := qn)
    (by rw [hother₄ (.handler ()) nofun, ht₃]) (by rw [hs₄]; exact hn₂)
  have hrun := hrun₁.trans (hrun₂.trans (hrun₃.trans (hrun₄.trans hrun₅)))
  have hmem : loneInfo ∈ returned c₅ () := by
    rw [returned, ht₅]
    exact List.mem_cons_self
  have hdigest : Set.InjOn sampleFleet.plans.digest (sampleFleet.nodeIds c₅.store) := by
    rw [hs₅]
    intro id hid id' hid' _
    rw [nodeIds_sample hid, nodeIds_sample hid']
  exact ⟨length_sampleDigest, c₅, hrun, hmem,
    (rendezvous_agreement hrun hdigest).2.1 () _ hmem⟩

end LmResiliency.Torchrun
