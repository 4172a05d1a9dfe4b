/-
# Placement — the initial placement under concurrent agents

Any number of agents register nodes and ask for the initial placement, in
any order and any number of times, all with the same bounds.  A placement
is computed from the prefix of the log that one agent happened to read and
committed by a separate operation; it is the same for all of them because
the distinct nodes of a log only grow at the end.

The main result is `placement_agreement`.  That enough nodes ever register is not
part of it: until then an agent gets no placement.
-/
import LmResiliency.Torchrun.PlanLog

namespace LmResiliency.Torchrun

open Interleave

/-- What an agent may call. -/
inductive AgentCall where
  | connect
  | registerNode (nodeId agentId : String)
  | ensureInitialNodes

/-- The agents of one run, `ι` of them, with one `min_nodes` and `max_nodes`. -/
def agents (ι : Type) (minNodes maxNodes : Int) : System iface where
  Proc := ι
  Call _ := AgentCall
  Attrs := Unit
  Value := Option (List String)
  Exn := Raised
  body
    | _, .connect => .lift do
        PlanStore.connect
        pure none
    | _, .registerNode nodeId agentId => .lift do
        PlanStore.registerNode nodeId agentId maxNodes
        pure none
    | _, .ensureInitialNodes => .lift (PlanStore.ensureInitialNodes minNodes maxNodes)

/-- A placement of the given size that the log determines. -/
def PlacedBy (minNodes : Int) (ids : List String) (s : Store) : Prop :=
  (ids.length : Int) = minNodes ∧ ∃ rs, logOf s = logText rs ∧ ids <+: distinctNodes rs

/-- What the calls of an agent tell: its placements are those of the log and
the one that is committed, and it never met a conflict. -/
def PlacedAgents (ι : Type) (minNodes maxNodes : Int) :
    (agents ι minNodes maxNodes).Known Store := fun _ l _ s =>
  (∀ ids, (AgentCall.ensureInitialNodes, Except.ok (some ids)) ∈ l →
    Initial ids s ∧ PlacedBy minNodes ids s) ∧
  ∀ k, (k, Except.error PlanStore.placementConflict) ∉ l

theorem PlacedBy.later {R : Rules} {minNodes : Int} {ids : List String} {s s' : Store}
    (hl : (world R).Later s s') (hs : StoreInv R s) (h : PlacedBy minNodes ids s) :
    PlacedBy minNodes ids s' := by
  obtain ⟨hlen, rs, hrs, hpre⟩ := h
  obtain ⟨rs', hrs'⟩ := later_log hl hs hrs
  exact ⟨hlen, rs ++ rs', hrs', hpre.trans (distinctNodes_append rs rs')⟩

/-- A placement of the log is the first of its distinct nodes. -/
theorem PlacedBy.eq_take {minNodes : Int} {ids : List String} {s : Store}
    {rs : List Registration} (h : PlacedBy minNodes ids s) (hrs : logOf s = logText rs) :
    ids = (distinctNodes rs).take minNodes.toNat := by
  obtain ⟨hlen, rs', hrs', hpre⟩ := h
  obtain rfl : rs' = rs := logText_injective (hrs'.symm.trans hrs)
  rw [List.prefix_iff_eq_take.mp hpre]
  congr 1
  omega

theorem registerNode_ne_conflict {R : Rules} {nodeId agentId : String} {maxNodes : Int}
    {s : Store} (hs : StoreInv R s) :
    Safe (world R) (fun _ _ => True) (fun e _ => e ≠ PlanStore.placementConflict)
      (PlanStore.registerNode nodeId agentId maxNodes) s :=
  PlanStore.safe_registerNode hs (fun _ _ h => h) fun _ => trivial

theorem agents_proof (ι : Type) (minNodes maxNodes : Int) :
    System.Proof (world (anyPlan "")) (PlacedAgents ι minNodes maxNodes) where
  keeps _ _ _ _ _ hs hl h :=
    ⟨fun ids hmem => ⟨later_initial hl hs (h.1 ids hmem).1, (h.1 ids hmem).2.later hl hs⟩, h.2⟩
  call p k l w s hs h := by
    have hlater : ∀ {s'}, (world (anyPlan "")).Later s s' →
        PlacedAgents ι minNodes maxNodes p l w s' := fun hl =>
      ⟨fun ids hmem => ⟨later_initial hl hs (h.1 ids hmem).1, (h.1 ids hmem).2.later hl hs⟩,
        h.2⟩
    have hraise : ∀ e s', e ≠ PlanStore.placementConflict →
        PlacedAgents ι minNodes maxNodes p l w s' →
        PlacedAgents ι minNodes maxNodes p ((k, .error e) :: l) w s' := fun e s' he h => by
      refine ⟨fun ids hmem => ?_, fun k' hmem => ?_⟩
      · rcases List.mem_cons.mp hmem with heq | hmem
        · cases heq
        · exact h.1 ids hmem
      · rcases List.mem_cons.mp hmem with heq | hmem
        · cases heq
          exact he rfl
        · exact h.2 k' hmem
    have hret : ∀ r s', (∀ ids, k = .ensureInitialNodes → r = some ids →
        Initial ids s' ∧ PlacedBy minNodes ids s') →
        PlacedAgents ι minNodes maxNodes p l w s' →
        PlacedAgents ι minNodes maxNodes p ((k, .ok r) :: l) w s' := fun r s' hr h => by
      refine ⟨fun ids hmem => ?_, fun k' hmem => ?_⟩
      · rcases List.mem_cons.mp hmem with heq | hmem
        · cases heq
          exact hr ids rfl rfl
        · exact h.1 ids hmem
      · rcases List.mem_cons.mp hmem with heq | hmem
        · cases heq
        · exact h.2 k' hmem
    cases k with
    | connect =>
        refine Safe.lift (Safe.bind hs (PlanStore.safe_connect (Q := fun _ _ => True) hs
          fun _ => trivial) fun _ s₁ _ hl₁ _ => safe_ret fun s' hl => ?_)
        exact hret none s' (fun _ hk => by cases hk) (hlater (hl₁.trans hl))
    | registerNode nodeId agentId =>
        refine Safe.lift (Safe.bind (Q := fun _ _ => True) hs ?_
          fun _ s₁ _ hl₁ _ => safe_ret fun s' hl => ?_)
        · exact Safe.mono hs (registerNode_ne_conflict hs) (fun _ _ _ _ _ => trivial)
            fun e s' _ hl he => hraise e s' he (hlater hl)
        · exact hret none s' (fun _ hk => by cases hk) (hlater (hl₁.trans hl))
    | ensureInitialNodes =>
        refine Safe.lift (Safe.mono hs (PlanStore.safe_ensureInitialNodes
          (E := fun e _ => e ≠ PlanStore.placementConflict) hs fun _ _ he => he) ?_
          fun e s' _ hl he => hraise e s' he (hlater hl))
        intro r s' _ hl hr
        refine hret r s' (fun ids _ hids => ?_) (hlater hl)
        obtain ⟨hinit, -, hlen, hlog⟩ := hr ids hids
        exact ⟨hinit, hlen, hlog⟩

/-- **Agreement of the initial placement.**  In every configuration `c` of
every run of any number of agents, and whatever follows it (`c'`): all
placements returned are one; it is, in the log of `c'` as in that of `c`, the
first `minNodes` distinct nodes in the order of their registrations; the log
of `c'` extends that of `c`; and no call met a conflict of the placement. -/
theorem placement_agreement {ι : Type} {minNodes maxNodes : Int}
    {c c' : (agents ι minNodes maxNodes).Config Store}
    (h : System.Run exec ((agents ι minNodes maxNodes).idle fresh ()) c)
    (h' : System.Run exec c c') :
    (∀ p q ids ids', (AgentCall.ensureInitialNodes, Except.ok (some ids)) ∈
        (c.threads p).history →
      (AgentCall.ensureInitialNodes, Except.ok (some ids')) ∈ (c.threads q).history →
      ids = ids') ∧
    (∃ rs rs', logOf c.store = logText rs ∧ logOf c'.store = logText (rs ++ rs') ∧
      ∀ p ids, (AgentCall.ensureInitialNodes, Except.ok (some ids)) ∈ (c.threads p).history →
        (ids.length : Int) = minNodes ∧ ids = (distinctNodes rs).take minNodes.toNat ∧
          ids = (distinctNodes (rs ++ rs')).take minNodes.toNat) ∧
    ∀ p k, (k, Except.error PlanStore.placementConflict) ∉ (c.threads p).history := by
  have hproof := agents_proof ι minNodes maxNodes
  have hinit := System.Inv.idle (W := world (anyPlan "")) (Y := agents ι minNodes maxNodes)
    (K := PlacedAgents ι minNodes maxNodes) (w := ()) (storeInv_fresh _)
    fun p => And.intro (fun ids hmem => by cases hmem) fun k hmem => by cases hmem
  obtain ⟨hc, -⟩ := System.Run.sound hproof hinit h
  obtain ⟨-, hl⟩ := System.Run.sound hproof hc h'
  obtain ⟨rs, hrs⟩ := hc.store.log
  obtain ⟨rs', hrs'⟩ := later_log hl hc.store hrs
  have hplaced : ∀ p ids, (AgentCall.ensureInitialNodes, Except.ok (some ids)) ∈
      (c.threads p).history → PlacedBy minNodes ids c.store := fun p ids hmem =>
    ((hc.threads p).1.1 ids hmem).2
  refine ⟨fun p q ids ids' hp hq => ?_, ⟨rs, rs', hrs, hrs', fun p ids hmem => ?_⟩,
    fun p => (hc.threads p).1.2⟩
  · rw [(hplaced p ids hp).eq_take hrs, (hplaced q ids' hq).eq_take hrs]
  · have hp := hplaced p ids hmem
    exact ⟨hp.1, hp.eq_take hrs, (hp.later hl hc.store).eq_take hrs'⟩

/-! ## Agents that run alone -/

/-- The two identities of a record. -/
def Registration.identities (r : Registration) : String × String := (r.nodeId, r.agentId)

/-- The records of a log that decodes to all of them. -/
structure Listed (rs : List Registration) (maxNodes : Int) : Prop where
  nodes : (rs.map Registration.nodeId).Nodup
  agents : (rs.map Registration.agentId).Nodup
  size : (logText rs).utf8ByteSize ≤ maxRegistrationBytes
  bound : (rs.length : Int) ≤ maxNodes

theorem Listed.singleton {r : Registration} {maxNodes : Int} (hmax : 1 ≤ maxNodes)
    (hsize : (logText [r]).utf8ByteSize ≤ maxRegistrationBytes) : Listed [r] maxNodes :=
  ⟨List.nodup_singleton _, List.nodup_singleton _, hsize, hmax⟩

theorem scanRegistrations_listed (seen rs : List Registration)
    (hnodes : ((seen ++ rs).map Registration.nodeId).Nodup)
    (hagents : ((seen ++ rs).map Registration.agentId).Nodup) :
    scanRegistrations (rs.map Registration.line) (seen.map Registration.identities) =
      .ok ((seen ++ rs).map Registration.identities) := by
  induction rs generalizing seen with
  | nil => rw [List.append_nil]; rfl
  | cons r rs ih =>
      have hnode : (seen.map Registration.identities).lookup r.nodeId = none := by
        rw [Dict.lookup_eq_none_iff, List.map_map]
        rw [List.map_append, List.nodup_append] at hnodes
        exact fun hmem => hnodes.2.2 _ hmem _ List.mem_cons_self rfl
      have hagent : ((seen.map Registration.identities).map Prod.swap).lookup r.agentId = none := by
        rw [Dict.lookup_eq_none_iff, List.map_map, List.map_map]
        rw [List.map_append, List.nodup_append] at hagents
        exact fun hmem => hagents.2.2 _ hmem _ List.mem_cons_self rfl
      have hsplit : seen ++ r :: rs = (seen ++ [r]) ++ rs := by
        rw [List.append_assoc, List.singleton_append]
      rw [hsplit] at hnodes hagents ⊢
      rw [List.map_cons, scanRegistrations, r.decode_line]
      simp only [bind, Except.bind, hnode, hagent, ne_eq, not_true_eq_false, false_and, if_false,
        if_true]
      rw [← ih (seen ++ [r]) hnodes hagents, List.map_append]
      rfl

theorem Listed.registrationsOf {rs : List Registration} {maxNodes : Int}
    (h : Listed rs maxNodes) :
    registrationsOf (logText rs) maxNodes = .ok (rs.map Registration.identities) := by
  have hscan := scanRegistrations_listed [] rs h.nodes h.agents
  rw [Torchrun.registrationsOf, if_neg (Nat.not_lt.mpr h.size), splitLines_logText]
  rw [List.map_nil, List.nil_append] at hscan
  rw [hscan]
  refine if_neg (Int.not_lt.mpr ?_)
  rw [List.length_map]
  exact h.bound

/-- A log of one record decodes to it, when its size and the bound allow. -/
theorem registrationsOf_singleton {r : Registration} {maxNodes : Int} (hmax : 1 ≤ maxNodes)
    (hsize : (logText [r]).utf8ByteSize ≤ maxRegistrationBytes) :
    registrationsOf (logText [r]) maxNodes = .ok [(r.nodeId, r.agentId)] :=
  (Listed.singleton hmax hsize).registrationsOf

theorem Listed.registerNode {s : Store} {rs : List Registration} {r : Registration}
    {maxNodes : Int} (h : Listed (rs ++ [r]) maxNodes)
    (hmax : s .maxNodes = none ∨ s .maxNodes = some (Text.str maxNodes))
    (hlog : (s .registrations).getD "" = logText rs) :
    Alone exec (PlanStore.registerNode r.nodeId r.agentId maxNodes) s (.ret ())
      ((s.put .maxNodes (Text.str maxNodes)).put .registrations (logText (rs ++ [r]))) := by
  have hnode : nonempty r.nodeId "node_id" = .ok r.nodeId := by
    rw [nonempty, if_pos r.nodeId_nonBlank, r.nodeId_strip]
  have hagent : nonempty r.agentId "agent_id" = .ok r.agentId := by
    rw [nonempty, if_pos r.agentId_nonBlank, r.agentId_strip]
  have hpos : positiveInt maxNodes "max_nodes" = .ok maxNodes := by
    have hbound := h.bound
    rw [List.length_append, List.length_singleton] at hbound
    exact if_neg (Int.not_lt.mpr (by omega))
  refine alone_ofExcept hnode (alone_ofExcept hagent (alone_ofExcept hpos ?_))
  refine alone_compareSet (Store.compareSet_first hmax) ?_
  rw [if_neg (not_not.mpr rfl)]
  have happend : (s.put .maxNodes (Text.str maxNodes)).put .registrations (logText (rs ++ [r])) =
      (s.put .maxNodes (Text.str maxNodes)).put .registrations
        (((s.put .maxNodes (Text.str maxNodes)) .registrations).getD "" ++
          (canonicalJson (registrationRecord r.nodeId r.agentId) ++ "\n")) := by
    rw [Store.put_of_ne (by simp) s, hlog, logText_concat, logText_singleton, Registration.line,
      Registration.record]
  refine .op () happend ?_
  · rw [PlanStore.decodeRegistrations, bind_assoc]
    exact alone_get (Store.put_self ..) (alone_ofExcept h.registrationsOf (.done _ _))

theorem registerNode_alone {s : Store} {r : Registration} {maxNodes : Int} (hmax : 1 ≤ maxNodes)
    (hsize : (logText [r]).utf8ByteSize ≤ maxRegistrationBytes)
    (hnone : s .maxNodes = none) (hlog : s .registrations = none) :
    Alone exec (PlanStore.registerNode r.nodeId r.agentId maxNodes) s (.ret ())
      ((s.put .maxNodes (Text.str maxNodes)).put .registrations (logText [r])) := by
  have hlisted : Listed ([] ++ [r]) maxNodes := Listed.singleton hmax hsize
  have halone := hlisted.registerNode (Or.inl hnone) (by rw [hlog]; rfl)
  exact halone

/-- An agent asks for the placement: it is the first nodes of the log. -/
theorem Listed.ensureInitialNodes {s : Store} {rs : List Registration} {minNodes maxNodes : Int}
    (h : Listed rs maxNodes) (hmin : 1 ≤ minNodes) (henough : minNodes ≤ rs.length)
    (hlog : s .registrations = some (logText rs))
    (hplaced : s .initialNodes = none ∨ s .initialNodes =
      some (encodeInitialNodes ((rs.take minNodes.toNat).map Registration.nodeId))) :
    Alone exec (PlanStore.ensureInitialNodes minNodes maxNodes) s
      (.ret (some ((rs.take minNodes.toNat).map Registration.nodeId)))
      (s.put .initialNodes
        (encodeInitialNodes ((rs.take minNodes.toNat).map Registration.nodeId))) := by
  have hbound := h.bound
  have hone : positiveInt minNodes "min_nodes" = .ok minNodes := if_neg (Int.not_lt.mpr hmin)
  have hpos : positiveInt maxNodes "max_nodes" = .ok maxNodes := if_neg (by omega)
  refine alone_ofExcept hone (alone_ofExcept hpos ?_)
  rw [if_neg (by omega), PlanStore.decodeRegistrations, bind_assoc]
  refine alone_get hlog ?_
  change Alone exec (ofExcept _ >>= _) _ _ _
  refine alone_ofExcept h.registrationsOf ?_
  have hexpected : ((rs.map Registration.identities).take minNodes.toNat).map Prod.fst =
      (rs.take minNodes.toNat).map Registration.nodeId := by
    rw [← List.map_take, List.map_map]
    rfl
  rw [List.length_map, if_neg (by omega), hexpected]
  have hlength : ((rs.take minNodes.toNat).map Registration.nodeId).length = minNodes.toNat := by
    rw [List.length_map, List.length_take]
    omega
  have hnodes : PlacedNodes ((rs.take minNodes.toNat).map Registration.nodeId) := by
    refine ⟨fun hnil => ?_, ?_, fun n hn => ?_, fun n hn => ?_⟩
    · rw [hnil] at hlength
      simp only [List.length_nil] at hlength
      omega
    · exact h.nodes.sublist ((List.take_sublist _ _).map _)
    · obtain ⟨r, -, rfl⟩ := List.mem_map.mp hn
      exact r.nodeId_nonBlank
    · obtain ⟨r, -, rfl⟩ := List.mem_map.mp hn
      exact r.nodeId_strip
  have hdec : decodeInitialNodes
      (encodeInitialNodes ((rs.take minNodes.toNat).map Registration.nodeId)) (some minNodes) =
      .ok ((rs.take minNodes.toNat).map Registration.nodeId) := by
    rw [decodeInitialNodes_encode hnodes]
    exact if_neg (by rw [hlength]; simp; omega)
  refine alone_compareSet (Store.compareSet_first hplaced) (alone_ofExcept hdec ?_)
  split
  · rename_i hne
    exact absurd rfl hne
  · exact .done _ _

theorem ensureInitialNodes_alone {s : Store} {r : Registration} {maxNodes : Int}
    (hmax : 1 ≤ maxNodes) (hsize : (logText [r]).utf8ByteSize ≤ maxRegistrationBytes)
    (hlog : s .registrations = some (logText [r])) (hnone : s .initialNodes = none) :
    Alone exec (PlanStore.ensureInitialNodes 1 maxNodes) s (.ret (some [r.nodeId]))
      (s.put .initialNodes (encodeInitialNodes [r.nodeId])) :=
  (Listed.singleton hmax hsize).ensureInitialNodes le_rfl le_rfl hlog (Or.inl hnone)

def sampleRegistration : Registration :=
  ⟨"node-a", "agent-a", nodeA_named, by decide, by decide, by decide⟩

theorem nodeB_named : Text.nonBlank "node-b" = true := by decide

def secondRegistration : Registration :=
  ⟨"node-b", "agent-b", nodeB_named, by decide, by decide, by decide⟩

/-- The log of two agents. -/
def sampleLog : List Registration := [sampleRegistration] ++ [secondRegistration]

theorem listed_sampleLog : Listed sampleLog 4 :=
  ⟨by decide, by decide, by decide +kernel, by decide⟩

/-- Two agents register one after the other, and the second one asks for a placement before the
first one does: both are given the nodes in the order of the log. -/
theorem placement_agreement_sample :
    ∃ c : (agents Bool 2 4).Config Store,
      System.Run exec ((agents Bool 2 4).idle fresh ()) c ∧
      (AgentCall.ensureInitialNodes, Except.ok (some ["node-a", "node-b"])) ∈
        (c.threads true).history ∧
      (AgentCall.ensureInitialNodes, Except.ok (some ["node-a", "node-b"])) ∈
        (c.threads false).history ∧
      ∃ rs, logOf c.store = logText rs ∧ ["node-a", "node-b"] = (distinctNodes rs).take 2 := by
  let Y := agents Bool 2 4
  have hsize : (logText [sampleRegistration]).utf8ByteSize ≤ maxRegistrationBytes := by
    decide
  have hfirst : Alone exec (Y.body false (.registerNode "node-a" "agent-a") ()) fresh
      (.ret (none, ())) _ := Alone.lift (w := ()) (Alone.bind
    (registerNode_alone (r := sampleRegistration) (by decide) hsize rfl rfl) (.done _ _))
  obtain ⟨c₁, hrun₁, hs₁, ht₁, hother₁⟩ := System.Run.alone (Y := Y) (c := Y.idle fresh ())
    (p := false) rfl hfirst
  have hsecond : Alone exec (Y.body true (.registerNode "node-b" "agent-b") ()) c₁.store
      (.ret (none, ())) _ := Alone.lift (w := ()) (Alone.bind
    (listed_sampleLog.registerNode
      (Or.inr (by rw [hs₁]; rfl)) (by rw [hs₁]; rfl)) (.done _ _))
  obtain ⟨c₂, hrun₂, hs₂, ht₂, hother₂⟩ := System.Run.alone (Y := Y) (c := c₁) (p := true)
    (by rw [hother₁ true Bool.noConfusion]; rfl)
    (by rw [hother₁ true Bool.noConfusion]; exact hsecond)
  have hlog₂ : c₂.store .registrations = some (logText sampleLog) := by
    rw [hs₂, Store.put_self]
    rfl
  have hask : Alone exec (Y.body true .ensureInitialNodes ()) c₂.store
      (.ret (some ["node-a", "node-b"], ())) _ := Alone.lift (w := ())
    (listed_sampleLog.ensureInitialNodes (by decide) (by decide) hlog₂
      (Or.inl (by rw [hs₂, hs₁]; rfl)))
  obtain ⟨c₃, hrun₃, hs₃, ht₃, hother₃⟩ := System.Run.alone (Y := Y) (c := c₂) (p := true)
    (by rw [ht₂]) (by rw [ht₂]; exact hask)
  have hidle₃ : c₃.threads false = c₁.threads false :=
    (hother₃ false Bool.noConfusion).trans (hother₂ false Bool.noConfusion)
  have hagain : Alone exec (Y.body false .ensureInitialNodes ()) c₃.store
      (.ret (some ["node-a", "node-b"], ())) _ := Alone.lift (w := ())
    (listed_sampleLog.ensureInitialNodes (by decide) (by decide)
      (by rw [hs₃, Store.put_of_ne (by simp)]; exact hlog₂)
      (Or.inr (by rw [hs₃, Store.put_self])))
  obtain ⟨c₄, hrun₄, -, ht₄, hother₄⟩ := System.Run.alone (Y := Y) (c := c₃) (p := false)
    (by rw [hidle₃, ht₁]) (by rw [hidle₃, ht₁]; exact hagain)
  have hrun := ((hrun₁.trans hrun₂).trans hrun₃).trans hrun₄
  have hmem : (AgentCall.ensureInitialNodes, Except.ok (some ["node-a", "node-b"])) ∈
      (c₄.threads true).history := by
    rw [hother₄ true Bool.noConfusion, ht₃]
    exact List.mem_cons_self
  obtain ⟨-, ⟨rs, rs', hrs, -, hplaced⟩, -⟩ := placement_agreement hrun .refl
  refine ⟨c₄, hrun, hmem, ?_, rs, hrs, (hplaced true _ hmem).2.1⟩
  rw [ht₄]
  exact List.mem_cons_self

end LmResiliency.Torchrun
