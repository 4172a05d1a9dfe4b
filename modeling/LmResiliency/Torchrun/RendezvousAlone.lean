/-
# RendezvousAlone — a lone node joins generation zero

One handler and its heartbeat thread, with nobody else around.  A heartbeat
is live only once it has been seen to move on, so a rendezvous cannot return
before its own thread has beaten twice: the handler waits half way, and the
thread moves on in between.
-/
import LmResiliency.Torchrun.Placement
import LmResiliency.Torchrun.RendezvousInv

namespace LmResiliency.Torchrun

open Interleave

section Alone

variable {α : Type} {self : Handler} {w : HandlerState} {s s' : Store}

theorem alone_pos {c : Prop} [Decidable c] {m m' : HandlerM α}
    {q : Prog iface (Raised × HandlerState) (α × HandlerState)} (hc : c)
    (h : Alone exec (m w) s q s') : Alone exec ((if c then m else m') w) s q s' := by
  rw [if_pos hc]
  exact h

theorem alone_neg {c : Prop} [Decidable c] {m m' : HandlerM α}
    {q : Prog iface (Raised × HandlerState) (α × HandlerState)} (hc : ¬ c)
    (h : Alone exec (m' w) s q s') : Alone exec ((if c then m else m') w) s q s' := by
  rw [if_neg hc]
  exact h

theorem paused_pos {c : Prop} [Decidable c] {m m' : HandlerM α} {s₁ s₂ s₃ : Store}
    {q : Prog iface (Raised × HandlerState) (α × HandlerState)} (hc : c)
    (h : Paused exec (m w) s s₁ s₂ q s₃) :
    Paused exec ((if c then m else m') w) s s₁ s₂ q s₃ := by
  rw [if_pos hc]
  exact h

theorem paused_neg {c : Prop} [Decidable c] {m m' : HandlerM α} {s₁ s₂ s₃ : Store}
    {q : Prog iface (Raised × HandlerState) (α × HandlerState)} (hc : ¬ c)
    (h : Paused exec (m' w) s s₁ s₂ q s₃) :
    Paused exec ((if c then m else m') w) s s₁ s₂ q s₃ := by
  rw [if_neg hc]
  exact h

theorem clock_alone (t : ℚ) : Alone exec (Handler.clock w) s (.ret (t, w)) s :=
  Alone.lift (.op t rfl (.done _ _))

theorem wait_alone : Alone exec (Handler.wait w) s (.ret ((), w)) s :=
  Alone.lift (.op () rfl (.done _ _))

theorem check_alone {ks : List Key} {b : Bool} (h : (ks.all fun k => (s k).isSome) = b) :
    Alone exec (Handler.store (check ks) w) s (.ret (b, w)) s :=
  Alone.lift (.op b ⟨rfl, h.symm⟩ (.done _ _))

theorem get_alone {k : Key} {v : String} (h : s k = some v) :
    Alone exec (Handler.store (get k) w) s (.ret (v, w)) s :=
  Alone.lift (.op (some v) ⟨rfl, h.symm⟩ (.done _ _))

theorem set_alone {k : Key} {v : String} :
    Alone exec (Handler.store (set k v) w) s (.ret ((), w)) (s.put k v) :=
  Alone.lift (.op () rfl (.done _ _))

theorem closedFlag_alone (b : Bool) : Alone exec (Handler.closedFlag w) s (.ret (b, w)) s :=
  Alone.lift (.op b rfl (.done _ _))

theorem raiseIfClosed_alone (h : s .closed = none) :
    Alone exec (Handler.raiseIfClosed w) s (.ret ((), w)) s :=
  (closedFlag_alone false).mbind (alone_neg Bool.false_ne_true
    ((check_alone (b := false) (by simp [h])).mbind .pure))

theorem raiseHeartbeatError_alone :
    Alone exec (Handler.raiseHeartbeatError w) s (.ret ((), w)) s :=
  Alone.mbind (a := false) (v := w) (Alone.lift (.op false rfl (.done _ _))) .pure

theorem generation_alone (h : s .generation = some (Text.str 0)) :
    Alone exec (Handler.store PlanStore.currentGeneration w) s (.ret (0, w)) s :=
  Alone.lift (currentGeneration_alone (by decide) h)

variable {sequence : Int} {live : Bool} {o : HeartbeatObservation} {policy : String}
  {d : ℚ} {n : Nat}

/-- What a look at a heartbeat leaves. -/
abbrev observed (w : HandlerState) (nodeId : String) (o : HeartbeatObservation) :
    HandlerState :=
  { w with heartbeatObservations := assignKey nodeId o w.heartbeatObservations }

/-- One look at a heartbeat record that is there. -/
theorem heartbeatIsLive_alone {nodeId agentId : String}
    (hs : s (self.heartbeatKey nodeId) =
      some (canonicalJson (heartbeatRecord agentId nodeId sequence)))
    (hagent : agentId ≠ "") (hseq : 0 ≤ sequence)
    (ho : observeHeartbeat self.config.heartbeatTimeoutMs
      (w.heartbeatObservations.lookup nodeId) agentId sequence 0 = (live, some o)) :
    Alone exec (self.heartbeatIsLive nodeId (some agentId) w) s
      (.ret (live, observed w nodeId o)) s := by
  refine (check_alone (b := true) (by simp [hs])).mbind (alone_pos rfl ?_)
  refine (get_alone hs).mbind ?_
  rw [decodeHeartbeat_heartbeatRecord nodeId hagent hseq]
  refine (clock_alone 0).mbind (alone_neg (lt_irrefl _) (Alone.mbind (a := w) (.done _ _) ?_))
  rw [ho]
  exact .done _ _

/-- The store that a handler of generation zero sees once it has announced itself. -/
structure Announced (handler : Handler) (sequence : Int) (s : Store) : Prop where
  generation : s .generation = some (Text.str 0)
  closed : s .closed = none
  ready : s (handler.readyKey 0 handler.config.nodeId) = some handler.readyText
  heartbeat : s (handler.heartbeatKey handler.config.nodeId) =
    some (canonicalJson (heartbeatRecord handler.agentId handler.config.nodeId sequence))

theorem lookAtGroup_alone (hs : Announced self sequence s)
    (hagent : self.agentId ≠ "") (hseq : 0 ≤ sequence)
    (hdec : decodeReady self.readyText = some (self.agentId, policy))
    (ho : observeHeartbeat self.config.heartbeatTimeoutMs
      (w.heartbeatObservations.lookup self.config.nodeId) self.agentId sequence 0 =
        (live, some o)) :
    Alone exec (self.lookAtGroup 0 [⟨0, self.config.nodeId⟩] w) s
      (.ret (live, observed w self.config.nodeId o)) s := by
  have hrecord : Alone exec (self.readyAgentRecord 0 self.config.nodeId w) s
      (.ret (some (self.agentId, policy), w)) s := by
    refine (get_alone hs.ready).mbind ?_
    rw [hdec]
    exact .pure
  have hrecords : Alone exec (self.readyRecords 0 [⟨0, self.config.nodeId⟩] w) s
      (.ret ([some (self.agentId, policy)], w)) s := hrecord.mbind (Alone.pure.mbind .pure)
  have hstates : Alone exec
      (self.heartbeatStates [(⟨0, self.config.nodeId⟩, self.agentId, policy)] w) s
      (.ret ([live], observed w self.config.nodeId o)) s :=
    (heartbeatIsLive_alone hs.heartbeat hagent hseq ho).mbind (Alone.pure.mbind .pure)
  have hall : [live].all id = live := by simp
  refine (check_alone (b := true) (by simp [hs.ready])).mbind (alone_pos rfl ?_)
  refine hrecords.mbind ?_
  rw [Handler.groupIsReady]
  refine alone_pos rfl (alone_neg (not_not.mpr rfl) (hstates.mbind ?_))
  rw [hall]
  exact .pure

/-- A round that ends with another one, and one that ends the wait. -/
theorem waitForGroup_waits (hs : Announced self sequence s) (hagent : self.agentId ≠ "")
    (hseq : 0 ≤ sequence) (hd : 0 < d)
    (hdec : decodeReady self.readyText = some (self.agentId, policy))
    (ho : observeHeartbeat self.config.heartbeatTimeoutMs
      (w.heartbeatObservations.lookup self.config.nodeId) self.agentId sequence 0 =
        (false, some o)) :
    Alone exec (self.waitForGroup 0 [⟨0, self.config.nodeId⟩] d none (n + 1) w) s
      (self.waitForGroup 0 [⟨0, self.config.nodeId⟩] d none n
        (observed w self.config.nodeId o)) s := by
  refine (raiseIfClosed_alone hs.closed).mbind (raiseHeartbeatError_alone.mbind ?_)
  refine (generation_alone hs.generation).mbind (alone_neg (not_not.mpr rfl) ?_)
  refine Alone.pure.mbind ((lookAtGroup_alone hs hagent hseq hdec ho).mbind ?_)
  refine alone_neg Bool.false_ne_true ((clock_alone 0).mbind ?_)
  exact alone_neg (not_le.mpr hd) (wait_alone.mbind (.done _ _))

theorem waitForGroup_ready (hs : Announced self sequence s) (hagent : self.agentId ≠ "")
    (hseq : 0 ≤ sequence) (hdec : decodeReady self.readyText = some (self.agentId, policy))
    (ho : observeHeartbeat self.config.heartbeatTimeoutMs
      (w.heartbeatObservations.lookup self.config.nodeId) self.agentId sequence 0 =
        (true, some o)) :
    Alone exec (self.waitForGroup 0 [⟨0, self.config.nodeId⟩] d none (n + 1) w) s
      (.ret (true, observed w self.config.nodeId o)) s := by
  refine (raiseIfClosed_alone hs.closed).mbind (raiseHeartbeatError_alone.mbind ?_)
  refine (generation_alone hs.generation).mbind (alone_neg (not_not.mpr rfl) ?_)
  exact Alone.pure.mbind ((lookAtGroup_alone hs hagent hseq hdec ho).mbind (alone_pos rfl .pure))

/-- The result of a lone node in generation zero. -/
def loneInfo : RendezvousInfo := ⟨0, 0, 1, ⟨"localhost", 29500⟩⟩

/-- The attributes of a handler that has joined generation zero alone. -/
abbrev joinedAlone (self : Handler) (w : HandlerState) : HandlerState :=
  { w with lastGeneration := some 0, lastAssignment := [⟨0, self.config.nodeId⟩] }

theorem join_alone (hd : 0 < d) :
    Alone exec (self.join 0 0 [⟨0, self.config.nodeId⟩] d none w) s
      (.ret (loneInfo, joinedAlone self w)) s := by
  have hbootstrap : Alone exec (Handler.buildBootstrap 0 0 d (joinedAlone self w)) s
      (.ret (loneInfo.bootstrap, joinedAlone self w)) s := by
    refine (clock_alone 0).mbind (alone_neg (by rw [sub_zero]; exact not_le.mpr hd) ?_)
    exact Alone.mbind (a := .ok loneInfo.bootstrap) (v := joinedAlone self w)
      (Alone.lift (.op (.ok loneInfo.bootstrap) (fun _ _ => rfl) (.done _ _))) .pure
  refine Alone.pure.mbind (Alone.mbind (a := ()) (v := joinedAlone self w) (.done _ _) ?_)
  exact hbootstrap.mbind (Alone.pure.mbind .pure)

/-- Two beats of a heartbeat thread, with a pause in between. -/
theorem heartbeatLoop_paused (s' : Store) :
    Paused exec (self.heartbeatLoop 0 3 w) s
      (s.put (self.heartbeatKey self.config.nodeId)
        (canonicalJson (heartbeatRecord self.agentId self.config.nodeId 0))) s'
      (.ret ((), w))
      (s'.put (self.heartbeatKey self.config.nodeId)
        (canonicalJson (heartbeatRecord self.agentId self.config.nodeId 1))) := by
  refine ⟨_, (closedFlag_alone false).mbind (alone_neg Bool.false_ne_true
    (set_alone.mbind (.done _ _))), wait_alone.mbind ?_⟩
  refine (closedFlag_alone false).mbind (alone_neg Bool.false_ne_true (set_alone.mbind ?_))
  exact wait_alone.mbind ((closedFlag_alone true).mbind (alone_pos rfl .pure))

/-- The attributes of a handler that has joined generation zero alone, after two
looks at its own heartbeat. -/
def afterJoin (self : Handler) (w : HandlerState) : HandlerState :=
  joinedAlone self (observed (observed w self.config.nodeId ⟨self.agentId, 0, 0, false⟩)
    self.config.nodeId ⟨self.agentId, 1, 0, true⟩)

/-- An announcement of a lone node, which sees its own heartbeat move on. -/
theorem announce_paused (hpause : Announced self 0 (s.put (self.readyKey 0 self.config.nodeId)
      self.readyText)) (hs' : Announced self 1 s') (hagent : self.agentId ≠ "")
    (htimeout : 0 < self.config.joinTimeoutMs) (hw : w.heartbeatObservations = [])
    (hdec : decodeReady self.readyText = some (self.agentId, policy)) :
    Paused exec (self.announce 2 0 0 [⟨0, self.config.nodeId⟩] none w) s
      (s.put (self.readyKey 0 self.config.nodeId) self.readyText) s'
      (.ret (some loneInfo, afterJoin self w)) s' := by
  have hdeadline : (0 : ℚ) < 0 + (self.config.joinTimeoutMs : ℚ) / 1000 := by
    rw [zero_add]
    exact div_pos (by exact_mod_cast htimeout) (by norm_num)
  have hfirst : observeHeartbeat self.config.heartbeatTimeoutMs
      (w.heartbeatObservations.lookup self.config.nodeId) self.agentId 0 0 =
        (false, some ⟨self.agentId, 0, 0, false⟩) := by
    rw [hw]
    rfl
  have hsecond : observeHeartbeat self.config.heartbeatTimeoutMs
      ((observed w self.config.nodeId
        ⟨self.agentId, 0, 0, false⟩).heartbeatObservations.lookup self.config.nodeId)
      self.agentId 1 0 = (true, some ⟨self.agentId, 1, 0, true⟩) := by
    simp [assignKey, observeHeartbeat]
  have hclear : Alone exec (Handler.clearContext w) s (.ret ((), w)) s :=
    Alone.mbind (a := .ok ()) (v := w) (Alone.lift (.op (.ok ()) rfl (.done _ _))) .pure
  have hleased : Alone exec (self.leased 2 0 none (0 + (self.config.joinTimeoutMs : ℚ) / 1000) w)
      s (.ret (true, w)) s := alone_pos rfl (hclear.mbind .pure)
  have hgroup := And.intro
    (waitForGroup_waits (n := 1) hpause hagent le_rfl hdeadline hdec hfirst)
    (waitForGroup_ready (n := 0) (d := 0 + (self.config.joinTimeoutMs : ℚ) / 1000)
      hs' hagent Int.one_nonneg hdec hsecond)
  refine (clock_alone 0).paused (hleased.paused (paused_pos rfl (set_alone.paused ?_)))
  refine Paused.mbind ⟨_, hgroup⟩ (alone_pos rfl ?_)
  refine (generation_alone hs'.generation).mbind (alone_neg (not_not.mpr rfl) ?_)
  exact (join_alone hdeadline).mbind .pure

/-- A rendezvous of a lone node that has registered. -/
theorem nextRendezvous_paused {r : Registration} (hnode : r.nodeId = self.config.nodeId)
    (hsize : (logText [r]).utf8ByteSize ≤ maxRegistrationBytes)
    (hgen : s .generation = some (Text.str 0)) (hclosed : s .closed = none)
    (hlog : s .registrations = some (logText [r])) (hnone : s .initialNodes = none)
    (hmin : self.config.minNodes = 1) (hmax : 1 ≤ self.config.maxNodes)
    (hpause : Announced self 0 ((s.put .initialNodes
      (encodeInitialNodes [self.config.nodeId])).put (self.readyKey 0 self.config.nodeId)
      self.readyText)) (hs' : Announced self 1 s') (hagent : self.agentId ≠ "")
    (htimeout : 0 < self.config.joinTimeoutMs)
    (hdec : decodeReady self.readyText = some (self.agentId, policy)) :
    Paused exec (self.nextRendezvous 2 .initial) s
      ((s.put .initialNodes (encodeInitialNodes [self.config.nodeId])).put
        (self.readyKey 0 self.config.nodeId) self.readyText) s'
      (.ret (loneInfo, afterJoin self .initial)) s' := by
  have hassigned : Alone exec (self.assignment 0 none .initial) s
      (.ret (some [⟨0, self.config.nodeId⟩], .initial))
      (s.put .initialNodes (encodeInitialNodes [self.config.nodeId])) := by
    have hens := ensureInitialNodes_alone hmax hsize hlog hnone
    rw [hnode, ← hmin] at hens
    exact alone_pos rfl ((Alone.lift hens).mbind .pure)
  refine (clock_alone 0).paused ((raiseIfClosed_alone hclosed).paused ?_)
  refine raiseHeartbeatError_alone.paused ((generation_alone hgen).paused ?_)
  refine Alone.paused (a := HandlerState.initial) (v := .initial) (.done _ _) ?_
  refine paused_neg (by simp [HandlerState.initial]) ?_
  refine Alone.paused (a := none) (v := .initial) (.done _ _) (hassigned.paused ?_)
  have hfind : [(⟨0, self.config.nodeId⟩ : NodeAssignment)].find?
      (fun a => a.nodeId = self.config.nodeId) = some ⟨0, self.config.nodeId⟩ := by simp
  dsimp only
  rw [hfind]
  exact (announce_paused hpause hs' hagent htimeout rfl hdec).mbind .pure

end Alone

end LmResiliency.Torchrun
