/-
# Liveness — what an agent infers from leases and heartbeats

A handler never compares clocks with another process: it keeps, per plan and
per node, the last record it saw and when, and takes a counter that moved as
a sign of life for a while (`_plan_lease_is_live`, `_heartbeat_is_live`).

Here the two methods are functions of what they read, for any bytes and any
clock, and a run is any sequence of such looks.  A lease is reported live
only on an advance that was seen in time, a heartbeat only on two payloads
of one agent.

The main result is `liveness_sound`.  Nothing is said of a process that is not
reported live: it may be slow.
-/
import Mathlib
import Mathlib.Data.List.Induction
import LmResiliency.Lib.JsonBytes
import LmResiliency.Lib.Outcome
import LmResiliency.Torchrun.PlanLog
import LmResiliency.Torchrun.Rendezvous

namespace LmResiliency.Torchrun

open Interleave

/-! ## One look -/

/-- The decoding half of `read_plan_lease`, of any bytes. -/
def decodePlanLeaseBytes (encoded : ByteArray) : Except Raised (Int × Int) :=
  match Json.loadsBytes encoded with
  | none => .error (.planCorrupt "recovery plan lease is malformed")
  | some value =>
      match recordWith ["remaining_ms", "schema_version", "sequence"] value with
      | none => .error (.planCorrupt "recovery plan lease has invalid fields")
      | some ms =>
          match Json.get? "sequence" ms, Json.get? "remaining_ms" ms with
          | some (.int sequence), some (.int remainingMs) =>
              if sequence < 1 ∨ remainingMs < 0 ∨ (canonicalJson ms).toUTF8 ≠ encoded then
                .error (.planCorrupt "recovery plan lease has invalid fields")
              else .ok (sequence, remainingMs)
          | _, _ => .error (.planCorrupt "recovery plan lease has invalid fields")

/-- The decoding half of `_heartbeat_is_live`, of any bytes. -/
def decodeHeartbeatBytes (encoded : ByteArray) (nodeId : String) (agentId : Option String) :
    Option (String × Int) :=
  (Json.decodeBytes encoded).bind (decodeHeartbeat · nodeId agentId)

/-- What one call reads: the stored record, if there is one, and the clock. -/
inductive Look where
  | lease (plan : RestartPlan) (encoded : Option ByteArray) (now : ℚ)
  | heartbeat (nodeId : String) (agentId : Option String) (encoded : Option ByteArray) (now : ℚ)

def Look.now : Look → ℚ
  | lease _ _ now => now
  | heartbeat _ _ _ now => now

namespace Handler

variable (self : Handler)

/-- `read_plan_lease` of a record. -/
def readLease (plan : RestartPlan) (encoded : Option ByteArray) :
    Except Raised (Option (Int × Int)) :=
  if plan.runId ≠ self.plans.runId then .error (.valueError "plan belongs to another run")
  else
    match encoded with
    | none => .ok none
    | some bytes => (decodePlanLeaseBytes bytes).map some

/-- `_plan_lease_is_live` of a record. -/
def lookAtLease (plan : RestartPlan) (encoded : Option ByteArray) (now : ℚ) (w : HandlerState) :
    Except Raised Bool × HandlerState :=
  match self.readLease plan encoded with
  | .error e => (.error e, w)
  | .ok none => (.ok false, w)
  | .ok (some (sequence, remainingMs)) =>
      if now < 0 then
        (.error (.rendezvousState "monotonic clock returned an invalid value"), w)
      else
        let key := (plan.toGeneration, plan.planId)
        match observeLease self.config.heartbeatTimeoutMs (w.planLeaseObservations.lookup key)
            sequence remainingMs now with
        | .error e => (.error e, w)
        | .ok (live, none) => (.ok live, w)
        | .ok (live, some o) =>
            (.ok live,
              { w with planLeaseObservations := assignKey key o w.planLeaseObservations })

/-- `_heartbeat_is_live` of a record. -/
def lookAtHeartbeat (nodeId : String) (agentId : Option String) (encoded : Option ByteArray)
    (now : ℚ) (w : HandlerState) : Bool × HandlerState :=
  match encoded.bind (decodeHeartbeatBytes · nodeId agentId) with
  | none => (false, w)
  | some (observed, sequence) =>
      if now < 0 then (false, w)
      else
        match observeHeartbeat self.config.heartbeatTimeoutMs
            (w.heartbeatObservations.lookup nodeId) observed sequence now with
        | (live, none) => (live, w)
        | (live, some o) =>
            (live, { w with heartbeatObservations := assignKey nodeId o w.heartbeatObservations })

/-- One call of either method. -/
def look (w : HandlerState) : Look → Except Raised Bool × HandlerState
  | .lease plan encoded now => self.lookAtLease plan encoded now w
  | .heartbeat nodeId agentId encoded now =>
      let r := self.lookAtHeartbeat nodeId agentId encoded now w
      (.ok r.1, r.2)

/-- The state after some calls. -/
def afterLooks (looks : List Look) : HandlerState :=
  looks.foldl (fun w l => (self.look w l).2) .initial

end Handler

/-! ## The methods compute these functions -/

/-- The answers to a call that finds this record at this time. -/
def answers (record : Option String) (now : ℚ) : Unit → (o : Op) → o.Res → Unit → Prop
  | _, .check _, r, _ => r = record.isSome
  | _, .get _, r, _ => r = record
  | _, .clock, r, _ => r = now
  | _, _, _, _ => False

/-- How a call ends. -/
def outcome {α : Type} : Except Raised α × HandlerState →
    Prog iface (Raised × HandlerState) (α × HandlerState)
  | (.ok a, w) => .ret (a, w)
  | (.error e, w) => .raise (e, w)

section

variable {self : Handler} {w : HandlerState} {now : ℚ} {record : Option String}

theorem decodePlanLeaseBytes_toUTF8 {t : String} (ht : ∀ c ∈ t.toList, Json.Printable c) :
    decodePlanLeaseBytes t.toUTF8 = decodePlanLease t := by
  have hsame : ∀ u : String, u.toUTF8 ≠ t.toUTF8 ↔ u ≠ t := by
    intro u
    rw [String.toUTF8_eq_toByteArray, String.toUTF8_eq_toByteArray, ne_eq, ne_eq,
      String.toByteArray_inj]
  unfold decodePlanLeaseBytes decodePlanLease
  rw [Json.loadsBytes, Json.decodeBytes_toUTF8 ht, Option.bind_some]
  cases Json.loads t with
  | none => rfl
  | some value =>
      dsimp only
      cases recordWith ["remaining_ms", "schema_version", "sequence"] value with
      | none => rfl
      | some ms =>
          dsimp only
          cases Json.get? "sequence" ms with
          | none => rfl
          | some a =>
              cases Json.get? "remaining_ms" ms with
              | none => cases a <;> rfl
              | some b =>
                  cases a with
                  | int sequence =>
                      cases b with
                      | int remainingMs => exact if_congr (by rw [hsame]) rfl rfl
                      | _ => rfl
                  | _ => rfl

theorem decodeHeartbeatBytes_toUTF8 {t nodeId : String} {agentId : Option String}
    (ht : ∀ c ∈ t.toList, Json.Printable c) :
    decodeHeartbeatBytes t.toUTF8 nodeId agentId = decodeHeartbeat t nodeId agentId := by
  rw [decodeHeartbeatBytes, Json.decodeBytes_toUTF8 ht, Option.bind_some]

theorem check_answers {k : Key} :
    Alone (answers record now) (check [k]) () (.ret record.isSome) () := .op _ rfl (.done _ _)

theorem get_answers {k : Key} {t : String} (h : record = some t) :
    Alone (answers record now) (get k) () (.ret t) () := .op (some t) h.symm (.done _ _)

theorem clock_answers : Alone (answers record now) (Handler.clock w) () (.ret (now, w)) () :=
  Alone.lift (.op now rfl (.done _ _))

theorem readPlanLease_answers {plan : RestartPlan}
    (ht : ∀ t ∈ record, ∀ c ∈ t.toList, Json.Printable c) :
    Alone (answers record now) (self.plans.readPlanLease plan) ()
      (ofExcept (self.readLease plan (record.map String.toUTF8))) () := by
  unfold PlanStore.readPlanLease Handler.readLease
  by_cases hrun : plan.runId ≠ self.plans.runId
  · rw [if_pos hrun, if_pos hrun]
    exact .done _ _
  · rw [if_neg hrun, if_neg hrun]
    cases record with
    | none => exact check_answers.bind (.done _ _)
    | some t =>
        refine check_answers.bind ((get_answers rfl).bind ?_)
        show Alone _ _ _ (ofExcept ((decodePlanLeaseBytes t.toUTF8).map some)) _
        rw [decodePlanLeaseBytes_toUTF8 (ht t rfl)]
        cases decodePlanLease t with
        | error e => exact .done _ _
        | ok lease => exact .done _ _

/-- **`_plan_lease_is_live` is `lookAtLease`.** -/
theorem planLeaseIsLive_look {plan : RestartPlan}
    (ht : ∀ t ∈ record, ∀ c ∈ t.toList, Json.Printable c) :
    Alone (answers record now) (self.planLeaseIsLive plan w) ()
      (outcome (self.lookAtLease plan (record.map String.toUTF8) now w)) () := by
  refine Alone.trans (Alone.segment (Alone.lift_segment (readPlanLease_answers ht))) ?_
  unfold Handler.lookAtLease
  cases self.readLease plan (record.map String.toUTF8) with
  | error e => exact .done _ _
  | ok lease =>
      cases lease with
      | none => exact .done _ _
      | some lease =>
          refine Alone.bind (a := (some lease, w)) (.done _ _) (clock_answers.mbind ?_)
          dsimp only
          by_cases hnow : now < 0
          · rw [if_pos hnow, if_pos hnow]
            exact .done _ _
          · rw [if_neg hnow, if_neg hnow]
            refine Alone.mbind (a := w) (.done _ _) ?_
            cases observeLease self.config.heartbeatTimeoutMs
                (w.planLeaseObservations.lookup (plan.toGeneration, plan.planId)) lease.1 lease.2
                now with
            | error e => exact .done _ _
            | ok seen =>
                obtain ⟨live, o⟩ := seen
                cases o with
                | none => exact .done _ _
                | some o => exact .done _ _

/-- **`_heartbeat_is_live` is `lookAtHeartbeat`.** -/
theorem heartbeatIsLive_look {nodeId : String} {agentId : Option String}
    (ht : ∀ t ∈ record, ∀ c ∈ t.toList, Json.Printable c) :
    Alone (answers record now) (self.heartbeatIsLive nodeId agentId w) ()
      (let r := self.lookAtHeartbeat nodeId agentId (record.map String.toUTF8) now w
       outcome (.ok r.1, r.2)) () := by
  unfold Handler.lookAtHeartbeat
  cases record with
  | none => exact (Alone.lift check_answers).mbind (.done _ _)
  | some t =>
      refine (Alone.lift check_answers).mbind ((Alone.lift (get_answers rfl)).mbind ?_)
      rw [Option.map_some, Option.bind_some, decodeHeartbeatBytes_toUTF8 (ht t rfl)]
      cases decodeHeartbeat t nodeId agentId with
      | none => exact .done _ _
      | some seen =>
          refine clock_answers.mbind ?_
          dsimp only
          by_cases hnow : now < 0
          · rw [if_pos hnow, if_pos hnow]
            exact .done _ _
          · rw [if_neg hnow, if_neg hnow]
            refine Alone.mbind (a := w) (.done _ _) ?_
            cases observeHeartbeat self.config.heartbeatTimeoutMs
                (w.heartbeatObservations.lookup nodeId) seen.1 seen.2 now with
            | mk live o =>
                cases o with
                | none => exact .done _ _
                | some o => exact .done _ _

end

/-! ## What was read of one plan, of one node -/

/-- A lease record as it was read, and when. -/
structure LeaseReading where
  sequence : Int
  remainingMs : Int
  time : ℚ

/-- A heartbeat as it was read, and when. -/
structure HeartbeatReading where
  agentId : String
  sequence : Int
  time : ℚ

namespace Handler

variable (self : Handler)

/-- What a call reads of the lease of a plan, given by its generation and its id. -/
def leaseReading (key : Int × String) : Look → Option LeaseReading
  | .lease plan encoded now =>
      match self.readLease plan encoded with
      | .ok (some (sequence, remainingMs)) =>
          if (plan.toGeneration, plan.planId) = key ∧ 0 ≤ now then
            some ⟨sequence, remainingMs, now⟩
          else none
      | _ => none
  | .heartbeat _ _ _ _ => none

/-- What a call reads of the heartbeats of a node: a payload that is valid for it. -/
def heartbeatReading (nodeId : String) : Look → Option HeartbeatReading
  | .lease _ _ _ => none
  | .heartbeat nodeId' agentId encoded now =>
      match encoded.bind (decodeHeartbeatBytes · nodeId' agentId) with
      | some (observed, sequence) =>
          if nodeId' = nodeId ∧ 0 ≤ now then some ⟨observed, sequence, now⟩ else none
      | none => none

/-- The observation that a reading of a lease leaves. -/
def nextLease (previous : Option LeaseObservation) (r : LeaseReading) : Option LeaseObservation :=
  match observeLease self.config.heartbeatTimeoutMs previous r.sequence r.remainingMs r.time with
  | .ok (_, some o) => some o
  | _ => previous

/-- The observation that a reading of a heartbeat leaves. -/
def nextHeartbeat (previous : Option HeartbeatObservation) (r : HeartbeatReading) :
    Option HeartbeatObservation :=
  match observeHeartbeat self.config.heartbeatTimeoutMs previous r.agentId r.sequence r.time with
  | (_, some o) => some o
  | _ => previous

variable {self} {w : HandlerState}

/-- One call moves the observation of a plan by what it reads of its lease. -/
theorem lease_step (key : Int × String) (l : Look) :
    (self.look w l).2.planLeaseObservations.lookup key =
      match self.leaseReading key l with
      | some r => self.nextLease (w.planLeaseObservations.lookup key) r
      | none => w.planLeaseObservations.lookup key := by
  cases l with
  | heartbeat nodeId agentId encoded now =>
      show (self.lookAtHeartbeat nodeId agentId encoded now w).2.planLeaseObservations.lookup key =
        w.planLeaseObservations.lookup key
      unfold lookAtHeartbeat
      split
      · rfl
      · split
        · rfl
        · split <;> rfl
  | lease plan encoded now =>
      show (self.lookAtLease plan encoded now w).2.planLeaseObservations.lookup key = _
      unfold lookAtLease leaseReading
      dsimp only
      cases self.readLease plan encoded with
      | error e => rfl
      | ok lease =>
          cases lease with
          | none => rfl
          | some lease =>
              dsimp only
              by_cases hnow : now < 0
              · rw [if_pos hnow, if_neg fun h => absurd hnow (not_lt.mpr h.2)]
              · rw [if_neg hnow]
                by_cases hkey : (plan.toGeneration, plan.planId) = key
                · rw [if_pos ⟨hkey, not_lt.mp hnow⟩, hkey]
                  dsimp only [nextLease]
                  cases observeLease self.config.heartbeatTimeoutMs
                      (w.planLeaseObservations.lookup key) lease.1 lease.2 now with
                  | error e => rfl
                  | ok seen =>
                      obtain ⟨live, o⟩ := seen
                      cases o with
                      | none => rfl
                      | some o => exact lookup_assignKey_self
                · rw [if_neg fun h => hkey h.1]
                  split
                  · rfl
                  · rfl
                  · exact lookup_assignKey_of_ne (Ne.symm hkey)

/-- One call moves the observation of a node by what it reads of its heartbeat. -/
theorem heartbeat_step (nodeId : String) (l : Look) :
    (self.look w l).2.heartbeatObservations.lookup nodeId =
      match heartbeatReading nodeId l with
      | some r => self.nextHeartbeat (w.heartbeatObservations.lookup nodeId) r
      | none => w.heartbeatObservations.lookup nodeId := by
  cases l with
  | lease plan encoded now =>
      show (self.lookAtLease plan encoded now w).2.heartbeatObservations.lookup nodeId =
        w.heartbeatObservations.lookup nodeId
      unfold lookAtLease
      split
      · rfl
      · rfl
      · split
        · rfl
        · dsimp only
          split <;> rfl
  | heartbeat nodeId' agentId encoded now =>
      show (self.lookAtHeartbeat nodeId' agentId encoded now w).2.heartbeatObservations.lookup
        nodeId = _
      unfold lookAtHeartbeat heartbeatReading
      dsimp only
      cases encoded.bind (decodeHeartbeatBytes · nodeId' agentId) with
      | none => rfl
      | some seen =>
          dsimp only
          by_cases hnow : now < 0
          · rw [if_pos hnow, if_neg fun h => absurd hnow (not_lt.mpr h.2)]
          · rw [if_neg hnow]
            by_cases hkey : nodeId' = nodeId
            · rw [if_pos ⟨hkey, not_lt.mp hnow⟩, hkey]
              dsimp only [nextHeartbeat]
              cases observeHeartbeat self.config.heartbeatTimeoutMs
                  (w.heartbeatObservations.lookup nodeId) seen.1 seen.2 now with
              | mk live o =>
                  cases o with
                  | none => rfl
                  | some o => exact lookup_assignKey_self
            · rw [if_neg fun h => hkey h.1]
              split
              · rfl
              · exact lookup_assignKey_of_ne (Ne.symm hkey)

end Handler

/-! ## Any sequence of readings -/

/-- The reading `r` is the last one that advanced the sequence, past each one before it. -/
def LastAdvance (rs : List LeaseReading) (r : LeaseReading) : Prop :=
  ∃ before after, rs = before ++ r :: after ∧ before ≠ [] ∧
    (∀ a ∈ before, a.sequence < r.sequence) ∧ ∀ a ∈ after, a.sequence ≤ r.sequence

/-- The last two different readings are `a` and then `b`, of one agent that counted on. -/
def LastPair (rs : List HeartbeatReading) (a b : HeartbeatReading) : Prop :=
  ∃ before after, rs = before ++ a :: b :: after ∧ a.agentId = b.agentId ∧
    a.sequence < b.sequence ∧
      ∀ x ∈ after, x.agentId = b.agentId ∧ x.sequence = b.sequence

theorem LastAdvance.append {rs : List LeaseReading} {r a : LeaseReading} (h : LastAdvance rs r)
    (ha : a.sequence ≤ r.sequence) : LastAdvance (rs ++ [a]) r := by
  obtain ⟨before, after, rfl, hne, hbefore, hafter⟩ := h
  refine ⟨before, after ++ [a], by simp, hne, hbefore, fun x hx => ?_⟩
  rcases List.mem_append.mp hx with hx | hx
  · exact hafter x hx
  · rw [List.mem_singleton.mp hx]
    exact ha

theorem LastPair.append {rs : List HeartbeatReading} {a b x : HeartbeatReading}
    (h : LastPair rs a b) (hx : x.agentId = b.agentId ∧ x.sequence = b.sequence) :
    LastPair (rs ++ [x]) a b := by
  obtain ⟨before, after, rfl, hagent, hlt, hafter⟩ := h
  refine ⟨before, after ++ [x], by simp, hagent, hlt, fun y hy => ?_⟩
  rcases List.mem_append.mp hy with hy | hy
  · exact hafter y hy
  · rw [List.mem_singleton.mp hy]
    exact hx

/-- For how long a reading of a lease is a sign of life. -/
def leaseWindow (heartbeatTimeoutMs : Int) (r : LeaseReading) : ℚ :=
  min ((r.remainingMs : ℚ) / 1000)
    (max ((heartbeatTimeoutMs : ℚ) / 1000) (planLeaseRenewIntervalSeconds * 3))

/-- What the observation of a plan says of the readings of its lease. -/
def LeaseKept (heartbeatTimeoutMs : Int) (rs : List LeaseReading) :
    Option LeaseObservation → Prop
  | none => rs = []
  | some o => rs ≠ [] ∧ (∀ a ∈ rs, a.sequence ≤ o.sequence) ∧
      (o.live = true → ∃ r, LastAdvance rs r ∧ r.sequence = o.sequence ∧ 0 < r.remainingMs ∧
        o.freshnessDeadline = r.time + leaseWindow heartbeatTimeoutMs r)

/-- What the observation of a node says of the readings of its heartbeat. -/
def HeartbeatKept (rs : List HeartbeatReading) : Option HeartbeatObservation → Prop
  | none => rs = []
  | some o => (∃ before b, rs = before ++ [b] ∧ b.agentId = o.agentId ∧
        b.sequence = o.sequence) ∧
      (o.live = true → ∃ a b, LastPair rs a b ∧ b.agentId = o.agentId ∧
        b.sequence = o.sequence ∧ b.time = o.observedAt)

section

variable {self : Handler} {rs : List LeaseReading} {previous : Option LeaseObservation}
  {r : LeaseReading}

theorem forall_mem_append_singleton {α : Type} {P : α → Prop} {xs : List α} {x : α}
    (h : ∀ a ∈ xs, P a) (hx : P x) : ∀ a ∈ xs ++ [x], P a := by
  intro a ha
  rcases List.mem_append.mp ha with ha | ha
  · exact h a ha
  · rw [List.mem_singleton.mp ha]
    exact hx

/-- A reading keeps the account, and reports a lease live only on an advance in time. -/
theorem LeaseKept.next (h : LeaseKept self.config.heartbeatTimeoutMs rs previous) :
    LeaseKept self.config.heartbeatTimeoutMs (rs ++ [r]) (self.nextLease previous r) ∧
      ∀ o, observeLease self.config.heartbeatTimeoutMs previous r.sequence r.remainingMs r.time =
          .ok (true, o) →
        ∃ a, LastAdvance (rs ++ [r]) a ∧ 0 < a.remainingMs ∧
          r.time < a.time + leaseWindow self.config.heartbeatTimeoutMs a := by
  have hnil : rs ++ [r] ≠ [] := List.append_ne_nil_of_right_ne_nil _ (List.cons_ne_nil _ _)
  cases previous with
  | none =>
      obtain rfl : rs = [] := h
      refine ⟨⟨hnil, ?_, fun hlive => by cases hlive⟩, fun o ho => ?_⟩
      · exact forall_mem_append_singleton (fun a ha => absurd ha List.not_mem_nil) (Int.le_refl _)
      · cases ho
  | some p =>
      obtain ⟨hne, hle, hlive⟩ := h
      rcases Int.lt_trichotomy r.sequence p.sequence with hlt | heq | hgt
      · -- the sequence moved backwards: the observation stays
        have hobs : observeLease self.config.heartbeatTimeoutMs (some p) r.sequence r.remainingMs
            r.time = .error (.rendezvousState "recovery plan lease sequence moved backwards") :=
          if_pos hlt
        rw [Handler.nextLease, hobs]
        refine ⟨⟨hnil, forall_mem_append_singleton hle (Int.le_of_lt hlt), fun hl => ?_⟩,
          fun o ho => by cases ho⟩
        obtain ⟨a, ha, hseq, hrem, hfresh⟩ := hlive hl
        exact ⟨a, ha.append (hseq ▸ Int.le_of_lt hlt), hseq, hrem, hfresh⟩
      · have hobs : observeLease self.config.heartbeatTimeoutMs (some p) r.sequence r.remainingMs
            r.time = .ok (p.live && r.time < p.freshnessDeadline, none) := by
          unfold observeLease
          dsimp only
          rw [if_neg (by omega), if_neg (by omega)]
        rw [Handler.nextLease, hobs]
        refine ⟨⟨hnil, forall_mem_append_singleton hle (Int.le_of_eq heq), fun hl => ?_⟩, ?_⟩
        · obtain ⟨a, ha, hseq, hrem, hfresh⟩ := hlive hl
          exact ⟨a, ha.append (hseq ▸ Int.le_of_eq heq), hseq, hrem, hfresh⟩
        · intro o ho
          have hboth := congrArg Prod.fst (Except.ok.inj ho)
          rw [Bool.and_eq_true, decide_eq_true_eq] at hboth
          obtain ⟨a, ha, hseq, hrem, hfresh⟩ := hlive hboth.1
          exact ⟨a, ha.append (hseq ▸ Int.le_of_eq heq), hrem, hfresh ▸ hboth.2⟩
      · -- an advance: the reading is past every one before it
        have hadvance : LastAdvance (rs ++ [r]) r :=
          ⟨rs, [], rfl, hne, fun a ha => Int.lt_of_le_of_lt (hle a ha) hgt,
            fun a ha => absurd ha List.not_mem_nil⟩
        have hobs : observeLease self.config.heartbeatTimeoutMs (some p) r.sequence r.remainingMs
            r.time =
              let live : Bool := 0 < r.remainingMs ∧
                r.time < r.time + leaseWindow self.config.heartbeatTimeoutMs r
              .ok (live, some ⟨r.sequence, r.time + leaseWindow self.config.heartbeatTimeoutMs r,
                r.time + (r.remainingMs : ℚ) / 1000, live⟩) := by
          unfold observeLease
          dsimp only
          rw [if_neg (by omega), if_pos hgt]
          rfl
        rw [Handler.nextLease, hobs]
        refine ⟨⟨hnil, forall_mem_append_singleton
          (fun a ha => Int.le_trans (hle a ha) (Int.le_of_lt hgt)) (Int.le_refl _), ?_⟩, ?_⟩
        · intro hl
          exact ⟨r, hadvance, rfl, (of_decide_eq_true hl).1, rfl⟩
        · intro o ho
          have hl := of_decide_eq_true (congrArg Prod.fst (Except.ok.inj ho))
          exact ⟨r, hadvance, hl.1, hl.2⟩

end

section

variable {heartbeatTimeoutMs : Int} {self : Handler} {rs : List HeartbeatReading}
  {previous : Option HeartbeatObservation} {r : HeartbeatReading}

/-- A first sight, of an agent or of a sequence that starts again. -/
theorem HeartbeatKept.restart {time : ℚ} :
    HeartbeatKept (rs ++ [r]) (some ⟨r.agentId, r.sequence, time, false⟩) :=
  ⟨⟨rs, r, rfl, rfl, rfl⟩, fun hlive => by cases hlive⟩

/-- A reading keeps the account, and reports a node live only on a pair seen in time. -/
theorem HeartbeatKept.next (hpos : 0 < self.config.heartbeatTimeoutMs)
    (h : HeartbeatKept rs previous) :
    HeartbeatKept (rs ++ [r]) (self.nextHeartbeat previous r) ∧
      ((observeHeartbeat self.config.heartbeatTimeoutMs previous r.agentId r.sequence r.time).1 =
          true →
        ∃ a b, LastPair (rs ++ [r]) a b ∧ b.agentId = r.agentId ∧
          r.time - b.time < (self.config.heartbeatTimeoutMs : ℚ) / 1000) := by
  cases previous with
  | none => exact ⟨.restart, fun hlive => by cases hlive⟩
  | some p =>
      obtain ⟨⟨before, last, rfl, hagent, hseq⟩, hlive⟩ := h
      by_cases hreset : p.agentId ≠ r.agentId ∨ r.sequence < p.sequence
      · have hobs : observeHeartbeat self.config.heartbeatTimeoutMs (some p) r.agentId r.sequence
            r.time = (false, some ⟨r.agentId, r.sequence, r.time, false⟩) := if_pos hreset
        rw [Handler.nextHeartbeat, hobs]
        exact ⟨.restart, fun hl => by cases hl⟩
      · obtain ⟨hsame, hle⟩ := not_or.mp hreset
        rw [ne_eq, not_not] at hsame
        by_cases hgt : p.sequence < r.sequence
        · -- an advance: the last reading and this one are a pair
          have hobs : observeHeartbeat self.config.heartbeatTimeoutMs (some p) r.agentId r.sequence
              r.time = (true, some ⟨r.agentId, r.sequence, r.time, true⟩) := by
            unfold observeHeartbeat
            dsimp only
            rw [if_neg hreset, if_pos hgt]
          have hpair : LastPair (before ++ [last] ++ [r]) last r :=
            ⟨before, [], by simp, hagent.trans hsame, hseq ▸ hgt,
              fun x hx => absurd hx List.not_mem_nil⟩
          rw [Handler.nextHeartbeat, hobs]
          refine ⟨⟨⟨_, r, rfl, rfl, rfl⟩, fun _ => ⟨last, r, hpair, rfl, rfl, rfl⟩⟩, fun _ =>
            ⟨last, r, hpair, rfl, ?_⟩⟩
          rw [sub_self]
          exact div_pos (Int.cast_pos.mpr hpos) (by norm_num)
        · have heq : r.sequence = p.sequence := by omega
          have hobs : observeHeartbeat self.config.heartbeatTimeoutMs (some p) r.agentId r.sequence
              r.time = (p.live && (0 ≤ r.time - p.observedAt ∧
                r.time - p.observedAt < (self.config.heartbeatTimeoutMs : ℚ) / 1000 : Bool),
                none) := by
            unfold observeHeartbeat
            dsimp only
            rw [if_neg hreset, if_neg hgt]
          have hpair : p.live = true → ∃ a b, LastPair (before ++ [last] ++ [r]) a b ∧
              b.agentId = p.agentId ∧ b.sequence = p.sequence ∧ b.time = p.observedAt := by
            intro hl
            obtain ⟨a, b, hab, hb, hbs, htime⟩ := hlive hl
            exact ⟨a, b, hab.append ⟨hsame.symm.trans hb.symm, heq.trans hbs.symm⟩, hb, hbs,
              htime⟩
          rw [Handler.nextHeartbeat, hobs]
          refine ⟨⟨⟨_, r, rfl, hsame.symm, heq⟩, hpair⟩, fun hl => ?_⟩
          rw [Bool.and_eq_true, decide_eq_true_eq] at hl
          obtain ⟨a, b, hab, hb, -, htime⟩ := hpair hl.1
          exact ⟨a, b, hab, hb.trans hsame, htime ▸ hl.2.2⟩

end

/-! ## Any sequence of calls -/

namespace Handler

variable {self : Handler}

/-- The observation of a plan is what the readings of its lease have left. -/
theorem afterLooks_lease (looks : List Look) (key : Int × String) :
    (self.afterLooks looks).planLeaseObservations.lookup key =
      (looks.filterMap (self.leaseReading key)).foldl self.nextLease none := by
  rw [List.foldl_filterMap]
  refine (List.foldl_hom (fun w : HandlerState => w.planLeaseObservations.lookup key)
    fun w l => ?_).symm
  rw [lease_step key l]
  cases self.leaseReading key l with
  | none => rfl
  | some r => rfl

theorem afterLooks_heartbeat (looks : List Look) (nodeId : String) :
    (self.afterLooks looks).heartbeatObservations.lookup nodeId =
      (looks.filterMap (heartbeatReading nodeId)).foldl self.nextHeartbeat none := by
  rw [List.foldl_filterMap]
  refine (List.foldl_hom (fun w : HandlerState => w.heartbeatObservations.lookup nodeId)
    fun w l => ?_).symm
  rw [heartbeat_step nodeId l]
  cases heartbeatReading nodeId l with
  | none => rfl
  | some r => rfl

theorem leaseKept_afterLooks (looks : List Look) (key : Int × String) :
    LeaseKept self.config.heartbeatTimeoutMs (looks.filterMap (self.leaseReading key))
      ((self.afterLooks looks).planLeaseObservations.lookup key) := by
  rw [afterLooks_lease]
  induction looks.filterMap (self.leaseReading key) using List.reverseRecOn with
  | nil => rfl
  | append_singleton rs r ih =>
      rw [List.foldl_append]
      exact ih.next.1

theorem heartbeatKept_afterLooks (hpos : 0 < self.config.heartbeatTimeoutMs) (looks : List Look)
    (nodeId : String) :
    HeartbeatKept (looks.filterMap (heartbeatReading nodeId))
      ((self.afterLooks looks).heartbeatObservations.lookup nodeId) := by
  rw [afterLooks_heartbeat]
  induction looks.filterMap (heartbeatReading nodeId) using List.reverseRecOn with
  | nil => rfl
  | append_singleton rs r ih =>
      rw [List.foldl_append]
      exact (ih.next hpos).1

/-- A call that reports a lease live has read it, and its reading is what makes it live. -/
theorem lookAtLease_live {plan : RestartPlan} {encoded : Option ByteArray} {now : ℚ}
    {w : HandlerState} (h : (self.lookAtLease plan encoded now w).1 = .ok true) :
    ∃ r o, self.leaseReading (plan.toGeneration, plan.planId) (.lease plan encoded now) = some r ∧
      r.time = now ∧
      observeLease self.config.heartbeatTimeoutMs
        (w.planLeaseObservations.lookup (plan.toGeneration, plan.planId)) r.sequence
        r.remainingMs r.time = .ok (true, o) := by
  unfold lookAtLease at h
  unfold leaseReading
  dsimp only
  cases hread : self.readLease plan encoded with
  | error e =>
      rw [hread] at h
      cases h
  | ok lease =>
      rw [hread] at h
      cases lease with
      | none => cases h
      | some lease =>
          dsimp only at h
          split at h
          · cases h
          · rename_i hnow
            refine ⟨⟨lease.1, lease.2, now⟩, ?_⟩
            dsimp only
            rw [if_pos ⟨rfl, not_lt.mp hnow⟩]
            split at h
            · cases h
            · rename_i live hobs
              cases Except.ok.inj h
              exact ⟨none, rfl, rfl, hobs⟩
            · rename_i live o hobs
              cases Except.ok.inj h
              exact ⟨some o, rfl, rfl, hobs⟩

theorem lookAtHeartbeat_live {nodeId : String} {agentId : Option String}
    {encoded : Option ByteArray} {now : ℚ} {w : HandlerState}
    (h : (self.lookAtHeartbeat nodeId agentId encoded now w).1 = true) :
    ∃ r, heartbeatReading nodeId (.heartbeat nodeId agentId encoded now) = some r ∧
      r.time = now ∧
      (observeHeartbeat self.config.heartbeatTimeoutMs (w.heartbeatObservations.lookup nodeId)
        r.agentId r.sequence r.time).1 = true := by
  unfold lookAtHeartbeat at h
  unfold heartbeatReading
  dsimp only
  cases hread : encoded.bind (decodeHeartbeatBytes · nodeId agentId) with
  | none =>
      rw [hread] at h
      cases h
  | some seen =>
      rw [hread] at h
      dsimp only at h
      split at h
      · cases h
      · rename_i hnow
        refine ⟨⟨seen.1, seen.2, now⟩, ?_⟩
        dsimp only
        rw [if_pos ⟨rfl, not_lt.mp hnow⟩]
        split at h
        · rename_i live hobs
          exact ⟨rfl, rfl, by rw [hobs]; exact h⟩
        · rename_i live o hobs
          exact ⟨rfl, rfl, by rw [hobs]; exact h⟩

/-- **Reported life is sound.**  After any calls, a lease is reported live only if its sequence
was seen to advance, past every one seen before, within its budget and the timeout; a node only
if two payloads of one agent that counted on were read, the second within the timeout, and no
other payload since. -/
theorem liveness_sound (self : Handler) (hpos : 0 < self.config.heartbeatTimeoutMs)
    (looks : List Look) :
    (∀ plan encoded now,
      (self.lookAtLease plan encoded now (self.afterLooks looks)).1 = .ok true →
        ∃ r, LastAdvance ((looks ++ [Look.lease plan encoded now]).filterMap
            (self.leaseReading (plan.toGeneration, plan.planId))) r ∧
          0 < r.remainingMs ∧ now - r.time < (r.remainingMs : ℚ) / 1000 ∧
          now - r.time < max ((self.config.heartbeatTimeoutMs : ℚ) / 1000)
            (planLeaseRenewIntervalSeconds * 3)) ∧
    ∀ nodeId agentId encoded now,
      (self.lookAtHeartbeat nodeId agentId encoded now (self.afterLooks looks)).1 = true →
        ∃ a b, LastPair ((looks ++ [Look.heartbeat nodeId agentId encoded now]).filterMap
            (heartbeatReading nodeId)) a b ∧
          now - b.time < (self.config.heartbeatTimeoutMs : ℚ) / 1000 := by
  refine ⟨fun plan encoded now h => ?_, fun nodeId agentId encoded now h => ?_⟩
  · obtain ⟨r, o, hread, rfl, hobs⟩ := lookAtLease_live h
    obtain ⟨a, ha, hrem, htime⟩ := (leaseKept_afterLooks looks _).next.2 o hobs
    rw [List.filterMap_append, List.filterMap_cons_some hread, List.filterMap_nil]
    refine ⟨a, ha, hrem, ?_, ?_⟩
    · exact sub_lt_iff_lt_add'.mpr (lt_of_lt_of_le htime (add_le_add_right (min_le_left _ _) _))
    · exact sub_lt_iff_lt_add'.mpr (lt_of_lt_of_le htime (add_le_add_right (min_le_right _ _) _))
  · obtain ⟨r, hread, rfl, hobs⟩ := lookAtHeartbeat_live h
    obtain ⟨a, b, hab, -, htime⟩ := ((heartbeatKept_afterLooks hpos looks _).next hpos).2 hobs
    rw [List.filterMap_append, List.filterMap_cons_some hread, List.filterMap_nil]
    exact ⟨a, b, hab, htime⟩

/-- A handler with a timeout of ten seconds. -/
def sample : Handler := ⟨⟨"node-a", 1, 1, 1000, 10000⟩, ⟨"run", id⟩, "agent", "policy"⟩

/-- A lease and a heartbeat that each count on once are reported live. -/
theorem liveness_sound_sample :
    let lease (n : Int) := some (canonicalJson (leaseRecord 40 n)).toUTF8
    let leases := [Look.lease samplePlan (lease 1) 0]
    let payload (n : Int) := some (canonicalJson (heartbeatRecord "agent" "node-b" n)).toUTF8
    let payloads := [Look.heartbeat "node-b" none (payload 0) 0]
    (sample.lookAtLease samplePlan (lease 2) (1 / 100) (sample.afterLooks leases)).1 = .ok true ∧
    (∃ r, LastAdvance ((leases ++ [Look.lease samplePlan (lease 2) (1 / 100)]).filterMap
        (sample.leaseReading (1, "plan-1"))) r ∧ (1 / 100 : ℚ) - r.time < r.remainingMs / 1000) ∧
    (sample.lookAtHeartbeat "node-b" none (payload 1) 1 (sample.afterLooks payloads)).1 = true ∧
    ∃ a b, LastPair ((payloads ++ [Look.heartbeat "node-b" none (payload 1) 1]).filterMap
        (heartbeatReading "node-b")) a b ∧ (1 : ℚ) - b.time < 10 := by
  intro lease leases payload payloads
  have hlease : (sample.lookAtLease samplePlan (lease 2) (1 / 100)
      (sample.afterLooks leases)).1 = .ok true :=
    Outcome.toOption_eq_some_iff.mp (by decide +kernel)
  have hheartbeat : (sample.lookAtHeartbeat "node-b" none (payload 1) 1
      (sample.afterLooks payloads)).1 = true := by decide +kernel
  obtain ⟨r, hr, -, htime, -⟩ := (liveness_sound sample (by decide) leases).1 _ _ _ hlease
  obtain ⟨a, b, hab, hb⟩ := (liveness_sound sample (by decide) payloads).2 _ _ _ _ hheartbeat
  refine ⟨hlease, ⟨r, hr, htime⟩, hheartbeat, a, b, hab, lt_of_lt_of_eq hb ?_⟩
  decide +kernel

end Handler

end LmResiliency.Torchrun
