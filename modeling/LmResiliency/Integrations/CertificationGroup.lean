/-
# CertificationGroup — `apply_result` on the ranks of a job

Every decision of `apply_result` is taken on the reduced flags, on what the
ranks share, or on the durable candidate, which is pending on all ranks or
on none.
-/
import LmResiliency.Integrations.Certification
import LmResiliency.Checkpointing.DurableSafety

namespace LmResiliency.Integrations

open Lockstep Detection Checkpointing

variable {n : Nat} [NeZero n]

/-! ## The vote -/

/-- What the results of all ranks say. -/
def consensusOf (results : Fin n → Option ReplayResult) : ReplayConsensus where
  allResultsAvailable := decide (∀ i, (results i).isSome = true)
  anySdc := decide (∃ i, replayResultHasSdc (results i) = true)
  scheduledCyclesAgree := decide ¬ ((∃ i, (results i).any (·.completedScheduledCycle) = true) ∧
    ∃ i, (results i).any (! ·.completedScheduledCycle) = true)
  scheduledCycleComplete := decide ((∃ i, (results i).any (·.completedScheduledCycle) = true) ∧
    ¬ ∃ i, (results i).any (! ·.completedScheduledCycle) = true)
  allShapeCyclesComplete := decide ((∃ i, (results i).any (·.completedShapeCycle) = true) ∧
    ¬ ∃ i, (results i).any (! ·.completedShapeCycle) = true)

theorem flag_eq_zero {b : Bool} : flag b = 0 ↔ b = false := by
  cases b <;> decide

theorem greatest_flag (bs : Fin n → Bool) :
    greatest (fun i => flag (bs i)) = flag (decide (∃ i, bs i = true)) := by
  by_cases h : ∃ i, bs i = true
  · obtain ⟨i, hi⟩ := h
    rw [decide_eq_true ⟨i, hi⟩]
    refine le_antisymm (Finset.sup'_le _ _ fun j _ => ?_) ?_
    · cases bs j <;> decide
    · have hle := Finset.le_sup' (fun i => flag (bs i)) (Finset.mem_univ i)
      rwa [hi] at hle
  · rw [decide_eq_false h]
    have hall : ∀ i, bs i = false := fun i => Bool.not_eq_true _ ▸ not_exists.mp h i
    simp only [hall, greatest, Finset.sup'_const]

/-- The reduced flags. -/
def reducedFlags (results : Fin n → Option ReplayResult) : Fin 6 → Int :=
  jobCombine (.allReduce .max 6) fun i => replayFlags (results i)

theorem consensusOfFlags_reduced (results : Fin n → Option ReplayResult) :
    consensusOfFlags (reducedFlags results) = consensusOf results := by
  have h : ∀ (p : Option ReplayResult → Bool) (k : Fin 6),
      (∀ i, replayFlags (results i) k = flag (p (results i))) →
      reducedFlags results k = flag (decide (∃ i, p (results i) = true)) := by
    intro p k hk
    have hred : reducedFlags results k = greatest fun i => replayFlags (results i) k := rfl
    rw [hred, funext hk]
    exact greatest_flag fun i => p (results i)
  have h0 := h Option.isNone 0 fun _ => rfl
  have h1 := h replayResultHasSdc 1 fun _ => rfl
  have h2 := h (·.any (·.completedScheduledCycle)) 2 fun _ => rfl
  have h3 := h (·.any (! ·.completedScheduledCycle)) 3 fun _ => rfl
  have h4 := h (·.any (·.completedShapeCycle)) 4 fun _ => rfl
  have h5 := h (·.any (! ·.completedShapeCycle)) 5 fun _ => rfl
  have hsome : (∀ i, (results i).isNone = false) ↔ ∀ i, (results i).isSome = true := by
    refine forall_congr' fun i => ?_
    cases results i <;> simp
  simp only [consensusOfFlags, consensusOf, h0, h1, h2, h3, h4, h5, ne_eq, flag_eq_zero,
    decide_eq_false_iff_not, not_exists, Bool.not_eq_true, hsome, not_forall,
    Bool.not_eq_false]

/-- **The spec of `_global_replay_consensus`** on the ranks of a job. -/
theorem jointly_globalReplayConsensus {ω : Type} (results : Fin n → Option ReplayResult)
    (ws : Fin n → ω) :
    Jointly jobCombine (fun i => globalReplayConsensus n (results i)) ws
      fun i => .ok (consensusOf results, ws i) := by
  rw [← consensusOfFlags_reduced]
  by_cases h : 1 < n
  · simp only [globalReplayConsensus, if_pos h]
    exact (jointly_jobOp (.allReduce .max 6) (fun i => replayFlags (results i)) ws).bind
      (Jointly.pure _)
  · have hone : n = 1 := le_antisymm (not_lt.mp h) (Nat.one_le_iff_ne_zero.mpr (NeZero.ne n))
    have hown : ∀ i, replayFlags (results i) = reducedFlags results := by
      subst hone
      intro i
      funext k
      have hred : reducedFlags results k = greatest fun i => replayFlags (results i) k := rfl
      have hconst : (fun j => replayFlags (results j) k) = fun _ => replayFlags (results i) k := by
        funext j
        rw [Subsingleton.elim j i]
      rw [hred, hconst, greatest, Finset.sup'_const]
    simp only [globalReplayConsensus, if_neg h, hown]
    exact Jointly.pure _

/-! ## Rejection -/

variable (config : CertificationConfig n)

/-- The durable candidate is pending on all ranks, or on none. -/
def Certifying (ws : Fin n → Certification) : Prop :=
  config.durableCheckpoint.isSome = true →
    ∃ pending epoch, Aligned (fun i => (ws i).durable) pending epoch

/-- A durable coordinator after `reject`. -/
def discarded (durable : DurableConfig n) (rank : Fin n) (reason : String) (d : Durable) :
    Durable :=
  match d.pending with
  | none => d
  | some candidate => d.rejecting durable rank candidate reason

theorem jointly_discard (durable : DurableConfig n) {ds : Fin n → Durable}
    {pending : Option DurableCheckpointRecord} {epoch : Nat} (hds : Aligned ds pending epoch)
    (reason : String) :
    Jointly jobCombine (fun i => reject durable i reason) ds
      fun i => .ok ((), discarded durable i reason (ds i)) := by
  cases pending with
  | none =>
      simp only [discarded, hds.none]
      exact jointly_reject_none hds.none reason
  | some candidate =>
      obtain ⟨candidates, hpending, -⟩ := hds.candidates
      simp only [discarded, hpending]
      exact jointly_reject hpending reason

/-- A rank after a call was made. -/
def noted (call : Call) (self : Certification) : Certification :=
  { self with calls := self.calls ++ [call] }

theorem jointly_note (call : Call) (ws : Fin n → Certification) :
    Jointly jobCombine (fun _ => note call) ws fun i => .ok ((), noted call (ws i)) :=
  Jointly.assign _

theorem jointly_onStatus (f : CheckpointStatusStore → CheckpointStatusStore)
    (ws : Fin n → Certification) :
    Jointly jobCombine (fun _ => onStatus f) ws
      fun i => .ok ((), { ws i with status := f (ws i).status }) :=
  Jointly.assign _

/-- A rank after a method of its durable coordinator. -/
def setDurable (durable : Durable) (self : Certification) : Certification :=
  { self with durable := durable }

theorem jointly_onDurable {α : Type} (ws : Fin n → Certification) {ms : Fin n → DurableM α}
    {as : Fin n → Except (CheckpointError × Durable) (α × Durable)}
    (h : Jointly jobCombine ms (fun i => (ws i).durable) as) :
    Jointly jobCombine (fun i => onDurable (ms i)) ws fun i => zoomed setDurable (ws i) (as i) :=
  h.zoom

/-- A call of the manager, if there is one. -/
def managerCalls (call : Call) : List Call := if config.checkpointManager then [call] else []

/-- A rank after a call of its manager, if there is one. -/
def managed (call : Call) (f : CheckpointStatusStore → CheckpointStatusStore)
    (self : Certification) : Certification :=
  if config.checkpointManager then
    { self with status := f self.status, calls := self.calls ++ [call] }
  else self

omit [NeZero n] in
@[simp] theorem managed_calls (call : Call) (f : CheckpointStatusStore → CheckpointStatusStore)
    (self : Certification) :
    (managed config call f self).calls = self.calls ++ managerCalls config call := by
  rw [managed, managerCalls]
  split
  · rfl
  · rw [List.append_nil]

omit [NeZero n] in
@[simp] theorem managed_durable (call : Call) (f : CheckpointStatusStore → CheckpointStatusStore)
    (self : Certification) : (managed config call f self).durable = self.durable := by
  rw [managed]
  split <;> rfl

omit [NeZero n] in
theorem eq_of_mem_managerCalls {call call' : Call} (h : call' ∈ managerCalls config call) :
    call' = call := by
  rw [managerCalls] at h
  split at h
  · exact List.mem_singleton.mp h
  · exact absurd h List.not_mem_nil

/-- A rank after `rejectManager`. -/
def managerRejected : Certification → Certification :=
  managed config .rejectCandidate (·.rejectCandidate)

/-- A rank after `rejectDurable`. -/
def durableRejected (rank : Fin n) (reason : String) (self : Certification) : Certification :=
  match config.durableCheckpoint with
  | none => self
  | some durable =>
      { self with
        durable := discarded durable rank reason self.durable
        calls := self.calls ++ [.rejectDurable] }

/-- The call of the durable coordinator, if there is one. -/
def durableCalls : List Call :=
  if config.durableCheckpoint.isSome then [.rejectDurable] else []

omit [NeZero n] in
@[simp] theorem durableRejected_calls (rank : Fin n) (reason : String) (self : Certification) :
    (durableRejected config rank reason self).calls = self.calls ++ durableCalls config := by
  rw [durableRejected, durableCalls]
  cases config.durableCheckpoint with
  | none => exact (List.append_nil _).symm
  | some durable => rfl

theorem jointly_rejectManager (ws : Fin n → Certification) :
    Jointly jobCombine (fun _ => rejectManager config) ws
      fun i => .ok ((), managerRejected config (ws i)) := by
  cases h : config.checkpointManager with
  | true =>
      simp only [rejectManager, managerRejected, managed, h, if_true]
      exact (jointly_note _ ws).bind (jointly_onStatus _ _)
  | false =>
      simp only [rejectManager, managerRejected, managed, h, Bool.false_eq_true, if_false]
      exact Jointly.pure fun _ => ()

variable {config}

theorem jointly_rejectDurable {ws : Fin n → Certification} (hws : Certifying config ws)
    (reason : String) :
    Jointly jobCombine (fun i => rejectDurable config i reason) ws
      fun i => .ok ((), durableRejected config i reason (ws i)) := by
  cases h : config.durableCheckpoint with
  | none =>
      simp only [rejectDurable, durableRejected, h]
      exact Jointly.pure fun _ => ()
  | some durable =>
      obtain ⟨pending, epoch, hds⟩ := hws (by rw [h]; rfl)
      simp only [rejectDurable, durableRejected, h]
      have hreject := jointly_onDurable (fun i => noted .rejectDurable (ws i))
        (jointly_discard durable hds reason)
      exact (jointly_note _ ws).bind hreject

/-- **The spec of `_reject_candidate`** on the ranks of a job. -/
theorem jointly_rejectCandidate {ws : Fin n → Certification} (hws : Certifying config ws)
    (reason : String) :
    Jointly jobCombine (fun i => rejectCandidate config i reason) ws
      fun i => .ok ((), managerRejected config (durableRejected config i reason (ws i))) :=
  (jointly_rejectDurable hws reason).bind (jointly_rejectManager config _)

/-! ## The durable candidate -/

/-- All ranks return, or all raise, after the same calls. -/
inductive Uniform {α : Type} (calls : List Call) :
    (Fin n → Except (CheckpointError × Certification) (α × Certification)) → Prop where
  | returned (a : Fin n → α) (ws : Fin n → Certification) (h : ∀ i, (ws i).calls = calls) :
      Uniform calls fun i => .ok (a i, ws i)
  | raised (e : Fin n → CheckpointError) (ws : Fin n → Certification)
      (h : ∀ i, (ws i).calls = calls) : Uniform calls fun i => .error (e i, ws i)

theorem jointly_observeDurable {ws : Fin n → Certification} (hws : Certifying config ws)
    {base : List Call} (hbase : ∀ i, (ws i).calls = base) (step : Int)
    (results : Fin n → ReplayResult) :
    ∃ event ws' tail, Jointly jobCombine (fun i => observeDurable config i step (results i)) ws
        (fun i => .ok (event, ws' i)) ∧ (∀ i, (ws' i).calls = base ++ tail) ∧
      (∀ call ∈ tail, call = .observe) ∧ Certifying config ws' := by
  cases h : config.durableCheckpoint with
  | none =>
      refine ⟨.none, ws, [], ?_, fun i => by rw [hbase i, List.append_nil],
        fun _ hcall => absurd hcall List.not_mem_nil, hws⟩
      simp only [observeDurable, h]
      exact Jointly.pure _
  | some durable =>
      obtain ⟨pending, epoch, hds⟩ := hws (by rw [h]; rfl)
      obtain ⟨as, hjoint, hobserved⟩ :=
        jointly_observe hds (fun i => some (results i)) step
      obtain ⟨-, haligned⟩ := hobserved.effect hds
      have hevent : ∃ event, ∀ i, as i = .ok (event, attributes (as i)) := by
        cases hobserved with
        | none => exact ⟨.none, fun _ => rfl⟩
        | rejected => exact ⟨.rejected, fun _ => rfl⟩
        | progress => exact ⟨.progress, fun _ => rfl⟩
        | committed => exact ⟨.committed, fun _ => rfl⟩
      obtain ⟨event, hevent⟩ := hevent
      have hobserve := jointly_onDurable (fun i => noted .observe (ws i)) hjoint
      refine ⟨event, fun i => setDurable (attributes (as i)) (noted .observe (ws i)), [.observe],
        ?_, fun i => by rw [← hbase i]; rfl, fun _ hcall => List.mem_singleton.mp hcall,
        fun _ => haligned⟩
      simp only [observeDurable, h]
      refine (jointly_note _ ws).bind ?_
      have hends : (fun i => zoomed setDurable (noted .observe (ws i)) (as i)) =
          fun i => .ok (event, setDurable (attributes (as i)) (noted .observe (ws i))) := by
        funext i
        rw [hevent i]
        rfl
      rw [← hends]
      exact hobserve

omit [NeZero n] in
/-- A candidate is pending on all ranks or on none. -/
theorem Certifying.hasPending {ws : Fin n → Certification} (hws : Certifying config ws) :
    ∃ b, ∀ i, hasPending config (ws i) = b := by
  cases h : config.durableCheckpoint with
  | none => exact ⟨false, fun i => by rw [Integrations.hasPending, h]; rfl⟩
  | some durable =>
      obtain ⟨pending, epoch, hds⟩ := hws (by rw [h]; rfl)
      refine ⟨pending.isSome, fun i => ?_⟩
      rw [Integrations.hasPending, h, ← hds.pending i, Option.isSome_map]
      rfl

theorem jointly_observePending {ws : Fin n → Certification} (hws : Certifying config ws)
    {base : List Call} (hbase : ∀ i, (ws i).calls = base) (step : Int)
    (results : Fin n → ReplayResult) :
    ∃ event ws' tail, Jointly jobCombine (fun i => observePending config i step (results i)) ws
        (fun i => .ok (event, ws' i)) ∧ (∀ i, (ws' i).calls = base ++ tail) ∧
      (∀ call ∈ tail, call = .observe) ∧ Certifying config ws' := by
  obtain ⟨b, hb⟩ := hws.hasPending
  cases b with
  | false =>
      refine ⟨.none, ws, [], Jointly.self.bind ?_, fun i => by rw [hbase i, List.append_nil],
        fun _ hcall => absurd hcall List.not_mem_nil, hws⟩
      simp only [hb, Bool.false_eq_true, if_false]
      exact Jointly.pure _
  | true =>
      obtain ⟨event, ws', tail, hjoint, hrest⟩ := jointly_observeDurable hws hbase step results
      refine ⟨event, ws', tail, Jointly.self.bind ?_, hrest⟩
      simp only [hb, if_true]
      exact hjoint

/-- The calls of an attempt to start a candidate. -/
def starts : Call → Prop
  | .beginCandidate | .observe | .clearCandidate => True
  | _ => False

theorem jointly_startCandidate {durable : DurableConfig n}
    (h : config.durableCheckpoint = some durable) {ws : Fin n → Certification}
    (hws : Certifying config ws) {base : List Call} (hbase : ∀ i, (ws i).calls = base)
    (step : Int) (inputs : Fin n → CertificationInputs) {results : Fin n → ReplayResult}
    {dense : Bool} (hdense : ∀ i, (results i).denseReplay = dense) :
    ∃ as tail, Jointly jobCombine
        (fun i => startCandidate config i step (inputs i) durable (results i)) ws as ∧
      Uniform (base ++ tail) as ∧ ∀ call ∈ tail, starts call := by
  obtain ⟨pending, epoch, hds⟩ := hws (by rw [h]; rfl)
  obtain ⟨as, hjoint, hbegan⟩ := jointly_beginCandidate hds step
    (fun i => (inputs i).firstShapeId) fun i => (inputs i).saveCandidate
  obtain ⟨-, haligned⟩ := hbegan.effect hds
  have hbegin := jointly_onDurable (fun i => noted .beginCandidate (ws i)) hjoint
  have hcalls : ∀ (ds : Fin n → Durable) i,
      (setDurable (ds i) (noted .beginCandidate (ws i))).calls = base ++ [.beginCandidate] := by
    intro ds i
    rw [← hbase i]
    rfl
  have hstarts : ∀ call ∈ [Call.beginCandidate], starts call := by
    intro call hcall
    rw [List.mem_singleton.mp hcall]
    trivial
  rcases hbegan.ends with ⟨e, ds', rfl⟩ | ⟨record, ds', rfl⟩
  · exact ⟨_, _, (jointly_note _ ws).bind hbegin.bind_error, .raised e _ (hcalls ds'), hstarts⟩
  · cases dense with
    | false =>
        refine ⟨_, _, (jointly_note _ ws).bind (hbegin.bind ?_),
          .returned (fun _ => ()) _ (hcalls ds'), hstarts⟩
        simp only [hdense, Bool.false_eq_true, if_false]
        exact Jointly.pure _
    | true =>
        have hds' : Certifying config fun i => setDurable (ds' i) (noted .beginCandidate (ws i)) :=
          fun _ => haligned
        obtain ⟨event, ws', tail, hobserve, hcalls', htail, -⟩ :=
          jointly_observeDurable hds' (hcalls ds') step results
        have htail' : ∀ call ∈ Call.beginCandidate :: tail, starts call := by
          intro call hcall
          rcases List.mem_cons.mp hcall with rfl | hcall
          · trivial
          · rw [htail call hcall]
            trivial
        have hcalls'' : ∀ i, (ws' i).calls = base ++ (.beginCandidate :: tail) := by
          intro i
          rw [hcalls' i, List.append_assoc]
          rfl
        by_cases hevent : event = .committed
        · refine ⟨_, _, (jointly_note _ ws).bind (hbegin.bind ?_),
            .returned (fun _ => ()) _ hcalls'', htail'⟩
          simp only [hdense, if_true]
          refine hobserve.bind ?_
          simp only [hevent, ne_eq, not_true, if_false]
          exact Jointly.pure _
        · refine ⟨_, _, (jointly_note _ ws).bind (hbegin.bind ?_),
            .raised (fun _ => notCommitted) _ hcalls'', htail'⟩
          simp only [hdense, if_true]
          refine hobserve.bind ?_
          simp only [ne_eq, hevent, not_false_iff, if_true]
          exact Jointly.raise _

variable (config) in
/-- A rank after the `except`. -/
def managerCleared : Certification → Certification :=
  managed config .clearCandidate (·.clearCandidate)

theorem jointly_clearAndRaise (e : Fin n → CheckpointError) (ws : Fin n → Certification) :
    Jointly jobCombine (fun i => clearAndRaise config (e i)) ws
      fun i => .error (e i, managerCleared config (ws i)) := by
  cases h : config.checkpointManager with
  | true =>
      simp only [clearAndRaise, managerCleared, managed, h, if_true]
      exact (jointly_note _ ws).bind ((jointly_onStatus _ _).bind (Jointly.raise _))
  | false =>
      simp only [clearAndRaise, managerCleared, managed, h, Bool.false_eq_true, if_false]
      exact Jointly.raise _

theorem jointly_startDurable {ws : Fin n → Certification} (hws : Certifying config ws)
    {base : List Call} (hbase : ∀ i, (ws i).calls = base) (step : Int)
    (inputs : Fin n → CertificationInputs) (force : Bool) {results : Fin n → ReplayResult}
    {dense : Bool} (hdense : ∀ i, (results i).denseReplay = dense) :
    ∃ as tail, Jointly jobCombine
        (fun i => startDurable config i step (inputs i) force (results i)) ws as ∧
      Uniform (base ++ tail) as ∧ ∀ call ∈ tail, starts call := by
  have hnothing : ∀ i, (ws i).calls = base ++ [] := fun i => by rw [hbase i, List.append_nil]
  have hnone : ∀ call ∈ ([] : List Call), starts call := fun _ hcall =>
    absurd hcall List.not_mem_nil
  cases h : config.durableCheckpoint with
  | none =>
      refine ⟨_, _, ?_, .returned (fun _ => ()) _ hnothing, hnone⟩
      simp only [startDurable, h]
      exact Jointly.pure _
  | some durable =>
      cases hdue : durableDue config step force with
      | false =>
          refine ⟨_, _, ?_, .returned (fun _ => ()) _ hnothing, hnone⟩
          simp only [startDurable, h, hdue, Bool.false_eq_true, if_false]
          exact Jointly.pure _
      | true =>
          cases hharness : config.replayHarness with
          | false =>
              refine ⟨_, _, ?_, .raised (fun _ => noHarness) _ hnothing, hnone⟩
              simp only [startDurable, h, hdue, hharness, if_true, Bool.false_eq_true, if_false]
              exact Jointly.raise _
          | true =>
              obtain ⟨as, tail, hstart, huniform, htail⟩ :=
                jointly_startCandidate h hws hbase step inputs hdense
              simp only [startDurable, h, hdue, hharness, if_true]
              cases huniform with
              | returned a ws' hcalls =>
                  exact ⟨_, tail, hstart.tryCatch_ok, .returned a ws' hcalls, htail⟩
              | raised e ws' hcalls =>
                  refine ⟨_, tail ++ managerCalls config .clearCandidate,
                    hstart.tryCatch (jointly_clearAndRaise e ws'), .raised e _ fun i => ?_, ?_⟩
                  · rw [managerCleared, managed_calls, hcalls i, List.append_assoc]
                  · intro call hcall
                    rcases List.mem_append.mp hcall with hcall | hcall
                    · exact htail call hcall
                    · rw [eq_of_mem_managerCalls config hcall]
                      trivial

/-! ## A rank that is left alone

When a rank has raised, the others go on until they call a collective
operation; in a job of one rank there are no others. -/

section Alone

omit [NeZero n]

variable (hn : n ≠ 1) (rank : Fin n) (step : Int)
include hn

theorem severed_beginCandidate (durable : DurableConfig n) (firstShapeId : String)
    (outcome : SaveOutcome) (d : Durable) :
    ∃ e, severed (beginCandidate durable rank step firstShapeId outcome d) =
      some (.error (e, d)) := by
  cases h : d.pending.isSome with
  | true =>
      refine ⟨alreadyPending, ?_⟩
      show severed ((if d.pending.isSome then _ else _ : DurableM _) d) = _
      rw [h, if_pos rfl]
      rfl
  | false =>
      refine ⟨rankLeft, ?_⟩
      show severed ((if d.pending.isSome then _ else _ : DurableM _) d) = _
      rw [h, if_neg Bool.false_ne_true, gatherStarts, if_neg hn]
      rfl

theorem severed_observe (durable : DurableConfig n) (result : Option ReplayResult) {d : Durable}
    (hpending : d.pending.isSome = true) :
    severed (observe durable rank result step d) = some (.error (rankLeft, d)) := by
  obtain ⟨candidate, hcandidate⟩ := Option.isSome_iff_exists.mp hpending
  show severed ((match d.pending with | none => _ | some candidate => _ : DurableM _) d) = _
  rw [hcandidate]
  simp only [gatherObservations, if_neg hn]
  rfl

theorem severed_jobMinStep {ω α : Type} (localStep : Int) (f : Int → JobM ω α) (w : ω) :
    severed ((jobMinStep n localStep >>= f) w) = some (.error (rankLeft, w)) := by
  rw [jobMinStep, if_neg hn]
  rfl

theorem severed_persistBoundary (inputs : CertificationInputs) (verified : Bool)
    (self : Certification) :
    ∃ e, severed (persistBoundary step inputs n verified self) =
      some (.error (e, noted (.persistBoundary verified) self)) := by
  cases h : inputs.boundaryStep with
  | ok localStep =>
      refine ⟨rankLeft, ?_⟩
      rw [persistBoundary, h]
      show severed ((jobMinStep n localStep >>= fun least =>
        if least ≠ step then Meth.raise (boundaryIncomplete step)
        else writeBoundary step inputs verified) (noted (.persistBoundary verified) self)) = _
      exact severed_jobMinStep hn localStep _ _
  | error e =>
      refine ⟨e, ?_⟩
      rw [persistBoundary, h]
      rfl

variable (config) in
/-- The calls of a rank that starts a candidate alone. -/
def loneStart (force : Bool) : List Call :=
  if config.durableCheckpoint.isSome && durableDue config step force && config.replayHarness then
    .beginCandidate :: managerCalls config .clearCandidate
  else []

omit hn in
theorem severed_clearAndRaise (e : CheckpointError) (self : Certification) :
    severed (clearAndRaise config e self) = some (.error (e, managerCleared config self)) := by
  rw [clearAndRaise, managerCleared, managed]
  split <;> rfl

variable (config) in
theorem severed_startCandidate (durable : DurableConfig n) (inputs : CertificationInputs)
    (result : ReplayResult) (self : Certification) :
    ∃ e, severed (startCandidate config rank step inputs durable result self) =
      some (.error (e, noted .beginCandidate self)) := by
  obtain ⟨e, hbegin⟩ := severed_beginCandidate hn rank step durable inputs.firstShapeId
    inputs.saveCandidate self.durable
  have hdurable : severed (onDurable (beginCandidate durable rank step inputs.firstShapeId
      inputs.saveCandidate) (noted .beginCandidate self)) =
        some (.error (e, noted .beginCandidate self)) := by
    rw [onDurable, severed_zoom]
    exact congrArg (Option.map _) hbegin
  refine ⟨e, ?_⟩
  show severed ((onDurable (beginCandidate durable rank step inputs.firstShapeId
    inputs.saveCandidate) >>= fun _ =>
      if result.denseReplay then commitDense config rank step result else pure ())
        (noted .beginCandidate self)) = _
  rw [severed_meth_bind, hdurable]

theorem severed_startDurable (inputs : CertificationInputs) (force : Bool) (result : ReplayResult)
    (self : Certification) :
    ∃ b, severed (startDurable config rank step inputs force result self) = some b ∧
      (attributes b).calls = self.calls ++ loneStart config step force := by
  cases h : config.durableCheckpoint with
  | none =>
      refine ⟨.ok ((), self), ?_, ?_⟩
      · simp only [startDurable, h]
        rfl
      · simp [loneStart, h, attributes]
  | some durable =>
      cases hdue : durableDue config step force with
      | false =>
          refine ⟨.ok ((), self), ?_, ?_⟩
          · simp only [startDurable, h, hdue, Bool.false_eq_true, if_false]
            rfl
          · simp [loneStart, hdue, attributes]
      | true =>
          cases hharness : config.replayHarness with
          | false =>
              refine ⟨.error (noHarness, self), ?_, ?_⟩
              · simp only [startDurable, h, hdue, hharness, if_true, Bool.false_eq_true, if_false]
                rfl
              · simp [loneStart, hharness, attributes]
          | true =>
              obtain ⟨e, hstart⟩ :=
                severed_startCandidate config hn rank step durable inputs result self
              refine ⟨.error (e, managerCleared config (noted .beginCandidate self)), ?_, ?_⟩
              · simp only [startDurable, h, hdue, hharness, if_true]
                rw [Meth.tryCatch, severed_tryCatch, hstart]
                exact severed_clearAndRaise e _
              · simp only [attributes, managerCleared, managed_calls, loneStart, h, hdue, hharness,
                  Option.isSome_some, Bool.and_self, if_true, noted, List.append_assoc,
                  List.singleton_append]

/-- The calls of a rank that certifies alone, after its capture. -/
def loneCalls (dense complete pending : Bool) : List Call :=
  if pending then [.observe]
  else if complete then [.persistBoundary dense]
  else []

theorem severed_certify (inputs : CertificationInputs) {force : Bool}
    (hsaves : saves config step force = true) (result : ReplayResult)
    (consensus : ReplayConsensus) (self : Certification) :
    ∃ b, severed (certify config rank step inputs force result consensus self) = some b ∧
      (attributes b).calls = self.calls ++
        loneCalls result.denseReplay consensus.scheduledCycleComplete (hasPending config self) := by
  cases hpending : hasPending config self with
  | true =>
      have hobserve : severed (observePending config rank step result self) =
          some (.error (rankLeft, noted .observe self)) := by
        rw [hasPending, Bool.and_eq_true] at hpending
        obtain ⟨hsome, hcandidate⟩ := hpending
        obtain ⟨durable, hdurable⟩ := Option.isSome_iff_exists.mp hsome
        show severed ((if hasPending config self then observeDurable config rank step result
          else pure .none) self) = _
        rw [hasPending, hsome, hcandidate, Bool.and_self, if_pos rfl]
        simp only [observeDurable, hdurable]
        show severed (onDurable (observe durable rank (some result) step)
          (noted .observe self)) = _
        rw [onDurable, severed_zoom]
        exact congrArg (Option.map _)
          (severed_observe hn rank step durable (some result) hcandidate)
      refine ⟨.error (rankLeft, noted .observe self), ?_, rfl⟩
      rw [certify, severed_meth_bind, hobserve]
  | false =>
      have hobserve : observePending config rank step result self = .ret (.none, self) := by
        show (if hasPending config self then observeDurable config rank step result
          else pure .none : CertificationM DurableEvent) self = _
        rw [hpending, if_neg Bool.false_ne_true]
        rfl
      rw [certify, severed_meth_bind, hobserve]
      cases hcomplete : consensus.scheduledCycleComplete with
      | false =>
          refine ⟨.ok ((), self), rfl, ?_⟩
          simp [loneCalls, attributes]
      | true =>
          obtain ⟨e, hboundary⟩ := severed_persistBoundary hn step inputs result.denseReplay self
          refine ⟨.error (e, noted (.persistBoundary result.denseReplay) self), ?_, rfl⟩
          show severed ((if hasPending config self ∧ DurableEvent.none ≠ .committed then
            rejectCandidate config rank cycleEnded
            else acceptBoundary config rank step inputs force result) self) = _
          rw [hpending, if_neg (fun h => Bool.false_ne_true h.1), acceptBoundary, hsaves,
            if_pos rfl, severed_meth_bind, hboundary]

end Alone

/-! ## Local errors -/

theorem jointly_jobMinStep {ω : Type} (vs : Fin n → Int) (ws : Fin n → ω) :
    Jointly jobCombine (fun i => jobMinStep n (vs i)) ws fun i => .ok (least vs, ws i) := by
  by_cases h : n = 1
  · have hown : ∀ i, vs i = least vs := by
      subst h
      intro i
      obtain ⟨j, hj⟩ := exists_least vs
      rw [hj, Subsingleton.elim i j]
    simp only [jobMinStep, if_pos h, hown]
    exact Jointly.pure _
  · simp only [jobMinStep, if_neg h]
    exact (jointly_jobOp (.allReduce .min 1) (fun i => ![vs i]) ws).bind (Jointly.pure _)

/-- How local code ends. -/
def raised {α : Type} (outcome : Except CheckpointError α) (before : Certification)
    (after : Certification) : Except (CheckpointError × Certification) (α × Certification) :=
  match outcome with
  | .ok a => .ok (a, after)
  | .error e => .error (e, before)

omit [NeZero n] in
theorem exists_error_or_ok {α : Type} (outcomes : Fin n → Except CheckpointError α) :
    (∃ i e, outcomes i = .error e) ∨ ∃ vs : Fin n → α, ∀ i, outcomes i = .ok (vs i) := by
  by_cases h : ∃ i e, outcomes i = .error e
  · exact .inl h
  · have hok : ∀ i, ∃ v, outcomes i = .ok v := by
      intro i
      cases hi : outcomes i with
      | ok v => exact ⟨v, rfl⟩
      | error e => exact absurd ⟨i, e, hi⟩ h
    exact .inr (Classical.skolem.mp hok)

theorem raised_eq_ok {α : Type} {outcome : Except CheckpointError α}
    {before after w : Certification} {a : α} (h : raised outcome before after = .ok (a, w)) :
    outcome = .ok a ∧ w = after := by
  cases outcome with
  | ok a => cases h; exact ⟨rfl, rfl⟩
  | error e => cases h

theorem raised_eq_error {α : Type} {outcome : Except CheckpointError α}
    {before after : Certification} {x : CheckpointError × Certification}
    (h : raised outcome before after = .error x) : outcome = .error x.1 ∧ x.2 = before := by
  cases outcome with
  | ok a => cases h
  | error e => cases h; exact ⟨rfl, rfl⟩

/-- The outcome of code that returns nothing. -/
def outcomeOf : Option CheckpointError → Except CheckpointError Unit
  | none => .ok ()
  | some e => .error e

/-- A rank that has persisted a boundary. -/
def persisted (step : Int) (verified : Bool) (self : Certification) : Certification :=
  { noted (.persistBoundary verified) self with
    status := self.status.persistBoundary step verified }

theorem goes_returning {α : Type} (outcomes : Fin n → Except CheckpointError α)
    (ws : Fin n → Certification) :
    Goes jobCombine (fun i => returning (outcomes i) (ws i))
      fun i => raised (outcomes i) (ws i) (ws i) := by
  refine .done fun i => ?_
  cases outcomes i <;> rfl

theorem goes_raising (errors : Fin n → Option CheckpointError) (ws : Fin n → Certification) :
    Goes jobCombine (fun i => raising (errors i) (ws i))
      fun i => raised (outcomeOf (errors i)) (ws i) (ws i) := by
  refine .done fun i => ?_
  cases errors i <;> rfl

theorem goes_writeBoundary (step : Int) (inputs : Fin n → CertificationInputs) (verified : Bool)
    (ws : Fin n → Certification) :
    Goes jobCombine (fun i => writeBoundary step (inputs i) verified
        (noted (.persistBoundary verified) (ws i)))
      fun i => raised (outcomeOf (inputs i).boundaryError)
        (noted (.persistBoundary verified) (ws i)) (persisted step verified (ws i)) := by
  refine .done fun i => ?_
  rw [writeBoundary]
  cases (inputs i).boundaryError <;> rfl

/-- **How a boundary is persisted**: all ranks raise, or each one writes it. -/
theorem goes_persistBoundary (step : Int) (inputs : Fin n → CertificationInputs)
    (verified : Bool) (ws : Fin n → Certification) :
    (∃ e : Fin n → CheckpointError,
      Goes jobCombine (fun i => persistBoundary step (inputs i) n verified (ws i))
        fun i => .error (e i, noted (.persistBoundary verified) (ws i))) ∨
    Goes jobCombine (fun i => persistBoundary step (inputs i) n verified (ws i))
      fun i => raised (outcomeOf (inputs i).boundaryError)
        (noted (.persistBoundary verified) (ws i)) (persisted step verified (ws i)) := by
  have hnote := (jointly_note (.persistBoundary verified) ws).goes
  have hsteps := goes_returning (fun i => (inputs i).boundaryStep)
    fun i => noted (.persistBoundary verified) (ws i)
  rcases exists_error_or_ok fun i => (inputs i).boundaryStep with ⟨i, e, hi⟩ | ⟨steps, hall⟩
  · left
    let err (j : Fin n) : CheckpointError :=
      match (inputs j).boundaryStep with
      | .ok _ => rankLeft
      | .error e => e
    have hi' : raised (inputs i).boundaryStep (noted (.persistBoundary verified) (ws i))
        (noted (.persistBoundary verified) (ws i)) =
          .error (e, noted (.persistBoundary verified) (ws i)) := by
      rw [hi]
      rfl
    refine ⟨err, goes_bind_ok hnote (goes_bind_raised hsteps hi' (fun j s w hj => ?_)
      fun j x hj => ?_)⟩
    · obtain ⟨hs, rfl⟩ := raised_eq_ok hj
      have hn : n ≠ 1 := by
        rintro rfl
        rw [Subsingleton.elim i j, hs] at hi
        cases hi
      rw [show err j = rankLeft by simp only [err, hs]]
      exact severed_jobMinStep hn s _ _
    · obtain ⟨he, hx⟩ := raised_eq_error hj
      rw [show err j = x.1 by simp only [err, he], ← hx]
  · have hmin := (jointly_jobMinStep steps fun i => noted (.persistBoundary verified) (ws i)).goes
    simp only [hall] at hsteps
    by_cases hleast : least steps = step
    · right
      refine goes_bind_ok hnote ?_
      simp only [hall]
      refine goes_bind_ok hsteps (goes_bind_ok hmin ?_)
      simp only [hleast, ne_eq, not_true, if_false]
      exact goes_writeBoundary step inputs verified ws
    · left
      refine ⟨fun _ => boundaryIncomplete step, goes_bind_ok hnote ?_⟩
      simp only [hall]
      refine goes_bind_ok hsteps (goes_bind_ok hmin ?_)
      simp only [ne_eq, hleast, not_false_iff, if_true]
      exact .done fun _ => rfl

end LmResiliency.Integrations
