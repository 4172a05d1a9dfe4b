/-
# DurableJob — the manifest store over a whole run

A run of the durable checkpoint coordinators of a job: the job is started,
its ranks call the operations together, and at any write of any operation it
may die and be started again.  What the store holds at any time is a fold of
all writes so far, so a state of the run is the list of these writes, with
the attributes of the coordinators while they are running.
-/
import LmResiliency.Checkpointing.DurableGroup

namespace LmResiliency.Checkpointing

open Lockstep Detection

variable {n : Nat}

/-- A call on all ranks. -/
inductive Operation (n : Nat) where
  | begin (step : Int) (firstShapeIds : Fin n → String) (outcomes : Fin n → SaveOutcome)
  | observe (results : Fin n → Option ReplayResult) (step : Int)
  | reject (reason : String)

/-- The attributes of a rank after a method, whether it has raised or not. -/
def attributes {ω α : Type} : Except (CheckpointError × ω) (α × ω) → ω
  | .ok x => x.2
  | .error x => x.2

/-- The coordinators after a call on all ranks. -/
inductive Called [NeZero n] (config : DurableConfig n) (ds : Fin n → Durable) :
    Operation n → (Fin n → Durable) → Prop where
  | begin {step : Int} {firstShapeIds : Fin n → String} {outcomes : Fin n → SaveOutcome}
      {as : Fin n → Except (CheckpointError × Durable) (DurableCheckpointRecord × Durable)}
      (h : Jointly jobCombine
        (fun i => beginCandidate config i step (firstShapeIds i) (outcomes i)) ds as) :
      Called config ds (.begin step firstShapeIds outcomes) fun i => attributes (as i)
  | observe {results : Fin n → Option ReplayResult} {step : Int}
      {as : Fin n → Except (CheckpointError × Durable) (DurableEvent × Durable)}
      (h : Jointly jobCombine (fun i => observe config i (results i) step) ds as) :
      Called config ds (.observe results step) fun i => attributes (as i)
  | reject {reason : String} {as : Fin n → Except (CheckpointError × Durable) (Unit × Durable)}
      (h : Jointly jobCombine (fun i => reject config i reason) ds as) :
      Called config ds (.reject reason) fun i => attributes (as i)

/-- The coordinators of a job that is running. -/
structure Running (n : Nat) where
  config : DurableConfig n
  ranks : Fin n → Durable
  /-- The steps of the calls of `begin_candidate` that have failed after their
  first write, since a candidate was last begun or the coordinators constructed. -/
  failedSteps : List Int

/-- The failed steps after a call that has left the writer rank as `d`. -/
def failedAfter (op : Operation n) (d : Durable) (failedSteps : List Int) : List Int :=
  match op with
  | .begin step _ _ =>
      if d.pending.isSome then []
      else if d.written = [] then failedSteps
      else step :: failedSteps
  | _ => failedSteps

namespace Running

/-- The coordinator of the writer rank. -/
def writer (run : Running n) : Durable := run.ranks run.config.writerRank

/-- The job after a call. -/
def called (run : Running n) (op : Operation n) (ds : Fin n → Durable) : Running n where
  config := run.config
  ranks i := { ds i with written := [] }
  failedSteps := failedAfter op (ds run.config.writerRank) run.failedSteps

end Running

/-- A state of the run. -/
structure Job (n : Nat) where
  /-- All writes to the store so far. -/
  written : List StoreWrite
  /-- The configurations of the coordinators that were started. -/
  started : List (DurableConfig n)
  running : Option (Running n)

namespace Job

def initial : Job n := ⟨[], [], none⟩

/-- The folder. -/
def store (job : Job n) : ManifestStore := ManifestStore.empty.after job.written

end Job

/-- One step of a run in which the calls are as `allowed`. -/
inductive JobStep [NeZero n] (allowed : Running n → Operation n → Prop) : Job n → Job n → Prop where
  /-- The coordinators are constructed. -/
  | start (job : Job n) (config : DurableConfig n) :
      JobStep allowed job
        { written := job.written ++ recoverStore job.store
          started := config :: job.started
          running := some ⟨config,
            fun _ => constructed (job.store.after (recoverStore job.store)), []⟩ }
  /-- The job dies in the constructor. -/
  | startCrash (job : Job n) (config : DurableConfig n) (ws : List StoreWrite)
      (hws : ws <+: recoverStore job.store) :
      JobStep allowed job
        { written := job.written ++ ws, started := config :: job.started, running := none }
  | call (job : Job n) (run : Running n) (op : Operation n) (ds : Fin n → Durable)
      (hrun : job.running = some run) (hallowed : allowed run op)
      (h : Called run.config run.ranks op ds) :
      JobStep allowed job
        { job with
          written := job.written ++ (ds run.config.writerRank).written
          running := some (run.called op ds) }
  /-- The job dies in a call, or between two calls. -/
  | callCrash (job : Job n) (run : Running n) (op : Operation n) (ds : Fin n → Durable)
      (ws : List StoreWrite) (hrun : job.running = some run) (hallowed : allowed run op)
      (h : Called run.config run.ranks op ds) (hws : ws <+: (ds run.config.writerRank).written) :
      JobStep allowed job { job with written := job.written ++ ws, running := none }

/-- The states that a run reaches. -/
inductive JobRun [NeZero n] (allowed : Running n → Operation n → Prop) : Job n → Prop where
  | initial : JobRun allowed Job.initial
  | step {job job' : Job n} (h : JobRun allowed job) (hstep : JobStep allowed job job') :
      JobRun allowed job'

/-! ## What one call does

One lemma for each operation says everything that a call can do: to the
writer rank, whose writes are those of the call, and to the others, which
stay aligned with it. -/

/-- The effect of a call on the coordinator of the writer rank. -/
inductive Effect (config : DurableConfig n) (d : Durable) : Operation n → Durable → Prop where
  | quiet (op : Operation n) : Effect config d op d
  | failed {step : Int} {firstShapeIds : Fin n → String} {outcomes : Fin n → SaveOutcome}
      (record : DurableCheckpointRecord) (expected : List String) (reason : String)
      (hpending : d.pending = none) (first : String)
      (hexpected : rotateShapeIds config.shapeIds first = some expected)
      (hrecord : record = newRecord config step d.nextEpoch expected) :
      Effect config d (.begin step firstShapeIds outcomes)
        { d with written := d.written ++ (ManifestStore.writePending record ++
            ManifestStore.reject (rejectedRecord record reason)) }
  | begun {step : Int} {firstShapeIds : Fin n → String} {outcomes : Fin n → SaveOutcome}
      (record candidate : DurableCheckpointRecord) (expected : List String)
      (hpending : d.pending = none) (first : String)
      (hexpected : rotateShapeIds config.shapeIds first = some expected)
      (hrecord : record = newRecord config step d.nextEpoch expected)
      (hcandidate : candidate = candidateRecord config config.writerRank record
        (outcomes config.writerRank)) :
      Effect config d (.begin step firstShapeIds outcomes)
        { d with
          written := d.written ++ (ManifestStore.writePending record ++
            ManifestStore.writePending candidate)
          pending := some candidate
          nextEpoch := d.nextEpoch + 1 }
  | rejected (op : Operation n) (hop : ∀ step firsts outcomes, op ≠ .begin step firsts outcomes)
      (candidate : DurableCheckpointRecord) (reason : String)
      (hpending : d.pending = some candidate) :
      Effect config d op
        { d with
          written := d.written ++ ManifestStore.reject (rejectedRecord candidate reason)
          pending := none }
  | progress {results : Fin n → Option ReplayResult} {step : Int}
      (candidate : DurableCheckpointRecord) (checked : List String)
      (hpending : d.pending = some candidate) :
      Effect config d (.observe results step)
        { d with
          written := d.written ++ ManifestStore.writePending
            (checkedCandidate candidate checked step)
          pending := some (checkedCandidate candidate checked step) }
  | committed {results : Fin n → Option ReplayResult} {step : Int}
      (candidate : DurableCheckpointRecord) (checked : List String)
      (hpending : d.pending = some candidate)
      (hcomplete : (checkedCandidate candidate checked step).complete = true) :
      Effect config d (.observe results step)
        { d with
          written := d.written ++ ManifestStore.commit
            (committedRecord (checkedCandidate candidate checked step) step)
          latest := some (committedRecord (checkedCandidate candidate checked step) step)
          pending := none }

theorem Durable.wrote_writer {config : DurableConfig n} (writes : List StoreWrite) (d : Durable) :
    d.wrote config config.writerRank writes = { d with written := d.written ++ writes } := by
  rw [wrote, DurableConfig.isWriter, if_pos (decide_eq_true rfl)]

theorem Began.effect {config : DurableConfig n} {ds : Fin n → Durable}
    {pending : Option DurableCheckpointRecord} {epoch : Nat} (hds : Aligned ds pending epoch)
    {step : Int} {firstShapeIds : Fin n → String} {outcomes : Fin n → SaveOutcome}
    {as : Fin n → Except (CheckpointError × Durable) (DurableCheckpointRecord × Durable)}
    (h : Began config ds step firstShapeIds outcomes as) :
    Effect config (ds config.writerRank) (.begin step firstShapeIds outcomes)
        (attributes (as config.writerRank)) ∧
      ∃ pending' epoch', Aligned (fun i => attributes (as i)) pending' epoch' := by
  cases h with
  | refused e => exact ⟨.quiet _, _, _, hds⟩
  | failed first expected record reason e hpending hfirst hexpected hrecord hfailed =>
      refine ⟨?_, pending, epoch, fun i => ?_, fun i => ?_⟩
      · simp only [attributes, Durable.wrote_writer]
        exact .failed record expected reason (hpending _) first hexpected (hrecord _)
      · simp only [attributes, Durable.wrote_pending]
        exact hds.pending i
      · simp only [attributes, Durable.wrote_nextEpoch]
        exact hds.epoch i
  | begun first expected record hpending hfirst hexpected hrecord =>
      have hepoch : ∀ i, record.validationEpoch = (ds i).nextEpoch := fun i => by
        rw [hrecord i]
        rfl
      refine ⟨?_, some { record with status := .candidate, artifacts := [] },
        record.validationEpoch + 1, fun i => rfl, fun i => rfl⟩
      simp only [attributes, Durable.wrote_writer, hepoch config.writerRank]
      exact .begun record _ expected (hpending _) first hexpected (hrecord _) rfl

theorem Observed.effect {config : DurableConfig n} {ds : Fin n → Durable}
    {pending : Option DurableCheckpointRecord} {epoch : Nat} (hds : Aligned ds pending epoch)
    {results : Fin n → Option ReplayResult} {step : Int}
    {as : Fin n → Except (CheckpointError × Durable) (DurableEvent × Durable)}
    (h : Observed config ds results step as) :
    Effect config (ds config.writerRank) (.observe results step)
        (attributes (as config.writerRank)) ∧
      ∃ pending' epoch', Aligned (fun i => attributes (as i)) pending' epoch' := by
  have hshared : ∀ {candidates : Fin n → DurableCheckpointRecord},
      (∀ i, (ds i).pending = some (candidates i)) → ∀ i,
        some (candidates i).shared = pending := by
    intro candidates hpending i
    rw [← hds.pending i, hpending i]
    rfl
  cases h with
  | none hpending => exact ⟨.quiet _, _, _, hds⟩
  | rejected candidates reason hpending hno =>
      refine ⟨?_, Option.none, epoch, fun i => rfl, fun i => ?_⟩
      · simp only [attributes, Durable.rejecting, Durable.wrote_writer]
        exact .rejected _ (fun _ _ _ h => by cases h) _ reason (hpending _)
      · simp only [attributes, Durable.rejecting, Durable.wrote_nextEpoch]
        exact hds.epoch i
  | progress candidates checked hpending hcounts hcomplete =>
      refine ⟨?_, pending.map fun c => checkedCandidate c checked step, epoch,
        fun i => ?_, fun i => ?_⟩
      · simp only [attributes, Durable.wrote_writer]
        exact .progress _ checked (hpending _)
      · rw [← hshared hpending i]
        rfl
      · simp only [attributes, Durable.wrote_nextEpoch]
        exact hds.epoch i
  | committed candidates checked hpending hcounts hcomplete =>
      refine ⟨?_, Option.none, epoch, fun i => rfl, fun i => ?_⟩
      · simp only [attributes, Durable.wrote_writer]
        exact .committed _ checked (hpending _) (hcomplete _)
      · simp only [attributes, Durable.wrote_nextEpoch]
        exact hds.epoch i

/-- **What a call does** to the writer rank, and that the ranks stay aligned. -/
theorem Called.effect [NeZero n] {config : DurableConfig n} {ds ds' : Fin n → Durable}
    {pending : Option DurableCheckpointRecord} {epoch : Nat} (hds : Aligned ds pending epoch)
    {op : Operation n} (h : Called config ds op ds') :
    Effect config (ds config.writerRank) op (ds' config.writerRank) ∧
      ∃ pending' epoch', Aligned ds' pending' epoch' := by
  have hne : Nonempty (Fin n) := ⟨0⟩
  cases h with
  | begin h =>
      obtain ⟨as, hjoint, hbegan⟩ := jointly_beginCandidate hds _ _ _
      rw [h.unique hjoint]
      exact hbegan.effect hds
  | observe h =>
      obtain ⟨as, hjoint, hobserved⟩ := jointly_observe hds _ _
      rw [h.unique hjoint]
      exact hobserved.effect hds
  | @reject reason as h =>
      cases pending with
      | none =>
          rw [h.unique (jointly_reject_none hds.none reason)]
          exact ⟨.quiet _, _, _, hds⟩
      | some candidate =>
          obtain ⟨candidates, hpending, -⟩ := hds.candidates
          rw [h.unique (jointly_reject hpending reason)]
          refine ⟨?_, none, epoch, fun i => rfl, fun i => ?_⟩
          · simp only [attributes, Durable.rejecting, Durable.wrote_writer]
            exact .rejected _ (fun _ _ _ h => by cases h) _ reason (hpending _)
          · simp only [attributes, Durable.rejecting, Durable.wrote_nextEpoch]
            exact hds.epoch i

end LmResiliency.Checkpointing
