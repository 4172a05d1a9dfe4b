/-
# CrashConsistency — the manifest store of every run

What the invariant of the durable checkpoint coordinators says about whole
runs.  The latest pointer names a certified record after a crash at any
write, it is only moved by a commit, and a restart leaves no pending
candidate.  An identity is new exactly when no `begin_candidate` has failed
since the last candidate or restart: the epoch is advanced only when
`begin_candidate` succeeds, although the records of failed candidates count
for the epochs that a restart derives.

The main results are `manifest_consistent` and `candidate_identity_fresh`.  A
crash falls between two writes: a single write is taken to be atomic, as
`os.replace` makes it.
-/
import LmResiliency.Checkpointing.DurableSafety

namespace LmResiliency.Checkpointing

open Lockstep Detection

variable {n : Nat} [NeZero n]

/-- A call that does not begin a candidate at a step at which one has failed
since a candidate was last begun or the coordinators constructed. -/
def NotRetried (run : Running n) : Operation n → Prop
  | .begin step _ _ => step ∉ run.failedSteps
  | _ => True

/-- A step in which `observe` commits a candidate on the writer rank. -/
def Commits (job job' : Job n) : Prop :=
  ∃ (run : Running n) (results : Fin n → Option ReplayResult) (step : Int) (as : _) (d : Durable),
    job.running = some run ∧
    Jointly jobCombine (fun i => observe run.config i (results i) step) run.ranks as ∧
    as run.config.writerRank = .ok (.committed, d) ∧ d.latest = job'.store.latest

/-! ## The latest pointer -/

omit [NeZero n] in
theorem Job.store_append {job : Job n} (ws : List StoreWrite) :
    ManifestStore.empty.after (job.written ++ ws) = job.store.after ws :=
  ManifestStore.after_append _ _ _

omit [NeZero n] in
theorem latest_notMem_recoverStore (store : ManifestStore) (r : DurableCheckpointRecord) :
    StoreWrite.latest r ∉ recoverStore store := by
  rw [recoverStore]
  split
  · exact List.not_mem_nil
  · split
    · simp [ManifestStore.reject]
    · split
      · simp [ManifestStore.clearPending]
      · simp [ManifestStore.reject]

omit [NeZero n] in
/-- Only an observation writes the latest pointer. -/
theorem Effect.latest_written {config : DurableConfig n} {d d' : Durable} {op : Operation n}
    (h : Effect config d op d') (hidle : d.written = []) {r : DurableCheckpointRecord}
    (hr : .latest r ∈ d'.written) :
    ∃ results step, op = .observe results step ∧ d'.latest = some r := by
  cases h with
  | quiet op => simp [hidle] at hr
  | failed => simp [hidle, ManifestStore.writePending, ManifestStore.reject] at hr
  | begun => simp [hidle, ManifestStore.writePending] at hr
  | rejected op hop => simp [hidle, ManifestStore.reject] at hr
  | progress => simp [hidle, ManifestStore.writePending] at hr
  | committed candidate checked hpending hcomplete =>
      refine ⟨_, _, rfl, ?_⟩
      simp only [hidle, List.nil_append, ManifestStore.commit, List.mem_cons, List.not_mem_nil,
        or_false, reduceCtorEq, StoreWrite.latest.injEq, false_or] at hr
      rw [hr]

omit [NeZero n] in
/-- An observation that changes the latest pointer has committed. -/
theorem Observed.committed_of_latest {config : DurableConfig n} {ds : Fin n → Durable}
    {results : Fin n → Option ReplayResult} {step : Int}
    {as : Fin n → Except (CheckpointError × Durable) (DurableEvent × Durable)}
    (h : Observed config ds results step as) (hidle : ∀ i, (ds i).written = [])
    {r : DurableCheckpointRecord}
    (hr : .latest r ∈ (attributes (as config.writerRank)).written) :
    as config.writerRank = .ok (.committed, attributes (as config.writerRank)) := by
  cases h with
  | none hpending => simp [attributes, hidle] at hr
  | rejected candidates reason hpending hno =>
      simp [attributes, Durable.rejecting, hidle, ManifestStore.reject] at hr
  | progress candidates checked hpending hcounts hcomplete =>
      simp [attributes, hidle, ManifestStore.writePending] at hr
  | committed candidates checked hpending hcounts hcomplete => rfl

/-- Only `observe` writes the latest pointer, and then it has committed. -/
theorem Called.latest_written {run : Running n} {started : List (DurableConfig n)}
    {written : List StoreWrite} {fresh : Prop} (h : RunInv fresh started written run)
    {op : Operation n} {ds : Fin n → Durable} (hcalled : Called run.config run.ranks op ds)
    {r : DurableCheckpointRecord} (hr : .latest r ∈ (ds run.config.writerRank).written) :
    ∃ (results : Fin n → Option ReplayResult) (step : Int) (as : _) (d : Durable),
      Jointly jobCombine (fun i => Checkpointing.observe run.config i (results i) step)
        run.ranks as ∧
      as run.config.writerRank = .ok (.committed, d) ∧ d.latest = some r := by
  have hne : Nonempty (Fin n) := ⟨0⟩
  obtain ⟨pending, epoch, hds⟩ := h.aligned
  obtain ⟨heffect, -⟩ := hcalled.effect hds
  obtain ⟨results, step, rfl, hlatest⟩ := heffect.latest_written (h.idle _) hr
  cases hcalled with
  | observe hjoint =>
      obtain ⟨as, hjoint', hobserved⟩ := jointly_observe hds results step
      obtain rfl := hjoint.unique hjoint'
      exact ⟨results, step, _, _, hjoint, hobserved.committed_of_latest h.idle hr, hlatest⟩

/-- The latest pointer is changed only by a commit. -/
theorem JobStep.commits {allowed : Running n → Operation n → Prop} {fresh : Prop}
    {job job' : Job n} (h : JobInv fresh job) (hstep : JobStep allowed job job')
    (hchanged : job'.store.latest ≠ job.store.latest) : Commits job job' := by
  have hcall : ∀ {run op ds ws}, job.running = some run → Called run.config run.ranks op ds →
      ws <+: (ds run.config.writerRank).written → job'.written = job.written ++ ws →
      Commits job job' := by
    intro run op ds ws hrun hcalled hws hwritten
    have hstore : job'.store = job.store.after ws := by
      rw [Job.store, hwritten, Job.store_append]
    rcases ManifestStore.latest_after ws job.store with hsame | ⟨r, hr, hlast⟩
    · exact absurd (hstore ▸ hsame) hchanged
    · obtain ⟨results, step, as, d, hjoint, hcommitted, hd⟩ :=
        hcalled.latest_written (h.running run hrun) (hws.subset hr)
      exact ⟨run, results, step, as, d, hrun, hjoint, hcommitted, by rw [hd, hstore, hlast]⟩
  have hrecover : ∀ {ws}, ws <+: recoverStore job.store → job'.written = job.written ++ ws →
      False := by
    intro ws hws hwritten
    rcases ManifestStore.latest_after ws job.store with hsame | ⟨r, hr, -⟩
    · refine hchanged ?_
      rw [Job.store, hwritten, Job.store_append, hsame]
    · exact latest_notMem_recoverStore job.store r (hws.subset hr)
  cases hstep with
  | start config => exact (hrecover List.prefix_rfl rfl).elim
  | startCrash config ws hws => exact (hrecover hws rfl).elim
  | call run op ds hrun hallowed hcalled => exact hcall hrun hcalled List.prefix_rfl rfl
  | callCrash run op ds ws hrun hallowed hcalled hws => exact hcall hrun hcalled hws rfl

omit [NeZero n] in
theorem pending_recoverStore (store : ManifestStore) :
    (store.after (recoverStore store)).pending = none := by
  rw [recoverStore]
  split
  · rename_i h
    exact h
  · split
    · rfl
    · split
      · rfl
      · rfl

/-- **Crash consistency of the manifest store.**  In every run, with crashes at
any write, in which `begin_candidate` is not called again at a step at which
it has just failed: the latest pointer is absent, or names a record that is
recovery-verified and clean, whose checked shapes are the expected rotation
of its plan, that its own record file holds as well, and whose identifier no
rejected record ever had; the pointer is changed only by a commit; and a
restart leaves no pending candidate. -/
theorem manifest_consistent {job : Job n} (h : JobRun NotRetried job) :
    (∀ l, job.store.latest = some l → Certified job.started l ∧
      job.store.recordOf l.checkpointId = some l ∧ NotRejected job.written l.checkpointId) ∧
    (∀ job', JobStep NotRetried job job' → job'.store.latest ≠ job.store.latest →
      Commits job job') ∧
    (job.store.after (recoverStore job.store)).pending = none := by
  have hinv : JobInv True job := h.inv fun _ run step firsts outcomes hallowed => hallowed
  refine ⟨fun l hl => ?_, fun job' hstep hchanged => hstep.commits hinv hchanged,
    pending_recoverStore _⟩
  obtain ⟨hcert, -, hfile, hrej⟩ := hinv.store.latest l hl
  exact ⟨hcert, hfile, hrej trivial⟩

/-- **The identity of a candidate** is new exactly when no `begin_candidate` has
failed, after its first write, since a candidate was last begun or the
coordinators constructed.  In every state of every run, the record that a
call of `begin_candidate` writes has an epoch above that of every record
written before if and only if there was no such call; and then no record
written before has its identifier. -/
theorem candidate_identity_fresh {allowed : Running n → Operation n → Prop} {job : Job n}
    (h : JobRun allowed job) {run : Running n} (hrun : job.running = some run) {step : Int}
    {firstShapeIds : Fin n → String} {outcomes : Fin n → SaveOutcome}
    {as : Fin n → Except (CheckpointError × Durable) (DurableCheckpointRecord × Durable)}
    (hcall : Jointly jobCombine
      (fun i => beginCandidate run.config i step (firstShapeIds i) (outcomes i)) run.ranks as)
    {r : DurableCheckpointRecord}
    (hr : .record r ∈ (attributes (as run.config.writerRank)).written) :
    ((∀ r', .record r' ∈ job.written → r'.validationEpoch < r.validationEpoch) ↔
      run.failedSteps = []) ∧
    (run.failedSteps = [] → ∀ r', .record r' ∈ job.written →
      r'.checkpointId ≠ r.checkpointId) := by
  have hinv : JobInv False job := h.inv fun hf => hf.elim
  have hwriter := (hinv.running run hrun).writer
  obtain ⟨pending, epoch, hds⟩ := (hinv.running run hrun).aligned
  obtain ⟨heffect, -⟩ := (Called.begin hcall).effect hds
  have hidle : run.writer.written = [] := (hinv.running run hrun).idle _
  have hrecord : r.validationEpoch = run.writer.nextEpoch ∧ r.WellNamed := by
    generalize attributes (as run.config.writerRank) = d at heffect hr
    replace heffect : Effect run.config run.writer (.begin step firstShapeIds outcomes) d := heffect
    cases heffect with
    | quiet _ => simp [hidle] at hr
    | rejected op hop => exact absurd rfl (hop _ _ _)
    | failed record expected reason hpending first hexpected hrecord =>
        subst hrecord
        simp only [hidle, List.nil_append, List.mem_append, record_mem_writePending,
          record_mem_reject] at hr
        rcases hr with rfl | rfl
        · exact ⟨rfl, rfl⟩
        · exact ⟨rfl, rfl⟩
    | begun record candidate expected hpending first hexpected hrecord hcandidate =>
        subst hcandidate hrecord
        simp only [hidle, List.nil_append, List.mem_append, record_mem_writePending] at hr
        rcases hr with rfl | rfl
        · exact ⟨rfl, rfl⟩
        · exact ⟨rfl, rfl⟩
  have hlt : run.failedSteps = [] → ∀ r', .record r' ∈ job.written →
      r'.validationEpoch < r.validationEpoch := by
    intro hnone r' hr'
    rw [hrecord.1]
    rcases hwriter.epochs r' hr' with hlt | ⟨-, hmem⟩
    · exact hlt
    · rw [hnone] at hmem
      exact absurd hmem List.not_mem_nil
  refine ⟨⟨fun hall => ?_, hlt⟩, fun hnone r' hr' => ?_⟩
  · refine List.eq_nil_iff_forall_not_mem.mpr fun s hs => ?_
    obtain ⟨r', hr', hepoch, -⟩ := hwriter.failedRecord s hs
    have := hall r' hr'
    rw [hepoch, hrecord.1] at this
    exact absurd this (Nat.lt_irrefl _)
  · exact id_ne_of_epoch_lt (hinv.store.record r' hr') hrecord.2 (hlt hnone r' hr')

/-! ## A failed candidate, and the same step again -/

def sampleConfig : DurableConfig 1 where
  environmentId := "production"
  writerRank := Fin.last 0
  shapePlanId := "plan"
  shapeIds := ["small"]
  environmentId_ne := by decide
  shapePlanId_ne := by decide
  shapeIds_ne := by decide
  shapeIds_nodup := by decide

/-- The record of a candidate at step 10. -/
def sampleRecord : DurableCheckpointRecord := newRecord sampleConfig 10 1 ["small"]

def sampleCandidate : DurableCheckpointRecord :=
  candidateRecord sampleConfig 0 sampleRecord (.saved [])

def sampleResult : ReplayResult where
  sdcBitmap := [0, 0]
  checkedShapeIds := ["small"]
  completedShapeCycle := true
  completedScheduledCycle := true
  denseReplay := false
  c3Results := []

/-- The coordinators after their start. -/
def sampleStarted (failedSteps : List Int) : Running 1 :=
  ⟨sampleConfig, fun _ => ⟨none, none, 1, []⟩, failedSteps⟩

def sampleBegun : Running 1 := ⟨sampleConfig, fun _ => ⟨some sampleCandidate, none, 2, []⟩, []⟩

def sampleCommitted : DurableCheckpointRecord :=
  committedRecord (checkedCandidate sampleCandidate ["small"] 20) 20

/-- What a call of `begin_candidate` that fails has written. -/
def failedWrites : List StoreWrite :=
  ManifestStore.writePending sampleRecord ++
    ManifestStore.reject (rejectedRecord sampleRecord writeFailed)

/-- What a call that succeeds has written. -/
def begunWrites : List StoreWrite :=
  ManifestStore.writePending sampleRecord ++ ManifestStore.writePending sampleCandidate

theorem sample_failed (failedSteps : List Int) :
    Jointly jobCombine (fun i => beginCandidate sampleConfig i 10 "small"
      (.failed (.runtimeError "no space left"))) (sampleStarted failedSteps).ranks
      fun _ => .error (.runtimeError "no space left", ⟨none, none, 1, failedWrites⟩) := by
  refine ⟨0, .done fun i => ?_⟩
  obtain rfl : i = 0 := Subsingleton.elim _ _
  rfl

/-- What a call at `step` that succeeds has written. -/
def writesAt (step : Int) (epoch : Nat) : List StoreWrite :=
  ManifestStore.writePending (newRecord sampleConfig step epoch ["small"]) ++
    ManifestStore.writePending
      (candidateRecord sampleConfig 0 (newRecord sampleConfig step epoch ["small"]) (.saved []))

theorem sample_begins (step : Int) (epoch : Nat) (latest : Option DurableCheckpointRecord) :
    Jointly jobCombine (fun i => beginCandidate sampleConfig i step "small" (.saved []))
      (fun _ => ⟨none, latest, epoch, []⟩)
      fun _ => .ok (candidateRecord sampleConfig 0 (newRecord sampleConfig step epoch ["small"])
          (.saved []),
        ⟨some (candidateRecord sampleConfig 0 (newRecord sampleConfig step epoch ["small"])
          (.saved [])), latest, epoch + 1, writesAt step epoch⟩) := by
  refine ⟨0, .done fun i => ?_⟩
  obtain rfl : i = 0 := Subsingleton.elim _ _
  rfl

theorem sample_begun (failedSteps : List Int) :
    Jointly jobCombine (fun i => beginCandidate sampleConfig i 10 "small" (.saved []))
      (sampleStarted failedSteps).ranks
      fun _ => .ok (sampleCandidate, ⟨some sampleCandidate, none, 2, begunWrites⟩) :=
  sample_begins 10 1 none

theorem sample_committed :
    Jointly jobCombine (fun i => observe sampleConfig i (some sampleResult) 20) sampleBegun.ranks
      fun _ => .ok (.committed, ⟨none, some sampleCommitted, 2, ManifestStore.commit sampleCommitted⟩) := by
  refine ⟨0, .done fun i => ?_⟩
  obtain rfl : i = 0 := Subsingleton.elim _ _
  rfl

/-- The run in which the candidate is begun after `failedSteps` and committed. -/
theorem sample_run {allowed : Running 1 → Operation 1 → Prop} {written : List StoreWrite}
    {failedSteps : List Int}
    (h : JobRun allowed ⟨written, [sampleConfig], some (sampleStarted failedSteps)⟩)
    (hbegin : ∀ firsts outcomes, allowed (sampleStarted failedSteps) (.begin 10 firsts outcomes))
    (hobserve : ∀ run results step, allowed run (.observe results step)) :
    JobRun allowed ⟨(written ++ begunWrites) ++ ManifestStore.commit sampleCommitted, [sampleConfig],
      some (sampleBegun.called (.observe (fun _ => some sampleResult) 20)
        fun _ => ⟨none, some sampleCommitted, 2, ManifestStore.commit sampleCommitted⟩)⟩ := by
  have hbegun : JobRun allowed ⟨written ++ begunWrites, [sampleConfig], some sampleBegun⟩ :=
    h.step (.call _ _ _ _ rfl (hbegin (fun _ => "small") fun _ => .saved [])
      (.begin (sample_begun failedSteps)))
  exact hbegun.step (.call _ _ _ _ rfl (hobserve sampleBegun _ _) (.observe sample_committed))

theorem sample_start {allowed : Running 1 → Operation 1 → Prop} :
    JobRun allowed ⟨[], [sampleConfig], some (sampleStarted [])⟩ :=
  .step .initial (.start _ sampleConfig)

theorem sample_retry :
    JobRun (fun _ _ => True) ⟨failedWrites, [sampleConfig], some (sampleStarted [10])⟩ :=
  sample_start.step (.call _ _ _ _ rfl trivial (.begin (sample_failed [])))

theorem manifest_consistent_sample :
    NotRejected (begunWrites ++ ManifestStore.commit sampleCommitted) sampleCommitted.checkpointId := by
  have hrun : JobRun NotRetried _ := sample_run sample_start
    (fun _ _ => List.not_mem_nil) fun _ _ _ => trivial
  exact ((manifest_consistent hrun).1 sampleCommitted rfl).2.2

/-- **A rejected identifier becomes the latest one**: `begin_candidate` fails at
step 10, is called again there and succeeds, and the candidate is committed. -/
theorem rejected_candidate_latest :
    ∃ job : Job 1, JobRun (fun _ _ => True) job ∧
      ∃ l, job.store.latest = some l ∧ ¬ NotRejected job.written l.checkpointId := by
  refine ⟨_, sample_run sample_retry (fun _ _ => trivial) fun _ _ _ => trivial, sampleCommitted,
    rfl, fun h => ?_⟩
  refine h (rejectedRecord sampleRecord writeFailed) ?_ rfl rfl
  refine List.mem_append_left _ (List.mem_append_left _ (List.mem_append_right _ ?_))
  exact List.mem_cons_self

/-- A second candidate, at step 20. -/
def secondCandidate : DurableCheckpointRecord :=
  candidateRecord sampleConfig 0 (newRecord sampleConfig 20 2 ["small"]) (.saved [])

def secondRejected : DurableCheckpointRecord :=
  rejectedRecord secondCandidate "SCOUT detected numerical divergence"

/-- A coordinator of which the first candidate has been committed. -/
def sampleAfter (pending : Option DurableCheckpointRecord) (epoch : Nat) : Running 1 :=
  ⟨sampleConfig, fun _ => ⟨pending, some sampleCommitted, epoch, []⟩, []⟩

theorem sample_rejected :
    Jointly jobCombine
      (fun i => observe sampleConfig i (some { sampleResult with sdcBitmap := [1, 0] }) 25)
      (sampleAfter (some secondCandidate) 3).ranks
      fun _ => .ok (.rejected, ⟨none, some sampleCommitted, 3,
        ManifestStore.reject secondRejected⟩) := by
  refine ⟨0, .done fun i => ?_⟩
  obtain rfl : i = 0 := Subsingleton.elim _ _
  rfl

/-- The first candidate is committed, the second one rejected. -/
theorem sample_run_rejected : JobRun (fun _ _ => True)
    ⟨((begunWrites ++ ManifestStore.commit sampleCommitted) ++ writesAt 20 2) ++
      ManifestStore.reject secondRejected, [sampleConfig], some (sampleAfter none 3)⟩ := by
  have hcommitted : JobRun (fun _ _ => True)
      ⟨begunWrites ++ ManifestStore.commit sampleCommitted, [sampleConfig],
        some (sampleAfter none 2)⟩ :=
    sample_run sample_start (fun _ _ => trivial) fun _ _ _ => trivial
  have hsecond : JobRun (fun _ _ => True)
      ⟨(begunWrites ++ ManifestStore.commit sampleCommitted) ++ writesAt 20 2, [sampleConfig],
        some (sampleAfter (some secondCandidate) 3)⟩ :=
    hcommitted.step (.call _ (sampleAfter none 2) (.begin 20 (fun _ => "small") fun _ => .saved [])
      (fun _ => ⟨some secondCandidate, some sampleCommitted, 3, writesAt 20 2⟩) rfl trivial
      (.begin (sample_begins 20 2 (some sampleCommitted))))
  exact hsecond.step (.call _ (sampleAfter (some secondCandidate) 3)
    (.observe (fun _ => some { sampleResult with sdcBitmap := [1, 0] }) 25)
    (fun _ => ⟨none, some sampleCommitted, 3, ManifestStore.reject secondRejected⟩) rfl trivial
    (.observe sample_rejected))

/-- A third candidate, at step 30, is another one than both. -/
theorem candidate_identity_fresh_sample : ∃ job : Job 1, JobRun (fun _ _ => True) job ∧
    .record sampleCommitted ∈ job.written ∧ .record secondRejected ∈ job.written ∧
    ((∀ r', .record r' ∈ job.written →
      r'.validationEpoch < (newRecord sampleConfig 30 3 ["small"]).validationEpoch) ↔
        ([] : List Int) = []) ∧
    (([] : List Int) = [] → ∀ r', .record r' ∈ job.written →
      r'.checkpointId ≠ (newRecord sampleConfig 30 3 ["small"]).checkpointId) := by
  refine ⟨_, sample_run_rejected, ?_, ?_, candidate_identity_fresh sample_run_rejected rfl
    (sample_begins 30 3 (some sampleCommitted)) List.mem_cons_self⟩
  · exact List.mem_append_left _ (List.mem_append_left _ (List.mem_append_right _ (by
      simp [ManifestStore.commit])))
  · exact List.mem_append_right _ (by simp [ManifestStore.reject])

/-- **An identity is used again**: the second call writes a record with the epoch
and the identifier of the one that the first call has rejected. -/
theorem candidate_identity_reused :
    ∃ (job : Job 1) (run : Running 1) (outcomes : Fin 1 → SaveOutcome)
      (as : Fin 1 → Except (CheckpointError × Durable) (DurableCheckpointRecord × Durable))
      (r r' : DurableCheckpointRecord),
      JobRun (fun _ _ => True) job ∧ job.running = some run ∧
      Jointly jobCombine (fun i => beginCandidate run.config i 10 "small" (outcomes i))
        run.ranks as ∧
      .record r ∈ (attributes (as run.config.writerRank)).written ∧
      .record r' ∈ job.written ∧ r'.status = .rejected ∧
      ¬ r'.validationEpoch < r.validationEpoch ∧ r'.checkpointId = r.checkpointId := by
  refine ⟨_, _, _, _, sampleRecord, rejectedRecord sampleRecord writeFailed, sample_retry, rfl,
    sample_begun [10], List.mem_cons_self, ?_, rfl, Nat.lt_irrefl _, rfl⟩
  exact List.mem_append_right _ List.mem_cons_self

end LmResiliency.Checkpointing
