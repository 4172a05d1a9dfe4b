/-
# DurableSafety — crash consistency and fresh identities

The invariant of a whole run of the durable checkpoint coordinators, and the
two results that it carries.  The store is consistent after a crash at any
write; and a candidate has a fresh identity exactly when no failed
`begin_candidate` comes between it and the last candidate or restart.  The
epoch is not advanced when `begin_candidate` fails, so that the next call
uses it again, and at the same step the identifier of the rejected candidate
with it.
-/
import LmResiliency.Checkpointing.DurableInv

namespace LmResiliency.Checkpointing

open Lockstep Detection

variable {n : Nat}

/-- A candidate of a configuration. -/
structure IsCandidate (config : DurableConfig n) (c : DurableCheckpointRecord) : Prop where
  named : c.WellNamed
  status : c.status = .candidate
  plan : c.shapePlanId = config.shapePlanId
  rotated : ∃ first, rotateShapeIds config.shapeIds first = some c.expectedShapeIds

/-- What is known of a pending candidate. -/
structure PendingInv (fresh : Prop) (config : DurableConfig n) (written : List StoreWrite)
    (nextEpoch : Nat) (c : DurableCheckpointRecord) : Prop where
  candidate : IsCandidate config c
  lt : c.validationEpoch < nextEpoch
  latest_lt : ∀ l, (storeAfter written).latest = some l → l.validationEpoch < c.validationEpoch
  notRejected : fresh → NotRejected written c.checkpointId

/-- The invariant of the writer rank. -/
structure WriterInv (fresh : Prop) (config : DurableConfig n) (written : List StoreWrite)
    (d : Durable) (failedSteps : List Int) : Prop where
  epochs : ∀ r, .record r ∈ written → r.validationEpoch < d.nextEpoch ∨
    r.validationEpoch = d.nextEpoch ∧ r.step ∈ failedSteps
  latest : ∀ l, (storeAfter written).latest = some l → l.validationEpoch < d.nextEpoch
  pending : ∀ c, d.pending = some c → PendingInv fresh config written d.nextEpoch c
  failed : d.pending.isSome = true → failedSteps = []
  failedRecord : ∀ step ∈ failedSteps, ∃ r, .record r ∈ written ∧
    r.validationEpoch = d.nextEpoch ∧ r.step = step

/-- The invariant of the coordinators between two calls. -/
structure RunInv (fresh : Prop) (started : List (DurableConfig n)) (written : List StoreWrite)
    (run : Running n) : Prop where
  started : run.config ∈ started
  aligned : ∃ pending epoch, Aligned run.ranks pending epoch
  idle : ∀ i, (run.ranks i).written = []
  writer : WriterInv fresh run.config written run.writer run.failedSteps

/-- The invariant of a run. -/
structure JobInv (fresh : Prop) (job : Job n) : Prop where
  store : StoreInv fresh job.started job.written
  running : ∀ run, job.running = some run → RunInv fresh job.started job.written run

variable {fresh : Prop} {started : List (DurableConfig n)} {written : List StoreWrite}

theorem StoreInv.started_cons (h : StoreInv fresh started written) (config : DurableConfig n) :
    StoreInv fresh (config :: started) written where
  record := h.record
  pending := h.pending
  latest l hl := by
    obtain ⟨hcert, hnamed, hfile, hrej⟩ := h.latest l hl
    obtain ⟨config', hmem, hplan⟩ := hcert.planned
    exact ⟨⟨hcert.status, hcert.verdict, hcert.checked, config', List.mem_cons_of_mem _ hmem,
      hplan⟩, hnamed, hfile, hrej⟩

/-- The record of a new candidate has an epoch that no other candidate has yet. -/
theorem newRecord_named (config : DurableConfig n) (step : Int) (epoch : Nat)
    (expected : List String) : (newRecord config step epoch expected).WellNamed := rfl

theorem checked_of_complete {c : DurableCheckpointRecord} (h : c.complete = true) :
    c.checkedShapeIds = c.expectedShapeIds := of_decide_eq_true h

/-- An identifier with a greater epoch is another one. -/
theorem id_ne_of_epoch_lt {l r : DurableCheckpointRecord} (hl : l.WellNamed) (hr : r.WellNamed)
    (h : l.validationEpoch < r.validationEpoch) : l.checkpointId ≠ r.checkpointId := by
  intro heq
  have := (WellNamed.epoch_eq hl hr heq).2
  omega

/-! ## The writes of the store's operations -/

@[simp] theorem record_mem_writePending {r r' : DurableCheckpointRecord} :
    StoreWrite.record r ∈ ManifestStore.writePending r' ↔ r = r' := by
  simp [ManifestStore.writePending]

@[simp] theorem record_mem_reject {r r' : DurableCheckpointRecord} :
    StoreWrite.record r ∈ ManifestStore.reject r' ↔ r = r' := by
  simp [ManifestStore.reject]

@[simp] theorem record_mem_commit {r r' : DurableCheckpointRecord} :
    StoreWrite.record r ∈ ManifestStore.commit r' ↔ r = r' := by
  simp [ManifestStore.commit]

theorem latest_commit (written : List StoreWrite) (r : DurableCheckpointRecord) :
    (storeAfter (written ++ ManifestStore.commit r)).latest = some r := by
  rw [storeAfter, ManifestStore.after_append]
  rfl

theorem NotRejected.append {ws : List StoreWrite} {id : String} (h : NotRejected written id)
    (hws : ∀ r, .record r ∈ ws → r.status ≠ .rejected) : NotRejected (written ++ ws) id := by
  intro r hr hs
  rcases List.mem_append.mp hr with hr | hr
  · exact h r hr hs
  · exact absurd hs (hws r hr)

section Calls

variable {config : DurableConfig n} {d d' : Durable} {failedSteps : List Int} {op : Operation n}

/-- The writes of a call: they leave the latest pointer alone, or they
commit the pending candidate. -/
theorem WriterInv.quiet_or_commit (h : WriterInv fresh config written d failedSteps)
    (hstore : StoreInv fresh started written) (hidle : d.written = [])
    (heffect : Effect config d op d') :
    (∀ w ∈ d'.written, QuietWrite (storeAfter written).latest w) ∨
      ∃ c, d.pending = some c ∧ ∃ checked step,
        (checkedCandidate c checked step).complete = true ∧
        d'.written = ManifestStore.commit
          (committedRecord (checkedCandidate c checked step) step) := by
  have hnamed : ∀ l ∈ (storeAfter written).latest, l.WellNamed := fun l hl =>
    (hstore.latest l hl).2.1
  have hother : ∀ {c : DurableCheckpointRecord}, d.pending = some c →
      ∀ l ∈ (storeAfter written).latest, l.checkpointId ≠ c.checkpointId := by
    intro c hc l hl
    exact id_ne_of_epoch_lt (hnamed l hl) (h.pending c hc).candidate.named
      ((h.pending c hc).latest_lt l hl)
  have hnew : ∀ step expected, ∀ l ∈ (storeAfter written).latest,
      l.checkpointId ≠ (newRecord config step d.nextEpoch expected).checkpointId := by
    intro step expected l hl
    exact id_ne_of_epoch_lt (hnamed l hl) (newRecord_named config step d.nextEpoch expected)
      (h.latest l hl)
  have hnamed' : ∀ step expected, (newRecord config step d.nextEpoch expected).WellNamed :=
    fun step expected => newRecord_named config step d.nextEpoch expected
  cases heffect with
  | quiet op =>
      left
      rw [hidle]
      exact fun w hw => absurd hw List.not_mem_nil
  | @failed step _ _ record expected reason hpending first hexpected hrecord =>
      subst hrecord
      left
      rw [hidle, List.nil_append]
      intro w hw
      rcases List.mem_append.mp hw with hw | hw
      · exact quiet_writePending (hnamed' step expected) (hnew step expected) w hw
      · exact quiet_reject (r := rejectedRecord (newRecord config step d.nextEpoch expected) reason)
          (hnamed' step expected) (hnew step expected) w hw
  | @begun step _ outcomes record candidate expected hpending first hexpected hrecord
      hcandidate =>
      subst hcandidate hrecord
      left
      rw [hidle, List.nil_append]
      intro w hw
      rcases List.mem_append.mp hw with hw | hw
      · exact quiet_writePending (hnamed' step expected) (hnew step expected) w hw
      · exact quiet_writePending (r := candidateRecord config config.writerRank
          (newRecord config step d.nextEpoch expected) (outcomes config.writerRank))
          (hnamed' step expected) (hnew step expected) w hw
  | rejected op hop c reason hpending =>
      left
      rw [hidle, List.nil_append]
      exact quiet_reject (r := rejectedRecord c reason) (h.pending c hpending).candidate.named
        (hother (c := c) hpending)
  | @progress results step c checked hpending =>
      left
      rw [hidle, List.nil_append]
      exact quiet_writePending (r := checkedCandidate c checked step)
        (h.pending c hpending).candidate.named (hother (c := c) hpending)
  | @committed results step c checked hpending hcomplete =>
      right
      refine ⟨c, hpending, checked, step, hcomplete, ?_⟩
      rw [hidle, List.nil_append]

/-- The writes of every call are safe. -/
theorem WriterInv.safe (h : WriterInv fresh config written d failedSteps)
    (hstore : StoreInv fresh started written) (hstarted : config ∈ started)
    (hidle : d.written = []) (heffect : Effect config d op d') :
    SafeWrites fresh started written d'.written := by
  rcases h.quiet_or_commit hstore hidle heffect with
    hquiet | ⟨c, hpending, checked, step, hdone, hws⟩
  · exact safeWrites_of_quiet hquiet
  · have hc := h.pending c hpending
    rw [hws]
    refine safe_commit ⟨rfl, rfl, checked_of_complete hdone, ?_⟩ hc.candidate.named ?_
      hc.notRejected
    · exact ⟨config, hstarted, hc.candidate.plan, hc.candidate.rotated⟩
    · intro l hl
      exact id_ne_of_epoch_lt (hstore.latest l hl).2.1 hc.candidate.named (hc.latest_lt l hl)

/-- The identifier of a new candidate is not a rejected one, unless a failed
step is repeated. -/
theorem WriterInv.newRecord_notRejected (h : WriterInv fresh config written d failedSteps)
    (hstore : StoreInv fresh started written) {step : Int} (hstep : step ∉ failedSteps)
    (expected : List String) :
    NotRejected written (newRecord config step d.nextEpoch expected).checkpointId := by
  intro r hr _ hid
  obtain ⟨hs, he⟩ := WellNamed.epoch_eq (hstore.record r hr)
    (newRecord_named config step d.nextEpoch expected) hid
  have he' : r.validationEpoch = d.nextEpoch := he
  have hs' : r.step = step := hs
  rcases h.epochs r hr with hlt | ⟨-, hmem⟩
  · omega
  · exact hstep (hs' ▸ hmem)

/-- One call keeps the invariant of the writer rank. -/
theorem WriterInv.effect (h : WriterInv fresh config written d failedSteps)
    (hstore : StoreInv fresh started written) (hidle : d.written = [])
    (heffect : Effect config d op d')
    (hfresh : fresh → ∀ step firsts outcomes, op = .begin step firsts outcomes →
      step ∉ failedSteps) :
    WriterInv fresh config (written ++ d'.written) { d' with written := [] }
      (failedAfter op d' failedSteps) := by
  have hquiet := h.quiet_or_commit hstore hidle heffect
  have hlatest : ∀ {ws : List StoreWrite},
      (∀ w ∈ ws, QuietWrite (storeAfter written).latest w) →
      (storeAfter (written ++ ws)).latest = (storeAfter written).latest := latest_of_quiet
  have hsame : ∀ {ws : List StoreWrite} {p : DurableCheckpointRecord → Prop},
      (∀ r, .record r ∈ written → p r) → (∀ r, .record r ∈ ws → p r) →
      ∀ r, .record r ∈ written ++ ws → p r := fun hold hws r hr =>
    (List.mem_append.mp hr).elim (hold r) (hws r)
  have hsteps' : ∀ {ws : List StoreWrite}, ∀ step ∈ failedSteps, ∃ r, .record r ∈ written ++ ws ∧
      r.validationEpoch = d.nextEpoch ∧ r.step = step := by
    intro ws step hstep
    obtain ⟨r, hr, hrest⟩ := h.failedRecord step hstep
    exact ⟨r, List.mem_append_left _ hr, hrest⟩
  cases heffect with
  | quiet op =>
      have hfailed : failedAfter op d failedSteps = failedSteps := by
        cases op with
        | begin step firsts outcomes =>
            rw [failedAfter]
            split
            · rename_i hsome
              exact (h.failed hsome).symm
            · rfl
        | observe results step => rfl
        | reject reason => rfl
      rw [hfailed, hidle, List.append_nil]
      exact ⟨h.epochs, h.latest, h.pending, h.failed, h.failedRecord⟩
  | @failed step firsts outcomes record expected reason hpending first hexpected hrecord =>
      subst hrecord
      rw [hidle, List.nil_append] at hquiet ⊢
      have hlast := hlatest (hquiet.resolve_right fun ⟨c, hc, _⟩ => by
        rw [hpending] at hc
        cases hc)
      have hsteps : failedAfter (.begin step firsts outcomes) { d with
          written := ManifestStore.writePending (newRecord config step d.nextEpoch expected) ++
            ManifestStore.reject (rejectedRecord (newRecord config step d.nextEpoch expected)
              reason) } failedSteps = step :: failedSteps := by
        rw [failedAfter]
        simp only [hpending]
        rfl
      rw [hsteps]
      refine ⟨hsame (fun r hr => ?_) fun r hr => ?_, fun l hl => ?_, fun c hc => ?_, fun hs => ?_,
        fun s hs => ?_⟩
      · rcases h.epochs r hr with hlt | ⟨heq, hmem⟩
        · exact .inl hlt
        · exact .inr ⟨heq, List.mem_cons_of_mem _ hmem⟩
      · rcases List.mem_append.mp hr with hr | hr
        · rw [record_mem_writePending.mp hr]
          exact .inr ⟨rfl, List.mem_cons_self⟩
        · rw [record_mem_reject.mp hr]
          exact .inr ⟨rfl, List.mem_cons_self⟩
      · exact h.latest l (hlast ▸ hl)
      · rw [hpending] at hc
        cases hc
      · rw [hpending] at hs
        cases hs
      · rcases List.mem_cons.mp hs with rfl | hs
        · exact ⟨newRecord config _ d.nextEpoch expected, List.mem_append_right _
            (List.mem_append_left _ (record_mem_writePending.mpr rfl)), rfl, rfl⟩
        · obtain ⟨r, hr, hrest⟩ := h.failedRecord s hs
          exact ⟨r, List.mem_append_left _ hr, hrest⟩
  | @begun step firsts outcomes record candidate expected hpending first hexpected hrecord
      hcandidate =>
      subst hcandidate hrecord
      rw [hidle, List.nil_append] at hquiet ⊢
      have hlast := hlatest (hquiet.resolve_right fun ⟨c, hc, _⟩ => by
        rw [hpending] at hc
        cases hc)
      refine ⟨hsame (fun r hr => .inl ?_) fun r hr => .inl ?_, fun l hl => ?_, fun c hc => ?_,
        fun _ => rfl, fun s hs => absurd hs List.not_mem_nil⟩
      · rcases h.epochs r hr with hlt | ⟨heq, -⟩
        · exact Nat.lt_succ_of_lt hlt
        · exact Nat.lt_succ_of_le heq.le
      · rcases List.mem_append.mp hr with hr | hr
        · rw [record_mem_writePending.mp hr]
          exact Nat.lt_succ_self _
        · rw [record_mem_writePending.mp hr]
          exact Nat.lt_succ_self _
      · exact Nat.lt_succ_of_lt (h.latest l (hlast ▸ hl))
      · cases hc
        refine ⟨⟨rfl, rfl, rfl, first, hexpected⟩, Nat.lt_succ_self _, fun l hl => ?_, fun hf => ?_⟩
        · exact h.latest l (hlast ▸ hl)
        · refine (h.newRecord_notRejected hstore (hfresh hf step firsts outcomes rfl)
            expected).append fun r hr hs => ?_
          rcases List.mem_append.mp hr with hr | hr
          · rw [record_mem_writePending.mp hr] at hs
            cases hs
          · rw [record_mem_writePending.mp hr] at hs
            cases hs
  | rejected op hop c reason hpending =>
      have hc := h.pending c hpending
      rw [hidle, List.nil_append] at hquiet ⊢
      have hlast := latest_of_quiet (quiet_reject (r := rejectedRecord c reason)
        hc.candidate.named fun l hl => id_ne_of_epoch_lt (hstore.latest l hl).2.1
          hc.candidate.named (hc.latest_lt l hl))
      have hsteps : failedAfter op { d with
          written := ManifestStore.reject (rejectedRecord c reason), pending := none }
          failedSteps = failedSteps := by
        cases op with
        | begin step firsts outcomes => exact absurd rfl (hop step firsts outcomes)
        | observe results step => rfl
        | reject reason => rfl
      rw [hsteps]
      refine ⟨hsame h.epochs fun r hr => .inl ?_, fun l hl => ?_, fun c hc => (by cases hc),
        fun hs => (by cases hs), hsteps'⟩
      · rw [record_mem_reject.mp hr]
        exact hc.lt
      · exact h.latest l (hlast ▸ hl)
  | @progress results step c checked hpending =>
      have hc := h.pending c hpending
      rw [hidle, List.nil_append] at hquiet ⊢
      have hlast := latest_of_quiet (quiet_writePending (r := checkedCandidate c checked step)
        hc.candidate.named fun l hl => id_ne_of_epoch_lt (hstore.latest l hl).2.1
          hc.candidate.named (hc.latest_lt l hl))
      refine ⟨hsame h.epochs fun r hr => .inl ?_, fun l hl => ?_, fun c' hc' => ?_, fun _ => ?_,
        hsteps'⟩
      · rw [record_mem_writePending.mp hr]
        exact hc.lt
      · exact h.latest l (hlast ▸ hl)
      · cases hc'
        refine ⟨⟨hc.candidate.named, hc.candidate.status, hc.candidate.plan,
          hc.candidate.rotated⟩, hc.lt, fun l hl => hc.latest_lt l (hlast ▸ hl), fun hf => ?_⟩
        refine (hc.notRejected hf).append fun r hr => ?_
        rw [record_mem_writePending.mp hr]
        intro hs
        cases hc.candidate.status.symm.trans hs
      · exact h.failed (by rw [hpending]; rfl)
  | @committed results step c checked hpending hcomplete =>
      have hc := h.pending c hpending
      rw [hidle, List.nil_append]
      refine ⟨hsame h.epochs fun r hr => .inl ?_, fun l hl => ?_, fun c hc => (by cases hc),
        fun hs => (by cases hs), hsteps'⟩
      · rw [record_mem_commit.mp hr]
        exact hc.lt
      · rw [latest_commit] at hl
        cases hl
        exact hc.lt

end Calls

/-! ## Whole runs -/

/-- A restart establishes the invariant of the coordinators. -/
theorem StoreInv.constructed (h : StoreInv fresh started written) {config : DurableConfig n}
    (hstarted : config ∈ started) :
    RunInv fresh started written ⟨config, fun _ => constructed (storeAfter written), []⟩ where
  started := hstarted
  aligned := ⟨none, _, fun _ => rfl, fun _ => rfl⟩
  idle _ := rfl
  writer :=
    { epochs := fun r hr => .inl (h.lt_nextValidationEpoch hr)
      latest := fun l hl => by
        obtain ⟨-, -, hfile, -⟩ := h.latest l hl
        exact ManifestStore.lt_nextValidationEpoch (List.mem_of_find?_eq_some hfile)
      pending := fun c hc => by cases hc
      failed := fun hs => by cases hs
      failedRecord := fun s hs => absurd hs List.not_mem_nil }

/-- **One call keeps the invariant** of the coordinators. -/
theorem RunInv.called [NeZero n] {run : Running n} (h : RunInv fresh started written run)
    (hstore : StoreInv fresh started written) {op : Operation n} {ds : Fin n → Durable}
    (hcalled : Called run.config run.ranks op ds)
    (hfresh : fresh → ∀ step firsts outcomes, op = .begin step firsts outcomes →
      step ∉ run.failedSteps) :
    SafeWrites fresh started written (ds run.config.writerRank).written ∧
      RunInv fresh started (written ++ (ds run.config.writerRank).written) (run.called op ds) := by
  obtain ⟨pending, epoch, hds⟩ := h.aligned
  obtain ⟨heffect, pending', epoch', hds'⟩ := hcalled.effect hds
  refine ⟨h.writer.safe hstore h.started (h.idle _) heffect, h.started,
    ⟨pending', epoch', hds'.pending, hds'.epoch⟩, fun _ => rfl, ?_⟩
  exact h.writer.effect hstore (h.idle _) heffect hfresh

/-- **One step keeps the invariant.** -/
theorem JobInv.step [NeZero n] {allowed : Running n → Operation n → Prop}
    (hfresh : fresh → ∀ run step firsts outcomes, allowed run (.begin step firsts outcomes) →
      step ∉ run.failedSteps) {job job' : Job n} (h : JobInv fresh job)
    (hstep : JobStep allowed job job') : JobInv fresh job' := by
  have hrecover : SafeWrites fresh job.started job.written (recoverStore job.store) :=
    safeWrites_of_quiet h.store.recover
  cases hstep with
  | start config =>
      have hstore := (h.store.writes hrecover).started_cons config
      refine ⟨hstore, fun run hrun => ?_⟩
      cases hrun
      have heq : job.store.after (recoverStore job.store) =
          storeAfter (job.written ++ recoverStore job.store) :=
        (ManifestStore.after_append _ _ _).symm
      rw [heq]
      exact hstore.constructed List.mem_cons_self
  | startCrash config ws hws =>
      exact ⟨(h.store.crash hrecover hws).started_cons config, fun run hrun => by cases hrun⟩
  | call run op ds hrun hallowed hcalled =>
      obtain ⟨hsafe, hrunInv⟩ := (h.running run hrun).called h.store hcalled
        fun hf step firsts outcomes hop => hfresh hf run step firsts outcomes (hop ▸ hallowed)
      refine ⟨h.store.writes hsafe, fun run' hrun' => ?_⟩
      cases hrun'
      exact hrunInv
  | callCrash run op ds ws hrun hallowed hcalled hws =>
      obtain ⟨hsafe, -⟩ := (h.running run hrun).called h.store hcalled
        fun hf step firsts outcomes hop => hfresh hf run step firsts outcomes (hop ▸ hallowed)
      exact ⟨h.store.crash hsafe hws, fun run hrun => by cases hrun⟩

/-- **Every state of a run satisfies the invariant.** -/
theorem JobRun.inv [NeZero n] {allowed : Running n → Operation n → Prop}
    (hfresh : fresh → ∀ run step firsts outcomes, allowed run (.begin step firsts outcomes) →
      step ∉ run.failedSteps) {job : Job n} (h : JobRun allowed job) : JobInv fresh job := by
  induction h with
  | initial => exact ⟨.initial, fun run hrun => by cases hrun⟩
  | step _ hstep ih => exact ih.step hfresh hstep

end LmResiliency.Checkpointing
