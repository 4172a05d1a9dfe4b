/-
# DurableGroup — the coordinators of all ranks together

What one operation of the coordinator does on every rank of the job, when
all ranks call it: they decide alike, because each decision is taken on what
all of them have gathered, and only the writer rank touches the store.
-/
import LmResiliency.Checkpointing.Durable

namespace LmResiliency.Checkpointing

open Lockstep Detection

variable {n : Nat} {config : DurableConfig n}

/-! ## What one rank writes -/

/-- The coordinator after writes of its rank. -/
def Durable.wrote (config : DurableConfig n) (rank : Fin n) (writes : List StoreWrite)
    (d : Durable) : Durable :=
  if config.isWriter rank then { d with written := d.written ++ writes } else d

@[simp] theorem Durable.wrote_pending (rank : Fin n) (writes : List StoreWrite) (d : Durable) :
    (d.wrote config rank writes).pending = d.pending := by
  rw [wrote]
  split <;> rfl

@[simp] theorem Durable.wrote_latest (rank : Fin n) (writes : List StoreWrite) (d : Durable) :
    (d.wrote config rank writes).latest = d.latest := by
  rw [wrote]
  split <;> rfl

@[simp] theorem Durable.wrote_nextEpoch (rank : Fin n) (writes : List StoreWrite) (d : Durable) :
    (d.wrote config rank writes).nextEpoch = d.nextEpoch := by
  rw [wrote]
  split <;> rfl

@[simp] theorem Durable.wrote_written (writes : List StoreWrite) (d : Durable) :
    (d.wrote config config.writerRank writes).written = d.written ++ writes := by
  rw [wrote, DurableConfig.isWriter, if_pos (decide_eq_true rfl)]

theorem Durable.wrote_wrote (rank : Fin n) (ws ws' : List StoreWrite) (d : Durable) :
    (d.wrote config rank ws).wrote config rank ws' = d.wrote config rank (ws ++ ws') := by
  simp only [wrote]
  split <;> simp

theorem manifestError_eq_none {rank : Fin n} {outcome : SaveOutcome} :
    manifestError config rank outcome = none ↔
      ¬ (outcome = .unserializable ∧ rank = config.writerRank) := by
  cases outcome <;> simp [manifestError, DurableConfig.isWriter]

variable [NeZero n]

/-! ## The shared operations -/

theorem jointly_writeStore (writes : Fin n → List StoreWrite) (ds : Fin n → Durable) :
    Jointly jobCombine (fun i => writeStore config i (writes i)) ds
      fun i => .ok ((), (ds i).wrote config i (writes i)) :=
  Jointly.assign _

theorem jointly_jobOp {ω : Type} (k : JobOp) (values : Fin n → jobCollectives.Val k)
    (ws : Fin n → ω) :
    Jointly jobCombine (fun i => jobOp k (values i)) ws
      fun i => .ok (jobCombine k values, ws i) :=
  Jointly.collective _ _ _

theorem jointly_barrier (ds : Fin n → Durable) :
    Jointly jobCombine (fun _ => barrier n) ds fun i => .ok ((), ds i) := by
  by_cases h : 1 < n
  · simp only [barrier, if_pos h]
    exact jointly_jobOp .barrier (fun _ => ()) ds
  · simp only [barrier, if_neg h]
    exact Jointly.pure fun _ => ()

theorem ofFn_of_eq_one {α : Type} (h : n = 1) (vs : Fin n → α) (i : Fin n) :
    List.ofFn vs = [vs i] := by
  subst h
  rw [List.ofFn_succ, List.ofFn_zero, Subsingleton.elim i 0]

theorem jointly_gatherStarts (values : Fin n → CandidateStart) (ds : Fin n → Durable) :
    Jointly jobCombine (fun i => gatherStarts n (values i)) ds
      fun i => .ok (List.ofFn values, ds i) := by
  by_cases h : n = 1
  · simp only [gatherStarts, if_pos h, ← ofFn_of_eq_one h values]
    exact Jointly.pure fun _ => List.ofFn values
  · simp only [gatherStarts, if_neg h]
    exact jointly_jobOp .gatherStarts values ds

theorem jointly_gatherObservations (values : Fin n → Observation) (ds : Fin n → Durable) :
    Jointly jobCombine (fun i => gatherObservations n (values i)) ds
      fun i => .ok (List.ofFn values, ds i) := by
  by_cases h : n = 1
  · simp only [gatherObservations, if_pos h, ← ofFn_of_eq_one h values]
    exact Jointly.pure fun _ => List.ofFn values
  · simp only [gatherObservations, if_neg h]
    exact jointly_jobOp .gatherObservations values ds

theorem least_bool_ne_zero (successes : Fin n → Bool) :
    (least fun i => if successes i then (1 : Int) else 0) ≠ 0 ↔ ∀ i, successes i = true := by
  constructor
  · intro h i
    by_contra hi
    obtain ⟨j, hj⟩ := exists_least fun i => if successes i then (1 : Int) else 0
    have hle := least_le (fun i => if successes i then (1 : Int) else 0) i
    simp only [hi, hj] at h hle
    split at h <;> split at hle <;> simp_all
  · intro h
    simp only [h, if_true, least, Finset.inf'_const]
    decide

theorem jointly_allRanksSucceeded (successes : Fin n → Bool) (ds : Fin n → Durable) :
    Jointly jobCombine (fun i => allRanksSucceeded n (successes i)) ds
      fun i => .ok (decide (∀ i, successes i = true), ds i) := by
  by_cases h : n = 1
  · have hall : ∀ i, successes i = decide (∀ i, successes i = true) := by
      subst h
      intro i
      rw [Subsingleton.elim i 0]
      simp [Fin.forall_fin_one]
    simp only [allRanksSucceeded, if_pos h]
    rw [show (fun i => (Except.ok (decide (∀ i, successes i = true), ds i) :
      Except (CheckpointError × Durable) (Bool × Durable))) = fun i => .ok (successes i, ds i) from
        funext fun i => by rw [← hall i]]
    exact Jointly.pure successes
  · simp only [allRanksSucceeded, if_neg h]
    refine Jointly.bind (jointly_jobOp (.allReduce .min 1)
      (fun i => ![if successes i then 1 else 0]) ds) ?_
    have hvote : ((least fun i => if successes i then (1 : Int) else 0) ≠ 0) =
        ∀ i, successes i = true := propext (least_bool_ne_zero successes)
    simp only [← hvote]
    exact Jointly.pure fun _ => _

/-! ## Rejection -/

/-- The coordinator that has rejected its candidate. -/
def Durable.rejecting (config : DurableConfig n) (rank : Fin n) (d : Durable)
    (candidate : DurableCheckpointRecord) (reason : String) : Durable :=
  { d.wrote config rank (ManifestStore.reject (rejectedRecord candidate reason)) with
    pending := none }

theorem jointly_reject {ds : Fin n → Durable} {candidates : Fin n → DurableCheckpointRecord}
    (hpending : ∀ i, (ds i).pending = some (candidates i)) (reason : String) :
    Jointly jobCombine (fun i => reject config i reason) ds
      fun i => .ok ((), (ds i).rejecting config i (candidates i) reason) := by
  refine Jointly.bind Jointly.self ?_
  simp only [hpending]
  refine Jointly.bind (jointly_writeStore _ ds) ?_
  refine Jointly.bind (jointly_barrier _) ?_
  exact Jointly.assign _

theorem jointly_reject_none {ds : Fin n → Durable} (hpending : ∀ i, (ds i).pending = none)
    (reason : String) :
    Jointly jobCombine (fun i => reject config i reason) ds fun i => .ok ((), ds i) := by
  refine Jointly.bind Jointly.self ?_
  simp only [hpending]
  exact Jointly.pure fun _ => ()

/-! ## A new candidate -/

/-- How `begin_candidate` ends on the ranks of a job. -/
inductive Began (config : DurableConfig n) (ds : Fin n → Durable) (step : Int)
    (firstShapeIds : Fin n → String) (outcomes : Fin n → SaveOutcome) :
    (Fin n → Except (CheckpointError × Durable) (DurableCheckpointRecord × Durable)) → Prop where
  /-- The call is refused before anything is written. -/
  | refused (e : CheckpointError) :
      Began config ds step firstShapeIds outcomes fun i => .error (e, ds i)
  /-- Some part of the candidate could not be written. -/
  | failed (first : String) (expected : List String) (record : DurableCheckpointRecord)
      (reason : String) (e : Fin n → CheckpointError)
      (hpending : ∀ i, (ds i).pending = none)
      (hfirst : ∀ i, firstShapeIds i = first)
      (hexpected : rotateShapeIds config.shapeIds first = some expected)
      (hrecord : ∀ i, record = newRecord config step (ds i).nextEpoch expected)
      (hfailed : (∃ i e, outcomes i = .failed e) ∨
        outcomes config.writerRank = .unserializable) :
      Began config ds step firstShapeIds outcomes fun i => .error (e i,
        (ds i).wrote config i (ManifestStore.writePending record ++
          ManifestStore.reject (rejectedRecord record reason)))
  /-- The candidate is pending on every rank. -/
  | begun (first : String) (expected : List String) (record : DurableCheckpointRecord)
      (hpending : ∀ i, (ds i).pending = none)
      (hfirst : ∀ i, firstShapeIds i = first)
      (hexpected : rotateShapeIds config.shapeIds first = some expected)
      (hrecord : ∀ i, record = newRecord config step (ds i).nextEpoch expected) :
      Began config ds step firstShapeIds outcomes fun i =>
        .ok (candidateRecord config i record (outcomes i),
          { (ds i).wrote config i (ManifestStore.writePending record ++
              ManifestStore.writePending (candidateRecord config i record (outcomes i))) with
            pending := some (candidateRecord config i record (outcomes i))
            nextEpoch := record.validationEpoch + 1 })

omit [NeZero n] in
theorem Began.ends {ds : Fin n → Durable} {step : Int} {firstShapeIds : Fin n → String}
    {outcomes : Fin n → SaveOutcome}
    {as : Fin n → Except (CheckpointError × Durable) (DurableCheckpointRecord × Durable)}
    (h : Began config ds step firstShapeIds outcomes as) :
    (∃ (e : Fin n → CheckpointError) (ds' : Fin n → Durable), as = fun i => .error (e i, ds' i)) ∨
      ∃ (records : Fin n → DurableCheckpointRecord) (ds' : Fin n → Durable),
        as = fun i => .ok (records i, ds' i) := by
  cases h with
  | refused e => exact .inl ⟨_, _, rfl⟩
  | failed => exact .inl ⟨_, _, rfl⟩
  | begun => exact .inr ⟨_, _, rfl⟩

theorem jointly_writeMetadata_refused {ds : Fin n → Durable} {outcomes : Fin n → SaveOutcome}
    (hbad : outcomes config.writerRank = .unserializable)
    (records : Fin n → DurableCheckpointRecord) :
    Jointly jobCombine (fun i => writeMetadata config i (manifestError config i (outcomes i))
      (records i)) ds fun i => .ok ((), ds i) := by
  refine ⟨0, .done fun i => ?_⟩
  by_cases hi : i = config.writerRank
  · subst hi
    have hsome : ¬ (manifestError config config.writerRank
        (outcomes config.writerRank)).isNone = true := by
      rw [Option.isNone_iff_eq_none, manifestError_eq_none]
      exact fun h => h ⟨hbad, rfl⟩
    show writeMetadata config _ _ _ _ = _
    rw [writeMetadata, if_neg hsome]
    rfl
  · have hnone : manifestError config i (outcomes i) = none :=
      manifestError_eq_none.mpr fun h => hi h.2
    have hother : config.isWriter i = false := decide_eq_false hi
    show writeMetadata config i _ _ _ = _
    rw [hnone]
    show Prog.ret ((), if config.isWriter i then _ else ds i) = _
    rw [hother, if_neg Bool.false_ne_true]

theorem jointly_persistCandidate_failed {ds : Fin n → Durable}
    {record : DurableCheckpointRecord} (hartifacts : record.artifacts = [])
    {outcomes : Fin n → SaveOutcome} (hbad : outcomes config.writerRank = .unserializable) :
    Jointly jobCombine (fun i => persistCandidate config i
        (candidateRecord config i record (outcomes i)) (outcomes i)) ds
      fun i => .error ((manifestError config i (outcomes i)).getD
          (.runtimeError (metadataFailed ++ " on the writer rank")),
        (ds i).wrote config i (ManifestStore.reject (rejectedRecord record metadataFailed))) := by
  have hsuccess : ¬ ∀ i, (manifestError config i (outcomes i)).isNone = true := by
    intro h
    exact manifestError_eq_none.mp (Option.isNone_iff_eq_none.mp (h config.writerRank))
      ⟨hbad, rfl⟩
  have hrecord : ∀ i reason, rejectedRecord { candidateRecord config i record (outcomes i) with
      artifacts := [] } reason = rejectedRecord record reason := by
    intro i reason
    simp only [rejectedRecord, candidateRecord, ← hartifacts]
  refine Jointly.bind (jointly_writeMetadata_refused hbad _) ?_
  refine Jointly.bind (jointly_allRanksSucceeded _ ds) ?_
  simp only [decide_eq_false hsuccess, Bool.false_eq_true, if_false]
  refine Jointly.bind (jointly_writeStore _ ds) ?_
  refine Jointly.bind (jointly_barrier _) ?_
  simp only [hrecord]
  exact Jointly.raise _

theorem jointly_persistCandidate {ds : Fin n → Durable} {record : DurableCheckpointRecord}
    {outcomes : Fin n → SaveOutcome} (hgood : outcomes config.writerRank ≠ .unserializable) :
    Jointly jobCombine (fun i => persistCandidate config i
        (candidateRecord config i record (outcomes i)) (outcomes i)) ds
      fun i => .ok (candidateRecord config i record (outcomes i),
        { (ds i).wrote config i
            (ManifestStore.writePending (candidateRecord config i record (outcomes i))) with
          pending := some (candidateRecord config i record (outcomes i))
          nextEpoch := record.validationEpoch + 1 }) := by
  have hnone : ∀ i, manifestError config i (outcomes i) = none := by
    intro i
    refine manifestError_eq_none.mpr ?_
    rintro ⟨hi, rfl⟩
    exact hgood hi
  simp only [persistCandidate, hnone, Option.isNone_none, writeMetadata, if_true]
  refine Jointly.bind (jointly_writeStore _ ds) ?_
  refine Jointly.bind (jointly_allRanksSucceeded _ _) ?_
  simp only [implies_true, decide_true, if_true]
  refine Jointly.bind (jointly_barrier _) ?_
  refine Jointly.bind (Jointly.assign _) ?_
  exact Jointly.pure _

/-- The candidate without what only the writer rank has. -/
def DurableCheckpointRecord.shared (record : DurableCheckpointRecord) : DurableCheckpointRecord :=
  { record with artifacts := [] }

/-- The ranks of a job share the candidate and the epoch of the next one. -/
structure Aligned (ds : Fin n → Durable) (pending : Option DurableCheckpointRecord)
    (epoch : Nat) : Prop where
  pending : ∀ i, (ds i).pending.map DurableCheckpointRecord.shared = pending
  epoch : ∀ i, (ds i).nextEpoch = epoch

/-- A gathered list has one value only when all ranks gave it. -/
theorem gathered_differ {α : Type} [DecidableEq α] (values : Fin n → α) :
    ((List.ofFn values).tail.any fun item => some item ≠ (List.ofFn values).head?) = false ↔
      ∀ i, values i = values 0 := by
  obtain ⟨m, rfl⟩ := Nat.exists_eq_succ_of_ne_zero (NeZero.ne n)
  rw [List.ofFn_succ, List.tail_cons, List.head?_cons, List.any_eq_false]
  constructor
  · intro h i
    rcases Fin.eq_zero_or_eq_succ i with rfl | ⟨j, rfl⟩
    · rfl
    · have hj := h (values j.succ) (List.mem_ofFn.mpr ⟨j, rfl⟩)
      simpa using hj
  · intro h item hitem
    obtain ⟨j, rfl⟩ := List.mem_ofFn.mp hitem
    simp [h j.succ]

theorem jointly_writeCandidate (config : DurableConfig n) (ds : Fin n → Durable)
    {record : DurableCheckpointRecord} (hartifacts : record.artifacts = [])
    (outcomes : Fin n → SaveOutcome) :
    (∃ e : Fin n → CheckpointError, ∃ reason,
      ((∃ i e, outcomes i = .failed e) ∨ outcomes config.writerRank = .unserializable) ∧
      Jointly jobCombine (fun i => writeCandidate config i record (outcomes i)) ds
        fun i => .error (e i, (ds i).wrote config i (ManifestStore.writePending record ++
          ManifestStore.reject (rejectedRecord record reason)))) ∨
    Jointly jobCombine (fun i => writeCandidate config i record (outcomes i)) ds
      fun i => .ok (candidateRecord config i record (outcomes i),
        { (ds i).wrote config i (ManifestStore.writePending record ++
            ManifestStore.writePending (candidateRecord config i record (outcomes i))) with
          pending := some (candidateRecord config i record (outcomes i))
          nextEpoch := record.validationEpoch + 1 }) := by
  have hwrite : Jointly jobCombine
      (fun i => writeStore config i (ManifestStore.writePending record)) ds
        fun i => .ok ((), (ds i).wrote config i (ManifestStore.writePending record)) :=
    jointly_writeStore _ ds
  by_cases hall : ∀ i, (outcomes i).error?.isNone = true
  · by_cases hbad : outcomes config.writerRank = .unserializable
    · left
      refine ⟨fun i => (manifestError config i (outcomes i)).getD
          (.runtimeError (metadataFailed ++ " on the writer rank")), metadataFailed, .inr hbad,
        hwrite.bind ((jointly_barrier _).bind ((jointly_allRanksSucceeded _ _).bind ?_))⟩
      simp only [decide_eq_true hall, if_true, ← Durable.wrote_wrote]
      exact jointly_persistCandidate_failed hartifacts hbad
    · right
      refine hwrite.bind ((jointly_barrier _).bind ((jointly_allRanksSucceeded _ _).bind ?_))
      simp only [decide_eq_true hall, if_true, ← Durable.wrote_wrote]
      exact jointly_persistCandidate hbad
  · left
    have hfailed : ∃ i e, outcomes i = .failed e := by
      obtain ⟨i, hi⟩ := not_forall.mp hall
      cases h : outcomes i with
      | failed e => exact ⟨i, e, h⟩
      | saved artifacts => exact absurd (by rw [h]; rfl) hi
      | unserializable => exact absurd (by rw [h]; rfl) hi
    refine ⟨fun i => (outcomes i).error?.getD (.runtimeError (writeFailed ++ " on another rank")),
      writeFailed, .inl hfailed, hwrite.bind ((jointly_barrier _).bind
        ((jointly_allRanksSucceeded _ _).bind ?_))⟩
    simp only [decide_eq_false hall, Bool.false_eq_true, if_false, ← Durable.wrote_wrote]
    refine Jointly.bind (jointly_writeStore _ _) ?_
    refine Jointly.bind (jointly_barrier _) ?_
    exact Jointly.raise _

/-- The spec of `begin_candidate` on the ranks of a job. -/
theorem jointly_beginCandidate {ds : Fin n → Durable} {pending : Option DurableCheckpointRecord}
    {epoch : Nat} (hds : Aligned ds pending epoch) (step : Int) (firstShapeIds : Fin n → String)
    (outcomes : Fin n → SaveOutcome) :
    ∃ as, Jointly jobCombine (fun i => beginCandidate config i step (firstShapeIds i)
        (outcomes i)) ds as ∧ Began config ds step firstShapeIds outcomes as := by
  let start : Fin n → CandidateStart := fun i =>
    ⟨config.shapePlanId, config.shapeIds, firstShapeIds i, config.environmentId⟩
  cases hpending : pending with
  | some candidate =>
      have hsome : ∀ i, (ds i).pending.isSome = true := by
        intro i
        have hi := hds.pending i
        rw [hpending] at hi
        rw [← Option.isSome_map, hi]
        rfl
      refine ⟨_, Jointly.bind Jointly.self ?_, .refused alreadyPending⟩
      simp only [hsome, if_true]
      exact Jointly.raise _
  | none =>
      have hnone : ∀ i, (ds i).pending = none := by
        intro i
        have hi := hds.pending i
        rw [hpending] at hi
        exact Option.map_eq_none_iff.mp hi
      have hgather := jointly_gatherStarts start ds
      cases hdiffer : (List.ofFn start).tail.any
          fun item => some item ≠ (List.ofFn start).head? with
      | true =>
          refine ⟨_, Jointly.bind Jointly.self ?_, .refused planDiffers⟩
          simp only [hnone, Option.isSome_none, Bool.false_eq_true, if_false]
          refine hgather.bind ?_
          simp only [hdiffer, if_true]
          exact Jointly.raise _
      | false =>
          have hfirst : ∀ i, firstShapeIds i = firstShapeIds 0 := fun i =>
            congrArg CandidateStart.firstShapeId ((gathered_differ start).mp hdiffer i)
          cases hexpected : rotateShapeIds config.shapeIds (firstShapeIds 0) with
          | none =>
              refine ⟨_, Jointly.bind Jointly.self ?_, .refused (notInPlan (firstShapeIds 0))⟩
              simp only [hnone, Option.isSome_none, Bool.false_eq_true, if_false]
              refine hgather.bind ?_
              simp only [hdiffer, Bool.false_eq_true, if_false, hfirst, hexpected]
              exact Jointly.raise _
          | some expected =>
              have hrecord : ∀ i, newRecord config step epoch expected =
                  newRecord config step (ds i).nextEpoch expected := by
                intro i
                rw [hds.epoch i]
              have hprog : ∀ {as}, Jointly jobCombine (fun i => writeCandidate config i
                  (newRecord config step epoch expected) (outcomes i)) ds as →
                  Jointly jobCombine (fun i => beginCandidate config i step (firstShapeIds i)
                    (outcomes i)) ds as := by
                intro as has
                refine Jointly.bind Jointly.self ?_
                simp only [hnone, Option.isSome_none, Bool.false_eq_true, if_false]
                refine hgather.bind ?_
                simp only [hdiffer, Bool.false_eq_true, if_false, hfirst, hexpected, ← hrecord]
                exact has
              have hartifacts : (newRecord config step epoch expected).artifacts = [] := rfl
              rcases jointly_writeCandidate config ds hartifacts outcomes with
                ⟨e, reason, hbad, hjoint⟩ | hjoint
              · exact ⟨_, hprog hjoint, .failed _ expected _ reason e hnone hfirst hexpected hrecord hbad⟩
              · exact ⟨_, hprog hjoint, .begun _ expected _ hnone hfirst hexpected hrecord⟩

/-! ## An observation -/

/-- A result that counts for the next shapes of a candidate: it is there and
clean, and it has checked those shapes. -/
def Counts (candidate : DurableCheckpointRecord) (result : Option ReplayResult)
    (checked : List String) : Prop :=
  ∃ r, result = some r ∧ replayResultHasSdc (some r) = false ∧ r.checkedShapeIds = checked ∧
    checked ≠ [] ∧ checked <+: candidate.expectedShapeIds.drop candidate.checkedShapes.length

theorem observation_eq_none_iff {candidate : DurableCheckpointRecord}
    {result : Option ReplayResult} {checked : List String} :
    observation candidate result = (none, checked) ↔ Counts candidate result checked := by
  cases result with
  | none =>
      refine iff_of_false (by simp [observation]) ?_
      rintro ⟨r, hr, -⟩
      cases hr
  | some r =>
      simp only [observation]
      constructor
      · intro h
        split at h
        · cases h
        · rename_i hclean
          split at h
          · cases h
          · rename_i hne
            split at h
            · cases h
            · rename_i hshapes
              cases h
              refine ⟨r, rfl, Bool.not_eq_true _ ▸ hclean, rfl, hne, ?_⟩
              rw [ne_eq, not_not] at hshapes
              exact List.prefix_iff_eq_take.mpr hshapes
      · rintro ⟨r', hr, hclean, rfl, hne, hpart⟩
        cases hr
        rw [if_neg (by simp [hclean]), if_neg hne,
          if_neg (not_not.mpr (List.prefix_iff_eq_take.mp hpart))]

/-- The committed record of a candidate. -/
def committedRecord (candidate : DurableCheckpointRecord) (step : Int) :
    DurableCheckpointRecord :=
  { candidate with
    status := .recoveryVerified, verdict := some "clean", completedStep := some step }

/-- How `observe` ends on the ranks of a job. -/
inductive Observed (config : DurableConfig n) (ds : Fin n → Durable)
    (results : Fin n → Option ReplayResult) (step : Int) :
    (Fin n → Except (CheckpointError × Durable) (DurableEvent × Durable)) → Prop where
  | none (hpending : ∀ i, (ds i).pending = none) :
      Observed config ds results step fun i => .ok (.none, ds i)
  | rejected (candidates : Fin n → DurableCheckpointRecord) (reason : String)
      (hpending : ∀ i, (ds i).pending = some (candidates i))
      (hno : ¬ ∃ checked, ∀ i, Counts (candidates i) (results i) checked) :
      Observed config ds results step fun i =>
        .ok (.rejected, (ds i).rejecting config i (candidates i) reason)
  | progress (candidates : Fin n → DurableCheckpointRecord) (checked : List String)
      (hpending : ∀ i, (ds i).pending = some (candidates i))
      (hcounts : ∀ i, Counts (candidates i) (results i) checked)
      (hcomplete : ∀ i, (checkedCandidate (candidates i) checked step).complete = false) :
      Observed config ds results step fun i =>
        .ok (.progress, { (ds i).wrote config i (ManifestStore.writePending
            (checkedCandidate (candidates i) checked step)) with
          pending := some (checkedCandidate (candidates i) checked step) })
  | committed (candidates : Fin n → DurableCheckpointRecord) (checked : List String)
      (hpending : ∀ i, (ds i).pending = some (candidates i))
      (hcounts : ∀ i, Counts (candidates i) (results i) checked)
      (hcomplete : ∀ i, (checkedCandidate (candidates i) checked step).complete = true) :
      Observed config ds results step fun i =>
        .ok (.committed, { (ds i).wrote config i (ManifestStore.commit
            (committedRecord (checkedCandidate (candidates i) checked step) step)) with
          latest := some (committedRecord (checkedCandidate (candidates i) checked step) step)
          pending := none })

omit [NeZero n] in
theorem Durable.wrote_setPending (rank : Fin n) (writes : List StoreWrite) (d : Durable)
    (pending : Option DurableCheckpointRecord) :
    ({ d with pending := pending } : Durable).wrote config rank writes =
      { d.wrote config rank writes with pending := pending } := by
  simp only [wrote]
  split <;> rfl

theorem jointly_advance (config : DurableConfig n) (ds : Fin n → Durable)
    (candidates : Fin n → DurableCheckpointRecord)
    (step : Int) {complete : Bool} (hcomplete : ∀ i, (candidates i).complete = complete) :
    Jointly jobCombine (fun i => advance config i (candidates i) step) ds
      fun i => .ok (if complete then (.committed,
          { (ds i).wrote config i (ManifestStore.commit (committedRecord (candidates i) step)) with
            latest := some (committedRecord (candidates i) step), pending := none })
        else (.progress,
          { (ds i).wrote config i (ManifestStore.writePending (candidates i)) with
            pending := some (candidates i) })) := by
  refine Jointly.bind (Jointly.assign _) ?_
  simp only [hcomplete]
  cases complete with
  | true =>
      simp only [if_true]
      have hcommit : Jointly jobCombine (fun i => commit config i (candidates i) step)
          (fun i => { ds i with pending := some (candidates i) }) fun i => .ok ((),
            { (ds i).wrote config i
                (ManifestStore.commit (committedRecord (candidates i) step)) with
              latest := some (committedRecord (candidates i) step), pending := none }) := by
        refine Jointly.bind (jointly_writeStore _ _) ?_
        refine Jointly.bind (jointly_barrier _) ?_
        simp only [Durable.wrote_setPending]
        exact Jointly.assign _
      exact hcommit.bind (Jointly.pure _)
  | false =>
      simp only [Bool.false_eq_true, if_false]
      refine Jointly.bind (jointly_writeStore _ _) ?_
      refine Jointly.bind (jointly_barrier _) ?_
      simp only [Durable.wrote_setPending]
      exact Jointly.pure _

omit [NeZero n] in
theorem findSome?_ofFn_eq_none {values : Fin n → Observation} :
    (List.ofFn values).findSome? (·.1) = none ↔ ∀ i, (values i).1 = none := by
  rw [List.findSome?_eq_none_iff]
  simp only [List.mem_ofFn, forall_exists_index, forall_apply_eq_imp_iff]

omit [NeZero n] in
/-- Whether the gathered shapes differ is the same question on every rank. -/
theorem any_ofFn_ne (values : Fin n → Observation) (i : Fin n) :
    ((List.ofFn values).any fun item => item.2 ≠ (values i).2) =
      decide (¬ ∀ j k, (values j).2 = (values k).2) := by
  rw [Bool.eq_iff_iff, List.any_eq_true, decide_eq_true_eq]
  simp only [List.mem_ofFn, decide_eq_true_eq]
  constructor
  · rintro ⟨_, ⟨j, rfl⟩, hj⟩ hall
    exact hj (hall j i)
  · intro hdiffer
    by_contra hno
    refine hdiffer fun j k => ?_
    have heq : ∀ j, (values j).2 = (values i).2 := by
      intro j
      by_contra hj
      exact hno ⟨_, ⟨j, rfl⟩, hj⟩
    rw [heq j, heq k]

omit [NeZero n] in
theorem Aligned.candidates {ds : Fin n → Durable} {candidate : DurableCheckpointRecord}
    {epoch : Nat} (hds : Aligned ds (some candidate) epoch) :
    ∃ candidates : Fin n → DurableCheckpointRecord,
      (∀ i, (ds i).pending = some (candidates i)) ∧ ∀ i, (candidates i).shared = candidate := by
  have hex : ∀ i, ∃ c, (ds i).pending = some c ∧ c.shared = candidate :=
    fun i => Option.map_eq_some_iff.mp (hds.pending i)
  choose candidates hpending hshared using hex
  exact ⟨candidates, hpending, hshared⟩

omit [NeZero n] in
theorem Aligned.none {ds : Fin n → Durable} {epoch : Nat} (hds : Aligned ds none epoch) (i : Fin n) :
    (ds i).pending = none :=
  Option.map_eq_none_iff.mp (hds.pending i)

/-- **The spec of `observe`** on the ranks of a job. -/
theorem jointly_observe {ds : Fin n → Durable} {pending : Option DurableCheckpointRecord}
    {epoch : Nat} (hds : Aligned ds pending epoch) (results : Fin n → Option ReplayResult)
    (step : Int) :
    ∃ as, Jointly jobCombine (fun i => observe config i (results i) step) ds as ∧
      Observed config ds results step as := by
  cases pending with
  | none =>
      refine ⟨_, Jointly.bind Jointly.self ?_, .none hds.none⟩
      simp only [hds.none]
      exact Jointly.pure _
  | some candidate =>
      obtain ⟨candidates, hpending, hshared⟩ := hds.candidates
      let own : Fin n → Observation := fun i => observation (candidates i) (results i)
      have hgather := jointly_gatherObservations own ds
      have hown : ∀ {checked}, (∀ i, Counts (candidates i) (results i) checked) →
          ∀ i, own i = (none, checked) := fun h i => observation_eq_none_iff.mpr (h i)
      cases hfirst : (List.ofFn own).findSome? (·.1) with
      | some rejection =>
          refine ⟨_, Jointly.bind Jointly.self ?_, .rejected candidates rejection hpending ?_⟩
          · simp only [hpending]
            refine hgather.bind ?_
            simp only [hfirst]
            exact (jointly_reject hpending _).bind (Jointly.pure _)
          · rintro ⟨checked, hcounts⟩
            rw [findSome?_ofFn_eq_none.mpr fun i => by rw [hown hcounts i]] at hfirst
            cases hfirst
      | none =>
          have hclean := findSome?_ofFn_eq_none.mp hfirst
          by_cases hsame : ∀ j k, (own j).2 = (own k).2
          · -- every rank has checked the same shapes, the next ones of the plan
            have hcounts : ∀ i, Counts (candidates i) (results i) (own 0).2 := by
              intro i
              refine observation_eq_none_iff.mp (Prod.ext (hclean i) (hsame i 0))
            have hdiffer : decide (¬ ∀ j k, (own j).2 = (own k).2) = false :=
              decide_eq_false (not_not.mpr hsame)
            have hcomplete : ∀ i, (checkedCandidate (candidates i) (own 0).2 step).complete =
                (checkedCandidate candidate (own 0).2 step).complete := by
              intro i
              rw [← hshared i]
              rfl
            have hadvance := jointly_advance config ds
              (fun i => checkedCandidate (candidates i) (own 0).2 step) step hcomplete
            have hjoint : ∀ {as}, Jointly jobCombine (fun i => advance config i
                (checkedCandidate (candidates i) (own 0).2 step) step) ds as →
                Jointly jobCombine (fun i => observe config i (results i) step) ds as := by
              intro as has
              refine Jointly.bind Jointly.self ?_
              simp only [hpending]
              refine hgather.bind ?_
              simp only [hfirst]
              simp only [show ∀ i, observation (candidates i) (results i) = own i from
                fun _ => rfl, any_ofFn_ne, hdiffer, Bool.false_eq_true, if_false]
              simp only [hsame _ 0]
              exact has
            refine ⟨_, hjoint hadvance, ?_⟩
            cases hdone : (checkedCandidate candidate (own 0).2 step).complete with
            | true => exact .committed candidates _ hpending hcounts fun i => (hcomplete i).trans hdone
            | false => exact .progress candidates _ hpending hcounts fun i => (hcomplete i).trans hdone
          · have hdiffer : decide (¬ ∀ j k, (own j).2 = (own k).2) = true := decide_eq_true hsame
            refine ⟨_, Jointly.bind Jointly.self ?_, .rejected candidates
              "SCOUT checked different replay shapes across checkpoint ranks" hpending ?_⟩
            · simp only [hpending]
              refine hgather.bind ?_
              simp only [hfirst]
              simp only [show ∀ i, observation (candidates i) (results i) = own i from
                fun _ => rfl, any_ofFn_ne, hdiffer, if_true]
              exact (jointly_reject hpending _).bind (Jointly.pure _)
            · rintro ⟨checked, hcounts⟩
              exact hsame fun j k => by rw [hown hcounts j, hown hcounts k]

end LmResiliency.Checkpointing
