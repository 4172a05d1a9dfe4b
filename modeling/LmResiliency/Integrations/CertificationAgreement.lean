/-
# CertificationAgreement — one decision about a checkpoint in the whole job

Corruption that any rank has seen rejects the candidates of all ranks, when
every rank has a result.  All ranks take one branch of `apply_result`, and
what is captured, persisted or started is captured, persisted or started on
the evidence of all ranks.

The main results are `sdc_rejects_iff` and `apply_result_one_branch`.  The
replays themselves are parameters: a rank has a result or has none.
-/
import LmResiliency.Integrations.CertificationGroup

namespace LmResiliency.Integrations

open Lockstep Detection Checkpointing

variable {n : Nat} [NeZero n] {config : CertificationConfig n}

/-! ## Corruption on some rank

`apply_result` looks first whether a result is missing. -/

variable {step : Int} {inputs : Fin n → CertificationInputs} {force full : Bool}

/-- The results of a job. -/
def resultsOf (inputs : Fin n → CertificationInputs) (i : Fin n) : Option ReplayResult :=
  (inputs i).replayResult

theorem jointly_applyResult_missing {ws : Fin n → Certification}
    (hmissing : ¬ ∀ i, (resultsOf inputs i).isSome = true) :
    Jointly jobCombine (fun i => applyResult config i step (inputs i) force full) ws
      fun i => .ok ((), ws i) := by
  refine (jointly_globalReplayConsensus (resultsOf inputs) ws).bind ?_
  simp only [consensusOf, decide_eq_false hmissing, Bool.false_eq_true, not_false_iff, if_true]
  exact Jointly.pure fun _ => ()

theorem jointly_applyResult_sdc {ws : Fin n → Certification} (hws : Certifying config ws)
    (havailable : ∀ i, (resultsOf inputs i).isSome = true)
    (hsdc : ∃ i, replayResultHasSdc (resultsOf inputs i) = true) :
    Jointly jobCombine (fun i => applyResult config i step (inputs i) force full) ws
      fun i => .ok ((), managerRejected config
        (durableRejected config i "SCOUT detected numerical divergence" (ws i))) := by
  refine (jointly_globalReplayConsensus (resultsOf inputs) ws).bind ?_
  simp only [consensusOf, decide_eq_true havailable, decide_eq_true hsdc, not_true, if_false,
    if_true]
  exact jointly_rejectCandidate hws _

/-- A rank when `apply_result` is called. -/
def entered (statuses : Fin n → CheckpointStatusStore) (durables : Fin n → Durable) (i : Fin n) :
    Certification := ⟨statuses i, durables i, []⟩

/-- The durable coordinators are those of a job that is running. -/
def Reached (config : CertificationConfig n) (durables : Fin n → Durable) : Prop :=
  ∀ durable ∈ config.durableCheckpoint, ∃ job run, JobRun (fun _ _ => True) job ∧
    job.running = some run ∧ run.config = durable ∧ run.ranks = durables

theorem Reached.certifying {durables : Fin n → Durable} (h : Reached config durables)
    (statuses : Fin n → CheckpointStatusStore) : Certifying config (entered statuses durables) := by
  intro hsome
  obtain ⟨durable, hdurable⟩ := Option.isSome_iff_exists.mp hsome
  obtain ⟨job, run, hjob, hrunning, -, hranks⟩ := h durable hdurable
  have hinv : JobInv False job := hjob.inv fun hfalse => hfalse.elim
  show ∃ pending epoch, Aligned durables pending epoch
  rw [← hranks]
  exact (hinv.running run hrunning).aligned

/-- All ranks have rejected what they had: no candidate is left, the mode is
the verified one, a durable candidate that was pending is rejected, and
nothing was captured. -/
structure RejectedEverywhere (config : CertificationConfig n) (before after : Fin n → Certification) :
    Prop where
  candidate : config.checkpointManager = true → ∀ i, (after i).status.read.candidateStep ≤ 0
  mode : config.checkpointManager = true → ∀ i,
    (after i).status.read.recoveryMode = RecoveryMode.recoveryVerified.value
  pending : config.durableCheckpoint.isSome = true → ∀ i, (after i).durable.pending = none
  rejected : ∀ durable ∈ config.durableCheckpoint, ∀ candidate,
    (before durable.writerRank).durable.pending = some candidate → ∃ reason,
      .record (rejectedRecord candidate reason) ∈ (after durable.writerRank).durable.written
  captured : ∀ i, .capture ∉ (after i).calls

/-- There is nothing to reject on any rank. -/
structure NothingToReject (config : CertificationConfig n) (ws : Fin n → Certification) :
    Prop where
  candidate : config.checkpointManager = true → ∀ i, (ws i).status.read.candidateStep ≤ 0
  mode : config.checkpointManager = true → ∀ i,
    (ws i).status.read.recoveryMode = RecoveryMode.recoveryVerified.value
  pending : config.durableCheckpoint.isSome = true → ∀ i, (ws i).durable.pending = none

variable {statuses : Fin n → CheckpointStatusStore} {durables : Fin n → Durable}

omit [NeZero n] in
theorem rejectedEverywhere_refl :
    RejectedEverywhere config (entered statuses durables) (entered statuses durables) ↔
      NothingToReject config (entered statuses durables) := by
  constructor
  · intro h
    exact ⟨h.candidate, h.mode, h.pending⟩
  · intro h
    refine ⟨h.candidate, h.mode, h.pending, fun durable hdurable candidate hpending => ?_,
      fun i => List.not_mem_nil⟩
    have hnone := h.pending (Option.isSome_iff_exists.mpr ⟨durable, hdurable⟩) durable.writerRank
    rw [hpending] at hnone
    cases hnone

omit [NeZero n] in
theorem rejectedEverywhere_rejected (reason : String) :
    RejectedEverywhere config (entered statuses durables) fun i =>
      managerRejected config (durableRejected config i reason (entered statuses durables i)) := by
  have hstatus : config.checkpointManager = true → ∀ i, (managerRejected config
      (durableRejected config i reason (entered statuses durables i))).status =
        (statuses i).rejectCandidate := by
    intro h i
    rw [managerRejected, managed, if_pos h]
    show (durableRejected config i reason _).status.rejectCandidate = _
    rw [durableRejected]
    split <;> rfl
  have hdurable : ∀ durable ∈ config.durableCheckpoint, ∀ i, (managerRejected config
      (durableRejected config i reason (entered statuses durables i))).durable =
        discarded durable i reason (durables i) := by
    intro durable hmem i
    rw [managerRejected, managed_durable, durableRejected, hmem]
    rfl
  refine ⟨fun h i => ?_, fun h i => ?_, fun h i => ?_, fun durable hmem candidate hpending => ?_,
    fun i => ?_⟩
  · rw [hstatus h, (statuses i).read_rejectCandidate.1]
    decide
  · rw [hstatus h, (statuses i).read_rejectCandidate.2]
  · obtain ⟨durable, hmem⟩ := Option.isSome_iff_exists.mp h
    rw [hdurable durable hmem i, discarded]
    split
    · assumption
    · rfl
  · refine ⟨reason, ?_⟩
    rw [hdurable durable hmem, discarded,
      show (durables durable.writerRank).pending = some candidate from hpending]
    show _ ∈ ((durables durable.writerRank).wrote durable durable.writerRank _).written
    rw [Durable.wrote_written]
    exact List.mem_append_right _ List.mem_cons_self
  · rw [managerRejected, managed_calls, durableRejected_calls, managerCalls, durableCalls]
    split <;> split <;> simp [entered]

/-- **Corruption on some rank rejects everywhere**, exactly when every rank has a
result, or there is nothing to reject. -/
theorem sdc_rejects_iff (hreached : Reached config durables) (step : Int)
    (inputs : Fin n → CertificationInputs) (force full : Bool)
    (hsdc : ∃ i, replayResultHasSdc (resultsOf inputs i) = true) :
    ∃ as, Jointly jobCombine (fun i => applyResult config i step (inputs i) force full)
        (entered statuses durables) as ∧
      (RejectedEverywhere config (entered statuses durables) (fun i => attributes (as i)) ↔
        (∀ i, (resultsOf inputs i).isSome = true) ∨
          NothingToReject config (entered statuses durables)) := by
  by_cases havailable : ∀ i, (resultsOf inputs i).isSome = true
  · exact ⟨_, jointly_applyResult_sdc (hreached.certifying statuses) havailable hsdc,
      iff_of_true (rejectedEverywhere_rejected _) (.inl havailable)⟩
  · refine ⟨_, jointly_applyResult_missing havailable, ?_⟩
    show RejectedEverywhere config _ (entered statuses durables) ↔ _
    rw [rejectedEverywhere_refl, or_iff_right havailable]

/-! ### Two ranks -/

/-- A job with a manager and no durable coordinator. -/
def sampleJob : CertificationConfig 2 where
  checkpointManager := true
  replayHarness := true
  durableCheckpoint := none
  cadence := ⟨10, true, true, fun _ => by decide⟩

/-- A rank whose candidate is step 10. -/
def sampleStatus (i : Fin 2) : CheckpointStatusStore where
  rank := i
  runId := "run"
  topologyId := "topology"
  files := [(i, ⟨"run", "topology", .new 10 (-1) ∅ "latest" CheckpointStatus.empty_pos⟩)]
  legacy := none

/-- A result with corruption. -/
def corruptResult : ReplayResult where
  sdcBitmap := [0, 1]
  checkedShapeIds := ["small"]
  completedShapeCycle := true
  completedScheduledCycle := true
  denseReplay := false
  c3Results := []

def sampleInputs (result : Option ReplayResult) : CertificationInputs where
  replayResult := result
  firstShapeId := "small"
  saveError := none
  boundaryStep := .ok 20
  boundaryError := none
  saveCandidate := .saved []

/-- Corruption on rank 1, and what rank 0 has. -/
def sampleDivergence (result : Option ReplayResult) : Fin 2 → CertificationInputs :=
  ![sampleInputs result, sampleInputs (some corruptResult)]

theorem sampleDivergence_sdc (result : Option ReplayResult) :
    ∃ i, replayResultHasSdc (resultsOf (sampleDivergence result) i) = true := ⟨1, rfl⟩

theorem sampleJob_reached (durables : Fin 2 → Durable) : Reached sampleJob durables :=
  fun _ h => nomatch h

/-- Both ranks have a result. -/
theorem sdc_rejects_iff_sample :
    ∃ as, Jointly jobCombine (fun i => applyResult sampleJob i 20
        (sampleDivergence (some corruptResult) i) false false)
        (entered sampleStatus fun _ => ⟨none, none, 1, []⟩) as ∧
      RejectedEverywhere sampleJob (entered sampleStatus fun _ => ⟨none, none, 1, []⟩)
        fun i => attributes (as i) := by
  obtain ⟨as, hjoint, hiff⟩ := sdc_rejects_iff (sampleJob_reached _) 20
    (sampleDivergence (some corruptResult)) false false (sampleDivergence_sdc _)
  exact ⟨as, hjoint, hiff.mpr (.inl (Fin.forall_fin_two.mpr ⟨rfl, rfl⟩))⟩

/-- The result of rank 0 is missing: the candidates stay where they are. -/
theorem sdc_with_missing_result :
    ¬ ∀ (n : Nat) [NeZero n] (config : CertificationConfig n)
      (statuses : Fin n → CheckpointStatusStore) (durables : Fin n → Durable),
      Reached config durables → ∀ (step : Int) (inputs : Fin n → CertificationInputs)
        (force full : Bool), (∃ i, replayResultHasSdc (resultsOf inputs i) = true) →
        ∃ as, Jointly jobCombine (fun i => applyResult config i step (inputs i) force full)
            (entered statuses durables) as ∧
          RejectedEverywhere config (entered statuses durables) fun i => attributes (as i) := by
  intro h
  obtain ⟨as, hjoint, hrejected⟩ := h 2 sampleJob sampleStatus (fun _ => ⟨none, none, 1, []⟩)
    (sampleJob_reached _) 20 (sampleDivergence none) false false (sampleDivergence_sdc _)
  have hmissing : ¬ ∀ i, (resultsOf (sampleDivergence none) i).isSome = true := fun hall =>
    Bool.false_ne_true (hall 0)
  rw [hjoint.unique (jointly_applyResult_missing hmissing)] at hrejected
  have hcandidate := hrejected.candidate rfl 0
  have hten : (sampleStatus 0).read.candidateStep = 10 := by decide
  exact absurd (hten ▸ hcandidate) (by decide)

/-! ## One branch for all ranks -/

/-- Code of a single rank raises on it. -/
def LocalFailure (inputs : CertificationInputs) : Prop :=
  inputs.saveError.isSome = true ∨ (∃ e, inputs.boundaryStep = .error e) ∨
    inputs.boundaryError.isSome = true

/-- All ranks make the calls of one script, in its order: to its end when no
rank raises by itself, and then they all return or all raise. -/
structure OneBranch (inputs : Fin n → CertificationInputs) (script : List Call)
    (as : Fin n → Except (CheckpointError × Certification) (Unit × Certification)) : Prop where
  follows : ∀ i, (attributes (as i)).calls <+: script
  together : (∀ i, ¬ LocalFailure (inputs i)) → Uniform script as

/-- The evidence that a call rests on. -/
def Grounded (results : Fin n → Option ReplayResult) : Call → Prop
  | .capture => ∀ i, ∃ r, results i = some r ∧ replayResultHasSdc (some r) = false
  | .persistBoundary _ | .beginCandidate =>
      ∀ i, ∃ r, results i = some r ∧ r.completedScheduledCycle = true
  | _ => True

/-- The ranks go on from the calls `base` in one branch, on the evidence of all. -/
def TakesBranch (inputs : Fin n → CertificationInputs) (base : List Call)
    (ms : Fin n → CertificationM Unit) (ws : Fin n → Certification) : Prop :=
  ∃ as tail, Goes jobCombine (fun i => ms i (ws i)) as ∧ OneBranch inputs (base ++ tail) as ∧
    ∀ call ∈ tail, Grounded (resultsOf inputs) call

omit [NeZero n] in
theorem Uniform.calls {script : List Call}
    {as : Fin n → Except (CheckpointError × Certification) (Unit × Certification)}
    (h : Uniform script as) (i : Fin n) : (attributes (as i)).calls = script := by
  cases h with
  | returned a ws h => exact h i
  | raised e ws h => exact h i

omit [NeZero n] in
theorem Uniform.oneBranch {script : List Call}
    {as : Fin n → Except (CheckpointError × Certification) (Unit × Certification)}
    (h : Uniform script as) : OneBranch inputs script as :=
  ⟨fun i => by rw [h.calls i], fun _ => h⟩

namespace TakesBranch

variable {base : List Call} {ms : Fin n → CertificationM Unit} {ws : Fin n → Certification}

theorem of_goes {as : Fin n → Except (CheckpointError × Certification) (Unit × Certification)}
    (tail : List Call) (h : Goes jobCombine (fun i => ms i (ws i)) as)
    (huniform : Uniform (base ++ tail) as)
    (htail : ∀ call ∈ tail, Grounded (resultsOf inputs) call) : TakesBranch inputs base ms ws :=
  ⟨as, tail, h, huniform.oneBranch, htail⟩

theorem pure (hbase : ∀ i, (ws i).calls = base) :
    TakesBranch inputs base (fun _ => Pure.pure ()) ws :=
  of_goes [] (Jointly.pure _).goes
    (.returned (fun _ => ()) ws fun i => by rw [hbase i, List.append_nil])
    fun _ h => absurd h List.not_mem_nil

/-- Some calls that all ranks have made, and what follows them. -/
theorem after (first : List Call) (hfirst : ∀ call ∈ first, Grounded (resultsOf inputs) call)
    (h : TakesBranch inputs (base ++ first) ms ws) : TakesBranch inputs base ms ws := by
  obtain ⟨as, tail, hgoes, hbranch, htail⟩ := h
  refine ⟨as, first ++ tail, hgoes, List.append_assoc .. ▸ hbranch, fun call hcall => ?_⟩
  rcases List.mem_append.mp hcall with hcall | hcall
  · exact hfirst call hcall
  · exact htail call hcall

theorem bind {α : Type} {ms : Fin n → CertificationM α} {f : Fin n → α → CertificationM Unit}
    {a : Fin n → α} {ws' : Fin n → Certification}
    (h : Goes jobCombine (fun i => ms i (ws i)) fun i => .ok (a i, ws' i))
    (h' : TakesBranch inputs base (fun i => f i (a i)) ws') :
    TakesBranch inputs base (fun i => ms i >>= f i) ws := by
  obtain ⟨as, tail, hgoes, hrest⟩ := h'
  exact ⟨as, tail, goes_bind_ok h hgoes, hrest⟩

/-- **A first method that some rank raises in**: the others follow a script alone. -/
theorem bind_raised {α : Type} {ms : Fin n → CertificationM α}
    {f : Fin n → α → CertificationM Unit} {outcomes : Fin n → Except CheckpointError α}
    {before after : Fin n → Certification} (tail : List Call)
    (h : Goes jobCombine (fun i => ms i (ws i)) fun i => raised (outcomes i) (before i) (after i))
    {i : Fin n} {e : CheckpointError} (hi : outcomes i = .error e)
    (hlocal : LocalFailure (inputs i))
    (hbefore : ∀ j, (before j).calls <+: base ++ tail)
    (halone : n ≠ 1 → ∀ j a, outcomes j = .ok a → ∃ b, severed (f j a (after j)) = some b ∧
      (attributes b).calls <+: base ++ tail)
    (htail : ∀ call ∈ tail, Grounded (resultsOf inputs) call) :
    TakesBranch inputs base (fun i => ms i >>= f i) ws := by
  have hends : ∀ j, ∃ b, (∀ a, outcomes j = .ok a → severed (f j a (after j)) = some b) ∧
      (∀ e, outcomes j = .error e → b = .error (e, before j)) ∧
      (attributes b).calls <+: base ++ tail := by
    intro j
    cases hj : outcomes j with
    | ok a =>
        have hn : n ≠ 1 := by
          rintro rfl
          rw [Subsingleton.elim i j, hj] at hi
          cases hi
        obtain ⟨b, hb, hcalls⟩ := halone hn j a hj
        exact ⟨b, fun a' ha' => by cases ha'; exact hb, fun _ h => (nomatch h), hcalls⟩
    | error e =>
        exact ⟨.error (e, before j), fun _ h => (nomatch h), fun e' he' => by cases he'; rfl,
          hbefore j⟩
  choose as hok herror hcalls using hends
  refine ⟨as, tail, goes_bind_raised h (i := i) (e := (e, before i)) (by rw [hi]; rfl)
    (fun j a w hj => ?_) (fun j x hj => ?_), ⟨hcalls, fun hno => absurd hlocal (hno i)⟩, htail⟩
  · obtain ⟨houtcome, rfl⟩ := raised_eq_ok hj
    exact hok j a houtcome
  · obtain ⟨houtcome, hx⟩ := raised_eq_error hj
    rw [herror j x.1 houtcome, ← hx]

end TakesBranch

/-! ### The parts of `apply_result` -/

section Branches

variable {ws : Fin n → Certification} {base : List Call} {results : Fin n → ReplayResult}
  {dense : Bool}

/-- What each rank's result is, when none is missing. -/
structure Clean (inputs : Fin n → CertificationInputs) (results : Fin n → ReplayResult) :
    Prop where
  available : ∀ i, resultsOf inputs i = some (results i)
  clean : ∀ i, replayResultHasSdc (some (results i)) = false

/-- The scheduled cycle is complete on every rank. -/
def Complete (results : Fin n → ReplayResult) : Prop :=
  ∀ i, (results i).completedScheduledCycle = true

omit [NeZero n] in
theorem Clean.grounded (hclean : Clean inputs results) {call : Call}
    (h : ¬ ((∃ v, call = .persistBoundary v) ∨ call = .beginCandidate)) :
    Grounded (resultsOf inputs) call := by
  cases call with
  | capture => exact fun i => ⟨results i, hclean.available i, hclean.clean i⟩
  | persistBoundary v => exact absurd (.inl ⟨v, rfl⟩) h
  | beginCandidate => exact absurd (.inr rfl) h
  | observe => trivial
  | rejectDurable => trivial
  | rejectCandidate => trivial
  | clearCandidate => trivial

omit [NeZero n] in
theorem Clean.grounded_complete (hclean : Clean inputs results) (hcomplete : Complete results)
    (call : Call) : Grounded (resultsOf inputs) call := by
  by_cases h : (∃ v, call = .persistBoundary v) ∨ call = .beginCandidate
  · rcases h with ⟨v, rfl⟩ | rfl
    · exact fun i => ⟨results i, hclean.available i, hcomplete i⟩
    · exact fun i => ⟨results i, hclean.available i, hcomplete i⟩
  · exact hclean.grounded h

theorem takesBranch_startDurable (hws : Certifying config ws)
    (hbase : ∀ i, (ws i).calls = base) (hdense : ∀ i, (results i).denseReplay = dense)
    (hclean : Clean inputs results) (hcomplete : Complete results) :
    TakesBranch inputs base
      (fun i => startDurable config i step (inputs i) force (results i)) ws := by
  obtain ⟨as, tail, hjoint, huniform, -⟩ :=
    jointly_startDurable hws hbase step inputs force hdense
  exact .of_goes tail hjoint.goes huniform fun call _ => hclean.grounded_complete hcomplete call

theorem takesBranch_acceptBoundary (hws : Certifying config ws)
    (hbase : ∀ i, (ws i).calls = base) (hdense : ∀ i, (results i).denseReplay = dense)
    (hclean : Clean inputs results) (hcomplete : Complete results) :
    TakesBranch inputs base
      (fun i => acceptBoundary config i step (inputs i) force (results i)) ws := by
  have hground : ∀ (tail : List Call), ∀ call ∈ tail, Grounded (resultsOf inputs) call :=
    fun _ call _ => hclean.grounded_complete hcomplete call
  simp only [acceptBoundary, hdense]
  cases hsaves : saves config step force with
  | false =>
      simp only [Bool.false_eq_true, if_false]
      exact takesBranch_startDurable hws hbase hdense hclean hcomplete
  | true =>
      simp only [if_true]
      rcases goes_persistBoundary step inputs dense ws with ⟨e, hgoes⟩ | hgoes
      · refine ⟨_, [.persistBoundary dense], goes_bind_raised hgoes (i := 0) rfl
          (fun j a w hj => by cases hj) (fun j x hj => hj), ?_, hground _⟩
        refine (Uniform.raised e _ fun i => ?_).oneBranch
        rw [← hbase i]
        rfl
      · rcases exists_error_or_ok fun i => outcomeOf (inputs i).boundaryError with
          ⟨i, e, hi⟩ | ⟨_, hall⟩
        · have hcalls : ∀ i, (noted (.persistBoundary dense) (ws i)).calls =
              base ++ [.persistBoundary dense] := by
            intro i
            rw [← hbase i]
            rfl
          refine .bind_raised (.persistBoundary dense :: loneStart config step force)
            hgoes hi (.inr (.inr ?_)) (fun j => ?_) (fun hn j a hj => ?_) (hground _)
          · cases h : (inputs i).boundaryError with
            | none =>
                rw [h] at hi
                cases hi
            | some e => rfl
          · rw [hcalls j]
            exact List.prefix_append_right_inj _ |>.mpr (List.prefix_append [_] _)
          · obtain ⟨b, hb, hbcalls⟩ := severed_startDurable hn j step (inputs j) force (results j)
              (persisted step dense (ws j))
            refine ⟨b, hb, ?_⟩
            rw [hbcalls, ← hbase j]
            simp [persisted, noted]
        · simp only [hall] at hgoes
          refine .after [.persistBoundary dense] (hground _) (.bind hgoes ?_)
          refine takesBranch_startDurable (fun h => hws h) (fun i => ?_) hdense hclean hcomplete
          rw [← hbase i]
          rfl

/-- A rejection rests on no evidence that is not there. -/
theorem takesBranch_rejectManager (hbase : ∀ i, (ws i).calls = base) :
    TakesBranch inputs base (fun _ => rejectManager config) ws := by
  refine .of_goes (managerCalls config .rejectCandidate) (jointly_rejectManager config ws).goes
    (.returned (fun _ => ()) _ fun i => ?_) fun call hcall => ?_
  · rw [managerRejected, managed_calls, hbase i]
  · rw [eq_of_mem_managerCalls config hcall]
    trivial

theorem takesBranch_rejectCandidate (hws : Certifying config ws)
    (hbase : ∀ i, (ws i).calls = base) (reason : String) :
    TakesBranch inputs base (fun i => rejectCandidate config i reason) ws := by
  refine .after (durableCalls config) (fun call hcall => ?_)
    (.bind (jointly_rejectDurable hws reason).goes
      (takesBranch_rejectManager fun i => by rw [durableRejected_calls, hbase i]))
  rw [durableCalls] at hcall
  split at hcall
  · rw [List.mem_singleton.mp hcall]
    trivial
  · exact absurd hcall List.not_mem_nil

theorem takesBranch_certify (hws : Certifying config ws)
    (hbase : ∀ i, (ws i).calls = base) (hdense : ∀ i, (results i).denseReplay = dense)
    (hclean : Clean inputs results) (consensus : ReplayConsensus)
    (hcomplete : consensus.scheduledCycleComplete = true → Complete results) :
    TakesBranch inputs base
      (fun i => certify config i step (inputs i) force (results i) consensus) ws := by
  obtain ⟨event, ws', tail, hobserve, hcalls, htail, hws'⟩ :=
    jointly_observePending hws hbase step results
  refine .after tail (fun call hcall => ?_) (.bind hobserve.goes ?_)
  · rw [htail call hcall]
    trivial
  · by_cases hrejected : event = .rejected
    · simp only [hrejected, if_true]
      exact takesBranch_rejectManager hcalls
    · simp only [hrejected, if_false]
      cases hdone : consensus.scheduledCycleComplete with
      | false =>
          simp only [Bool.false_eq_true, if_false]
          exact .pure hcalls
      | true =>
          simp only [if_true]
          obtain ⟨b, hb⟩ := hws'.hasPending
          refine .bind Jointly.self.goes ?_
          by_cases hstill : b = true ∧ event ≠ .committed
          · simp only [hb, if_pos hstill]
            exact takesBranch_rejectCandidate hws' hcalls cycleEnded
          · simp only [hb, if_neg hstill]
            exact takesBranch_acceptBoundary hws' hcalls hdense hclean (hcomplete hdone)

omit [NeZero n] in
/-- What a rank does alone rests on the evidence of all. -/
theorem Clean.grounded_lone (hclean : Clean inputs results) {complete pending : Bool}
    (hcomplete : complete = true → Complete results) {call : Call}
    (hcall : call ∈ loneCalls dense complete pending) : Grounded (resultsOf inputs) call := by
  rw [loneCalls] at hcall
  split at hcall
  · rw [List.mem_singleton.mp hcall]
    trivial
  · split at hcall
    · exact hclean.grounded_complete (hcomplete ‹_›) call
    · exact absurd hcall List.not_mem_nil

theorem takesBranch_accept (hws : Certifying config ws)
    (hbase : ∀ i, (ws i).calls = base) (hdense : ∀ i, (results i).denseReplay = dense)
    (hclean : Clean inputs results) (consensus : ReplayConsensus)
    (hcomplete : consensus.scheduledCycleComplete = true → Complete results) :
    TakesBranch inputs base
      (fun i => accept config i step (inputs i) force (results i) consensus) ws := by
  cases hsaves : saves config step force with
  | false =>
      simp only [accept, hsaves, Bool.false_eq_true, if_false]
      exact takesBranch_certify hws hbase hdense hclean consensus hcomplete
  | true =>
      simp only [accept, hsaves, if_true]
      have hcalls : ∀ i, (noted .capture (ws i)).calls = base ++ [.capture] := by
        intro i
        rw [← hbase i]
        rfl
      have hws' : Certifying config fun i => noted .capture (ws i) := fun h => hws h
      have hsave : Goes jobCombine (fun i => saveCheckpoint (inputs i) (ws i)) fun i =>
          raised (outcomeOf (inputs i).saveError) (noted .capture (ws i))
            (noted .capture (ws i)) :=
        goes_bind_ok (jointly_note .capture ws).goes (goes_raising _ _)
      have hcapture : Grounded (resultsOf inputs) .capture :=
        fun i => ⟨results i, hclean.available i, hclean.clean i⟩
      rcases exists_error_or_ok fun i => outcomeOf (inputs i).saveError with ⟨i, e, hi⟩ | ⟨_, hall⟩
      · obtain ⟨b, hb⟩ := hws'.hasPending
        refine .bind_raised (.capture :: loneCalls dense consensus.scheduledCycleComplete b)
          hsave hi (.inl ?_) (fun j => ?_) (fun hn j _ hj => ?_) fun call hcall => ?_
        · cases h : (inputs i).saveError with
          | none =>
              rw [h] at hi
              cases hi
          | some e => rfl
        · rw [hcalls j]
          exact (List.prefix_append_right_inj _).mpr (List.prefix_append [_] _)
        · obtain ⟨lone, hlone, hlonecalls⟩ := severed_certify hn j step (inputs j) hsaves
            (results j) consensus (noted .capture (ws j))
          refine ⟨lone, hlone, ?_⟩
          rw [hlonecalls, hcalls j, hb j, hdense j, List.append_assoc]
          exact List.prefix_rfl
        · rcases List.mem_cons.mp hcall with rfl | hcall
          · exact hcapture
          · exact hclean.grounded_lone hcomplete hcall
      · simp only [hall] at hsave
        refine .after [.capture] (fun call hcall => List.mem_singleton.mp hcall ▸ hcapture)
          (.bind hsave ?_)
        exact takesBranch_certify hws' hcalls hdense hclean consensus hcomplete

end Branches

omit [NeZero n] in
theorem complete_of_consensus {results : Fin n → ReplayResult}
    (h : ∀ i, resultsOf inputs i = some (results i))
    (hcomplete : (consensusOf (resultsOf inputs)).scheduledCycleComplete = true) :
    Complete results := by
  intro i
  have hno := (of_decide_eq_true hcomplete).2
  by_contra hi
  refine hno ⟨i, ?_⟩
  rw [h i]
  simpa using hi

variable (step) (inputs) (force) (full) in
theorem takesBranch_applyResult {ws : Fin n → Certification} (hws : Certifying config ws)
    (hcalls : ∀ i, (ws i).calls = []) {dense : Bool}
    (hdense : ∀ i r, resultsOf inputs i = some r → r.denseReplay = dense) :
    TakesBranch inputs [] (fun i => applyResult config i step (inputs i) force full) ws := by
  refine .bind (jointly_globalReplayConsensus (resultsOf inputs) ws).goes ?_
  by_cases havailable : (consensusOf (resultsOf inputs)).allResultsAvailable = true
  · have hresults : ∀ i, ∃ r, resultsOf inputs i = some r := fun i =>
      Option.isSome_iff_exists.mp (of_decide_eq_true havailable i)
    choose results hresults using hresults
    simp only [havailable, not_true, if_false]
    cases hsdc : (consensusOf (resultsOf inputs)).anySdc with
    | true =>
        simp only [if_true]
        exact takesBranch_rejectCandidate hws hcalls _
    | false =>
        have hclean : Clean inputs results := by
          refine ⟨hresults, fun i => ?_⟩
          rw [← hresults i]
          exact Bool.not_eq_true _ ▸ fun h => of_decide_eq_false hsdc ⟨i, h⟩
        simp only [Bool.false_eq_true, if_false]
        by_cases hsweep : full = true ∧
            ¬ (consensusOf (resultsOf inputs)).allShapeCyclesComplete = true
        · simp only [if_pos hsweep]
          exact .pure hcalls
        · simp only [if_neg hsweep]
          by_cases hagree : (consensusOf (resultsOf inputs)).scheduledCyclesAgree = true
          · simp only [hagree, not_true, if_false,
              show ∀ i, (inputs i).replayResult = some (results i) from hresults]
            exact takesBranch_accept hws hcalls (fun i => hdense i _ (hresults i)) hclean _
              (complete_of_consensus hresults)
          · simp only [hagree]
            exact .of_goes [] (Jointly.raise _).goes (.raised (fun _ => schedulersDisagree) ws hcalls)
              fun _ h => absurd h List.not_mem_nil
  · simp only [havailable]
    exact .pure hcalls

/-- **All ranks take one branch of `apply_result`**; a checkpoint is captured only
on clean results of all ranks, and a boundary is persisted, or a durable
candidate started, only when the scheduled cycle is complete on all ranks. -/
theorem apply_result_one_branch (hreached : Reached config durables) (step : Int)
    (inputs : Fin n → CertificationInputs) (force full dense : Bool)
    (hdense : ∀ i r, resultsOf inputs i = some r → r.denseReplay = dense) :
    ∃ as script, Goes jobCombine (fun i => applyResult config i step (inputs i) force full
        (entered statuses durables i)) as ∧
      OneBranch inputs script as ∧
      ∀ i, ∀ call ∈ (attributes (as i)).calls, Grounded (resultsOf inputs) call := by
  obtain ⟨as, script, hgoes, hbranch, hscript⟩ := takesBranch_applyResult step inputs force full
    (hreached.certifying statuses) (fun _ => rfl) hdense
  exact ⟨as, script, hgoes, hbranch, fun i call hcall =>
    hscript call ((hbranch.follows i).subset hcall)⟩

/-! ### Two ranks with a durable coordinator -/

def sampleDurable : DurableConfig 2 where
  environmentId := "cluster"
  writerRank := ⟨0, Nat.two_pos⟩
  shapePlanId := "shapes"
  shapeIds := ["wide"]
  environmentId_ne := by decide
  shapePlanId_ne := by decide
  shapeIds_ne := by decide
  shapeIds_nodup := by decide

/-- The coordinators that a job starts with. -/
def sampleConstructed : Fin 2 → Durable := fun _ =>
  constructed ((Job.initial (n := 2)).store.after (recoverStore (Job.initial (n := 2)).store))

theorem sampleDurable_reached :
    Reached { sampleJob with durableCheckpoint := some sampleDurable } sampleConstructed := by
  intro durable hdurable
  cases hdurable
  exact ⟨_, _, .step .initial (.start _ sampleDurable), rfl, rfl, rfl⟩

/-- Rank 0 is clean, rank 1 is not. -/
theorem apply_result_one_branch_sample :
    ∃ as script, Goes jobCombine (fun i => applyResult
        { sampleJob with durableCheckpoint := some sampleDurable } i 20
        (sampleDivergence (some { corruptResult with sdcBitmap := [0, 0] }) i) true false
        (entered sampleStatus sampleConstructed i)) as ∧
      OneBranch (sampleDivergence (some { corruptResult with sdcBitmap := [0, 0] })) script as ∧
      ∀ i, ∀ call ∈ (attributes (as i)).calls, Grounded (resultsOf
        (sampleDivergence (some { corruptResult with sdcBitmap := [0, 0] }))) call :=
  apply_result_one_branch sampleDurable_reached 20 _ true false false
    (Fin.forall_fin_two.mpr ⟨fun _ h => by cases h; rfl, fun _ h => by cases h; rfl⟩)

end LmResiliency.Integrations
