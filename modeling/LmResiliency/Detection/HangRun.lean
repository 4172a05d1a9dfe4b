/-
# HangRun — the loop of a hang detection daemon

The daemon waits for progress or for a timeout, looks at the progress of its rank,
and after a stall takes part in a round.  A hang is reported once for a progress,
and a slow stage when enough rounds in a row have found it.

The daemon remembers when it first saw the progress that the rank is at.  As
progress never comes back, nothing else has been seen since.

The main result is `run_reports`, over any sequence of rounds.  Threads are not
modelled: a round sees the progress of one moment.
-/
import LmResiliency.Detection.HangDetector
import LmResiliency.Lib.Streak

namespace LmResiliency.Detection.HangDetector

/-! ## The state of a daemon -/

/-- What is seen of the rank: its step and operation, and the clock then. -/
structure Observation where
  progress : Int × Int
  time : ℚ

/-- `stage_event` -/
structure StageEvent where
  kind : Option String
  key : Int
  sequence : Int
  culpritRanks : List Int
deriving DecidableEq

namespace HangLocalizationResult

/-- `(result.local_step, result.local_op_id)` -/
def progress (r : HangLocalizationResult) : Int × Int := (r.localStep, r.localOpId)

def stageEvent (r : HangLocalizationResult) : StageEvent :=
  ⟨r.stageKind, r.stageKey, r.stageSequence, r.stageCulpritRanks⟩

end HangLocalizationResult

/-- The step and the operation of the daemon's own row. -/
def Gathered.progress {d : HangDetectionDaemon} (gathered : Gathered d) : Int × Int :=
  let localRow := gathered.rows[d.peerRanks.idxOf d.rank]?
  ((localRow.map Row.step).getD (-1), (localRow.map Row.opId).getD (-1))

/-- What a daemon remembers; the candidate of a stage event and its confirmations are a count. -/
structure DaemonState where
  last : Int × Int
  lastChangeTime : ℚ
  lastReportedProgress : Option (Int × Int)
  lastReportedStage : Option StageEvent
  stage : Streak.Count StageEvent

/-- What a run is given; the constructor checks the confirmations. -/
structure RunOptions where
  confirmationIntervalS : ℚ
  dataloaderConfirmationRounds : Nat
  checkpointIoConfirmationRounds : Nat
  dataloader_pos : 0 < dataloaderConfirmationRounds
  checkpoint_pos : 0 < checkpointIoConfirmationRounds
  maxRounds : Option Int
  onHang : Bool

/-- A result that `on_hang` is called with. -/
structure Report where
  result : HangLocalizationResult
  stageConfirmations : Nat
  dataloaderConfirmations : Nat

/-- `start`, once it is attached. -/
def DaemonState.start (seen : Observation) : DaemonState where
  last := seen.progress
  lastChangeTime := seen.time
  lastReportedProgress := none
  lastReportedStage := none
  stage := .reset

def observeStall (s : DaemonState) (seen : Observation) : DaemonState × ℚ :=
  if seen.progress.2 = -1 then (s, 0)
  else if seen.progress ≠ s.last then
    ({ s with
      last := seen.progress
      lastChangeTime := seen.time
      lastReportedProgress := none }, 0)
  else (s, seen.time - s.lastChangeTime)

/-- `check_once`, at a time. -/
def checkAt {d : HangDetectionDaemon} (s : DaemonState) (gathered : Gathered d) (now : ℚ) :
    Except HangError HangLocalizationResult :=
  checkOnce d gathered (if gathered.progress = s.last then now - s.lastChangeTime else 0)

def requiredConfirmations (o : RunOptions) (r : HangLocalizationResult) : Nat :=
  if r.stageKind = some "data_loading" then o.dataloaderConfirmationRounds
  else o.checkpointIoConfirmationRounds

/-- The stage that a round has found. -/
def found (r : HangLocalizationResult) : Option StageEvent :=
  if r.isStageStraggler then some r.stageEvent else none

/-- What follows from a round: what is remembered, what is reported, and whether it counts. -/
def conclude (o : RunOptions) (s : DaemonState) (r : HangLocalizationResult) :
    DaemonState × Option Report × Bool :=
  let stage := s.stage.after (some (found r))
  let stageConfirmed := r.isStageStraggler && requiredConfirmations o r ≤ stage.streak
  let reportHang := r.isHang && some r.progress ≠ s.lastReportedProgress
  let reportStage := stageConfirmed && some r.stageEvent ≠ s.lastReportedStage && !r.isHang
  let called := (reportHang || reportStage) && o.onHang
  ({ s with
      lastReportedProgress :=
        if called && reportHang then some r.progress else s.lastReportedProgress
      lastReportedStage :=
        if called && reportStage then some r.stageEvent else s.lastReportedStage
      stage := stage },
    if called then
      some {
        result := r
        stageConfirmations := stage.streak
        dataloaderConfirmations :=
          if r.stageKind = some "data_loading" then stage.streak else 0 }
    else none,
    r.isHang || stageConfirmed)

/-! ## The loop -/

/-- How the wait ends: the daemon was stopped; there was progress; or it timed out, and if the
stall is long enough there is a round. -/
inductive Wake (d : HangDetectionDaemon) where
  | stopped
  | progressed (seen : Observation)
  | timedOut (seen : Observation) (gathered : Gathered d) (now : ℚ)

structure LoopState where
  daemon : DaemonState
  waitTimeoutS : ℚ
  rounds : Int

/-- What happens in one turn of the loop. -/
structure Entry where
  seen : List Observation
  round : Option HangLocalizationResult := none
  called : Option Report := none

/-- One turn, and where the loop goes on. -/
structure Turn where
  entry : Entry
  next : Option LoopState

def HangDetectionDaemon.consensusTriggerThresholdS (d : HangDetectionDaemon) : ℚ :=
  min d.stallThresholdS
    (min (d.dataloaderLatencyThresholdMs / 1000) (d.checkpointIoLatencyThresholdMs / 1000))

variable {d : HangDetectionDaemon}

/-- The round after a stall. -/
def roundTurn (o : RunOptions) (s : LoopState) (daemon : DaemonState) (seen : Observation)
    (gathered : Gathered d) (now : ℚ) : Turn :=
  match checkAt daemon gathered now with
  | .error _ => ⟨{ seen := [seen, ⟨gathered.progress, now⟩] }, none⟩
  | .ok r =>
      let (daemon, called, counts) := conclude o daemon r
      let rounds := if counts then s.rounds + 1 else s.rounds
      let entry : Entry :=
        { seen := [seen, ⟨gathered.progress, now⟩], round := some r, called := called }
      if counts ∧ o.maxRounds.any (· ≤ rounds) then ⟨entry, none⟩
      else ⟨entry, some ⟨daemon, o.confirmationIntervalS, rounds⟩⟩

/-- One turn of the loop of `run`. -/
def turn (o : RunOptions) (s : LoopState) : Wake d → Turn
  | .stopped => ⟨{ seen := [] }, none⟩
  | .progressed seen =>
      ⟨{ seen := [seen] },
        some { s with
          daemon := (observeStall s.daemon seen).1
          waitTimeoutS := d.consensusTriggerThresholdS }⟩
  | .timedOut seen gathered now =>
      let (daemon, stallS) := observeStall s.daemon seen
      if stallS < d.consensusTriggerThresholdS then
        ⟨{ seen := [seen] },
          some { s with
            daemon := daemon
            waitTimeoutS := max (d.consensusTriggerThresholdS - stallS) (1 / 1000) }⟩
      else roundTurn o s daemon seen gathered now

def loop (o : RunOptions) : LoopState → List (Wake d) → List Entry
  | _, [] => []
  | s, w :: wakes =>
      (turn o s w).entry ::
        match (turn o s w).next with
        | some s' => loop o s' wakes
        | none => []

/-- `run`, of a new daemon: what happens in it, if it is not stopped before it is attached. -/
def run (o : RunOptions) (attached : Option Observation) (wakes : List (Wake d)) : List Entry :=
  match attached with
  | none => []
  | some seen =>
      { seen := [seen] } ::
        loop o ⟨.start seen, d.consensusTriggerThresholdS, 0⟩ wakes

/-! ## What happened -/

def observations (trace : List Entry) : List Observation := trace.flatMap Entry.seen

def roundsOf (trace : List Entry) : List HangLocalizationResult := trace.filterMap Entry.round

def reports (trace : List Entry) : List Report := trace.filterMap Entry.called

/-- The progress of each reported hang. -/
def hangs (trace : List Entry) : List (Int × Int) :=
  ((reports trace).filter (·.result.isHang)).map (·.result.progress)

/-- The stage events of the other reports. -/
def stages (trace : List Entry) : List StageEvent :=
  ((reports trace).filter (!·.result.isHang)).map (·.result.stageEvent)

/-- Progress that was left does not come back. -/
def NoReturn (obs : List Observation) : Prop :=
  ∀ older x since y newer, obs = older ++ x :: since ++ y :: newer → x.progress = y.progress →
    ∀ z ∈ since, z.progress = x.progress

/-- The progress was seen longer ago than the threshold, and no other has been seen since. -/
def Earned (d : HangDetectionDaemon) (obs : List Observation) (progress : Int × Int) : Prop :=
  ∃ older t₀ since now, obs = older ++ ⟨progress, t₀⟩ :: since ++ [⟨progress, now⟩] ∧
    (∀ z ∈ since, z.progress = progress) ∧ d.stallThresholdS < now - t₀

/-- The last rounds, as many as are required, have found the stage event. -/
def Confirmed (o : RunOptions) (rounds : List HangLocalizationResult)
    (r : HangLocalizationResult) : Prop :=
  ∃ older recent, rounds = older ++ recent ∧ requiredConfirmations o r ≤ recent.length ∧
    ∀ q ∈ recent, q.isStageStraggler = true ∧ q.stageEvent = r.stageEvent

/-- A report after what happened before is what it should be. -/
def Sound (d : HangDetectionDaemon) (o : RunOptions) (before : List Entry) (e : Entry) : Prop :=
  ∀ report, e.called = some report →
    (report.result.isHang = true →
      Earned d (observations (before ++ [e])) report.result.progress) ∧
    (report.result.isHang = false →
      Confirmed o (roundsOf (before ++ [e])) report.result ∧
        (stages before).getLast? ≠ some report.result.stageEvent)

/-! ## What was left -/

/-- The progress was seen, and another one after it. -/
def Left (obs : List Observation) (progress : Int × Int) : Prop :=
  ∃ older x since, obs = older ++ x :: since ∧ x.progress = progress ∧
    ∃ z ∈ since, z.progress ≠ progress

section Order

variable {obs newer : List Observation} {progress : Int × Int} {y : Observation}

theorem NoReturn.of_append (h : NoReturn (obs ++ newer)) : NoReturn obs := by
  rintro older x since y rest rfl hsame
  exact h older x since y (rest ++ newer) (by simp) hsame

theorem Left.append (h : Left obs progress) : Left (obs ++ newer) progress := by
  obtain ⟨older, x, since, rfl, hx, z, hz, hne⟩ := h
  exact ⟨older, x, since ++ newer, by simp, hx, z, List.mem_append_left _ hz, hne⟩

theorem Left.ne (h : Left obs progress) (hobs : NoReturn (obs ++ [y])) :
    y.progress ≠ progress := by
  obtain ⟨older, x, since, rfl, rfl, z, hz, hne⟩ := h
  intro hy
  exact hne (hobs older x since y [] (by simp) hy.symm z hz)

/-- What was seen and is not what is seen now was left. -/
theorem left_of_mem {x : Observation} (hx : x ∈ obs) (hne : y.progress ≠ x.progress) :
    Left (obs ++ [y]) x.progress := by
  obtain ⟨older, since, rfl⟩ := List.append_of_mem hx
  exact ⟨older, x, since ++ [y], by simp, rfl, y, by simp, hne⟩

end Order

/-! ## What the daemon remembers -/

/-- What the daemon remembers of the progress, against what was seen and reported. -/
structure Tracks (obs : List Observation) (hung : List (Int × Int)) (s : DaemonState) : Prop where
  seen : ⟨s.last, s.lastChangeTime⟩ ∈ obs
  reported : ∀ progress ∈ hung,
    progress = s.last ∧ s.lastReportedProgress = some progress ∨ Left obs progress

section Tracks

variable {obs newer : List Observation} {hung : List (Int × Int)} {s : DaemonState}
variable {seen : Observation}

theorem Tracks.append (h : Tracks obs hung s) : Tracks (obs ++ newer) hung s := by
  refine ⟨List.mem_append_left _ h.seen, fun progress hp => ?_⟩
  exact (h.reported progress hp).imp_right Left.append

/-- A look at the progress keeps what is remembered in step. -/
theorem Tracks.observeStall (h : Tracks obs hung s) :
    Tracks (obs ++ [seen]) hung (observeStall s seen).1 := by
  unfold HangDetector.observeStall
  split
  · exact h.append
  · split
    · rename_i hne
      refine ⟨List.mem_append_right _ (List.mem_singleton.mpr rfl), fun progress hp => ?_⟩
      rcases h.reported progress hp with ⟨rfl, -⟩ | hleft
      · exact Or.inr (left_of_mem h.seen hne)
      · exact Or.inr hleft.append
    · exact h.append

theorem observeStall_same (s : DaemonState) (seen : Observation) :
    (observeStall s seen).1.stage = s.stage ∧
      (observeStall s seen).1.lastReportedStage = s.lastReportedStage := by
  unfold observeStall
  split
  · exact ⟨rfl, rfl⟩
  · split <;> exact ⟨rfl, rfl⟩

/-- A hang is earned when the rank is still at the progress that is remembered. -/
theorem Tracks.earned (h : Tracks obs hung s) {now : ℚ}
    (hobs : NoReturn (obs ++ [⟨s.last, now⟩]))
    (hstall : d.stallThresholdS < now - s.lastChangeTime) :
    Earned d (obs ++ [⟨s.last, now⟩]) s.last := by
  obtain ⟨older, since, rfl⟩ := List.append_of_mem h.seen
  refine ⟨older, s.lastChangeTime, since, now, rfl, ?_, hstall⟩
  exact hobs older ⟨s.last, s.lastChangeTime⟩ since ⟨s.last, now⟩ [] rfl rfl

/-- A progress that is reported as hung was not reported before. -/
theorem Tracks.fresh (h : Tracks obs hung s) {now : ℚ}
    (hobs : NoReturn (obs ++ [⟨s.last, now⟩]))
    (hnew : some s.last ≠ s.lastReportedProgress) : s.last ∉ hung := by
  intro hin
  rcases h.reported s.last hin with ⟨-, hsame⟩ | hleft
  · exact hnew hsame.symm
  · exact hleft.ne hobs rfl

end Tracks

/-! ## One round -/

/-- What a round says of the local rank. -/
theorem checkAt_spec {s : DaemonState} {gathered : Gathered d} {now : ℚ}
    {r : HangLocalizationResult} (h : checkAt s gathered now = .ok r) :
    r.progress = gathered.progress ∧
      (r.isHang = true ↔ d.stallThresholdS <
        if gathered.progress = s.last then now - s.lastChangeTime else 0) := by
  rw [checkAt, checkOnce] at h
  dsimp only at h
  split at h
  · cases h
  cases hexact : classifyEvidence (gathered.rows.map fun row => (row.progressId : ℚ)) .exact 3 with
  | error message =>
      rw [hexact] at h
      cases h
  | ok progressResult =>
      rw [hexact] at h
      cases hcompare : compareStageLatency d gathered.rows with
      | error e =>
          rw [hcompare] at h
          cases h
      | ok comparison =>
          rw [hcompare] at h
          obtain rfl := Except.ok.inj h
          exact ⟨rfl, decide_eq_true_iff⟩

/-- The rounds, as what they find. -/
def judge (r : HangLocalizationResult) : Option (Option StageEvent) := some (found r)

theorem found_iff {r : HangLocalizationResult} {event : StageEvent} :
    judge r = some (some event) ↔ r.isStageStraggler = true ∧ r.stageEvent = event := by
  rw [judge, found]
  split
  · rename_i h
    simp [h]
  · rename_i h
    simp [h]

/-- The count of a stage event is that of the last rounds that found it. -/
theorem confirmed_of_streak {o : RunOptions} {rounds : List HangLocalizationResult}
    {r : HangLocalizationResult} {n : Nat} (hn : 0 < n)
    (hrequired : requiredConfirmations o r = n)
    (hlast : (Streak.run judge rounds.reverse).last = some r.stageEvent)
    (hstreak : n ≤ (Streak.run judge rounds.reverse).streak) : Confirmed o rounds r := by
  obtain ⟨hlength, hall⟩ := (Streak.count_iff hn).mp ⟨hlast, hstreak⟩
  have hanswers : Streak.answers judge rounds.reverse = rounds.reverse :=
    List.filter_eq_self.mpr fun _ _ => rfl
  rw [hanswers] at hall hlength
  refine ⟨rounds.take (rounds.length - n), rounds.drop (rounds.length - n),
    (List.take_append_drop _ _).symm, ?_, fun q hq => ?_⟩
  · rw [List.length_reverse] at hlength
    rw [hrequired, List.length_drop]
    omega
  · refine found_iff.mp (hall q ?_)
    rw [List.take_reverse, List.mem_reverse]
    exact hq

/-! ## One turn -/

/-- What the daemon remembers, against all that happened. -/
structure Inv (trace : List Entry) (s : DaemonState) : Prop where
  tracks : Tracks (observations trace) (hangs trace) s
  once : (hangs trace).Nodup
  stage : s.stage = Streak.run judge (roundsOf trace).reverse
  lastStage : s.lastReportedStage = (stages trace).getLast?

section Append

variable (trace more : List Entry)

theorem observations_append :
    observations (trace ++ more) = observations trace ++ observations more :=
  List.flatMap_append

theorem roundsOf_append : roundsOf (trace ++ more) = roundsOf trace ++ roundsOf more :=
  List.filterMap_append

theorem hangs_append : hangs (trace ++ more) = hangs trace ++ hangs more := by
  rw [hangs, reports, List.filterMap_append, List.filter_append, List.map_append]
  rfl

theorem stages_append : stages (trace ++ more) = stages trace ++ stages more := by
  rw [stages, reports, List.filterMap_append, List.filter_append, List.map_append]
  rfl

end Append

variable {trace : List Entry} {s : LoopState} {o : RunOptions}

/-- What a turn is shown to do: its report is sound, and what is remembered afterwards is
in step with all that happened. -/
structure Keeps (d : HangDetectionDaemon) (o : RunOptions) (trace : List Entry) (t : Turn) :
    Prop where
  sound : Sound d o trace t.entry
  once : (hangs (trace ++ [t.entry])).Nodup
  inv : ∀ s', t.next = some s' → Inv (trace ++ [t.entry]) s'.daemon

/-- A turn without a round only looks at the progress. -/
theorem keeps_of_look (h : Inv trace s.daemon) {daemon : DaemonState} {seen : List Observation}
    (htracks : Tracks (observations trace ++ seen) (hangs trace) daemon)
    (hstage : daemon.stage = s.daemon.stage)
    (hlast : daemon.lastReportedStage = s.daemon.lastReportedStage) {next : Option LoopState}
    (hnext : ∀ s', next = some s' → s'.daemon = daemon) :
    Keeps d o trace ⟨{ seen := seen }, next⟩ := by
  have hnone : hangs (trace ++ [{ seen := seen }]) = hangs trace := by
    rw [hangs_append]
    exact List.append_nil _
  refine ⟨(fun report hreport => nomatch hreport), hnone ▸ h.once, fun s' hs' => ?_⟩
  rw [hnext s' hs']
  refine ⟨?_, hnone ▸ h.once, ?_, ?_⟩
  · rw [hnone, observations_append]
    simpa [observations] using htracks
  · rw [hstage, h.stage, roundsOf_append]
    exact congrArg (fun rounds => Streak.run judge rounds.reverse) (List.append_nil _).symm
  · rw [hlast, h.lastStage, stages_append]
    exact congrArg List.getLast? (List.append_nil _).symm

/-- The conclusion of a round. -/
theorem conclude_spec (s : DaemonState) (r : HangLocalizationResult) :
    let stage := s.stage.after (judge r)
    (conclude o s r).1 = { s with
        lastReportedProgress := (conclude o s r).1.lastReportedProgress
        lastReportedStage := (conclude o s r).1.lastReportedStage
        stage := stage } ∧
    (((conclude o s r).2.1 = none ∧
        (conclude o s r).1.lastReportedProgress = s.lastReportedProgress ∧
        (conclude o s r).1.lastReportedStage = s.lastReportedStage) ∨
      (∃ report, (conclude o s r).2.1 = some report ∧ report.result = r ∧ r.isHang = true ∧
        some r.progress ≠ s.lastReportedProgress ∧
        (conclude o s r).1.lastReportedProgress = some r.progress ∧
        (conclude o s r).1.lastReportedStage = s.lastReportedStage) ∨
      (∃ report, (conclude o s r).2.1 = some report ∧ report.result = r ∧ r.isHang = false ∧
        r.isStageStraggler = true ∧ requiredConfirmations o r ≤ stage.streak ∧
        some r.stageEvent ≠ s.lastReportedStage ∧
        (conclude o s r).1.lastReportedProgress = s.lastReportedProgress ∧
        (conclude o s r).1.lastReportedStage = some r.stageEvent)) := by
  intro stage
  have hstage : s.stage.after (some (found r)) = stage := rfl
  rw [conclude, hstage]
  dsimp only
  refine ⟨rfl, ?_⟩
  cases hhang : r.isHang with
  | true =>
      by_cases hcall : some r.progress ≠ s.lastReportedProgress ∧ o.onHang = true
      · obtain ⟨hnew, hon⟩ := hcall
        exact Or.inr (Or.inl ⟨_, by simp [hnew, hon]; rfl, rfl, rfl, hnew, by simp [hnew, hon]⟩)
      · refine Or.inl ?_
        simp only [not_and, Bool.not_eq_true] at hcall
        by_cases hnew : some r.progress ≠ s.lastReportedProgress
        · simp [hcall hnew]
        · simp [hnew]
  | false =>
      by_cases hcall : (r.isStageStraggler = true ∧ requiredConfirmations o r ≤ stage.streak) ∧
          some r.stageEvent ≠ s.lastReportedStage ∧ o.onHang = true
      · obtain ⟨⟨hstraggler, hstreak⟩, hnew, hon⟩ := hcall
        refine Or.inr (Or.inr ⟨_, by simp [hstraggler, hstreak, hnew, hon]; rfl, rfl, rfl,
          hstraggler, hstreak, hnew, ?_⟩)
        simp [hstraggler, hstreak, hnew, hon]
      · refine Or.inl ?_
        have hnot : (r.isStageStraggler && decide (requiredConfirmations o r ≤ stage.streak) &&
            decide (some r.stageEvent ≠ s.lastReportedStage) && o.onHang) = false := by
          rw [← Bool.not_eq_true]
          simpa [and_assoc] using hcall
        simp only [Bool.false_and, Bool.false_or, Bool.not_false, Bool.and_true, hnot]
        simp

/-- **A round keeps everything in step**, and what it reports is sound. -/
theorem keeps_of_round (hpos : 0 ≤ d.stallThresholdS) {daemon : DaemonState} {seen : Observation}
    {gathered : Gathered d} {now : ℚ} {r : HangLocalizationResult}
    (htracks : Tracks (observations trace ++ [seen]) (hangs trace) daemon)
    (hinv : Inv trace s.daemon) (hstage : daemon.stage = s.daemon.stage)
    (hlast : daemon.lastReportedStage = s.daemon.lastReportedStage)
    (hcheck : checkAt daemon gathered now = .ok r)
    (hobs : NoReturn (observations trace ++ [seen, ⟨gathered.progress, now⟩]))
    {next : Option LoopState}
    (hnext : ∀ s', next = some s' → s'.daemon = (conclude o daemon r).1) :
    Keeps d o trace
      ⟨{ seen := [seen, ⟨gathered.progress, now⟩], round := some r,
         called := (conclude o daemon r).2.1 }, next⟩ := by
  obtain ⟨hprogress, hhang⟩ := checkAt_spec hcheck
  obtain ⟨hstate, hcalled⟩ := conclude_spec (o := o) daemon r
  generalize hreport : (conclude o daemon r).2.1 = called at hcalled ⊢
  generalize hafter : (conclude o daemon r).1 = after at hstate hcalled hnext
  set e : Entry := { seen := [seen, ⟨gathered.progress, now⟩], round := some r, called := called }
    with he
  have hseen : observations (trace ++ [e]) =
      observations trace ++ [seen] ++ [⟨gathered.progress, now⟩] := by
    rw [observations_append, List.append_assoc]
    rfl
  have hrounds : roundsOf (trace ++ [e]) = roundsOf trace ++ [r] := roundsOf_append _ _
  have hstreak : daemon.stage.after (judge r) =
      Streak.run judge (roundsOf (trace ++ [e])).reverse := by
    rw [hrounds, List.reverse_append, hstage, hinv.stage]
    rfl
  have hobs' : NoReturn (observations trace ++ [seen] ++ [⟨gathered.progress, now⟩]) := by
    rw [List.append_assoc]
    exact hobs
  have hextended : Tracks (observations (trace ++ [e])) (hangs trace) daemon :=
    hseen ▸ htracks.append
  have hlastState : after.last = daemon.last ∧ after.lastChangeTime = daemon.lastChangeTime ∧
      after.stage = Streak.run judge (roundsOf (trace ++ [e])).reverse := by
    rw [hstate, hstreak]
    exact ⟨rfl, rfl, rfl⟩
  obtain ⟨hsame, htime, hafterStage⟩ := hlastState
  have hseenAfter : ⟨after.last, after.lastChangeTime⟩ ∈ observations (trace ++ [e]) := by
    rw [hsame, htime]
    exact hextended.seen
  rcases hcalled with ⟨rfl, hprog, hstages⟩ | ⟨report, rfl, rfl, hr, hnew, hprog, hstages⟩ |
    ⟨report, rfl, rfl, hr, hstraggler, hrequired, hnew, hprog, hstages⟩
  · -- nothing is reported
    have hhangs : hangs (trace ++ [e]) = hangs trace := by
      rw [hangs_append]
      exact List.append_nil _
    refine ⟨(fun report h => nomatch h), hhangs ▸ hinv.once, fun s' hs' => ?_⟩
    rw [hnext s' hs']
    refine ⟨⟨hseenAfter, ?_⟩, hhangs ▸ hinv.once, hafterStage, ?_⟩
    · rw [hhangs, hsame, hprog]
      exact hextended.reported
    · rw [hstages, hlast, hinv.lastStage, stages_append]
      exact congrArg List.getLast? (List.append_nil _).symm
  · -- a hang: the rank is still at the progress that is remembered
    have hstall := hhang.mp hr
    have hstill : gathered.progress = daemon.last := by
      by_contra hne
      rw [if_neg hne] at hstall
      exact absurd hstall (not_lt.mpr hpos)
    rw [if_pos hstill] at hstall
    rw [hprogress, hstill] at hnew hprog
    rw [hstill] at hobs' hseen
    have hfresh := htracks.fresh hobs' hnew
    have hhangs : hangs (trace ++ [e]) = hangs trace ++ [daemon.last] := by
      rw [hangs_append]
      simp [hangs, reports, he, hr, hprogress, hstill]
    have honce : (hangs (trace ++ [e])).Nodup := by
      rw [hhangs, List.nodup_append]
      refine ⟨hinv.once, List.pairwise_singleton _ _, ?_⟩
      rintro a ha b hb rfl
      exact hfresh (List.mem_singleton.mp hb ▸ ha)
    refine ⟨fun report' h => ?_, honce, fun s' hs' => ?_⟩
    · obtain rfl := Option.some.inj h
      refine ⟨fun _ => ?_, fun hnot => absurd hr (by rw [hnot]; exact Bool.false_ne_true)⟩
      rw [hprogress, hstill, hseen]
      exact htracks.earned hobs' hstall
    · rw [hnext s' hs']
      refine ⟨⟨hseenAfter, fun progress hp => ?_⟩, honce, hafterStage, ?_⟩
      · rw [hhangs, List.mem_append, List.mem_singleton] at hp
        rw [hsame, hprog]
        rcases hp with hp | rfl
        · rcases hextended.reported progress hp with ⟨rfl, -⟩ | hleft
          · exact absurd hp hfresh
          · exact Or.inr hleft
        · exact Or.inl ⟨rfl, rfl⟩
      · rw [hstages, hlast, hinv.lastStage, stages_append]
        simp [stages, reports, he, hr]
  · -- a stage that enough rounds in a row have found
    have hhangs : hangs (trace ++ [e]) = hangs trace := by
      rw [hangs_append]
      simp [hangs, reports, he, hr]
    have hjudge : judge report.result = some (some report.result.stageEvent) :=
      found_iff.mpr ⟨hstraggler, rfl⟩
    refine ⟨fun report' h => ?_, hhangs ▸ hinv.once, fun s' hs' => ?_⟩
    · obtain rfl := Option.some.inj h
      refine ⟨fun hyes => absurd hyes (by rw [hr]; exact Bool.false_ne_true), fun _ => ⟨?_, ?_⟩⟩
      · rw [hstreak] at hrequired
        refine confirmed_of_streak ?_ rfl ?_ hrequired
        · unfold requiredConfirmations
          split
          · exact o.dataloader_pos
          · exact o.checkpoint_pos
        · rw [← hstreak, hjudge]
          rfl
      · rw [← hinv.lastStage, ← hlast]
        exact hnew.symm
    · rw [hnext s' hs']
      refine ⟨⟨hseenAfter, ?_⟩, hhangs ▸ hinv.once, hafterStage, ?_⟩
      · rw [hhangs, hsame, hprog]
        exact hextended.reported
      · rw [hstages, stages_append]
        simp [stages, reports, he, hr]

theorem roundTurn_of_ok {daemon : DaemonState} (seen : Observation) {gathered : Gathered d}
    {now : ℚ} {r : HangLocalizationResult} (hcheck : checkAt daemon gathered now = .ok r) :
    ∃ next, roundTurn o s daemon seen gathered now =
        ⟨{ seen := [seen, ⟨gathered.progress, now⟩], round := some r,
           called := (conclude o daemon r).2.1 }, next⟩ ∧
      ∀ s', next = some s' → s'.daemon = (conclude o daemon r).1 := by
  rw [roundTurn, hcheck]
  dsimp only
  generalize (if (conclude o daemon r).2.2 = true then s.rounds + 1 else s.rounds) = rounds
  split
  · exact ⟨none, rfl, fun s' h => nomatch h⟩
  · exact ⟨_, rfl, fun s' h => Option.some.inj h ▸ rfl⟩

/-- **One turn** of the loop. -/
theorem keeps_turn (hpos : 0 ≤ d.stallThresholdS) (w : Wake d) (hinv : Inv trace s.daemon)
    (hobs : NoReturn (observations (trace ++ [(turn o s w).entry]))) :
    Keeps d o trace (turn o s w) := by
  cases w with
  | stopped =>
      exact keeps_of_look hinv (by simpa using hinv.tracks) rfl rfl fun s' h => by cases h
  | progressed seen =>
      obtain ⟨hstage, hlast⟩ := observeStall_same s.daemon seen
      refine keeps_of_look hinv hinv.tracks.observeStall hstage hlast fun s' h => ?_
      rw [← Option.some.inj h]
  | timedOut seen gathered now =>
      obtain ⟨hstage, hlast⟩ := observeStall_same s.daemon seen
      have htracks : Tracks (observations trace ++ [seen]) (hangs trace)
          (observeStall s.daemon seen).1 := hinv.tracks.observeStall
      rw [turn] at hobs ⊢
      dsimp only at hobs ⊢
      split
      · refine keeps_of_look hinv htracks hstage hlast fun s' h => ?_
        rw [← Option.some.inj h]
      · rename_i hlong
        rw [if_neg hlong] at hobs
        cases hcheck : checkAt (observeStall s.daemon seen).1 gathered now with
        | error e =>
            rw [roundTurn, hcheck]
            refine keeps_of_look hinv ?_ hstage hlast fun s' h => by cases h
            rw [← List.singleton_append, ← List.append_assoc]
            exact htracks.append
        | ok r =>
            obtain ⟨next, hturn, hnext⟩ := roundTurn_of_ok (o := o) (s := s) seen hcheck
            rw [hturn] at hobs ⊢
            have hobs' : NoReturn (observations trace ++ [seen, ⟨gathered.progress, now⟩]) := by
              rw [observations_append] at hobs
              exact hobs
            exact keeps_of_round hpos htracks hinv hstage hlast hcheck hobs' hnext

/-! ## Whole runs -/

theorem keeps_loop (hpos : 0 ≤ d.stallThresholdS) (wakes : List (Wake d))
    (hinv : Inv trace s.daemon) (hobs : NoReturn (observations (trace ++ loop o s wakes))) :
    (∀ before e after, loop o s wakes = before ++ e :: after → Sound d o (trace ++ before) e) ∧
      (hangs (trace ++ loop o s wakes)).Nodup := by
  induction wakes generalizing trace s with
  | nil =>
      refine ⟨fun before e after h => ?_, ?_⟩
      · simp [loop] at h
      · rw [loop, List.append_nil]
        exact hinv.once
  | cons w wakes ih =>
      rw [loop] at hobs ⊢
      have hsplit : ∀ rest : List Entry,
          trace ++ (turn o s w).entry :: rest = trace ++ [(turn o s w).entry] ++ rest :=
        fun rest => by simp
      have hkeeps : Keeps d o trace (turn o s w) := by
        refine keeps_turn hpos w hinv ?_
        rw [hsplit, observations_append] at hobs
        exact hobs.of_append
      cases hnext : (turn o s w).next with
      | none =>
          refine ⟨fun before e after h => ?_, hkeeps.once⟩
          rcases before with _ | ⟨e', before⟩
          · obtain ⟨rfl, -⟩ := List.cons.inj h
            rw [List.append_nil]
            exact hkeeps.sound
          · simp at h
      | some s' =>
          rw [hnext] at hobs
          dsimp only at hobs ⊢
          rw [hsplit] at hobs ⊢
          obtain ⟨hsound, honce⟩ := ih (hkeeps.inv s' hnext) hobs
          refine ⟨fun before e after h => ?_, honce⟩
          rcases before with _ | ⟨e', before⟩
          · obtain ⟨rfl, -⟩ := List.cons.inj h
            rw [List.append_nil]
            exact hkeeps.sound
          · obtain ⟨rfl, hrest⟩ := List.cons.inj h
            rw [hsplit]
            exact hsound before e after hrest

/-- **Hangs are earned, and reported once.**  A hang is reported of a progress that was seen
longer ago than the threshold, with nothing else seen since, and not twice; another report is
about a stage event that the last rounds have found, as many as are required, and that is not
the one reported last. -/
theorem run_reports (o : RunOptions) (attached : Option Observation) (wakes : List (Wake d))
    (hpos : 0 < d.stallThresholdS) (hobs : NoReturn (observations (run o attached wakes))) :
    (∀ before e after, run o attached wakes = before ++ e :: after → Sound d o before e) ∧
      (hangs (run o attached wakes)).Nodup := by
  cases attached with
  | none => exact ⟨fun before e after h => by simp [run] at h, List.nodup_nil⟩
  | some seen =>
      have hinv : Inv [{ seen := [seen] }] (.start seen) :=
        ⟨⟨List.mem_singleton.mpr rfl, fun _ h => by cases h⟩, List.nodup_nil, rfl, rfl⟩
      obtain ⟨hsound, honce⟩ := keeps_loop (o := o)
        (s := ⟨.start seen, d.consensusTriggerThresholdS, 0⟩) hpos.le wakes hinv hobs
      refine ⟨fun before e after h => ?_, honce⟩
      rcases before with _ | ⟨e', before⟩
      · obtain ⟨rfl, -⟩ := List.cons.inj h
        exact fun report hreport => by cases hreport
      · obtain ⟨rfl, hrest⟩ := List.cons.inj h
        exact hsound before e after hrest

/-- Where nothing but one progress is seen, nothing comes back. -/
theorem noReturn_of_forall {obs : List Observation} (progress : Int × Int)
    (h : ∀ x ∈ obs, x.progress = progress) : NoReturn obs := by
  rintro older x since y newer rfl - z hz
  rw [h z (by simp [hz]), h x (by simp)]

def sampleOptions : RunOptions where
  confirmationIntervalS := 1
  dataloaderConfirmationRounds := 2
  checkpointIoConfirmationRounds := 2
  dataloader_pos := by decide
  checkpoint_pos := by decide
  maxRounds := none
  onHang := true

/-- The rank does not move any more; there are two rounds. -/
def sampleRun : List Entry :=
  run sampleOptions (some ⟨(5, 10), 0⟩)
    [.timedOut ⟨(5, 10), 40⟩ sampleGathered 41, .timedOut ⟨(5, 10), 42⟩ sampleGathered 43]

theorem run_reports_sample :
    hangs sampleRun = [(5, 10)] ∧ (reports sampleRun).length = 1 ∧
      ∀ before e after, sampleRun = before ++ e :: after →
        Sound sampleDaemon sampleOptions before e := by
  refine ⟨by decide +kernel, by decide +kernel, (run_reports _ _ _ (by decide +kernel) ?_).1⟩
  have hseen : (observations sampleRun).map Observation.progress = List.replicate 5 (5, 10) := by
    decide +kernel
  refine noReturn_of_forall (5, 10) fun x hx => ?_
  exact List.eq_of_mem_replicate (hseen ▸ List.mem_map_of_mem hx)

end LmResiliency.Detection.HangDetector
