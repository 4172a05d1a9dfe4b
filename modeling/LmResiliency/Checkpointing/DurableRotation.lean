/-
# DurableRotation — one full clean rotation commits a candidate

Between `begin_candidate` and its end, a candidate sees a sequence of
observations.  The specification reads all of them at once: what they have
shown, one after the other, against the rotation of the plan.  The certifier
keeps a cursor instead, and every branch of `observe` moves it.

The main result is `committed_iff_rotation`.  It is about one candidate; what a
rejected one leaves in the store is in `CrashConsistency`.
-/
import LmResiliency.Checkpointing.CrashConsistency
import Mathlib.Data.List.Rotate

namespace LmResiliency.Checkpointing

open Lockstep Detection

variable {n : Nat}

/-! ## The rotation of a plan -/

/-- The spec of `_rotate_shape_ids`: the plan, started at the first shape. -/
theorem rotateShapeIds_eq_some {shapeIds expected : List String} {first : String}
    (h : rotateShapeIds shapeIds first = some expected) :
    shapeIds.IsRotated expected ∧ expected.head? = some first := by
  rw [rotateShapeIds] at h
  split at h
  · cases h
  · rename_i index hindex
    cases h
    obtain ⟨hlt, hfirst, -⟩ := List.idxOf?_eq_some_iff.mp hindex
    constructor
    · exact ⟨index, List.rotate_eq_drop_append_take hlt.le⟩
    · rw [List.drop_eq_getElem_cons hlt]
      exact congrArg some hfirst

/-! ## What observations show -/

/-- All ranks have a clean result, and for the same shapes. -/
def Agreed (results : Fin n → Option ReplayResult) (checked : List String) : Prop :=
  ∀ i, ∃ r, results i = some r ∧ replayResultHasSdc (some r) = false ∧
    r.checkedShapeIds = checked

/-- The observation shows some shapes. -/
def Shown (results : Fin n → Option ReplayResult) (checked : List String) : Prop :=
  checked ≠ [] ∧ Agreed results checked

/-- Every observation shows shapes, all together these. -/
def ShownAll (obs : List (Fin n → Option ReplayResult)) (shapes : List String) : Prop :=
  ∃ checked, List.Forall₂ Shown obs checked ∧ checked.flatten = shapes

/-- The observations have shown a first part of the rotation, not all of it. -/
def Partly (expected : List String) (obs : List (Fin n → Option ReplayResult)) : Prop :=
  ∃ shapes, ShownAll obs shapes ∧ shapes <+: expected ∧ shapes ≠ expected

theorem ShownAll.nil : ShownAll ([] : List (Fin n → Option ReplayResult)) [] :=
  ⟨[], .nil, rfl⟩

theorem shownAll_concat {obs : List (Fin n → Option ReplayResult)}
    {results : Fin n → Option ReplayResult} {shapes : List String} :
    ShownAll (obs ++ [results]) shapes ↔
      ∃ shown checked, ShownAll obs shown ∧ Shown results checked ∧ shown ++ checked = shapes := by
  constructor
  · rintro ⟨all, hall, rfl⟩
    have hfirst := List.forall₂_take obs.length hall
    have hlast := List.forall₂_drop obs.length hall
    rw [List.take_left] at hfirst
    rw [List.drop_left] at hlast
    obtain ⟨checked, rest, hchecked, hnil, hrest⟩ := List.forall₂_cons_left_iff.mp hlast
    rw [List.forall₂_nil_left_iff.mp hnil] at hrest
    refine ⟨(all.take obs.length).flatten, checked, ⟨_, hfirst, rfl⟩, hchecked, ?_⟩
    calc (all.take obs.length).flatten ++ checked
        = (all.take obs.length ++ all.drop obs.length).flatten := by simp [hrest]
      _ = all.flatten := by rw [List.take_append_drop]
  · rintro ⟨shown, checked, ⟨lists, hlists, rfl⟩, hchecked, rfl⟩
    refine ⟨lists ++ [checked], List.rel_append hlists (.cons hchecked .nil), ?_⟩
    simp

theorem Shown.unique [NeZero n] {results : Fin n → Option ReplayResult}
    {checked checked' : List String} (h : Shown results checked) (h' : Shown results checked') :
    checked = checked' := by
  obtain ⟨r, hr, -, rfl⟩ := h.2 0
  obtain ⟨r', hr', -, rfl⟩ := h'.2 0
  rw [Option.some.inj (hr.symm.trans hr')]

theorem ShownAll.unique [NeZero n] {obs : List (Fin n → Option ReplayResult)}
    {shapes shapes' : List String} (h : ShownAll obs shapes) (h' : ShownAll obs shapes') :
    shapes = shapes' := by
  obtain ⟨checked, hall, rfl⟩ := h
  obtain ⟨checked', hall', rfl⟩ := h'
  have hunique : Relator.RightUnique (Shown (n := n)) := fun _ _ _ h h' => h.unique h'
  rw [List.right_unique_forall₂' hunique hall hall']

/-- What a further observation shows, when the earlier ones have shown `shown`. -/
theorem ShownAll.concat_iff [NeZero n] {obs : List (Fin n → Option ReplayResult)}
    {results : Fin n → Option ReplayResult} {shown shapes : List String}
    (h : ShownAll obs shown) :
    ShownAll (obs ++ [results]) shapes ↔
      ∃ checked, Shown results checked ∧ shown ++ checked = shapes := by
  rw [shownAll_concat]
  constructor
  · rintro ⟨shown', checked, hshown', hchecked, happend⟩
    rw [hshown'.unique h] at happend
    exact ⟨checked, hchecked, happend⟩
  · rintro ⟨checked, hchecked, happend⟩
    exact ⟨shown, checked, h, hchecked, happend⟩

/-- A first part of the rotation is shown only after a smaller one. -/
theorem Partly.of_concat {expected : List String} {obs : List (Fin n → Option ReplayResult)}
    {results : Fin n → Option ReplayResult} {shapes : List String}
    (h : ShownAll (obs ++ [results]) shapes) (hpart : shapes <+: expected) :
    Partly expected obs := by
  obtain ⟨shown, checked, hshown, ⟨hne, -⟩, rfl⟩ := shownAll_concat.mp h
  refine ⟨shown, hshown, (List.prefix_append _ _).trans hpart, ?_⟩
  rintro rfl
  have hlength := hpart.length_le
  rw [List.length_append] at hlength
  have hpos := List.length_pos_iff.mpr hne
  omega

/-! ## The candidate under observation -/

/-- The observations of a candidate after `begin_candidate`. -/
inductive Observes [NeZero n] (config : DurableConfig n) (ds₀ : Fin n → Durable) :
    List (Fin n → Option ReplayResult) → (Fin n → Durable) → Prop where
  | nil : Observes config ds₀ [] ds₀
  | snoc {obs : List (Fin n → Option ReplayResult)} {ds ds' : Fin n → Durable}
      {results : Fin n → Option ReplayResult} {step : Int} {event : DurableEvent}
      (h : Observes config ds₀ obs ds)
      (hstep : Jointly jobCombine (fun i => observe config i (results i) step) ds
        fun i => .ok (event, ds' i)) : Observes config ds₀ (obs ++ [results]) ds'

/-- The pending candidate of a rank, which has checked some shapes of its rotation. -/
def Checking (expected shown : List String) (d : Durable) : Prop :=
  ∃ c, d.pending = some c ∧ c.expectedShapeIds = expected ∧ c.checkedShapeIds = shown

/-- The coordinators while a candidate is observed: it is pending as long as
the observations have shown a first part of its rotation, and no longer. -/
structure Watched (expected : List String) (obs : List (Fin n → Option ReplayResult))
    (ds : Fin n → Durable) : Prop where
  aligned : ∃ pending epoch, Aligned ds pending epoch
  cursor : (∃ shown, ShownAll obs shown ∧ shown <+: expected ∧ shown ≠ expected ∧
      ∀ i, Checking expected shown (ds i)) ∨
    ¬ Partly expected obs ∧ ∀ i, (ds i).pending = none

section Step

variable [NeZero n] {expected shown : List String} {obs : List (Fin n → Option ReplayResult)}
  {results : Fin n → Option ReplayResult} {candidates : Fin n → DurableCheckpointRecord}

omit [NeZero n] in
theorem checking_iff {d : Durable} {c : DurableCheckpointRecord} (hc : d.pending = some c) :
    Checking expected shown d ↔ c.expectedShapeIds = expected ∧ c.checkedShapeIds = shown := by
  rw [Checking, hc]
  simp only [Option.some.injEq, exists_eq_left']

omit [NeZero n] in
theorem checkedCandidate_shapes (c : DurableCheckpointRecord) (checked : List String)
    (step : Int) :
    (checkedCandidate c checked step).checkedShapeIds = c.checkedShapeIds ++ checked := by
  simp [checkedCandidate, DurableCheckpointRecord.checkedShapeIds, Function.comp_def]

/-- Results count for every candidate when they show the next shapes. -/
theorem counts_iff (hpart : shown <+: expected)
    (hcandidates : ∀ i, (candidates i).expectedShapeIds = expected ∧
      (candidates i).checkedShapeIds = shown) {checked : List String} :
    (∀ i, Counts (candidates i) (results i) checked) ↔
      Shown results checked ∧ shown ++ checked <+: expected := by
  have hdrop : ∀ i, (candidates i).expectedShapeIds.drop (candidates i).checkedShapes.length =
      expected.drop shown.length := by
    intro i
    rw [← (hcandidates i).2, (hcandidates i).1, DurableCheckpointRecord.checkedShapeIds,
      List.length_map]
  obtain ⟨rest, rfl⟩ := hpart
  simp only [Counts, hdrop, List.drop_left, List.prefix_append_right_inj]
  constructor
  · intro h
    obtain ⟨-, -, -, -, hne, hrest⟩ := h 0
    refine ⟨⟨hne, fun i => ?_⟩, hrest⟩
    obtain ⟨r, hr, hclean, hchecked, -⟩ := h i
    exact ⟨r, hr, hclean, hchecked⟩
  · rintro ⟨⟨hne, h⟩, hrest⟩ i
    obtain ⟨r, hr, hclean, hchecked⟩ := h i
    exact ⟨r, hr, hclean, hchecked, hne, hrest⟩

/-- Nothing that the observation shows continues the rotation. -/
theorem not_shownAll_concat (hshown : ShownAll obs shown) (hpart : shown <+: expected)
    (hcandidates : ∀ i, (candidates i).expectedShapeIds = expected ∧
      (candidates i).checkedShapeIds = shown)
    (hno : ¬ ∃ checked, ∀ i, Counts (candidates i) (results i) checked) :
    ¬ ∃ shapes, ShownAll (obs ++ [results]) shapes ∧ shapes <+: expected := by
  rintro ⟨shapes, hall, hshapes⟩
  obtain ⟨checked, hchecked, rfl⟩ := hshown.concat_iff.mp hall
  exact hno ⟨checked, (counts_iff hpart hcandidates).mpr ⟨hchecked, hshapes⟩⟩

/-- The latest pointer of a rank, and of the store, after more writes. -/
def SameLatest (d d' : Durable) : Prop :=
  d'.latest = d.latest ∧
    ∀ store : ManifestStore, (store.after d'.written).latest = (store.after d.written).latest

omit [NeZero n] in
theorem sameLatest_wrote {config : DurableConfig n} {rank : Fin n} {ws : List StoreWrite}
    (hws : ∀ r, StoreWrite.latest r ∉ ws) (d : Durable) (pending : Option DurableCheckpointRecord) :
    SameLatest d { d.wrote config rank ws with pending := pending } := by
  refine ⟨Durable.wrote_latest _ _ _, fun store => ?_⟩
  show (store.after (d.wrote config rank ws).written).latest = _
  rw [Durable.wrote]
  split
  · rw [ManifestStore.after_append]
    rcases ManifestStore.latest_after ws (store.after d.written) with h | ⟨r, hr, -⟩
    · exact h
    · exact absurd hr (hws r)
  · rfl

/-- How one more observation is decided. -/
structure Decided (expected : List String) (obs : List (Fin n → Option ReplayResult))
    (results : Fin n → Option ReplayResult) (event : DurableEvent) (ds next : Fin n → Durable) :
    Prop where
  committed : event = .committed ↔ ShownAll (obs ++ [results]) expected
  rejected : event = .rejected ↔ Partly expected obs ∧
    ¬ ∃ shapes, ShownAll (obs ++ [results]) shapes ∧ shapes <+: expected
  latest : event ≠ .committed → ∀ i, SameLatest (ds i) (next i)

/-- One observation, with the candidate pending or not any more. -/
theorem Watched.observe {config : DurableConfig n} {ds : Fin n → Durable}
    (h : Watched expected obs ds) (results : Fin n → Option ReplayResult) (step : Int) :
    ∃ (event : DurableEvent) (next : Fin n → Durable),
      Jointly jobCombine (fun i => Checkpointing.observe config i (results i) step) ds
        (fun i => .ok (event, next i)) ∧
      Watched expected (obs ++ [results]) next ∧ Decided expected obs results event ds next := by
  obtain ⟨pending, epoch, hds⟩ := h.aligned
  obtain ⟨as, hjoint, hobserved⟩ := jointly_observe hds results step
  obtain ⟨-, haligned⟩ := hobserved.effect hds
  rcases h.cursor with ⟨shown, hshown, hpart, hproper, hchecking⟩ | ⟨hclosed, hnone⟩
  · have hpartly : Partly expected obs := ⟨shown, hshown, hpart, hproper⟩
    cases hobserved with
    | none hnone =>
        obtain ⟨c, hc, -⟩ := hchecking 0
        rw [hnone 0] at hc
        cases hc
    | rejected candidates reason hpending hno =>
        have hcandidates := fun i => (checking_iff (hpending i)).mp (hchecking i)
        have hstop := not_shownAll_concat hshown hpart hcandidates hno
        refine ⟨_, _, hjoint, ⟨haligned, .inr ⟨?_, fun i => rfl⟩⟩, ?_, ?_, fun _ i => ?_⟩
        · rintro ⟨shapes, hall, hshapes, -⟩
          exact hstop ⟨shapes, hall, hshapes⟩
        · refine iff_of_false (by decide) fun hall => hstop ⟨_, hall, List.prefix_rfl⟩
        · exact iff_of_true rfl ⟨hpartly, hstop⟩
        · exact sameLatest_wrote (by simp [ManifestStore.reject]) _ _
    | progress candidates checked hpending hcounts hcomplete =>
        have hcandidates := fun i => (checking_iff (hpending i)).mp (hchecking i)
        obtain ⟨hchecked, hnext⟩ := (counts_iff hpart hcandidates).mp hcounts
        have hall : ShownAll (obs ++ [results]) (shown ++ checked) :=
          hshown.concat_iff.mpr ⟨checked, hchecked, rfl⟩
        have hless : shown ++ checked ≠ expected := by
          have hc := of_decide_eq_false (hcomplete 0)
          rw [checkedCandidate_shapes, (hcandidates 0).2] at hc
          rw [← (hcandidates 0).1]
          exact hc
        refine ⟨_, _, hjoint, ⟨haligned, .inl ⟨_, hall, hnext, hless, fun i => ?_⟩⟩, ?_, ?_,
          fun _ i => ?_⟩
        · refine ⟨_, rfl, (hcandidates i).1, ?_⟩
          rw [checkedCandidate_shapes, (hcandidates i).2]
        · exact iff_of_false (by decide) fun h => hless (hall.unique h)
        · exact iff_of_false (by decide) fun h => h.2 ⟨_, hall, hnext⟩
        · exact sameLatest_wrote (by simp [ManifestStore.writePending]) _ _
    | committed candidates checked hpending hcounts hcomplete =>
        have hcandidates := fun i => (checking_iff (hpending i)).mp (hchecking i)
        obtain ⟨hchecked, hnext⟩ := (counts_iff hpart hcandidates).mp hcounts
        have hfull : shown ++ checked = expected := by
          have hc := of_decide_eq_true (hcomplete 0)
          rw [checkedCandidate_shapes, (hcandidates 0).2] at hc
          rw [← (hcandidates 0).1]
          exact hc
        have hall : ShownAll (obs ++ [results]) expected :=
          hshown.concat_iff.mpr ⟨checked, hchecked, hfull⟩
        refine ⟨_, _, hjoint, ⟨haligned, .inr ⟨?_, fun i => rfl⟩⟩, iff_of_true rfl hall, ?_,
          fun hne => absurd rfl hne⟩
        · rintro ⟨shapes, hshapes, -, hless⟩
          exact hless (hshapes.unique hall)
        · exact iff_of_false (by decide) fun h => h.2 ⟨_, hall, List.prefix_rfl⟩
  · have hstop : ¬ ∃ shapes, ShownAll (obs ++ [results]) shapes ∧ shapes <+: expected := by
      rintro ⟨shapes, hall, hshapes⟩
      exact hclosed (.of_concat hall hshapes)
    have hend : Jointly jobCombine (fun i => Checkpointing.observe config i (results i) step) ds
        fun i => .ok (.none, ds i) := by
      refine Jointly.bind Jointly.self ?_
      simp only [hnone]
      exact Jointly.pure _
    refine ⟨_, _, hend, ⟨h.aligned, .inr ⟨?_, hnone⟩⟩, ?_, ?_, fun _ _ => ⟨rfl, fun _ => rfl⟩⟩
    · rintro ⟨shapes, hall, hshapes, -⟩
      exact hstop ⟨shapes, hall, hshapes⟩
    · exact iff_of_false (by decide) fun hall => hstop ⟨_, hall, List.prefix_rfl⟩
    · exact iff_of_false (by decide) fun h => hclosed h.1

/-- **Every sequence of observations** keeps the certifier's cursor where the
specification has it. -/
theorem Observes.watched {config : DurableConfig n} {ds₀ ds : Fin n → Durable}
    (hobs : Observes config ds₀ obs ds) (h : Watched expected [] ds₀) :
    Watched expected obs ds := by
  have hne : Nonempty (Fin n) := ⟨0⟩
  induction hobs with
  | nil => exact h
  | @snoc obs ds ds' results step event _ hstep ih =>
      obtain ⟨event', next, hjoint, hwatched, -⟩ := ih.observe results step
      have hnext : ds' = next := by
        funext i
        have hi := congrFun (hstep.unique hjoint) i
        simp only [Except.ok.injEq, Prod.mk.injEq] at hi
        exact hi.2
      rw [hnext]
      exact hwatched

theorem Began.watched {config : DurableConfig n} {ds₀ : Fin n → Durable}
    {pending : Option DurableCheckpointRecord} {epoch : Nat} {ds : Fin n → Durable}
    (hds : Aligned ds pending epoch) {step : Int} {firsts : Fin n → String}
    {outcomes : Fin n → SaveOutcome} {records : Fin n → DurableCheckpointRecord}
    (h : Began config ds step firsts outcomes fun i => .ok (records i, ds₀ i)) :
    ∃ expected, (config.shapeIds.IsRotated expected ∧ ∀ i, expected.head? = some (firsts i)) ∧
      Watched expected [] ds₀ := by
  obtain ⟨-, haligned⟩ := h.effect hds
  generalize hends : (fun i => Except.ok (records i, ds₀ i)) = ends at h haligned
  cases h with
  | refused e => cases congrFun hends 0
  | failed => cases congrFun hends 0
  | begun first expected record hpending hfirst hexpected hrecord =>
      obtain ⟨hrotated, hhead⟩ := rotateShapeIds_eq_some hexpected
      refine ⟨expected, ⟨hrotated, fun i => (hfirst i).symm ▸ hhead⟩, ?_, .inl ?_⟩
      · exact haligned
      · refine ⟨[], .nil, List.nil_prefix, ?_, fun i => ?_⟩
        · rintro rfl
          cases hhead
        · have hi := congrFun hends i
          simp only [Except.ok.injEq, Prod.mk.injEq] at hi
          rw [hi.2]
          refine ⟨_, rfl, ?_⟩
          rw [hrecord i]
          exact ⟨rfl, rfl⟩

/-- **A candidate is committed exactly when one full clean rotation was shown**,
and rejected at the first observation that does not continue it. -/
theorem committed_iff_rotation {allowed : Running n → Operation n → Prop} {job : Job n}
    (h : JobRun allowed job) {run : Running n} (hrun : job.running = some run) {step : Int}
    {firsts : Fin n → String} {outcomes : Fin n → SaveOutcome}
    {records : Fin n → DurableCheckpointRecord} {ds₀ ds : Fin n → Durable}
    (hbegin : Jointly jobCombine
      (fun i => beginCandidate run.config i step (firsts i) (outcomes i)) run.ranks
      fun i => .ok (records i, ds₀ i))
    (hobs : Observes run.config ds₀ obs ds) (results : Fin n → Option ReplayResult)
    (step' : Int) :
    ∃ (expected : List String) (event : DurableEvent) (next : Fin n → Durable),
      (run.config.shapeIds.IsRotated expected ∧ ∀ i, expected.head? = some (firsts i)) ∧
      Jointly jobCombine (fun i => Checkpointing.observe run.config i (results i) step') ds
        (fun i => .ok (event, next i)) ∧
      (event = .committed ↔ ShownAll (obs ++ [results]) expected) ∧
      (event = .rejected ↔ Partly expected obs ∧
        ¬ ∃ shapes, ShownAll (obs ++ [results]) shapes ∧ shapes <+: expected) ∧
      (event ≠ .committed → ∀ i, SameLatest (ds i) (next i)) := by
  have hne : Nonempty (Fin n) := ⟨0⟩
  have hinv : JobInv False job := h.inv fun hfalse => hfalse.elim
  obtain ⟨pending, epoch, hds⟩ := (hinv.running run hrun).aligned
  obtain ⟨as, hjoint, hbegan⟩ := jointly_beginCandidate hds step firsts outcomes
  rw [← hbegin.unique hjoint] at hbegan
  obtain ⟨expected, hrotation, hwatched⟩ := hbegan.watched hds
  obtain ⟨event, next, hstep, -, hdecided⟩ := (hobs.watched hwatched).observe results step'
  exact ⟨expected, event, next, hrotation, hstep, hdecided.committed, hdecided.rejected,
    hdecided.latest⟩

end Step

/-! ## An empty observation -/

/-- A clean result that has checked no shape. -/
def sampleEmpty : ReplayResult := { sampleResult with checkedShapeIds := [] }

/-- What the writer rank has written when the candidate is rejected. -/
def emptyWrites : List StoreWrite :=
  begunWrites ++ ManifestStore.reject (rejectedRecord sampleCandidate
    "SCOUT result did not identify any checked replay shape")

theorem sample_empty :
    Observes sampleConfig (fun _ => ⟨some sampleCandidate, none, 2, begunWrites⟩)
      [fun _ => some sampleEmpty] fun _ => ⟨none, none, 2, emptyWrites⟩ := by
  have hstep : Jointly jobCombine (fun i => observe sampleConfig i (some sampleEmpty) 15)
      (fun _ => ⟨some sampleCandidate, none, 2, begunWrites⟩)
      fun _ => .ok (.rejected, ⟨none, none, 2, emptyWrites⟩) := by
    refine ⟨0, .done fun i => ?_⟩
    obtain rfl : i = 0 := Subsingleton.elim _ _
    rfl
  exact .snoc .nil hstep

theorem committed_iff_rotation_sample :
    ∃ (expected : List String) (event : DurableEvent) (next : Fin 1 → Durable),
      (["small"].IsRotated expected ∧ ∀ _ : Fin 1, expected.head? = some "small") ∧
      Jointly jobCombine (fun i => observe sampleConfig i (some sampleResult) 20)
        (fun _ => ⟨some sampleCandidate, none, 2, begunWrites⟩) (fun i => .ok (event, next i)) ∧
      (event = .committed ↔ ShownAll [fun _ : Fin 1 => some sampleResult] expected) ∧
      (event = .rejected ↔ Partly expected ([] : List (Fin 1 → Option ReplayResult)) ∧
        ¬ ∃ shapes, ShownAll [fun _ : Fin 1 => some sampleResult] shapes ∧
          shapes <+: expected) ∧
      (event ≠ .committed → ∀ i,
        SameLatest ⟨some sampleCandidate, none, 2, begunWrites⟩ (next i)) :=
  committed_iff_rotation (sample_start : JobRun (fun _ _ => True) _) rfl (sample_begun []) .nil _ 20

/-- **An observation that shows no shape rejects the candidate**, although what
all of them show together is the rotation. -/
theorem empty_observation_rejects :
    ∃ (job : Job 1) (run : Running 1) (records : Fin 1 → DurableCheckpointRecord)
      (ds₀ ds : Fin 1 → Durable),
      JobRun (fun _ _ => True) job ∧ job.running = some run ∧
      Jointly jobCombine (fun i => beginCandidate run.config i 10 "small" (.saved [])) run.ranks
        (fun i => .ok (records i, ds₀ i)) ∧
      Observes run.config ds₀ [fun _ => some sampleEmpty] ds ∧
      List.Forall₂ Agreed [fun _ : Fin 1 => some sampleEmpty, fun _ => some sampleResult]
        [[], ["small"]] ∧
      [[], ["small"]].flatten = run.config.shapeIds ∧
      Jointly jobCombine (fun i => observe run.config i (some sampleResult) 20) ds
        (fun i => .ok (.none, ds i)) := by
  refine ⟨_, _, fun _ => sampleCandidate, fun _ => ⟨some sampleCandidate, none, 2, begunWrites⟩,
    fun _ => ⟨none, none, 2, emptyWrites⟩, sample_start, rfl, sample_begun [],
    sample_empty, ?_, rfl, ⟨0, .done fun i => rfl⟩⟩
  exact .cons (fun i => ⟨_, rfl, rfl, rfl⟩) (.cons (fun i => ⟨_, rfl, rfl, rfl⟩) .nil)

end LmResiliency.Checkpointing
