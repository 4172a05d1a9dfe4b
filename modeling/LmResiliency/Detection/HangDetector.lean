/-
# HangDetector — one round of the hang detection daemons

The daemons of a group compare the progress of their ranks and the collectives
that are pending, and then the time spent in the diagnostic stage that has been
active for longest.  The report says which ranks stand out, and whether the stage
involved is data loading.

Durations and thresholds are rationals, and nothing is rounded.

The main result is `checkOnce_fromDataLoading_iff`.  What the records say of the
real ranks depends on when they were written, which is outside the model.
-/
import Mathlib.Data.Finset.Card
import Mathlib.Data.List.Dedup
import LmResiliency.Detection.Consensus

namespace LmResiliency.Detection.HangDetector

/-! ## Records -/

/-- `DiagnosticStage`. -/
inductive DiagnosticStage where
  | none
  | dataLoading
  | checkpointRead
  | checkpointWrite
deriving DecidableEq

/-- `_stage`. -/
def stageOf (value : Int) : DiagnosticStage :=
  if value = 1 then .dataLoading
  else if value = 2 then .checkpointRead
  else if value = 3 then .checkpointWrite
  else .none

namespace DiagnosticStage

def value : DiagnosticStage → Int
  | none => 0
  | dataLoading => 1
  | checkpointRead => 2
  | checkpointWrite => 3

/-- `_stage_name`. -/
def name : DiagnosticStage → String
  | none => "none"
  | dataLoading => "data_loading"
  | checkpointRead => "checkpoint_read"
  | checkpointWrite => "checkpoint_write"

/-- `_stage_mismatch_kind`. -/
def mismatchKind (stage : DiagnosticStage) : String :=
  if stage = dataLoading then "dataloader_latency" else stage.name ++ "_latency"

end DiagnosticStage

/-- What a rank reports. -/
structure Row where
  opId : Int
  step : Int
  metadataFingerprint : Int
  activeStage : Int
  activeStageKey : Int
  activeStageSequence : Int
  activeElapsedNs : Int
  completedStage : Int
  completedStageKey : Int
  completedStageSequence : Int
  completedStageDurationNs : Int

/-- `(int(step) << 32) | (int(op_id) & 0xFFFFFFFF)`. -/
def Row.progressId (row : Row) : Int := row.step * 2 ^ 32 + row.opId % 2 ^ 32

/-- `HangDetectionDaemon`; `peer_ranks` are the ranks of its group. -/
structure HangDetectionDaemon where
  rank : Int
  peerRanks : List Int
  distinct : peerRanks.Nodup
  member : rank ∈ peerRanks
  stallThresholdS : ℚ
  dataloaderLatencyThresholdMs : ℚ
  dataloaderMinSlowdownRatio : ℚ
  checkpointIoLatencyThresholdMs : ℚ
  checkpointIoMinSlowdownRatio : ℚ

/-- The rows that the group gathers, one for each of its ranks. -/
structure Gathered (d : HangDetectionDaemon) where
  rows : List Row
  length_rows : rows.length = d.peerRanks.length

/-- `HangLocalizationResult`, but for the confirmations that `run` adds. -/
structure HangLocalizationResult where
  isHang : Bool
  culpritRank : Option Int
  bitmap : List Int
  opIds : List Int
  localOpId : Int
  stallDurationS : ℚ
  steps : List Int
  localStep : Int
  metadataFingerprints : List Int
  localMetadataFingerprint : Int
  mismatchKind : Option String
  culpritRanks : List Int
  isDataloaderStraggler : Bool
  dataloaderActive : Bool
  dataloaderKey : Int
  dataloaderSequence : Int
  dataloaderBitmap : List Int
  dataloaderCulpritRanks : List Int
  dataloaderLatenciesMs : List ℚ
  isStageStraggler : Bool
  stageActive : Bool
  stageKind : Option String
  stageKey : Int
  stageSequence : Int
  stageBitmap : List Int
  stageCulpritRanks : List Int
  stageLatenciesMs : List ℚ

/-- What a round raises. -/
inductive HangError where
  /-- a progress id that is no 64-bit integer -/
  | overflow
  | c3 (message : String)

/-! ## Progress and metadata -/

/-- `Counter(values).most_common(1)[0]`. -/
def mostCommonFingerprint (values : List Int) : Option (Int × Nat) :=
  (values.eraseDups.argmax values.count).map fun v => (v, values.count v)

/-- The ranks that a bitmap marks. -/
def marked (peerRanks : List Int) (bitmap : List Int) : List Int :=
  (peerRanks.zip bitmap).filterMap fun (rank, value) => if value ≠ 0 then some rank else none

/-- The first part of `check_once`: the kind of the mismatch, the bitmap and the culprits. -/
def compareProgress (d : HangDetectionDaemon) (rows : List Row) (bitmap : List Int) :
    Option String × List Int × List Int :=
  if bitmap.any (· = 1) then (some "progress", bitmap, marked d.peerRanks bitmap)
  else
    let allMetadata := rows.map Row.metadataFingerprint
    if (rows.map fun row => (row.step, row.opId)).toFinset.card = 1 ∧
        1 < allMetadata.toFinset.card then
      match mostCommonFingerprint allMetadata with
      | some (majorityFingerprint, count) =>
          if d.peerRanks.length / 2 < count then
            let bitmap := allMetadata.map fun fingerprint =>
              if fingerprint ≠ majorityFingerprint then 1 else 0
            (some "collective_metadata", bitmap, marked d.peerRanks bitmap)
          else (none, bitmap, [])
      | none => (none, bitmap, [])
    else (none, bitmap, [])

/-! ## Stages -/

/-- A rank in an active stage. -/
structure Candidate where
  elapsedNs : Int
  index : Nat
  kind : DiagnosticStage
  key : Int
  sequence : Int

/-- The ranks whose stage has been active for some time. -/
def candidates (rows : List Row) : List Candidate :=
  (rows.zipIdx.filter fun (row, _) =>
    stageOf row.activeStage ≠ .none ∧ 0 < row.activeElapsedNs).map fun (row, index) =>
      { elapsedNs := row.activeElapsedNs, index := index, kind := stageOf row.activeStage
        key := row.activeStageKey, sequence := row.activeStageSequence }

/-- The order of the candidates; no two have one index. -/
def Candidate.before (a b : Candidate) : Bool :=
  a.elapsedNs < b.elapsedNs ∨ a.elapsedNs = b.elapsedNs ∧ a.index < b.index

/-- `max(candidates)`. -/
def longest : List Candidate → Option Candidate
  | [] => none
  | c :: cs => some (cs.foldl (fun best c => if best.before c then c else best) c)

def matchingStageDurationNs (row : Row) (kind : DiagnosticStage) (key sequence : Int) : Int :=
  if (row.activeStage, row.activeStageKey, row.activeStageSequence) =
      (kind.value, key, sequence) then row.activeElapsedNs
  else if (row.completedStage, row.completedStageKey, row.completedStageSequence) =
      (kind.value, key, sequence) then row.completedStageDurationNs
  else 0

def median (values : List ℚ) : ℚ :=
  let sortedVals := sorted values
  let n := values.length
  if n % 2 = 1 then sortedVals.getD (n / 2) 0
  else (sortedVals.getD (n / 2 - 1) 0 + sortedVals.getD (n / 2) 0) / 2

/-- The comparison of a stage: the stage with its key and sequence, and for each rank
whether it stands out and how long it took. -/
structure StageComparison where
  kind : DiagnosticStage
  key : Int
  sequence : Int
  bitmap : List Int
  latenciesMs : List ℚ

/-- `_compare_stage_latency`; each daemon contributes the duration of its own row. -/
def compareStageLatency (d : HangDetectionDaemon) (rows : List Row) :
    Except HangError StageComparison :=
  match longest (candidates rows) with
  | none =>
      .ok { kind := .none, key := 0, sequence := 0
            bitmap := List.replicate d.peerRanks.length 0, latenciesMs := [] }
  | some c =>
      let durationsMs : List ℚ := rows.map fun row =>
        (matchingStageDurationNs row c.kind c.key c.sequence : ℚ) / 1000000
      match classifyEvidence durationsMs .statistical 3 with
      | .error message => .error (.c3 message)
      | .ok timing =>
          let center := if timing.evidence ≠ [] then median timing.evidence else 0
          let threshold :=
            if c.kind = .dataLoading then
              max d.dataloaderLatencyThresholdMs (center * d.dataloaderMinSlowdownRatio)
            else max d.checkpointIoLatencyThresholdMs (center * d.checkpointIoMinSlowdownRatio)
          .ok { kind := c.kind, key := c.key, sequence := c.sequence
                bitmap := (timing.bitmap.zip timing.evidence).map fun (flagged, value) =>
                  if flagged ≠ 0 ∧ threshold < value then 1 else 0
                latenciesMs := timing.evidence }

/-- The stage that all of them are in, if it is one. -/
def commonStage (stages : List DiagnosticStage) : DiagnosticStage :=
  match stages.dedup with
  | [stage] => stage
  | _ => .none

def activeStageForCulprits (rows : List Row) (culpritRanks peerRanks : List Int) :
    DiagnosticStage :=
  commonStage ((culpritRanks.filter (· ∈ peerRanks)).filterMap fun rank =>
    rows[peerRanks.idxOf rank]?.map fun row => stageOf row.activeStage)

def commonActiveStage (rows : List Row) : DiagnosticStage :=
  commonStage (rows.map fun row => stageOf row.activeStage)

/-! ## One round -/

/-- `HangDetectionDaemon.check_once`, given for how long the local rank has not moved. -/
def checkOnce (d : HangDetectionDaemon) (gathered : Gathered d) (stallS : ℚ) :
    Except HangError HangLocalizationResult := do
  let rows := gathered.rows
  if rows.any fun row => row.progressId < -2 ^ 63 ∨ 2 ^ 63 ≤ row.progressId then
    .error .overflow
  else
  let progressIds : List ℚ := rows.map fun row => row.progressId
  let progressResult ← match classifyEvidence progressIds .exact 3 with
    | .ok result => .ok result
    | .error message => .error (.c3 message)
  let (mismatchKind, bitmap, culpritRanks) := compareProgress d rows progressResult.bitmap
  let comparison ← compareStageLatency d rows
  let stageCulpritRanks := marked d.peerRanks comparison.bitmap
  let isStageStraggler := !stageCulpritRanks.isEmpty
  let culprit := culpritRanks.head?.or stageCulpritRanks.head?
  let mismatchKind :=
    if mismatchKind.isNone && isStageStraggler then some comparison.kind.mismatchKind
    else mismatchKind
  let associatedStage :=
    if !culpritRanks.isEmpty then activeStageForCulprits rows culpritRanks d.peerRanks
    else if !isStageStraggler then commonActiveStage rows
    else comparison.kind
  let stageActive := associatedStage ≠ .none
  let stageKind := if comparison.kind ≠ .none then some comparison.kind.name else none
  let dataloaderActive := stageActive && associatedStage = .dataLoading
  let localRow := rows[d.peerRanks.idxOf d.rank]?
  return {
    isHang := d.stallThresholdS < stallS
    culpritRank := culprit
    bitmap := bitmap
    opIds := rows.map Row.opId
    localOpId := (localRow.map Row.opId).getD (-1)
    stallDurationS := stallS
    steps := rows.map Row.step
    localStep := (localRow.map Row.step).getD (-1)
    metadataFingerprints := rows.map Row.metadataFingerprint
    localMetadataFingerprint := (localRow.map Row.metadataFingerprint).getD 0
    mismatchKind := mismatchKind
    culpritRanks := culpritRanks
    isDataloaderStraggler := comparison.kind = .dataLoading ∧ isStageStraggler
    dataloaderActive := dataloaderActive
    dataloaderKey := if dataloaderActive then comparison.key else 0
    dataloaderSequence := if dataloaderActive then comparison.sequence else 0
    dataloaderBitmap :=
      if dataloaderActive then comparison.bitmap else List.replicate d.peerRanks.length 0
    dataloaderCulpritRanks := if dataloaderActive then stageCulpritRanks else []
    dataloaderLatenciesMs := if dataloaderActive then comparison.latenciesMs else []
    isStageStraggler := isStageStraggler
    stageActive := stageActive
    stageKind := stageKind
    stageKey := comparison.key
    stageSequence := comparison.sequence
    stageBitmap := comparison.bitmap
    stageCulpritRanks := stageCulpritRanks
    stageLatenciesMs := comparison.latenciesMs }

/-! ## Who diverges -/

/-- The rank's progress is not that of a strict majority; or the progress of all is the same,
and the rank's pending collective is not that of a strict majority. -/
def Diverges (rows : List Row) (row : Row) : Prop :=
  (∃ m, rows.length < 2 * rows.countP (·.progressId = m) ∧ row.progressId ≠ m) ∨
    (∀ r ∈ rows, ∀ r' ∈ rows, (r.step, r.opId) = (r'.step, r'.opId)) ∧
      ∃ m, rows.length < 2 * rows.countP (·.metadataFingerprint = m) ∧
        row.metadataFingerprint ≠ m

theorem mem_marked {peerRanks bitmap : List Int} {rank : Int} :
    rank ∈ marked peerRanks bitmap ↔
      ∃ (i : Nat) (value : Int), peerRanks[i]? = some rank ∧ bitmap[i]? = some value ∧ value ≠ 0 := by
  rw [marked, List.mem_filterMap]
  constructor
  · rintro ⟨⟨r, value⟩, hmem, hsome⟩
    obtain ⟨i, hi⟩ := List.mem_iff_getElem?.mp hmem
    obtain ⟨hr, hv⟩ := List.getElem?_zip_eq_some.mp hi
    dsimp only at hsome
    split at hsome
    · rename_i hne
      obtain rfl := Option.some.inj hsome
      exact ⟨i, value, hr, hv, hne⟩
    · cases hsome
  · rintro ⟨i, value, hr, hv, hne⟩
    exact ⟨(rank, value), List.mem_of_getElem? (List.getElem?_zip_eq_some.mpr ⟨hr, hv⟩),
      if_pos hne⟩

theorem marked_replicate (peerRanks : List Int) (n : Nat) :
    marked peerRanks (List.replicate n 0) = [] := by
  rw [List.eq_nil_iff_forall_not_mem]
  intro rank h
  obtain ⟨i, value, -, hv, hne⟩ := mem_marked.mp h
  exact hne (List.eq_of_mem_replicate (List.mem_of_getElem? hv))

theorem commonStage_eq_iff {stages : List DiagnosticStage} {stage : DiagnosticStage}
    (hstage : stage ≠ .none) :
    commonStage stages = stage ↔ stage ∈ stages ∧ ∀ other ∈ stages, other = stage := by
  rw [commonStage]
  have hmem : ∀ x, x ∈ stages ↔ x ∈ stages.dedup := fun x => List.mem_dedup.symm
  simp only [hmem]
  have hnd : stages.dedup.Nodup := List.nodup_dedup stages
  generalize stages.dedup = distinct at hnd
  match distinct, hnd with
  | [], _ => exact ⟨fun h => absurd h.symm hstage, fun h => absurd h.1 List.not_mem_nil⟩
  | [other], _ =>
      simp only [List.mem_singleton, forall_eq]
      exact ⟨fun h => ⟨h.symm, h⟩, fun h => h.2⟩
  | first :: second :: rest, hnd =>
      refine ⟨fun h => absurd h.symm hstage, fun h => ?_⟩
      have hfirst := h.2 first List.mem_cons_self
      have hsecond := h.2 second (List.mem_cons_of_mem _ List.mem_cons_self)
      rw [hfirst, hsecond] at hnd
      exact absurd List.mem_cons_self (List.nodup_cons.mp hnd).1

variable {d : HangDetectionDaemon}

/-- The stage of the marked ranks, from the rows that were marked. -/
theorem activeStageForCulprits_iff (gathered : Gathered d) (mark : Row → Int)
    {stage : DiagnosticStage} (hstage : stage ≠ .none) :
    activeStageForCulprits gathered.rows (marked d.peerRanks (gathered.rows.map mark))
        d.peerRanks = stage ↔
      (∃ row ∈ gathered.rows, mark row ≠ 0) ∧
        ∀ row ∈ gathered.rows, mark row ≠ 0 → stageOf row.activeStage = stage := by
  have hstages : ∀ t, t ∈ ((marked d.peerRanks (gathered.rows.map mark)).filter
        (· ∈ d.peerRanks)).filterMap (fun rank =>
          gathered.rows[d.peerRanks.idxOf rank]?.map fun row => stageOf row.activeStage) ↔
      ∃ row ∈ gathered.rows, mark row ≠ 0 ∧ stageOf row.activeStage = t := by
    intro t
    simp only [List.mem_filterMap, List.mem_filter, mem_marked, List.getElem?_map,
      Option.map_eq_some_iff, decide_eq_true_eq]
    constructor
    · rintro ⟨rank, ⟨⟨i, value, hrank, ⟨row, hrow, rfl⟩, hne⟩, -⟩, row', hrow', rfl⟩
      obtain ⟨hi, rfl⟩ := List.getElem?_eq_some_iff.mp hrank
      rw [d.distinct.idxOf_getElem] at hrow'
      obtain rfl := Option.some.inj (hrow.symm.trans hrow')
      exact ⟨row, List.mem_of_getElem? hrow, hne, rfl⟩
    · rintro ⟨row, hmem, hne, rfl⟩
      obtain ⟨i, hi⟩ := List.mem_iff_getElem?.mp hmem
      have hlt : i < d.peerRanks.length := by
        rw [← gathered.length_rows]
        exact (List.getElem?_eq_some_iff.mp hi).choose
      refine ⟨d.peerRanks[i], ⟨⟨i, mark row, List.getElem?_eq_getElem hlt, ⟨row, hi, rfl⟩, hne⟩,
        List.getElem_mem hlt⟩, row, ?_, rfl⟩
      rw [d.distinct.idxOf_getElem]
      exact hi
  rw [activeStageForCulprits, commonStage_eq_iff hstage]
  simp only [hstages]
  constructor
  · rintro ⟨⟨row, hrow, hne, -⟩, hall⟩
    exact ⟨⟨row, hrow, hne⟩, fun r hr hne' => hall _ ⟨r, hr, hne', rfl⟩⟩
  · rintro ⟨⟨row, hrow, hne⟩, hall⟩
    refine ⟨⟨row, hrow, hne, hall row hrow hne⟩, ?_⟩
    rintro _ ⟨r, hr, hne', rfl⟩
    exact hall r hr hne'

/-- A strict majority of the rows has this value. -/
def Prevails (rows : List Row) (field : Row → Int) (m : Int) : Prop :=
  rows.length < 2 * rows.countP (field · = m)

variable {rows : List Row} {field : Row → Int}

theorem prevails_unique {m m' : Int} (h : Prevails rows field m) (h' : Prevails rows field m') :
    m = m' := by
  by_contra hne
  have hsum := List.length_eq_countP_add_countP (fun row => decide (field row = m)) (l := rows)
  have hle : rows.countP (field · = m') ≤
      rows.countP fun row => decide ¬(decide (field row = m) = true) := by
    refine List.countP_mono_left fun row _ hrow => ?_
    rw [decide_eq_true_eq] at hrow ⊢
    rw [decide_eq_true_eq, hrow]
    exact Ne.symm hne
  rw [Prevails] at h h'
  omega

/-- Where all have one value it prevails, and no other. -/
theorem not_ne_of_prevails {m : Int} (h : Prevails rows field m)
    (hsame : ∀ row ∈ rows, ∀ row' ∈ rows, field row = field row') {row : Row} (hrow : row ∈ rows) :
    field row = m := by
  rw [Prevails] at h
  have hpos : 0 < rows.countP (field · = m) := by
    have := List.length_pos_of_mem hrow
    omega
  obtain ⟨row', hrow', hm⟩ := List.countP_pos_iff.mp hpos
  rw [hsame row hrow row' hrow', of_decide_eq_true hm]

theorem count_field {m : Int} : (rows.map field).count m = rows.countP (field · = m) := by
  rw [List.count, List.countP_map]
  exact List.countP_congr fun row _ => by simp

variable (field) in
/-- The most common fingerprint, where one of them prevails. -/
theorem mostCommonFingerprint_eq (hne : rows ≠ []) :
    ∃ m, mostCommonFingerprint (rows.map field) = some (m, rows.countP (field · = m)) ∧
      ∀ m', rows.countP (field · = m') ≤ rows.countP (field · = m) := by
  have hdups : (rows.map field).eraseDups ≠ [] := by
    obtain ⟨row, rest, rfl⟩ := List.exists_cons_of_ne_nil hne
    rw [List.map_cons, List.eraseDups_cons]
    exact List.cons_ne_nil _ _
  cases hm : (rows.map field).eraseDups.argmax (rows.map field).count with
  | none => exact absurd (List.argmax_eq_none.mp hm) hdups
  | some m =>
      refine ⟨m, by rw [mostCommonFingerprint, hm, ← count_field]; rfl, fun m' => ?_⟩
      rw [← count_field, ← count_field]
      by_cases hmem : m' ∈ rows.map field
      · exact List.le_of_mem_argmax (List.mem_eraseDups.mpr hmem) hm
      · rw [List.count_eq_zero_of_not_mem hmem]
        exact Nat.zero_le _

theorem card_map_eq_one_iff {β : Type} [DecidableEq β] {f : Row → β} (hne : rows ≠ []) :
    (rows.map f).toFinset.card = 1 ↔ ∀ row ∈ rows, ∀ row' ∈ rows, f row = f row' := by
  rw [Finset.card_eq_one]
  constructor
  · rintro ⟨x, hx⟩ row hrow row' hrow'
    have hmem : ∀ r ∈ rows, f r = x := fun r hr => by
      have := List.mem_toFinset.mpr (List.mem_map_of_mem (f := f) hr)
      rw [hx] at this
      exact Finset.mem_singleton.mp this
    rw [hmem row hrow, hmem row' hrow']
  · intro h
    obtain ⟨row, rest, rfl⟩ := List.exists_cons_of_ne_nil hne
    refine ⟨f row, Finset.ext fun x => ?_⟩
    rw [List.mem_toFinset, List.mem_map, Finset.mem_singleton]
    constructor
    · rintro ⟨row', hrow', rfl⟩
      exact h row' hrow' row List.mem_cons_self
    · rintro rfl
      exact ⟨row, List.mem_cons_self, rfl⟩

theorem one_lt_card_map_iff {β : Type} [DecidableEq β] {f : Row → β} :
    1 < (rows.map f).toFinset.card ↔ ¬∀ row ∈ rows, ∀ row' ∈ rows, f row = f row' := by
  rw [Finset.one_lt_card_iff]
  simp only [List.mem_toFinset, List.mem_map]
  push Not
  constructor
  · rintro ⟨_, _, ⟨row, hrow, rfl⟩, ⟨row', hrow', rfl⟩, hne⟩
    exact ⟨row, hrow, row', hrow', hne⟩
  · rintro ⟨row, hrow, row', hrow', hne⟩
    exact ⟨_, _, ⟨row, hrow, rfl⟩, ⟨row', hrow', rfl⟩, hne⟩

theorem progressId_eq {row row' : Row} (h : (row.step, row.opId) = (row'.step, row'.opId)) :
    row.progressId = row'.progressId := by
  obtain ⟨hstep, hop⟩ := Prod.mk.inj h
  rw [Row.progressId, Row.progressId, hstep, hop]

theorem majority_progress_iff (m : Int) :
    Majority (rows.map fun row => (row.progressId : ℚ)) m ↔ Prevails rows Row.progressId m := by
  rw [Majority, Prevails, List.length_map, List.count, List.countP_map]
  rw [List.countP_congr (q := fun row => decide (row.progressId = m)) fun row _ => by simp]

/-- The marks on those that differ from the value that prevails. -/
def differs (field : Row → Int) (m : Int) (row : Row) : Int := if field row ≠ m then 1 else 0

theorem differs_ne_zero {m : Int} {row : Row} : differs field m row ≠ 0 ↔ field row ≠ m := by
  rw [differs]
  split
  · simp_all
  · simp_all

/-- **The culprits are the ranks that diverge.** -/
theorem compareProgress_culprits (hlen : rows.length = d.peerRanks.length) (hne : rows ≠ [])
    {progressResult : Classified} (h : classifyEvidence
      (rows.map fun row => (row.progressId : ℚ)) .exact 3 = .ok progressResult) :
    ∃ mark : Row → Int, (∀ row ∈ rows, mark row ≠ 0 ↔ Diverges rows row) ∧
      (compareProgress d rows progressResult.bitmap).2.2 =
        marked d.peerRanks (rows.map mark) := by
  have hids : (rows.map fun row => (row.progressId : ℚ)) ≠ [] := by
    rwa [Ne, List.map_eq_nil_iff]
  rw [classifyEvidence_exact hids] at h
  obtain rfl := Except.ok.inj h
  have hnone : marked d.peerRanks (rows.map fun _ => 0) = [] := by
    rw [List.map_const']
    exact marked_replicate _ _
  have hzeros : ∀ k : Nat, (List.replicate k (0 : Int)).any (· = 1) = false := fun k => by
    rw [List.any_eq_false]
    intro x hx
    rw [List.eq_of_mem_replicate hx]
    decide
  by_cases hun : ∀ row ∈ rows, ∀ row' ∈ rows, row.progressId = row'.progressId
  · -- all are at the same place, and the pending collectives decide
    have hunanimous : Unanimous (rows.map fun row => (row.progressId : ℚ)) := by
      intro v hv w hw
      obtain ⟨row, hrow, rfl⟩ := List.mem_map.mp hv
      obtain ⟨row', hrow', rfl⟩ := List.mem_map.mp hw
      rw [hun row hrow row' hrow']
    have hfirst : ∀ row ∈ rows, ¬∃ m, rows.length < 2 * rows.countP (·.progressId = m) ∧
        row.progressId ≠ m := by
      rintro row hrow ⟨m, hm, hdiff⟩
      exact hdiff (not_ne_of_prevails hm hun hrow)
    rw [classifyExact_agree hunanimous, compareProgress, hzeros, if_neg Bool.false_ne_true]
    dsimp only
    by_cases hpairs : ∀ r ∈ rows, ∀ r' ∈ rows, (r.step, r.opId) = (r'.step, r'.opId)
    · by_cases hmeta : ∀ r ∈ rows, ∀ r' ∈ rows, r.metadataFingerprint = r'.metadataFingerprint
      · rw [if_neg fun hc => one_lt_card_map_iff.mp hc.2 hmeta]
        refine ⟨fun _ => 0, fun row hrow => ⟨fun h => absurd rfl h, ?_⟩, hnone.symm⟩
        rintro (hdiv | ⟨-, m, hm, hdiff⟩)
        · exact absurd hdiv (hfirst row hrow)
        · exact absurd (not_ne_of_prevails hm hmeta hrow) hdiff
      · rw [if_pos ⟨(card_map_eq_one_iff hne).mpr hpairs, one_lt_card_map_iff.mpr hmeta⟩]
        obtain ⟨m, hm, hmax⟩ := mostCommonFingerprint_eq Row.metadataFingerprint hne
        rw [hm]
        dsimp only
        rw [← hlen, List.map_map]
        split
        · rename_i hcount
          have hprevails : Prevails rows Row.metadataFingerprint m := by
            rw [Prevails]
            omega
          refine ⟨differs Row.metadataFingerprint m, fun row hrow => ?_, rfl⟩
          rw [differs_ne_zero]
          constructor
          · exact fun hdiff => Or.inr ⟨hpairs, m, hprevails, hdiff⟩
          · rintro (hdiv | ⟨-, m', hm', hdiff⟩)
            · exact absurd hdiv (hfirst row hrow)
            · rwa [prevails_unique hprevails hm']
        · rename_i hcount
          refine ⟨fun _ => 0, fun row hrow => ⟨fun h => absurd rfl h, ?_⟩, hnone.symm⟩
          rintro (hdiv | ⟨-, m', hm', -⟩)
          · exact absurd hdiv (hfirst row hrow)
          · have := hmax m'
            omega
    · rw [if_neg fun hc => hpairs ((card_map_eq_one_iff hne).mp hc.1)]
      refine ⟨fun _ => 0, fun row hrow => ⟨fun h => absurd rfl h, ?_⟩, hnone.symm⟩
      rintro (hdiv | ⟨hpairs', -⟩)
      · exact absurd hdiv (hfirst row hrow)
      · exact absurd hpairs' hpairs
  · -- some progress differs
    have hpairs : ¬∀ r ∈ rows, ∀ r' ∈ rows, (r.step, r.opId) = (r'.step, r'.opId) := fun hc =>
      hun fun row hrow row' hrow' => progressId_eq (hc row hrow row' hrow')
    have hnot : ¬Unanimous (rows.map fun row => (row.progressId : ℚ)) := fun hc =>
      hun fun row hrow row' hrow' => Int.cast_injective
        (hc _ (List.mem_map_of_mem hrow) _ (List.mem_map_of_mem hrow'))
    by_cases hmajority : ∃ m, Prevails rows Row.progressId m
    · obtain ⟨m, hm⟩ := hmajority
      have hmarks : (rows.map fun row => (row.progressId : ℚ)).map
          (fun v => if v ≠ (m : ℚ) then (1 : Int) else 0) =
            rows.map (differs Row.progressId m) := by
        rw [List.map_map]
        refine List.map_congr_left fun row _ => ?_
        simp [differs]
      obtain ⟨row, hrow, hdiff⟩ : ∃ row ∈ rows, row.progressId ≠ m := by
        by_contra hc
        push Not at hc
        exact hun fun row hrow row' hrow' => (hc row hrow).trans (hc row' hrow').symm
      have hany : (rows.map (differs Row.progressId m)).any (· = 1) = true := by
        rw [List.any_eq_true]
        exact ⟨_, List.mem_map_of_mem hrow, decide_eq_true (if_pos hdiff)⟩
      rw [classifyExact_attributed hnot ((majority_progress_iff m).mpr hm)]
      dsimp only
      rw [hmarks, compareProgress, if_pos hany]
      refine ⟨differs Row.progressId m, fun row hrow => ?_, rfl⟩
      rw [differs_ne_zero]
      constructor
      · exact fun hdiff => Or.inl ⟨m, hm, hdiff⟩
      · rintro (⟨m', hm', hdiff⟩ | ⟨hpairs', -⟩)
        · rwa [prevails_unique hm hm']
        · exact absurd hpairs' hpairs
    · have hnoMajority : ∀ v, ¬Majority (rows.map fun row => (row.progressId : ℚ)) v := by
        intro v hv
        have hmem : v ∈ rows.map fun row => (row.progressId : ℚ) := by
          rw [← List.count_pos_iff]
          rw [Majority] at hv
          omega
        obtain ⟨row, -, rfl⟩ := List.mem_map.mp hmem
        exact hmajority ⟨_, (majority_progress_iff _).mp hv⟩
      rw [classifyExact_inconclusive hnot hnoMajority, compareProgress, hzeros,
        if_neg Bool.false_ne_true]
      dsimp only
      rw [if_neg fun hc => hpairs ((card_map_eq_one_iff hne).mp hc.1)]
      refine ⟨fun _ => 0, fun row hrow => ⟨fun h => absurd rfl h, ?_⟩, hnone.symm⟩
      rintro (⟨m, hm, -⟩ | ⟨hpairs', -⟩)
      · exact absurd ⟨m, hm⟩ hmajority
      · exact absurd hpairs' hpairs

/-! ## The data-loading evidence of a report -/

/-- The report carries evidence on data loading only where data loading was compared, and
then it is that of the comparison. -/
def HangLocalizationResult.FromDataLoading (r : HangLocalizationResult) : Prop :=
  (r.dataloaderKey ≠ 0 ∨ (∃ value ∈ r.dataloaderBitmap, value ≠ 0) ∨
    r.dataloaderCulpritRanks ≠ [] ∨ r.dataloaderLatenciesMs ≠ []) →
  r.stageKind = some DiagnosticStage.dataLoading.name ∧ r.dataloaderKey = r.stageKey ∧
    r.dataloaderBitmap = r.stageBitmap ∧ r.dataloaderCulpritRanks = r.stageCulpritRanks ∧
    r.dataloaderLatenciesMs = r.stageLatenciesMs

/-- Some ranks diverge, and all that do are loading data, while the stage that has been active
for longest is another one. -/
def Misleading (rows : List Row) : Prop :=
  (∃ row ∈ rows, Diverges rows row) ∧
    (∀ row ∈ rows, Diverges rows row → stageOf row.activeStage = .dataLoading) ∧
    ∃ c, longest (candidates rows) = some c ∧ c.kind ≠ .dataLoading

theorem evidence_of_classifyEvidence {values : List ℚ} {mode : C3Mode} {sigma : ℚ}
    {result : Classified} (h : classifyEvidence values mode sigma = .ok result) :
    result.evidence = values := by
  unfold classifyEvidence at h
  split at h
  · cases h
  split at h
  · cases h
  cases mode with
  | exact =>
      obtain rfl := Except.ok.inj h
      rw [classifyExact]
      split
      · rfl
      split
      · rfl
      split
      · rfl
      · rfl
  | statistical =>
      obtain rfl := Except.ok.inj h
      rw [classifyStatistical]
      dsimp only
      split
      · rfl
      split
      · rfl
      · rfl

theorem longest_mem {cs : List Candidate} {c : Candidate} (h : longest cs = some c) : c ∈ cs := by
  cases cs with
  | nil => cases h
  | cons first rest =>
      obtain rfl := Option.some.inj h
      have hfold : ∀ (rest : List Candidate) (best : Candidate),
          rest.foldl (fun best c => if best.before c then c else best) best ∈ best :: rest := by
        intro rest
        induction rest with
        | nil => exact fun _ => List.mem_singleton.mpr rfl
        | cons c rest ih =>
            intro best
            rw [List.foldl_cons]
            split
            · exact List.mem_cons_of_mem _ (ih c)
            · rcases List.mem_cons.mp (ih best) with hbest | hrest
              · rw [hbest]
                exact List.mem_cons_self
              · exact List.mem_cons_of_mem _ (List.mem_cons_of_mem _ hrest)
      exact hfold rest first

/-- A candidate is in the active stage of one of the ranks. -/
theorem kind_of_mem_candidates {c : Candidate} (h : c ∈ candidates rows) :
    ∃ row ∈ rows, c.kind = stageOf row.activeStage ∧ c.kind ≠ .none := by
  rw [candidates, List.mem_map] at h
  obtain ⟨⟨row, i⟩, hmem, rfl⟩ := h
  obtain ⟨hmem, hactive⟩ := List.mem_filter.mp hmem
  rw [decide_eq_true_eq] at hactive
  exact ⟨row, List.mem_of_getElem? (List.mk_mem_zipIdx_iff_getElem?.mp hmem), rfl, hactive.1⟩

theorem compareStageLatency_spec {comparison : StageComparison} (hne : rows ≠ [])
    (h : compareStageLatency d rows = .ok comparison) :
    (longest (candidates rows) = none ∧ comparison.kind = .none ∧ comparison.key = 0 ∧
        comparison.bitmap = List.replicate d.peerRanks.length 0 ∧ comparison.latenciesMs = []) ∨
      ∃ c, longest (candidates rows) = some c ∧ comparison.kind = c.kind ∧
        comparison.latenciesMs ≠ [] := by
  rw [compareStageLatency] at h
  cases hc : longest (candidates rows) with
  | none =>
      rw [hc] at h
      obtain rfl := Except.ok.inj h
      exact Or.inl ⟨rfl, rfl, rfl, rfl, rfl⟩
  | some c =>
      rw [hc] at h
      dsimp only at h
      split at h
      · cases h
      · rename_i timing htiming
        obtain rfl := Except.ok.inj h
        refine Or.inr ⟨c, rfl, rfl, ?_⟩
        dsimp only
        rwa [evidence_of_classifyEvidence htiming, Ne, List.map_eq_nil_iff]

theorem name_eq_iff {a b : DiagnosticStage} : a.name = b.name ↔ a = b := by
  cases a <;> cases b <;> decide

/-- The active stage of the culprits is data loading where all that diverge load data. -/
theorem culprits_loading_iff (gathered : Gathered d) {mark : Row → Int}
    (hmark : ∀ row ∈ gathered.rows, mark row ≠ 0 ↔ Diverges gathered.rows row) :
    activeStageForCulprits gathered.rows (marked d.peerRanks (gathered.rows.map mark))
        d.peerRanks = .dataLoading ↔
      (∃ row ∈ gathered.rows, Diverges gathered.rows row) ∧ ∀ row ∈ gathered.rows,
        Diverges gathered.rows row → stageOf row.activeStage = .dataLoading := by
  rw [activeStageForCulprits_iff gathered mark (by decide)]
  constructor
  · rintro ⟨⟨row, hrow, hne⟩, hall⟩
    exact ⟨⟨row, hrow, (hmark row hrow).mp hne⟩,
      fun r hr hdiv => hall r hr ((hmark r hr).mpr hdiv)⟩
  · rintro ⟨⟨row, hrow, hdiv⟩, hall⟩
    exact ⟨⟨row, hrow, (hmark row hrow).mpr hdiv⟩,
      fun r hr hne => hall r hr ((hmark r hr).mp hne)⟩

theorem culprits_ne_nil_iff (gathered : Gathered d) {mark : Row → Int}
    (hmark : ∀ row ∈ gathered.rows, mark row ≠ 0 ↔ Diverges gathered.rows row) :
    marked d.peerRanks (gathered.rows.map mark) ≠ [] ↔
      ∃ row ∈ gathered.rows, Diverges gathered.rows row := by
  rw [Ne, List.eq_nil_iff_forall_not_mem]
  push Not
  constructor
  · rintro ⟨rank, hrank⟩
    obtain ⟨i, value, -, hv, hne⟩ := mem_marked.mp hrank
    rw [List.getElem?_map] at hv
    obtain ⟨row, hrow, rfl⟩ := Option.map_eq_some_iff.mp hv
    have hmem := List.mem_of_getElem? hrow
    exact ⟨row, hmem, (hmark row hmem).mp hne⟩
  · rintro ⟨row, hmem, hdiv⟩
    obtain ⟨i, hi⟩ := List.mem_iff_getElem?.mp hmem
    have hlt : i < d.peerRanks.length := by
      rw [← gathered.length_rows]
      exact (List.getElem?_eq_some_iff.mp hi).choose
    refine ⟨d.peerRanks[i], mem_marked.mpr ⟨i, mark row, List.getElem?_eq_getElem hlt, ?_,
      (hmark row hmem).mpr hdiv⟩⟩
    rw [List.getElem?_map, hi]
    rfl

/-- The evidence of a report whose data-loading fields are those of the comparison where data
loading is active, and empty elsewhere. -/
theorem fromDataLoading_iff {r : HangLocalizationResult} {active : Bool} {n : Nat}
    {kind : DiagnosticStage} (hkey : r.dataloaderKey = if active then r.stageKey else 0)
    (hbitmap : r.dataloaderBitmap = if active then r.stageBitmap else List.replicate n 0)
    (hculprits : r.dataloaderCulpritRanks = if active then r.stageCulpritRanks else [])
    (hlatencies : r.dataloaderLatenciesMs = if active then r.stageLatenciesMs else [])
    (hkind : r.stageKind = if kind ≠ .none then some kind.name else none) :
    r.FromDataLoading ↔ (active = true →
      (r.stageKey ≠ 0 ∨ (∃ value ∈ r.stageBitmap, value ≠ 0) ∨ r.stageCulpritRanks ≠ [] ∨
        r.stageLatenciesMs ≠ []) → kind = .dataLoading) := by
  rw [HangLocalizationResult.FromDataLoading, hkey, hbitmap, hculprits, hlatencies, hkind]
  cases active with
  | false =>
      refine ⟨fun _ h => absurd h Bool.false_ne_true, fun _ hsome => ?_⟩
      rcases hsome with h | ⟨value, hmem, h⟩ | h | h
      · exact absurd rfl h
      · exact absurd (List.eq_of_mem_replicate hmem) h
      · exact absurd rfl h
      · exact absurd rfl h
  | true =>
      constructor
      · intro h _ hsome
        obtain ⟨hstage, -⟩ := h hsome
        split at hstage
        · exact name_eq_iff.mp (Option.some.inj hstage)
        · cases hstage
      · intro h hsome
        obtain rfl := h rfl hsome
        exact ⟨rfl, rfl, rfl, rfl, rfl⟩

/-- **The data-loading evidence of a report comes from data loading** exactly where the
divergence of the ranks is not misleading. -/
theorem checkOnce_fromDataLoading_iff (gathered : Gathered d) {stallS : ℚ}
    {report : HangLocalizationResult} (h : checkOnce d gathered stallS = .ok report) :
    report.FromDataLoading ↔ ¬Misleading gathered.rows := by
  have hne : gathered.rows ≠ [] := by
    rw [← List.length_pos_iff, gathered.length_rows]
    exact List.length_pos_of_mem d.member
  rw [checkOnce] at h
  dsimp only at h
  split at h
  · cases h
  cases hexact : classifyEvidence (gathered.rows.map fun row => (row.progressId : ℚ)) .exact 3 with
  | error message =>
      rw [hexact] at h
      cases h
  | ok progressResult =>
  obtain ⟨mark, hmark, hculprits⟩ := compareProgress_culprits gathered.length_rows hne hexact
  rw [hexact] at h
  cases hcompare : compareStageLatency d gathered.rows with
  | error e =>
      rw [hcompare] at h
      cases h
  | ok comparison =>
  rw [hcompare] at h
  obtain rfl := Except.ok.inj h
  rw [fromDataLoading_iff rfl rfl rfl rfl rfl]
  dsimp only
  rw [hculprits]
  have hloading := culprits_loading_iff gathered hmark
  have hsome := culprits_ne_nil_iff gathered hmark
  generalize marked d.peerRanks (gathered.rows.map mark) = culpritRanks at hloading hsome ⊢
  rcases compareStageLatency_spec hne hcompare with
    ⟨hlongest, hkind, hkey, hbitmap, hlatencies⟩ | ⟨c, hlongest, hkind, hlatencies⟩
  · -- no stage is active: there is no evidence at all
    refine iff_of_true (fun _ h => ?_) fun hmis => ?_
    · rw [hkey, hbitmap, hlatencies, marked_replicate] at h
      rcases h with h | ⟨value, hmem, h⟩ | h | h
      · exact absurd rfl h
      · exact absurd (List.eq_of_mem_replicate hmem) h
      · exact absurd rfl h
      · exact absurd rfl h
    · obtain ⟨-, -, c, hc, -⟩ := hmis
      rw [hlongest] at hc
      cases hc
  · have hmisleading : Misleading gathered.rows ↔
        ((∃ row ∈ gathered.rows, Diverges gathered.rows row) ∧ ∀ row ∈ gathered.rows,
          Diverges gathered.rows row → stageOf row.activeStage = .dataLoading) ∧
            comparison.kind ≠ .dataLoading := by
      rw [Misleading, hlongest, hkind, and_assoc]
      simp
    rw [hmisleading, ← hloading]
    have hsome' : (comparison.key ≠ 0 ∨ (∃ value ∈ comparison.bitmap, value ≠ 0) ∨
        marked d.peerRanks comparison.bitmap ≠ [] ∨ comparison.latenciesMs ≠ []) :=
      Or.inr (Or.inr (Or.inr hlatencies))
    cases culpritRanks with
    | cons rank ranks =>
        -- the stage of the culprits decides
        simp only [List.isEmpty_cons, Bool.not_false, if_true]
        generalize activeStageForCulprits gathered.rows (rank :: ranks) d.peerRanks = active
        simp only [hsome', forall_const, Bool.and_eq_true, decide_eq_true_eq, not_and, not_not]
        constructor
        · rintro h rfl
          exact h ⟨by decide, rfl⟩
        · rintro h ⟨-, hactive⟩
          exact h hactive
    | nil =>
        have hnot : activeStageForCulprits gathered.rows [] d.peerRanks ≠ .dataLoading :=
          fun h => absurd h (show DiagnosticStage.none ≠ .dataLoading by decide)
        refine iff_of_true (fun hactive _ => ?_) fun h => hnot h.1
        rw [if_neg (by decide)] at hactive
        obtain ⟨-, hactive⟩ := (Bool.and_eq_true _ _).mp hactive
        rw [decide_eq_true_eq] at hactive
        split at hactive
        · -- all ranks are loading data, also the one that was compared with
          obtain ⟨row, hrow, hc, -⟩ := kind_of_mem_candidates (longest_mem hlongest)
          rw [hkind, hc]
          exact ((commonStage_eq_iff (by decide)).mp hactive).2 _
            (List.mem_map_of_mem (f := fun row => stageOf row.activeStage) hrow)
        · exact hactive

/-! One rank lags behind in a data loader, while another one writes a checkpoint for longer. -/

def sampleDaemon : HangDetectionDaemon where
  rank := 0
  peerRanks := [0, 1, 2]
  distinct := by decide
  member := by decide
  stallThresholdS := 30
  dataloaderLatencyThresholdMs := 5000
  dataloaderMinSlowdownRatio := 2
  checkpointIoLatencyThresholdMs := 30000
  checkpointIoMinSlowdownRatio := 2

/-- A row of a rank at a step, in an active stage. -/
def sampleRow (opId stage key elapsedNs : Int) : Row where
  opId := opId
  step := 5
  metadataFingerprint := 0
  activeStage := stage
  activeStageKey := key
  activeStageSequence := 1
  activeElapsedNs := elapsedNs
  completedStage := 0
  completedStageKey := 0
  completedStageSequence := 0
  completedStageDurationNs := 0

def sampleGathered : Gathered sampleDaemon where
  rows := [sampleRow 10 3 7 60000000000, sampleRow 10 0 0 0, sampleRow 9 1 4 1000000000]
  length_rows := rfl

theorem checkOnce_sample : ∃ report, checkOnce sampleDaemon sampleGathered 40 = .ok report ∧
    report.dataloaderKey = 7 ∧ report.stageKind = some "checkpoint_write" := by
  have hrun : (checkOnce sampleDaemon sampleGathered 40).toOption.map
      (fun report => (report.dataloaderKey, report.stageKind)) =
        some (7, some "checkpoint_write") := by decide +kernel
  cases hcheck : checkOnce sampleDaemon sampleGathered 40 with
  | error e =>
      rw [hcheck] at hrun
      cases hrun
  | ok report =>
      rw [hcheck] at hrun
      obtain ⟨hkey, hkind⟩ := Prod.mk.inj (Option.some.inj hrun)
      exact ⟨report, rfl, hkey, hkind⟩

/-- The report gives the key and the latencies of the checkpoint as those of data loading. -/
theorem checkOnce_misleading : ∃ report, checkOnce sampleDaemon sampleGathered 40 = .ok report ∧
    ¬report.FromDataLoading := by
  obtain ⟨report, hcheck, hkey, hkind⟩ := checkOnce_sample
  refine ⟨report, hcheck, fun h => ?_⟩
  obtain ⟨hstage, -⟩ := h (Or.inl (by rw [hkey]; decide))
  rw [hkind] at hstage
  exact absurd hstage (by decide)

theorem checkOnce_fromDataLoading_iff_sample :
    ∃ report, checkOnce sampleDaemon sampleGathered 40 = .ok report ∧
      (report.FromDataLoading ↔ ¬Misleading sampleGathered.rows) := by
  obtain ⟨report, hcheck, -⟩ := checkOnce_sample
  exact ⟨report, hcheck, checkOnce_fromDataLoading_iff sampleGathered hcheck⟩

end LmResiliency.Detection.HangDetector
