/-
# ReplayMerge — merging the confirmation rounds of a replay

When a replay looks slow it is repeated, and `merge_replay_rounds` folds the
rounds into the first result.  The numerical verdict of the merged result
rests on two things: a flagged peer in `sdc_bitmap`, which the merge computes
from the bitmaps of the sources, and an inconclusive `c3_results` entry, which
it takes from the first round alone.

The detail of a straggler and the collective timings are only carried along;
their types are left open.

`merge_keeps_verdict_iff` says when no verdict is lost.
-/
import LmResiliency.Detection.Consensus
import LmResiliency.Lib.Dict
import LmResiliency.Lib.Outcome

namespace LmResiliency.Detection

open Outcome

/-- A `ReplayResult` with all that merging and aggregation read or set. -/
structure Replay (D τ : Type) extends ReplayResult where
  stragglerBitmap : List Int
  replayTimeMs : ℚ
  replayTimesMs : List ℚ
  sdcSources : List String
  sdcSourceBitmaps : List (String × List Int)
  replayMode : String
  spatialStragglerBitmap : List Int
  temporalStragglerBitmap : List Int
  stragglerConfirmations : Nat
  temporalGroupSlowdown : Bool
  replayShapeId : String
  replayShape : Option (List Nat)
  checkedShapes : List (Option (List Nat))
  shapeCycleSize : Nat
  scheduledCycle : Nat
  checkedRecipeIds : List String
  stragglerDetail : Option D
  collectiveTimings : List τ
  timingC3Result : Option C3Result

/-- `TemporalAssessment`. -/
structure TemporalAssessment where
  rankBitmap : List Int
  groupSlowdown : Bool

/-- What merging and aggregation raise. -/
inductive MergeError where
  | indexError
  | runtimeError (message : String)
  | valueError (message : String)
deriving DecidableEq

/-! ## Bitmaps -/

/-- `any(bitmap)`. -/
def anyFlag (bitmap : List Int) : Bool := bitmap.any (· ≠ 0)

/-- `any(bitmap[index] for bitmap in bitmaps)`, up to the first that is set. -/
def anyAt (index : Nat) : List (List Int) → Except MergeError Bool
  | [] => .ok false
  | bitmap :: bitmaps =>
      match bitmap[index]? with
      | none => .error .indexError
      | some flag => if flag ≠ 0 then .ok true else anyAt index bitmaps

/-- `[int(any(bitmap[index] for bitmap in bitmaps)) for index in range(width)]`. -/
def unionBitmaps (width : Nat) (bitmaps : List (List Int)) : Except MergeError (List Int) :=
  (List.range width).mapM fun index => do
    let flag ← anyAt index bitmaps
    return if flag then 1 else 0

/-- The bitmap of a source in a result, empty where the result has none. -/
def sourceBitmap (width : Nat) (name : String) (sources : List (String × List Int)) : List Int :=
  (sources.lookup name).getD (List.replicate width 0)

/-- The bitmaps of every source of some results, each the union over them.  The
sources come in the order of their first appearance. -/
def unionSources (width : Nat) (sources : List (List (String × List Int))) :
    Except MergeError (List (String × List Int)) :=
  (sources.flatMap fun s => s.map Prod.fst).eraseDups.mapM fun name => do
    let bitmap ← unionBitmaps width (sources.map (sourceBitmap width name))
    return (name, bitmap)

/-- The sources that flag a peer. -/
def flaggedSources (sources : List (String × List Int)) : List String :=
  (sources.filter fun source => anyFlag source.2).map Prod.fst

/-- How many of the bitmaps flag each position; a bitmap that is too long raises. -/
def countFlags (width : Nat) (bitmaps : List (List Int)) : Except MergeError (List Nat) :=
  if bitmaps.any (width < ·.length) then .error .indexError
  else .ok ((List.range width).map fun index =>
    bitmaps.countP fun bitmap => bitmap.getD index 0 ≠ 0)

def statisticsMedian (values : List ℚ) : ℚ :=
  let sortedVals := sorted values
  let half := values.length / 2
  if values.length % 2 = 1 then sortedVals.getD half 0
  else (sortedVals.getD (half - 1) 0 + sortedVals.getD half 0) / 2

/-- `xs or ys` on lists. -/
def orElse {α : Type} (xs ys : List α) : List α := if xs.isEmpty then ys else xs

variable {D τ : Type}

/-! ## The merge -/

def mergeSdcSourceBitmaps (result : Replay D τ) (sourceBitmaps : List (String × List Int)) :
    Except MergeError (Replay D τ) :=
  let width := result.sdcBitmap.length
  if sourceBitmaps.isEmpty then .ok result
  else if sourceBitmaps.any (·.2.length ≠ width) then
    .error (.runtimeError "optimizer-step C3 bitmap does not match the replay peer group")
  else do
    let sources := Dict.update result.sdcSourceBitmaps sourceBitmaps
    let bitmap ← unionBitmaps width (sources.map Prod.snd)
    return { result with
      sdcSourceBitmaps := sources
      sdcBitmap := bitmap
      sdcSources := flaggedSources sources }

def mergeReplayRounds (rounds : List (Replay D τ)) (assessments : List TemporalAssessment)
    (required : Nat) : Except MergeError (Replay D τ) :=
  match rounds with
  | [] => .error .indexError
  | first :: _ => do
      let width := first.stragglerBitmap.length
      let paired := rounds.zip assessments
      let spatialCounts ← countFlags width
        (paired.map fun p => orElse p.1.spatialStragglerBitmap p.1.stragglerBitmap)
      let temporalCounts ← countFlags width (paired.map fun p => p.2.rankBitmap)
      let spatial : List Int := spatialCounts.map fun n => if required ≤ n then 1 else 0
      let temporal : List Int := temporalCounts.map fun n => if required ≤ n then 1 else 0
      let groupCount := assessments.countP TemporalAssessment.groupSlowdown
      let sources ← unionSources width (rounds.map Replay.sdcSourceBitmaps)
      let sdcBitmap ← unionBitmaps width (sources.map Prod.snd)
      let timingVectors := (rounds.map Replay.replayTimesMs).filter (·.length = width)
      return { first with
        spatialStragglerBitmap := spatial
        temporalStragglerBitmap := temporal
        stragglerBitmap := List.zipWith (fun s t => if s ≠ 0 ∨ t ≠ 0 then 1 else 0)
          spatial temporal
        temporalGroupSlowdown := required ≤ groupCount
        stragglerConfirmations := (spatialCounts ++ temporalCounts).foldl max groupCount
        sdcSourceBitmaps := sources
        sdcBitmap := sdcBitmap
        sdcSources := flaggedSources sources
        replayTimesMs :=
          if timingVectors.isEmpty then first.replayTimesMs
          else (List.range width).map fun index =>
            statisticsMedian (timingVectors.map fun vector => vector.getD index 0)
        replayTimeMs := statisticsMedian (rounds.map Replay.replayTimeMs) }

/-! ## What the bitmaps say -/

theorem anyAt_ok {index : Nat} : ∀ {bitmaps : List (List Int)} {flag : Bool},
    anyAt index bitmaps = .ok flag →
      (flag = true ↔ ∃ bitmap ∈ bitmaps, bitmap.getD index 0 ≠ 0)
  | [], flag, h => by
      cases h
      simp
  | bitmap :: bitmaps, flag, h => by
      rw [anyAt] at h
      cases hget : bitmap[index]? with
      | none => rw [hget] at h; cases h
      | some f =>
          rw [hget] at h
          simp only at h
          have hd : bitmap.getD index 0 = f := by
            rw [List.getD_eq_getElem?_getD, hget, Option.getD_some]
          simp only [List.mem_cons, exists_eq_or_imp, hd]
          split at h
          · rename_i hf
            cases h
            exact iff_of_true rfl (Or.inl hf)
          · rename_i hf
            rw [anyAt_ok h]
            exact (or_iff_right hf).symm

theorem unionBitmaps_ok {width : Nat} {bitmaps : List (List Int)} {union : List Int}
    (h : unionBitmaps width bitmaps = .ok union) :
    union.length = width ∧ ∀ index < width,
      (union.getD index 0 ≠ 0 ↔ ∃ bitmap ∈ bitmaps, bitmap.getD index 0 ≠ 0) := by
  have hall := mapM_ok_iff.mp h
  have hlen : union.length = width := by rw [← hall.length_eq, List.length_range]
  refine ⟨hlen, fun index hi => ?_⟩
  have hget := List.forall₂_iff_get.mp hall
  obtain ⟨flag, hflag, hval⟩ := bind_ok_iff.mp
    (hget.2 index (by rw [List.length_range]; exact hi) (by rw [hlen]; exact hi))
  rw [List.get_eq_getElem, List.getElem_range] at hflag
  have hunion : union.getD index 0 = if flag then 1 else 0 := by
    rw [List.getD_eq_getElem?_getD, List.getElem?_eq_getElem (by rw [hlen]; exact hi)]
    exact (Except.ok.inj hval).symm
  rw [hunion, ← anyAt_ok hflag]
  cases flag <;> simp

/-- Nobody is flagged beyond the end of a bitmap. -/
theorem lt_length_of_flag {bitmap : List Int} {peer : Nat} (h : bitmap.getD peer 0 ≠ 0) :
    peer < bitmap.length := by
  by_contra hge
  rw [List.getD_eq_getElem?_getD, List.getElem?_eq_none (by omega), Option.getD_none] at h
  exact h rfl

/-- The union of bitmaps of the full width is computed. -/
theorem unionBitmaps_returns {width : Nat} {bitmaps : List (List Int)}
    (h : ∀ bitmap ∈ bitmaps, bitmap.length = width) :
    ∃ union, unionBitmaps width bitmaps = .ok union := by
  refine mapM_total fun index hindex => ?_
  have hlt := List.mem_range.mp hindex
  obtain ⟨flag, hflag⟩ : ∃ flag, anyAt index bitmaps = .ok flag := by
    induction bitmaps with
    | nil => exact ⟨false, rfl⟩
    | cons bitmap bitmaps ih =>
        have hlen := h bitmap List.mem_cons_self
        rw [anyAt, List.getElem?_eq_getElem (by omega)]
        simp only
        split
        · exact ⟨true, rfl⟩
        · exact ih fun b hb => h b (List.mem_cons_of_mem bitmap hb)
  exact ⟨_, by rw [hflag]; rfl⟩

theorem unionSources_returns {width : Nat} {sources : List (List (String × List Int))}
    (h : ∀ s ∈ sources, ∀ source ∈ s, source.2.length = width) :
    ∃ union, unionSources width sources = .ok union := by
  refine mapM_total fun name _ => ?_
  obtain ⟨bitmap, hbitmap⟩ : ∃ bitmap,
      unionBitmaps width (sources.map (sourceBitmap width name)) = .ok bitmap := by
    refine unionBitmaps_returns fun bitmap hin => ?_
    obtain ⟨s, hs, rfl⟩ := List.mem_map.mp hin
    rw [sourceBitmap]
    cases hlookup : s.lookup name with
    | none => exact List.length_replicate
    | some found => exact h s hs (name, found) (Dict.mem_of_lookup hlookup)
  exact ⟨(name, bitmap), by rw [hbitmap]; rfl⟩

theorem anyFlag_iff {bitmap : List Int} {width : Nat} (h : bitmap.length = width) :
    anyFlag bitmap = true ↔ ∃ index < width, bitmap.getD index 0 ≠ 0 := by
  subst h
  rw [anyFlag, List.any_eq_true]
  constructor
  · rintro ⟨flag, hflag, hne⟩
    obtain ⟨index, hi, rfl⟩ := List.getElem_of_mem hflag
    exact ⟨index, hi, by simpa [hi] using hne⟩
  · rintro ⟨index, hi, hne⟩
    exact ⟨bitmap[index], List.getElem_mem hi, by simpa [hi] using hne⟩

/-! ## The verdict of the rounds -/

/-- Some source of the result flags one of the first `width` peers. -/
def Sourced (width : Nat) (r : Replay D τ) : Prop :=
  ∃ name, ∃ index < width, (sourceBitmap width name r.sdcSourceBitmaps).getD index 0 ≠ 0

/-- Some C3 result is inconclusive. -/
def Inconclusive (r : Replay D τ) : Prop := ∃ e ∈ r.c3Results, e.2.status = .inconclusive

/-- `replay_result_has_sdc(result)`. -/
def HasSdc (r : Replay D τ) : Prop := replayResultHasSdc (some r.toReplayResult) = true

theorem hasSdc_iff {r : Replay D τ} :
    HasSdc r ↔ anyFlag r.sdcBitmap = true ∨ Inconclusive r := by
  simp only [HasSdc, replayResultHasSdc, anyFlag, Inconclusive, Bool.or_eq_true, List.any_eq_true,
    decide_eq_true_eq]

theorem getD_replicate_zero (width index : Nat) :
    (List.replicate width (0 : Int)).getD index 0 = 0 := by
  rw [List.getD_eq_getElem?_getD, List.getElem?_replicate]
  split <;> rfl

/-- A source that a result does not have flags nobody. -/
theorem mem_sources_of_flag {width index : Nat} {name : String}
    {sources : List (String × List Int)}
    (h : (sourceBitmap width name sources).getD index 0 ≠ 0) :
    name ∈ sources.map Prod.fst := by
  by_contra hnot
  have hnone : sources.lookup name = none := by
    rw [List.lookup_eq_none_iff]
    intro p hp
    simpa using fun heq : name = p.1 => hnot (heq ▸ List.mem_map_of_mem hp)
  rw [sourceBitmap, hnone, Option.getD_none, getD_replicate_zero] at h
  exact h rfl

/-- The union over the sources: it flags exactly the peers that some source
of some result flags. -/
theorem unionSources_ok {width : Nat} {sources : List (List (String × List Int))}
    {merged : List (String × List Int)} (h : unionSources width sources = .ok merged)
    {index : Nat} (hi : index < width) :
    (∃ bitmap ∈ merged.map Prod.snd, bitmap.getD index 0 ≠ 0) ↔
      ∃ s ∈ sources, ∃ name, (sourceBitmap width name s).getD index 0 ≠ 0 := by
  have hall := mapM_ok_iff.mp h
  have hmem : ∀ name bitmap, (name, bitmap) ∈ merged →
      unionBitmaps width (sources.map (sourceBitmap width name)) = .ok bitmap := by
    intro name bitmap hin
    obtain ⟨name', -, hname⟩ := (mem_of_forall₂ hall).2 (name, bitmap) hin
    obtain ⟨b, hb, heq⟩ := bind_ok_iff.mp hname
    obtain ⟨rfl, rfl⟩ := Prod.mk.inj (Except.ok.inj heq)
    exact hb
  constructor
  · rintro ⟨bitmap, hbitmap, hflag⟩
    obtain ⟨⟨name, b⟩, hin, rfl⟩ := List.mem_map.mp hbitmap
    obtain ⟨s, hs, hbit⟩ := ((unionBitmaps_ok (hmem name b hin)).2 index hi).mp hflag
    obtain ⟨src, hsrc, rfl⟩ := List.mem_map.mp hs
    exact ⟨src, hsrc, name, hbit⟩
  · rintro ⟨s, hs, name, hflag⟩
    have hname : name ∈ (sources.flatMap fun s => s.map Prod.fst).eraseDups :=
      List.mem_eraseDups.mpr (List.mem_flatMap.mpr ⟨s, hs, mem_sources_of_flag hflag⟩)
    obtain ⟨entry, hin, hentry⟩ := (mem_of_forall₂ hall).1 name hname
    obtain ⟨b, hb, heq⟩ := bind_ok_iff.mp hentry
    obtain rfl := Except.ok.inj heq
    refine ⟨b, List.mem_map_of_mem (f := Prod.snd) hin, ?_⟩
    exact ((unionBitmaps_ok hb).2 index hi).mpr ⟨_, List.mem_map_of_mem hs, hflag⟩

/-- The flagged peers are those of the sources. -/
def FlaggedBySources (r : Replay D τ) : Prop :=
  ∀ peer, r.sdcBitmap.getD peer 0 ≠ 0 ↔
    peer < r.sdcBitmap.length ∧ ∃ source ∈ r.sdcSourceBitmaps, source.2.getD peer 0 ≠ 0

/-- Further sources add their peers, to a result whose flagged peers are those of
its sources, if none of them takes the place of one that it has. -/
theorem mergeSdcSourceBitmaps_flags {result m : Replay D τ}
    {sourceBitmaps : List (String × List Int)}
    (h : mergeSdcSourceBitmaps result sourceBitmaps = .ok m)
    (hflagged : FlaggedBySources result) (hnd : (sourceBitmaps.map Prod.fst).Nodup)
    (hfresh : ∀ source ∈ sourceBitmaps, source.1 ∉ result.sdcSourceBitmaps.map Prod.fst) :
    FlaggedBySources m ∧ ∀ peer, m.sdcBitmap.getD peer 0 ≠ 0 ↔
      result.sdcBitmap.getD peer 0 ≠ 0 ∨ ∃ source ∈ sourceBitmaps, source.2.getD peer 0 ≠ 0 := by
  rw [mergeSdcSourceBitmaps] at h
  dsimp only at h
  split at h
  · next hnil =>
      cases h
      have hnil := List.isEmpty_iff.mp hnil
      exact ⟨hflagged, fun peer => by simp [hnil]⟩
  · obtain ⟨hwidth, h⟩ := check_ok_iff.mp h
    obtain ⟨bitmap, hbitmap, h⟩ := bind_ok_iff.mp h
    cases h
    have hlength : ∀ source ∈ sourceBitmaps, source.2.length = result.sdcBitmap.length := by
      intro source hsource
      by_contra hne
      exact hwidth (List.any_eq_true.mpr ⟨source, hsource, decide_eq_true hne⟩)
    obtain ⟨hlen, hbits⟩ := unionBitmaps_ok hbitmap
    have hupdate := Dict.update_of_nodup hnd hfresh
    have hflags : ∀ peer, bitmap.getD peer 0 ≠ 0 ↔ peer < result.sdcBitmap.length ∧
        ∃ source ∈ Dict.update result.sdcSourceBitmaps sourceBitmaps,
          source.2.getD peer 0 ≠ 0 := by
      intro peer
      constructor
      · intro hne
        have hp := hlen ▸ lt_length_of_flag hne
        obtain ⟨found, hfound, hbit⟩ := (hbits peer hp).mp hne
        obtain ⟨source, hsource, rfl⟩ := List.mem_map.mp hfound
        exact ⟨hp, source, hsource, hbit⟩
      · rintro ⟨hp, source, hsource, hbit⟩
        exact (hbits peer hp).mpr ⟨source.2, List.mem_map_of_mem hsource, hbit⟩
    refine ⟨fun peer => by rw [hflags peer, hlen], fun peer => ?_⟩
    rw [hflags peer, hflagged peer, hupdate]
    constructor
    · rintro ⟨hp, source, hin, hne⟩
      rcases List.mem_append.mp hin with hin | hin
      · exact .inl ⟨hp, source, hin, hne⟩
      · exact .inr ⟨source, hin, hne⟩
    · rintro (⟨hp, source, hin, hne⟩ | ⟨source, hin, hne⟩)
      · exact ⟨hp, source, List.mem_append_left _ hin, hne⟩
      · exact ⟨hlength source hin ▸ lt_length_of_flag hne, source,
          List.mem_append_right _ hin, hne⟩

/-- What the merge takes for the verdict: the sources of all rounds and the C3
results of the first. -/
theorem mergeReplayRounds_ok {first m : Replay D τ} {rest : List (Replay D τ)}
    {assessments : List TemporalAssessment} {required : Nat}
    (h : mergeReplayRounds (first :: rest) assessments required = .ok m) :
    m.c3Results = first.c3Results ∧ ∃ sources,
      unionSources first.stragglerBitmap.length
        ((first :: rest).map Replay.sdcSourceBitmaps) = .ok sources ∧
      unionBitmaps first.stragglerBitmap.length (sources.map Prod.snd) = .ok m.sdcBitmap := by
  obtain ⟨_, -, h⟩ := bind_ok_iff.mp h
  obtain ⟨_, -, h⟩ := bind_ok_iff.mp h
  obtain ⟨sources, hsources, h⟩ := bind_ok_iff.mp h
  obtain ⟨bitmap, hbitmap, h⟩ := bind_ok_iff.mp h
  obtain rfl := Except.ok.inj h
  exact ⟨rfl, sources, hsources, hbitmap⟩

/-- **The verdict of the merged result**: some source of some round flags a peer,
or the first round is inconclusive. -/
theorem hasSdc_mergeReplayRounds {first m : Replay D τ} {rest : List (Replay D τ)}
    {assessments : List TemporalAssessment} {required : Nat}
    (h : mergeReplayRounds (first :: rest) assessments required = .ok m) :
    HasSdc m ↔ (∃ r ∈ first :: rest, Sourced first.stragglerBitmap.length r) ∨
      Inconclusive first := by
  obtain ⟨hc3, sources, hsources, hbitmap⟩ := mergeReplayRounds_ok h
  obtain ⟨hlen, hbits⟩ := unionBitmaps_ok hbitmap
  have hinc : Inconclusive m ↔ Inconclusive first := by rw [Inconclusive, Inconclusive, hc3]
  have hflag : anyFlag m.sdcBitmap = true ↔
      ∃ r ∈ first :: rest, Sourced first.stragglerBitmap.length r := by
    rw [anyFlag_iff hlen]
    constructor
    · rintro ⟨index, hi, hbit⟩
      obtain ⟨s, hs, name, hname⟩ := (unionSources_ok hsources hi).mp ((hbits index hi).mp hbit)
      obtain ⟨r, hr, rfl⟩ := List.mem_map.mp hs
      exact ⟨r, hr, name, index, hi, hname⟩
    · rintro ⟨r, hr, name, index, hi, hname⟩
      exact ⟨index, hi, (hbits index hi).mpr ((unionSources_ok hsources hi).mpr
        ⟨_, List.mem_map_of_mem hr, name, hname⟩)⟩
  rw [hasSdc_iff, hflag, hinc]

/-- The rounds whose verdict a merge keeps: what the bitmaps of the sources say
is in the verdict of some round, and a round with a verdict is backed by the
source of some round or by an inconclusive result of the first. -/
def Backed (first : Replay D τ) (rest : List (Replay D τ)) : Prop :=
  (∀ r ∈ first :: rest, Sourced first.stragglerBitmap.length r →
      ∃ r' ∈ first :: rest, HasSdc r') ∧
    ∀ r ∈ first :: rest, HasSdc r →
      Inconclusive first ∨ ∃ r' ∈ first :: rest, Sourced first.stragglerBitmap.length r'

/-- **Exactly when merging keeps the verdict.** -/
theorem merge_keeps_verdict_iff (first m : Replay D τ) (rest : List (Replay D τ))
    (assessments : List TemporalAssessment) (required : Nat)
    (h : mergeReplayRounds (first :: rest) assessments required = .ok m) :
    (HasSdc m ↔ ∃ r ∈ first :: rest, HasSdc r) ↔ Backed first rest := by
  rw [hasSdc_mergeReplayRounds h]
  constructor
  · intro hkeep
    refine ⟨fun r hr hs => hkeep.mp (Or.inl ⟨r, hr, hs⟩), fun r hr hsdc => ?_⟩
    exact (hkeep.mpr ⟨r, hr, hsdc⟩).symm
  · rintro ⟨hsources, hverdict⟩
    constructor
    · rintro (⟨r, hr, hs⟩ | hinc)
      · exact hsources r hr hs
      · exact ⟨first, List.mem_cons_self, hasSdc_iff.mpr (Or.inr hinc)⟩
    · rintro ⟨r, hr, hsdc⟩
      exact (hverdict r hr hsdc).symm

/-! ## Rounds of a detector

A detector takes `sdc_bitmap` as the union of the bitmaps of its sources. -/

/-- The bitmap of a result is the union over its sources. -/
def UnionOfSources (width : Nat) (r : Replay D τ) : Prop :=
  anyFlag r.sdcBitmap = true ↔ Sourced width r

/-- **Only an inconclusive result of a later round is lost**, and only when
nothing else speaks for a fault. -/
theorem backed_iff_of_union {first : Replay D τ} {rest : List (Replay D τ)}
    (h : ∀ r ∈ first :: rest, UnionOfSources first.stragglerBitmap.length r) :
    Backed first rest ↔ ∀ r ∈ rest, Inconclusive r →
      Inconclusive first ∨ ∃ r' ∈ first :: rest, anyFlag r'.sdcBitmap = true := by
  have hsourced : (∃ r' ∈ first :: rest, Sourced first.stragglerBitmap.length r') ↔
      ∃ r' ∈ first :: rest, anyFlag r'.sdcBitmap = true :=
    exists_congr fun r' => and_congr_right fun hr' => (h r' hr').symm
  rw [Backed, hsourced]
  constructor
  · rintro ⟨-, hverdict⟩ r hr hinc
    exact hverdict r (List.mem_cons_of_mem first hr) (hasSdc_iff.mpr (Or.inr hinc))
  · intro hlater
    refine ⟨fun r hr hs => ⟨r, hr, hasSdc_iff.mpr (Or.inl ((h r hr).mpr hs))⟩, fun r hr hsdc => ?_⟩
    rcases hasSdc_iff.mp hsdc with hflag | hinc
    · exact Or.inr ⟨r, hr, hflag⟩
    · rcases List.mem_cons.mp hr with rfl | hr
      · exact Or.inl hinc
      · exact hlater r hr hinc

/-! ## Rounds of one group always merge -/

/-- Every bitmap of the result has one position for each peer. -/
structure OfGroup (width : Nat) (r : Replay D τ) : Prop where
  sdc : r.sdcBitmap.length = width
  straggler : r.stragglerBitmap.length = width
  spatial : r.spatialStragglerBitmap.length ≤ width
  sources : ∀ source ∈ r.sdcSourceBitmaps, source.2.length = width

theorem anyAt_total {index : Nat} : ∀ {bitmaps : List (List Int)},
    (∀ bitmap ∈ bitmaps, index < bitmap.length) → ∃ flag, anyAt index bitmaps = .ok flag
  | [], _ => ⟨false, rfl⟩
  | bitmap :: bitmaps, h => by
      have hi := h bitmap List.mem_cons_self
      obtain ⟨flag, hflag⟩ := anyAt_total fun b hb => h b (List.mem_cons_of_mem bitmap hb)
      rw [anyAt, List.getElem?_eq_getElem hi]
      simp only
      split
      · exact ⟨true, rfl⟩
      · exact ⟨flag, hflag⟩

theorem unionBitmaps_total {width : Nat} {bitmaps : List (List Int)}
    (h : ∀ bitmap ∈ bitmaps, bitmap.length = width) :
    ∃ union, unionBitmaps width bitmaps = .ok union := by
  refine mapM_total fun index hindex => ?_
  have hlong : ∀ bitmap ∈ bitmaps, index < bitmap.length := fun b hb => by
    rw [h b hb]
    exact List.mem_range.mp hindex
  obtain ⟨flag, hflag⟩ := anyAt_total hlong
  exact ⟨if flag then 1 else 0, by rw [hflag]; rfl⟩

theorem length_sourceBitmap {width : Nat} {name : String} {sources : List (String × List Int)}
    (h : ∀ source ∈ sources, source.2.length = width) :
    (sourceBitmap width name sources).length = width := by
  rw [sourceBitmap]
  cases hl : sources.lookup name with
  | none => exact List.length_replicate
  | some bitmap =>
      obtain ⟨before, after, rfl, -⟩ := List.lookup_eq_some_iff.mp hl
      exact h (name, bitmap) (by simp)

theorem unionSources_total {width : Nat} {sources : List (List (String × List Int))}
    (h : ∀ s ∈ sources, ∀ source ∈ s, source.2.length = width) :
    ∃ merged, unionSources width sources = .ok merged := by
  refine mapM_total fun name _ => ?_
  have hlen : ∀ bitmap ∈ sources.map (sourceBitmap width name), bitmap.length = width := by
    intro b hb
    obtain ⟨s, hs, rfl⟩ := List.mem_map.mp hb
    exact length_sourceBitmap (h s hs)
  obtain ⟨union, hunion⟩ := unionBitmaps_total hlen
  exact ⟨(name, union), by rw [hunion]; rfl⟩

theorem length_unionSources {width : Nat} {sources : List (List (String × List Int))}
    {merged : List (String × List Int)} (h : unionSources width sources = .ok merged) :
    ∀ source ∈ merged, source.2.length = width := by
  intro source hsource
  obtain ⟨name, -, hname⟩ := (mem_of_forall₂ (mapM_ok_iff.mp h)).2 source hsource
  obtain ⟨bitmap, hbitmap, heq⟩ := bind_ok_iff.mp hname
  obtain rfl := Except.ok.inj heq
  exact (unionBitmaps_ok hbitmap).1

theorem countFlags_total {width : Nat} {bitmaps : List (List Int)}
    (h : ∀ bitmap ∈ bitmaps, bitmap.length ≤ width) :
    ∃ counts, countFlags width bitmaps = .ok counts := by
  have hshort : ¬bitmaps.any (width < ·.length) = true := by
    rw [List.any_eq_true]
    rintro ⟨bitmap, hin, hlong⟩
    exact absurd (of_decide_eq_true hlong) (not_lt.mpr (h bitmap hin))
  exact ⟨_, if_neg hshort⟩

/-- The rounds of one group merge, whatever their bitmaps say. -/
theorem mergeReplayRounds_total {first : Replay D τ} {rest : List (Replay D τ)}
    {assessments : List TemporalAssessment} (required : Nat) {width : Nat}
    (hr : ∀ r ∈ first :: rest, OfGroup width r)
    (ha : ∀ a ∈ assessments, a.rankBitmap.length ≤ width) :
    ∃ m, mergeReplayRounds (first :: rest) assessments required = .ok m := by
  obtain rfl := (hr first List.mem_cons_self).straggler
  have hspatial : ∀ bitmap ∈ ((first :: rest).zip assessments).map
      (fun p => orElse p.1.spatialStragglerBitmap p.1.stragglerBitmap),
      bitmap.length ≤ first.stragglerBitmap.length := by
    intro bitmap hin
    obtain ⟨p, hp, rfl⟩ := List.mem_map.mp hin
    have hround := hr p.1 (List.of_mem_zip hp).1
    rw [orElse]
    split
    · exact hround.straggler.le
    · exact hround.spatial
  have htemporal : ∀ bitmap ∈ ((first :: rest).zip assessments).map (fun p => p.2.rankBitmap),
      bitmap.length ≤ first.stragglerBitmap.length := by
    intro bitmap hin
    obtain ⟨p, hp, rfl⟩ := List.mem_map.mp hin
    exact ha p.2 (List.of_mem_zip hp).2
  have hsources : ∀ s ∈ (first :: rest).map Replay.sdcSourceBitmaps, ∀ source ∈ s,
      source.2.length = first.stragglerBitmap.length := by
    intro s hs
    obtain ⟨r, hin, rfl⟩ := List.mem_map.mp hs
    exact (hr r hin).sources
  obtain ⟨spatial, h₁⟩ := countFlags_total hspatial
  obtain ⟨temporal, h₂⟩ := countFlags_total htemporal
  obtain ⟨merged, h₃⟩ := unionSources_total hsources
  have hmerged : ∀ bitmap ∈ merged.map Prod.snd,
      bitmap.length = first.stragglerBitmap.length := by
    intro bitmap hin
    obtain ⟨source, hsource, rfl⟩ := List.mem_map.mp hin
    exact length_unionSources h₃ source hsource
  obtain ⟨union, h₄⟩ := unionBitmaps_total hmerged
  exact ⟨_, bind_ok_iff.mpr ⟨spatial, h₁, bind_ok_iff.mpr ⟨temporal, h₂,
    bind_ok_iff.mpr ⟨merged, h₃, bind_ok_iff.mpr ⟨union, h₄, rfl⟩⟩⟩⟩⟩

/-! ## A round that is lost -/

/-- A replay by two peers of which nobody is flagged, with this C3 result for the
output of the layer. -/
def sampleRound (status : C3Status) : Replay Unit Unit where
  sdcBitmap := [0, 0]
  checkedShapeIds := ["captured"]
  completedShapeCycle := true
  completedScheduledCycle := false
  denseReplay := false
  c3Results := [("output", ⟨status, [0, 0]⟩)]
  stragglerBitmap := [0, 0]
  replayTimeMs := 1
  replayTimesMs := [1, 1]
  sdcSources := []
  sdcSourceBitmaps := [("output", [0, 0])]
  replayMode := "forward"
  spatialStragglerBitmap := [0, 0]
  temporalStragglerBitmap := []
  stragglerConfirmations := 0
  temporalGroupSlowdown := false
  replayShapeId := "captured"
  replayShape := none
  checkedShapes := [none]
  shapeCycleSize := 1
  scheduledCycle := 0
  checkedRecipeIds := []
  stragglerDetail := none
  collectiveTimings := []
  timingC3Result := none

/-- The two peers agree in the first round and differ in the second, and the
merged result is clean. -/
theorem inconclusive_round_lost :
    ∃ m, mergeReplayRounds [sampleRound .agree, sampleRound .inconclusive]
        [⟨[0, 0], true⟩, ⟨[0, 0], false⟩] 2 = .ok m ∧
      HasSdc (sampleRound .inconclusive) ∧ ¬HasSdc m :=
  ⟨_, rfl, rfl, fun h => Bool.false_ne_true h⟩

theorem merge_keeps_verdict_iff_sample :
    ∃ m, mergeReplayRounds [sampleRound .inconclusive, sampleRound .agree]
        [⟨[0, 0], true⟩, ⟨[0, 0], false⟩] 2 = .ok m ∧
      ((HasSdc m ↔ ∃ r ∈ [sampleRound .inconclusive, sampleRound .agree], HasSdc r) ↔
        Backed (sampleRound .inconclusive) [sampleRound .agree]) :=
  ⟨_, rfl, merge_keeps_verdict_iff _ _ _ [⟨[0, 0], true⟩, ⟨[0, 0], false⟩] 2 rfl⟩

end LmResiliency.Detection
