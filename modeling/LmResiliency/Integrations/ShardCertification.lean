/-
# ShardCertification — local shards in the verdict of an HSDP replay

Before an HSDP replay gathers the parameters, the peers compare their local
shards.  What the comparison says reaches the result of the replay through the
bitmap of the peers that differ, and in no other way: where the comparison blames
nobody, its verdict is lost.

The main result is `runWithUnshardedModel_blocks_iff`.  The replay itself is a
parameter.
-/
import LmResiliency.Detection.ReplayMerge
import LmResiliency.Detection.Signature

namespace LmResiliency.Integrations.ShardCertification

open LmResiliency.Detection

/-! ## The communication timing -/

def slowOutlierBitmap (bitmap : List Int) (values : List ℚ)
    (minSlowdownRatio minSlowdownMs : ℚ) : List Int :=
  if values.isEmpty then bitmap
  else
    let center := (sorted values).getD (values.length / 2) 0
    let threshold := max (center * minSlowdownRatio) (center + minSlowdownMs)
    List.zipWith (fun flagged value => if flagged ≠ 0 ∧ threshold < value then 1 else 0)
      bitmap values

/-- `_merge_bitmaps` of two. -/
def mergeBitmaps (a b : List Int) : List Int :=
  List.zipWith (fun x y => if x ≠ 0 ∨ y ≠ 0 then 1 else 0) a b

/-- What `LayerReplayDetector` reads here, with how it notes a timing down in the detail on
stragglers and among the collective timings. -/
structure Detector (D τ : Type) where
  stragglerMinSlowdownRatio : ℚ
  stragglerMinSlowdownMs : ℚ
  noteDetail : Option D → List ℚ → List Int → D
  sample : List Int → Option τ

variable {D τ : Type}

/-- `add_communication_timing`, given the times of all peers. -/
def addCommunicationTiming (detector : Detector D τ) (result : Replay D τ) (name : String)
    (elapsedMs : List ℚ) : Except String (Replay D τ) := do
  let raw ← classifyEvidence elapsedMs .statistical 3
  let bitmap := slowOutlierBitmap raw.bitmap raw.evidence detector.stragglerMinSlowdownRatio
    detector.stragglerMinSlowdownMs
  let timingResult : C3Result :=
    { status := if anyFlag bitmap then .attributed else .agree, bitmap := bitmap }
  return { result with
    c3Results := Dict.put result.c3Results (name ++ ".timing", timingResult)
    stragglerBitmap := mergeBitmaps result.stragglerBitmap bitmap
    spatialStragglerBitmap := mergeBitmaps result.spatialStragglerBitmap bitmap
    stragglerDetail := some (detector.noteDetail result.stragglerDetail raw.evidence bitmap)
    collectiveTimings := result.collectiveTimings ++ (detector.sample bitmap).toList }

/-! ## The replay -/

def fsdpParameterAllGather : String := "fsdp_parameter_all_gather"

/-- The signatures of the peers' local shards. -/
def signatures (shards : List (List Detection.Tensor)) : List ℚ :=
  shards.map fun tensors => (computeTensorSequenceSignature tensors : ℚ)

/-- `_check_local_parameter_shards`, given the shards of all peers. -/
def checkLocalParameterShards (shards : List (List Detection.Tensor)) :
    Except String (List Int) := do
  let result ← classifyEvidence (signatures shards) .exact 3
  return result.bitmap

/-- What the bitmap of the shards adds to a result. -/
def mergeShardBitmap (result : Replay D τ) (shardBitmap : List Int) : Replay D τ :=
  let result := { result with
    sdcSourceBitmaps :=
      Dict.put result.sdcSourceBitmaps ("local_parameter_shard", shardBitmap) }
  if anyFlag shardBitmap then
    { result with
      sdcSources := result.sdcSources ++ ["local_parameter_shard"]
      sdcBitmap := mergeBitmaps result.sdcBitmap shardBitmap }
  else result

/-- `_run_with_unsharded_model` of an HSDP model, given the shards of all peers, what the
replay returns and for how long each peer has gathered the parameters. -/
def runWithUnshardedModel (detector : Detector D τ) (shards : List (List Detection.Tensor))
    (replay : Option (Replay D τ)) (materializeMs : List ℚ) :
    Except String (Option (Replay D τ)) := do
  let shardBitmap ← checkLocalParameterShards shards
  match replay with
  | none => return none
  | some result =>
      let result ← addCommunicationTiming detector result fsdpParameterAllGather materializeMs
      return some (mergeShardBitmap result shardBitmap)

/-- `replay_result_has_sdc`. -/
def hasSdc (result : Option (Replay D τ)) : Bool :=
  replayResultHasSdc (result.map Replay.toReplayResult)

/-! ## What reaches the verdict -/

/-- All peers hold the same shards. -/
def Equal (shards : List (List Detection.Tensor)) : Prop := ∀ a ∈ shards, ∀ b ∈ shards, a = b

/-- Shards that differ block the checkpoint, and equal shards leave the verdict of the
replay. -/
def Blocks (shards : List (List Detection.Tensor)) (replay returned : Option (Replay D τ)) :
    Prop :=
  (¬Equal shards → hasSdc returned = true) ∧ (Equal shards → hasSdc returned = hasSdc replay)

/-- An inconclusive comparison other than that of the gathering times. -/
def Undecided (result : Replay D τ) : Prop :=
  ∃ entry ∈ result.c3Results, entry.1 ≠ fsdpParameterAllGather ++ ".timing" ∧
    entry.2.status = .inconclusive

/-- A strict majority of the peers has one signature, not all have it, and the bitmap of the
result reaches a peer that it flags or whose signature is another one. -/
def Attributed (shards : List (List Detection.Tensor)) (result : Replay D τ) : Prop :=
  ∃ m, Majority (signatures shards) m ∧ (∃ s ∈ signatures shards, s ≠ m) ∧
    ∃ (i : Nat) (flagged : Int) (s : ℚ), result.sdcBitmap[i]? = some flagged ∧
      (signatures shards)[i]? = some s ∧ (flagged ≠ 0 ∨ s ≠ m)

/-- No signature stands out against a strict majority. -/
def Unattributed (shards : List (List Detection.Tensor)) : Prop :=
  ∀ m, Majority (signatures shards) m → ∀ s ∈ signatures shards, s = m

/-- The verdict on the shards reaches that of the result. -/
def Reaches (shards : List (List Detection.Tensor)) (replay : Option (Replay D τ)) : Prop :=
  (¬Equal shards → ∃ result, replay = some result ∧ (Undecided result ∨
    Attributed shards result ∨ Unattributed shards ∧ anyFlag result.sdcBitmap = true)) ∧
  (Equal shards → ∀ result, replay = some result → HasSdc result →
    Undecided result ∨ anyFlag result.sdcBitmap = true)

theorem anyFlag_eq_true {bitmap : List Int} : anyFlag bitmap = true ↔ ∃ x ∈ bitmap, x ≠ 0 := by
  rw [anyFlag, List.any_eq_true]
  simp only [decide_eq_true_eq]

theorem anyFlag_replicate (n : Nat) : anyFlag (List.replicate n 0) = false := by
  rw [anyFlag, List.any_eq_false]
  intro x hx
  rw [List.eq_of_mem_replicate hx]
  decide

theorem anyFlag_mergeBitmaps {a b : List Int} : anyFlag (mergeBitmaps a b) = true ↔
    ∃ (i : Nat) (x y : Int), a[i]? = some x ∧ b[i]? = some y ∧ (x ≠ 0 ∨ y ≠ 0) := by
  rw [anyFlag_eq_true]
  constructor
  · rintro ⟨z, hz, hne⟩
    obtain ⟨i, hi⟩ := List.mem_iff_getElem?.mp hz
    rw [mergeBitmaps, List.getElem?_zipWith_eq_some] at hi
    obtain ⟨x, y, hx, hy, rfl⟩ := hi
    refine ⟨i, x, y, hx, hy, ?_⟩
    by_contra hnot
    rw [if_neg hnot] at hne
    exact hne rfl
  · rintro ⟨i, x, y, hx, hy, hne⟩
    refine ⟨1, List.mem_of_getElem? (i := i) ?_, by decide⟩
    rw [mergeBitmaps, List.getElem?_zipWith_eq_some]
    exact ⟨x, y, hx, hy, if_pos hne⟩

variable {shards : List (List Detection.Tensor)} {bitmap : List Int} {result : Replay D τ}

/-- The bitmap of the shards marks the peers that differ from a strict majority. -/
theorem checkLocalParameterShards_ok (h : checkLocalParameterShards shards = .ok bitmap) :
    (∃ m, Majority (signatures shards) m ∧ (∃ s ∈ signatures shards, s ≠ m) ∧
        bitmap = (signatures shards).map fun s => if s ≠ m then 1 else 0) ∨
      Unattributed shards ∧ bitmap = List.replicate (signatures shards).length 0 := by
  have hne : signatures shards ≠ [] := by
    intro hnil
    rw [checkLocalParameterShards, hnil] at h
    cases h
  rw [checkLocalParameterShards, classifyEvidence_exact hne] at h
  obtain rfl := Except.ok.inj h
  by_cases hun : Unanimous (signatures shards)
  · refine Or.inr ⟨fun m hm s hs => ?_, by rw [classifyExact_agree hun]⟩
    have hmem : m ∈ signatures shards := by
      rw [← List.count_pos_iff]
      rw [Majority] at hm
      omega
    exact hun s hs m hmem
  by_cases hmajority : ∃ m, Majority (signatures shards) m
  · obtain ⟨m, hm⟩ := hmajority
    refine Or.inl ⟨m, hm, ?_, by rw [classifyExact_attributed hun hm]⟩
    by_contra hall
    push Not at hall
    exact hun fun v hv w hw => (hall v hv).trans (hall w hw).symm
  · push Not at hmajority
    exact Or.inr ⟨fun m hm => absurd hm (hmajority m),
      by rw [classifyExact_inconclusive hun hmajority]⟩

theorem not_unattributed {m : ℚ} (hm : Majority (signatures shards) m)
    (hdiffers : ∃ s ∈ signatures shards, s ≠ m) : ¬Unattributed shards := by
  obtain ⟨s, hs, hne⟩ := hdiffers
  exact fun hnone => hne (hnone m hm s hs)

/-- What is flagged once the bitmap of the shards is merged. -/
theorem flagged_merged_iff (h : checkLocalParameterShards shards = .ok bitmap) :
    anyFlag (mergeShardBitmap result bitmap).sdcBitmap = true ↔
      Attributed shards result ∨ Unattributed shards ∧ anyFlag result.sdcBitmap = true := by
  rcases checkLocalParameterShards_ok h with ⟨m, hm, hdiffers, rfl⟩ | ⟨hnone, rfl⟩
  · have hflag : anyFlag ((signatures shards).map fun s => if s ≠ m then 1 else 0) = true := by
      obtain ⟨s, hs, hne⟩ := hdiffers
      exact anyFlag_eq_true.mpr ⟨1, List.mem_map.mpr ⟨s, hs, if_pos hne⟩, by decide⟩
    rw [mergeShardBitmap]
    dsimp only
    rw [if_pos hflag, or_iff_left fun hc => not_unattributed hm hdiffers hc.1]
    dsimp only
    rw [anyFlag_mergeBitmaps]
    constructor
    · rintro ⟨i, x, y, hx, hy, hxy⟩
      rw [List.getElem?_map] at hy
      obtain ⟨s, hs, rfl⟩ := Option.map_eq_some_iff.mp hy
      refine ⟨m, hm, hdiffers, i, x, s, hx, hs, hxy.imp_right fun hne => ?_⟩
      by_contra heq
      rw [if_neg (not_not.mpr heq)] at hne
      exact hne rfl
    · rintro ⟨m', hm', -, i, x, s, hx, hs, hxs⟩
      obtain rfl := majority_unique hm hm'
      refine ⟨i, x, if s ≠ m then 1 else 0, hx, ?_, hxs.imp_right fun hne => ?_⟩
      · rw [List.getElem?_map, hs]
        rfl
      · rw [if_pos hne]
        decide
  · rw [mergeShardBitmap]
    dsimp only
    rw [anyFlag_replicate, if_neg Bool.false_ne_true]
    constructor
    · exact fun hflag => Or.inr ⟨hnone, hflag⟩
    · rintro (⟨m, hm, hdiffers, -⟩ | ⟨-, hflag⟩)
      · exact absurd hnone (not_unattributed hm hdiffers)
      · exact hflag

/-- The comparison of the gathering times takes the place of one comparison. -/
theorem inconclusive_timed_iff {detector : Detector D τ} {elapsedMs : List ℚ}
    {timed : Replay D τ}
    (h : addCommunicationTiming detector result fsdpParameterAllGather elapsedMs = .ok timed) :
    timed.sdcBitmap = result.sdcBitmap ∧ (Inconclusive timed ↔ Undecided result) := by
  rw [addCommunicationTiming] at h
  cases hraw : classifyEvidence elapsedMs .statistical 3 with
  | error e =>
      rw [hraw] at h
      cases h
  | ok raw =>
      rw [hraw] at h
      obtain rfl := Except.ok.inj h
      refine ⟨rfl, ?_⟩
      rw [Inconclusive, Undecided]
      dsimp only
      simp only [Dict.mem_put]
      constructor
      · rintro ⟨entry, rfl | ⟨hentry, hname⟩, hstatus⟩
        · dsimp only at hstatus
          split at hstatus
          · cases hstatus
          · cases hstatus
        · exact ⟨entry, hentry, hname, hstatus⟩
      · rintro ⟨entry, hentry, hname, hstatus⟩
        exact ⟨entry, Or.inr ⟨hentry, hname⟩, hstatus⟩

theorem hasSdc_some : hasSdc (some result) = true ↔ HasSdc result := Iff.rfl

theorem runWithUnshardedModel_some {detector : Detector D τ} {elapsedMs : List ℚ}
    {returned : Option (Replay D τ)}
    (h : runWithUnshardedModel detector shards (some result) elapsedMs = .ok returned) :
    hasSdc returned = true ↔ Undecided result ∨ Attributed shards result ∨
      Unattributed shards ∧ anyFlag result.sdcBitmap = true := by
  rw [runWithUnshardedModel] at h
  cases hbitmap : checkLocalParameterShards shards with
  | error e =>
      rw [hbitmap] at h
      cases h
  | ok bitmap =>
      rw [hbitmap] at h
      cases htimed : addCommunicationTiming detector result fsdpParameterAllGather elapsedMs with
      | error e =>
          change (addCommunicationTiming detector result fsdpParameterAllGather elapsedMs >>=
            fun _ => _) = _ at h
          rw [htimed] at h
          cases h
      | ok timed =>
          change (addCommunicationTiming detector result fsdpParameterAllGather elapsedMs >>=
            fun result => .ok (some (mergeShardBitmap result bitmap))) = _ at h
          rw [htimed] at h
          obtain rfl := Except.ok.inj h
          obtain ⟨hsame, hinconclusive⟩ := inconclusive_timed_iff htimed
          have hc3 : Inconclusive (mergeShardBitmap timed bitmap) ↔ Inconclusive timed := by
            rw [mergeShardBitmap]
            dsimp only
            split
            · exact Iff.rfl
            · exact Iff.rfl
          have hattributed : Attributed shards timed ↔ Attributed shards result := by
            rw [Attributed, Attributed, hsame]
          rw [hasSdc_some, hasSdc_iff, hc3, hinconclusive, flagged_merged_iff hbitmap, hattributed,
            hsame, or_comm]

/-- **Shards that differ block certification**, and equal ones leave the verdict, exactly
where what the comparison finds reaches the bitmap of a result. -/
theorem runWithUnshardedModel_blocks_iff (detector : Detector D τ)
    (replay : Option (Replay D τ)) (materializeMs : List ℚ) {returned : Option (Replay D τ)}
    (h : runWithUnshardedModel detector shards replay materializeMs = .ok returned) :
    Blocks shards replay returned ↔ Reaches shards replay := by
  cases replay with
  | none =>
      rw [runWithUnshardedModel] at h
      cases hbitmap : checkLocalParameterShards shards with
      | error e =>
          rw [hbitmap] at h
          cases h
      | ok bitmap =>
          rw [hbitmap] at h
          obtain rfl := Except.ok.inj h
          refine and_congr (imp_congr_right fun _ => ?_) (imp_congr_right fun _ => ?_)
          · exact iff_of_false Bool.false_ne_true fun ⟨_, hsome, _⟩ => by cases hsome
          · exact iff_of_true rfl fun _ hsome => by cases hsome
  | some result =>
      have hreturned := runWithUnshardedModel_some h
      refine and_congr (imp_congr_right fun _ => ?_) (imp_congr_right fun hequal => ?_)
      · rw [hreturned]
        simp
      · -- the signatures are equal too, so that no peer is blamed
        have hun : Unattributed shards := by
          intro m hm s hs
          have hmem : m ∈ signatures shards := by
            rw [← List.count_pos_iff]
            rw [Majority] at hm
            omega
          obtain ⟨a, ha, rfl⟩ := List.mem_map.mp hs
          obtain ⟨b, hb, rfl⟩ := List.mem_map.mp hmem
          rw [hequal a ha b hb]
        have hverdict : hasSdc returned = true ↔
            Undecided result ∨ anyFlag result.sdcBitmap = true := by
          rw [hreturned]
          refine or_congr_right ⟨?_, fun hflag => Or.inr ⟨hun, hflag⟩⟩
          rintro (⟨m, hm, hdiffers, -⟩ | ⟨-, hflag⟩)
          · exact absurd hun (not_unattributed hm hdiffers)
          · exact hflag
        have hweaker : Undecided result ∨ anyFlag result.sdcBitmap = true → HasSdc result := by
          rw [hasSdc_iff]
          rintro (⟨entry, hentry, -, hstatus⟩ | hflag)
          · exact Or.inr ⟨entry, hentry, hstatus⟩
          · exact Or.inl hflag
        rw [Bool.eq_iff_iff, hverdict, hasSdc_some]
        constructor
        · rintro hiff _ hsome hsdc
          obtain rfl := Option.some.inj hsome
          exact hiff.mpr hsdc
        · exact fun himp => ⟨hweaker, himp result rfl⟩

/-! Two replicas of one shard, which differ in one byte. -/

def sampleShard (byte : BitVec 8) : List Detection.Tensor :=
  [{ dtype := { name := "torch.uint8", itemsize := 1 }, shape := [1], payload := [byte]
     payload_length := rfl }]

def sampleDetector : Detector Unit Unit where
  stragglerMinSlowdownRatio := 11 / 10
  stragglerMinSlowdownMs := 2
  noteDetail _ _ _ := ()
  sample _ := none

/-- A replay that has found nothing. -/
def cleanReplay : Replay Unit Unit where
  sdcBitmap := [0, 0]
  checkedShapeIds := ["captured"]
  completedShapeCycle := true
  completedScheduledCycle := false
  denseReplay := false
  c3Results := []
  stragglerBitmap := [0, 0]
  replayTimeMs := 1
  replayTimesMs := [1, 1]
  sdcSources := []
  sdcSourceBitmaps := []
  replayMode := "forward"
  spatialStragglerBitmap := [0, 0]
  temporalStragglerBitmap := [0, 0]
  stragglerConfirmations := 0
  temporalGroupSlowdown := false
  replayShapeId := "captured"
  replayShape := none
  checkedShapes := [none]
  shapeCycleSize := 1
  scheduledCycle := 0
  checkedRecipeIds := []
  stragglerDetail := none
  collectiveTimings := []
  timingC3Result := none

theorem runWithUnshardedModel_sample :
    ∃ returned, runWithUnshardedModel sampleDetector [sampleShard 1, sampleShard 2]
      (some cleanReplay) [1, 1] = .ok returned ∧ hasSdc returned = false := by
  have hrun : (runWithUnshardedModel sampleDetector [sampleShard 1, sampleShard 2]
      (some cleanReplay) [1, 1]).toOption.map hasSdc = some false := by decide +kernel
  cases hcheck : runWithUnshardedModel sampleDetector [sampleShard 1, sampleShard 2]
      (some cleanReplay) [1, 1] with
  | error e =>
      rw [hcheck] at hrun
      cases hrun
  | ok returned =>
      rw [hcheck] at hrun
      exact ⟨returned, rfl, Option.some.inj hrun⟩

/-- The shards differ, and the result has no corruption. -/
theorem two_replicas_lost :
    ∃ returned, runWithUnshardedModel sampleDetector [sampleShard 1, sampleShard 2]
      (some cleanReplay) [1, 1] = .ok returned ∧
        ¬Blocks [sampleShard 1, sampleShard 2] (some cleanReplay) returned := by
  obtain ⟨returned, hrun, hclean⟩ := runWithUnshardedModel_sample
  refine ⟨returned, hrun, fun hblocks => ?_⟩
  have hdiffer : ¬Equal [sampleShard 1, sampleShard 2] := by
    intro hequal
    have h := hequal (sampleShard 1) List.mem_cons_self (sampleShard 2)
      (List.mem_cons_of_mem _ List.mem_cons_self)
    have hpayload := congrArg (List.map Detection.Tensor.payload) h
    exact absurd hpayload (by decide)
  rw [hblocks.1 hdiffer] at hclean
  cases hclean

theorem runWithUnshardedModel_blocks_iff_sample :
    ∃ returned, runWithUnshardedModel sampleDetector [sampleShard 1, sampleShard 2]
      (some cleanReplay) [1, 1] = .ok returned ∧
        (Blocks [sampleShard 1, sampleShard 2] (some cleanReplay) returned ↔
          Reaches [sampleShard 1, sampleShard 2] (some cleanReplay)) := by
  obtain ⟨returned, hrun, -⟩ := runWithUnshardedModel_sample
  exact ⟨returned, hrun,
    runWithUnshardedModel_blocks_iff sampleDetector (some cleanReplay) [1, 1] hrun⟩

end LmResiliency.Integrations.ShardCertification
