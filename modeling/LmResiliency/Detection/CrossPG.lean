/-
# CrossPG — intersecting the process groups of all ranks

Every rank gathers the timing samples of every other one.  The samples of one
collective in one process group make a group, complete when exactly its
members reported; each complete group is slow or healthy by the vote of its
samples, and the localizer is asked once about them all.

It singles a rank out exactly when that rank is what the slow groups have in
common and no healthy group contains.

The main result is `localize_iff`.  Which groups a job has, and that their
timings are comparable, is the caller's.
-/
import Mathlib.Data.List.ReduceOption
import LmResiliency.Detection.SuspectRuns

namespace LmResiliency.Detection

open Outcome

/-- The fields of a `CollectiveTimingSample`. -/
structure SampleFields where
  collective : String
  groupRanks : List Int
  messageBytes : Int
  sequence : Int
  latencyMs : ℚ
  slow : Bool
  topologyRole : String := "model_parallel"

/-- `CollectiveTimingSample`: the fields passed the checks. -/
structure CollectiveTimingSample extends SampleFields where
  /-- `collective and group_ranks must be non-empty` -/
  nonempty : ¬(collective = "" ∨ groupRanks = [])
  /-- `collective timing values must be non-negative` -/
  nonneg : ¬(messageBytes < 0 ∨ sequence < 0 ∨ latencyMs < 0)

/-- What the samples are grouped by. -/
structure GroupKey where
  collective : String
  groupRanks : List Int
  messageBytes : Int
  sequence : Int
  topologyRole : String
deriving DecidableEq

def CollectiveTimingSample.key (s : CollectiveTimingSample) : GroupKey :=
  ⟨s.collective, s.groupRanks, s.messageBytes, s.sequence, s.topologyRole⟩

def GroupKey.groupId (k : GroupKey) : String :=
  k.topologyRole ++ ":" ++ k.collective ++ ":" ++ Text.str k.sequence ++ ":" ++
    Text.str k.messageBytes ++ "B:[" ++ ",".intercalate (k.groupRanks.map Text.str) ++ "]"

/-- What one rank sends: its rank, its host name and its samples. -/
structure Payload where
  rank : Int
  node : String
  samples : List CollectiveTimingSample

/-- A sample and the rank that reported it. -/
abbrev Reported := Int × CollectiveTimingSample

/-- `CrossPGResult`. -/
structure CrossPGResult where
  status : CommunicationStatus
  failedRank : Option Int := none
  failedNode : Option String := none
  failedRanks : List Int := []
  supportingGroups : List String := []
  slowGroups : List String := []
  healthyGroups : List String := []
  confidence : ℚ := 0
  detail : String := ""

def CrossPGResult.confirmed (r : CrossPGResult) : Bool :=
  r.status = .localized && r.failedRank.isSome

/-- The `ValueError`s of `localize`. -/
inductive CrossPGError where
  | localizer (e : LocalizerError)
  | invalidInt (text : String)

namespace CrossPGCoordinator

/-- `CommunicationLocalizer(slow_factor=1.5, healthy_factor=1.15, persistence=1)`. -/
def localizer : CommunicationLocalizer where
  metadata _ := none
  slowFactor := 3 / 2
  healthyFactor := 23 / 20
  persistence := 1
  minSlowGroups := 2
  maxCandidates := 8
  factors := CommunicationLocalizer.default_factors
  positive := by decide

/-- The samples of all payloads, in the order they are gathered. -/
def reported (payloads : List Payload) : List Reported :=
  payloads.flatMap fun p => p.samples.map fun s => (p.rank, s)

/-- `rank_to_node` after the payloads: the first node of a rank stands. -/
def recordNodes (rankToNode : List (Int × String)) (payloads : List Payload) :
    List (Int × String) :=
  payloads.foldl (fun d p =>
    if p.rank ∈ d.map Prod.fst then d else d ++ [(p.rank, p.node)]) rankToNode

def isSlow (members : List Reported) : Bool :=
  members.length / 2 < members.countP fun m => m.2.slow

/-- The observation of a complete group. -/
def observed (k : GroupKey) (slow : Bool) : ObservationFields where
  groupId := k.groupId
  members := k.groupRanks.map Text.str
  collective := k.collective
  messageBytes := k.messageBytes
  topologyRole := k.topologyRole
  resourceClass := "machine_endpoint"
  latencyS := if slow then 2 else 1
  baselineLatencyS := some 1
  resourceKind := .rank

/-- The body of the loop over the groups. -/
def observeGroup (members : List Reported) :
    Except LocalizerError (Option CollectiveObservation) :=
  match members with
  | [] => .ok none
  | (_, sample) :: _ =>
      if (members.map Prod.fst).toFinset ≠ sample.groupRanks.toFinset then .ok none
      else do return some (← (observed sample.key (isSlow members)).make)

/-- The observations of all complete groups. -/
def observations (payloads : List Payload) : Except LocalizerError (List CollectiveObservation) :=
  do
    let found ← (Dict.group (fun m : Reported => m.2.key) (reported payloads)).mapM
      fun g => observeGroup g.2
    return found.reduceOption

/-- The end of `localize`: a confirmed suspect is reported with its node. -/
def diagnose (rankToNode : List (Int × String)) (verdict : CommunicationVerdict) :
    Except CrossPGError CrossPGResult :=
  match verdict.confirmed, verdict.suspect with
  | true, some suspect =>
      match Text.int? suspect.resourceId with
      | none => .error (.invalidInt suspect.resourceId)
      | some failedRank =>
          let failedNode := rankToNode.lookup failedRank
          let failedRanks := ((rankToNode.filter fun e =>
            failedNode.isSome ∧ some e.2 = failedNode).map Prod.fst).insertionSort (· ≤ ·)
          .ok { status := .localized
                failedRank := some failedRank
                failedNode := failedNode
                failedRanks := if failedRanks = [] then [failedRank] else failedRanks
                supportingGroups := suspect.supportingGroups
                slowGroups := verdict.slowGroups
                healthyGroups := verdict.healthyGroups
                confidence := verdict.confidence
                detail := verdict.detail }
  | _, suspect =>
      .ok { status := verdict.status
            supportingGroups := (suspect.map fun c => c.supportingGroups).getD []
            slowGroups := verdict.slowGroups
            healthyGroups := verdict.healthyGroups
            confidence := verdict.confidence
            detail := verdict.detail }

/-- `localize`, with the payloads that were gathered. -/
def localize (payloads : List Payload) (rankToNode : List (Int × String)) :
    Except CrossPGError (CrossPGResult × List (Int × String)) := do
  let rankToNode := recordNodes rankToNode payloads
  let found ← (observations payloads).mapError .localizer
  let (verdict, _) ← (localizer.observe ⟨found, []⟩ .reset).mapError .localizer
  return (← diagnose rankToNode verdict, rankToNode)

/-! ## Groups of samples -/

/-- The samples gathered for a group. -/
def samplesOf (payloads : List Payload) (k : GroupKey) : List Reported :=
  (reported payloads).filter (·.2.key = k)

/-- Exactly the members of the group reported. -/
def Complete (payloads : List Payload) (k : GroupKey) : Prop :=
  samplesOf payloads k ≠ [] ∧
    ∀ rank, rank ∈ (samplesOf payloads k).map Prod.fst ↔ rank ∈ k.groupRanks

/-- More than half of the samples gathered for the group report slow. -/
def Slow (payloads : List Payload) (k : GroupKey) : Prop :=
  (samplesOf payloads k).length < 2 * (samplesOf payloads k).countP fun m => m.2.slow

def SlowGroup (payloads : List Payload) (k : GroupKey) : Prop :=
  Complete payloads k ∧ Slow payloads k

def HealthyGroup (payloads : List Payload) (k : GroupKey) : Prop :=
  Complete payloads k ∧ ¬Slow payloads k

/-- Enough slow groups, not all of the same members, and `rank` is what the slow
groups have in common and no healthy group contains. -/
structure Implicated (payloads : List Payload) (rank : Int) : Prop where
  enough : ∃ ks : Finset GroupKey, localizer.minSlowGroups ≤ ks.card ∧
    ∀ k ∈ ks, SlowGroup payloads k
  distinct : ∃ k k', SlowGroup payloads k ∧ SlowGroup payloads k' ∧
    k.groupRanks.toFinset ≠ k'.groupRanks.toFinset
  sole : ∀ x, (∀ k, SlowGroup payloads k → x ∈ k.groupRanks) ∧
    (∀ k, HealthyGroup payloads k → x ∉ k.groupRanks) ↔ x = rank

/-- The coordinator localizes the rank. -/
def Localizes (payloads : List Payload) (rankToNode : List (Int × String)) (rank : Int) : Prop :=
  ∃ result nodes, localize payloads rankToNode = .ok (result, nodes) ∧
    result.status = .localized ∧ result.failedRank = some rank

/-! ## Group ids -/

theorem comma_notMem_str (n : Int) : ',' ∉ (Text.str n).toList :=
  Text.notMem_str (by decide) (by decide)

theorem intercalate_injective : ∀ {xs ys : List Int}, xs ≠ [] → ys ≠ [] →
    [','].intercalate (xs.map fun n => (Text.str n).toList) =
      [','].intercalate (ys.map fun n => (Text.str n).toList) → xs = ys
  | [], _, hx, _, _ => absurd rfl hx
  | _, [], _, hy, _ => absurd rfl hy
  | [x], [y], _, _, h => by
      simp only [List.map_cons, List.map_nil, List.intercalate_singleton] at h
      rw [Text.str_injective (String.toList_inj.mp h)]
  | [x], y :: y' :: ys, _, _, h => by
      simp only [List.map_cons, List.map_nil, List.intercalate_singleton,
        List.intercalate_cons_cons] at h
      exact absurd (h ▸ by simp) (comma_notMem_str x)
  | x :: x' :: xs, [y], _, _, h => by
      simp only [List.map_cons, List.map_nil, List.intercalate_singleton,
        List.intercalate_cons_cons] at h
      exact absurd (h ▸ by simp) (comma_notMem_str y)
  | x :: x' :: xs, y :: y' :: ys, _, _, h => by
      simp only [List.map_cons, List.intercalate_cons_cons, List.append_assoc,
        List.singleton_append] at h
      obtain ⟨hhead, htail⟩ := Text.cut_unique (comma_notMem_str x) (comma_notMem_str y) h
      have hrest : x' :: xs = y' :: ys :=
        intercalate_injective (List.cons_ne_nil _ _) (List.cons_ne_nil _ _) (by simpa using htail)
      rw [Text.str_injective (String.toList_inj.mp hhead), hrest]

theorem bracket_notMem : ∀ xs : List Int,
    '[' ∉ [','].intercalate (xs.map fun n => (Text.str n).toList)
  | [] => by simp
  | [x] => by
      rw [List.map_singleton, List.intercalate_singleton]
      exact Text.notMem_str (by decide) (by decide)
  | x :: y :: xs => by
      rw [List.map_cons, List.map_cons, List.intercalate_cons_cons, List.mem_append,
        List.mem_append]
      rintro ((h | h) | h)
      · exact Text.notMem_str (by decide) (by decide) h
      · exact absurd (List.mem_singleton.mp h) (by decide)
      · exact bracket_notMem (y :: xs) h

theorem groupRanks_of_groupId {k k' : GroupKey} (hk : k.groupRanks ≠ [])
    (hk' : k'.groupRanks ≠ []) (h : k.groupId = k'.groupId) : k.groupRanks = k'.groupRanks := by
  have htext : ∀ k : GroupKey, ∃ front : List Char, k.groupId.toList.reverse =
      (']' :: ([','].intercalate (k.groupRanks.map fun n => (Text.str n).toList)).reverse) ++
        '[' :: front := by
    intro k
    refine ⟨(k.topologyRole ++ ":" ++ k.collective ++ ":" ++ Text.str k.sequence ++ ":" ++
      Text.str k.messageBytes ++ "B:").toList.reverse, ?_⟩
    simp [GroupKey.groupId, String.toList_intercalate, Function.comp_def]
  have hout : ∀ k : GroupKey, '[' ∉
      ']' :: ([','].intercalate (k.groupRanks.map fun n => (Text.str n).toList)).reverse := by
    intro k hin
    rcases List.mem_cons.mp hin with h | h
    · exact absurd h (by decide)
    · exact bracket_notMem _ (List.mem_reverse.mp h)
  obtain ⟨front, hfront⟩ := htext k
  obtain ⟨front', hfront'⟩ := htext k'
  rw [h, hfront'] at hfront
  obtain ⟨hranks, -⟩ := Text.cut_unique (hout k') (hout k) hfront
  exact (intercalate_injective hk' hk (List.reverse_injective (List.cons.inj hranks).2)).symm

/-! ## One observation a complete group -/

theorem make_ok_iff {o : ObservationFields} {c : CollectiveObservation} :
    o.make = .ok c ↔ c.toObservationFields = o := by
  unfold ObservationFields.make
  split
  · rename_i h
    rw [Except.ok.injEq]
    exact ⟨fun hc => hc ▸ rfl, fun hc => by subst hc; rfl⟩
  · rename_i e h
    refine iff_of_false (fun hc => by cases hc) fun hc => ?_
    have hvalid := c.valid
    rw [hc, h] at hvalid
    cases hvalid

theorem isSlow_iff {payloads : List Payload} {k : GroupKey} :
    isSlow (samplesOf payloads k) = true ↔ Slow payloads k := by
  rw [isSlow, Slow, decide_eq_true_iff]
  omega

theorem key_of_mem {payloads : List Payload} {k : GroupKey} {m : Reported}
    (hm : m ∈ samplesOf payloads k) : m.2.key = k :=
  of_decide_eq_true (List.mem_filter.mp hm).2

theorem observeGroup_of_complete {payloads : List Payload} {k : GroupKey}
    (h : Complete payloads k) : observeGroup (samplesOf payloads k) = do
      return some (← (observed k (isSlow (samplesOf payloads k))).make) := by
  obtain ⟨hne, hmembers⟩ := h
  unfold observeGroup
  split
  · exact absurd ‹_› hne
  · rename_i rank sample rest hm
    have hkey : sample.key = k := key_of_mem (hm ▸ List.mem_cons_self)
    have hranks : sample.groupRanks = k.groupRanks := congrArg GroupKey.groupRanks hkey
    have hsets : ((samplesOf payloads k).map Prod.fst).toFinset = sample.groupRanks.toFinset := by
      ext x
      rw [List.mem_toFinset, List.mem_toFinset, hmembers, hranks]
    rw [hkey, if_neg (fun hsets' => hsets' hsets)]

theorem observeGroup_of_not_complete {payloads : List Payload} {k : GroupKey}
    (hne : samplesOf payloads k ≠ []) (h : ¬Complete payloads k) :
    observeGroup (samplesOf payloads k) = .ok none := by
  unfold observeGroup
  split
  · rfl
  · rename_i rank sample rest hm
    have hkey : sample.key = k := key_of_mem (hm ▸ List.mem_cons_self)
    have hranks : sample.groupRanks = k.groupRanks := congrArg GroupKey.groupRanks hkey
    refine if_pos fun hsets => h ⟨hne, fun x => ?_⟩
    rw [← hranks, ← List.mem_toFinset, hsets, List.mem_toFinset]

/-- The sample constructor's checks, for a group that has samples. -/
theorem exists_sample {payloads : List Payload} {k : GroupKey} (h : samplesOf payloads k ≠ []) :
    ∃ p ∈ payloads, ∃ s ∈ p.samples, s.key = k := by
  obtain ⟨m, hm⟩ := List.exists_mem_of_ne_nil _ h
  have hkey := key_of_mem hm
  have hin := (List.mem_filter.mp hm).1
  rw [reported, List.mem_flatMap] at hin
  obtain ⟨p, hp, hin⟩ := hin
  obtain ⟨s, hs, rfl⟩ := List.mem_map.mp hin
  exact ⟨p, hp, s, hs, hkey⟩

theorem ranks_ne_nil {payloads : List Payload} {k : GroupKey} (h : Complete payloads k) :
    k.groupRanks ≠ [] := by
  obtain ⟨p, -, s, -, rfl⟩ := exists_sample h.1
  exact fun hnil => s.nonempty (Or.inr hnil)

/-- The ranks of every group are distinct. -/
def DistinctRanks (payloads : List Payload) : Prop :=
  ∀ p ∈ payloads, ∀ s ∈ p.samples, s.groupRanks.Nodup

/-- An observation is refused for its topology role only. -/
theorem observed_postInit {payloads : List Payload} (hdistinct : DistinctRanks payloads)
    {k : GroupKey} (h : samplesOf payloads k ≠ []) (slow : Bool) :
    (observed k slow).postInit = .ok () ↔ k.topologyRole ≠ "" := by
  obtain ⟨p, hp, s, hs, rfl⟩ := exists_sample h
  have hid : (CollectiveTimingSample.key s).groupId ≠ "" := by
    intro hnil
    have hlen := congrArg (fun t => t.toList.length) hnil
    simp [GroupKey.groupId] at hlen
  have hnodup : (s.groupRanks.map Text.str).Nodup :=
    (hdistinct p hp s hs).map fun _ _ => Text.str_injective
  have hcollective : s.collective ≠ "" := fun h => s.nonempty (Or.inl h)
  have hranks : s.groupRanks ≠ [] := fun h => s.nonempty (Or.inr h)
  have hbytes : ¬s.messageBytes < 0 := fun h => s.nonneg (Or.inl h)
  have hlatency : ¬(if slow = true then (2 : ℚ) else 1) < 0 := by
    split <;> norm_num
  unfold ObservationFields.postInit
  simp only [check_ok_iff]
  constructor
  · rintro ⟨-, -, hnames, -⟩ hrole
    exact hnames (Or.inr (Or.inl hrole))
  · intro hrole
    refine ⟨?_, not_not.mpr hnodup, ?_, hbytes, Bool.false_ne_true, Bool.false_ne_true,
      fun h => hlatency h.2, if_neg (by norm_num)⟩
    · rintro (h | h)
      · exact hid h
      · exact hranks (List.map_eq_nil_iff.mp h)
    · rintro (h | h | h)
      · exact hcollective h
      · exact hrole h
      · exact absurd (show "machine_endpoint" = "" from h) (by decide)

/-- The observation of a complete group is made, or refused for its role. -/
theorem observeGroup_total_iff {payloads : List Payload} (hdistinct : DistinctRanks payloads)
    {k : GroupKey} (hne : samplesOf payloads k ≠ []) :
    (∃ found, observeGroup (samplesOf payloads k) = .ok found) ↔
      (Complete payloads k → k.topologyRole ≠ "") := by
  by_cases hcomplete : Complete payloads k
  · rw [observeGroup_of_complete hcomplete]
    constructor
    · rintro ⟨found, hfound⟩ -
      obtain ⟨c, hc, -⟩ := bind_ok_iff.mp hfound
      have hvalid := c.valid
      rw [make_ok_iff.mp hc] at hvalid
      exact (observed_postInit hdistinct hne _).mp hvalid
    · intro hrole
      have hvalid := (observed_postInit hdistinct hne (isSlow (samplesOf payloads k))).mpr
        (hrole hcomplete)
      exact ⟨_, bind_ok_iff.mpr ⟨⟨_, hvalid⟩, make_ok_iff.mpr rfl, rfl⟩⟩
  · exact iff_of_true ⟨none, observeGroup_of_not_complete hne hcomplete⟩
      fun h => absurd h hcomplete

theorem observations_total_iff {payloads : List Payload} (hdistinct : DistinctRanks payloads) :
    (∃ found, observations payloads = .ok found) ↔
      ∀ k, Complete payloads k → k.topologyRole ≠ "" := by
  constructor
  · rintro ⟨found, hfound⟩ k hk
    obtain ⟨each, heach, -⟩ := bind_ok_iff.mp hfound
    have hgroup : (k, samplesOf payloads k) ∈
        Dict.group (fun m : Reported => m.2.key) (reported payloads) :=
      Dict.mem_group.mpr ⟨rfl, hk.1⟩
    obtain ⟨one, -, hone⟩ := (mem_of_forall₂ (mapM_ok_iff.mp heach)).1 _ hgroup
    exact (observeGroup_total_iff hdistinct hk.1).mp ⟨one, hone⟩ hk
  · intro hroles
    have hone : ∀ g ∈ Dict.group (fun m : Reported => m.2.key) (reported payloads),
        ∃ found, observeGroup g.2 = .ok found := by
      intro g hg
      obtain ⟨hsamples, hne⟩ := Dict.mem_group.mp (show (g.1, g.2) ∈ _ from hg)
      rw [hsamples] at hne ⊢
      exact (observeGroup_total_iff hdistinct hne).mpr fun hk => hroles g.1 hk
    obtain ⟨each, heach⟩ := mapM_total hone
    exact ⟨_, bind_ok_iff.mpr ⟨each, heach, rfl⟩⟩

/-- The observations are those of the complete groups. -/
theorem mem_observations {payloads : List Payload} {found : List CollectiveObservation}
    (h : observations payloads = .ok found) (o : CollectiveObservation) :
    o ∈ found ↔ ∃ k, Complete payloads k ∧
      o.toObservationFields = observed k (isSlow (samplesOf payloads k)) := by
  obtain ⟨each, heach, hfound⟩ := bind_ok_iff.mp h
  obtain ⟨hleft, hright⟩ := mem_of_forall₂ (mapM_ok_iff.mp heach)
  rw [← Except.ok.inj hfound, List.reduceOption_mem_iff]
  constructor
  · intro ho
    obtain ⟨g, hg, hgo⟩ := hright _ ho
    obtain ⟨hsamples, hne⟩ := Dict.mem_group.mp (show (g.1, g.2) ∈ _ from hg)
    rw [hsamples] at hne hgo
    have hcomplete : Complete payloads g.1 := by
      by_contra hnot
      have hnone := (observeGroup_of_not_complete hne hnot).symm.trans hgo
      cases Except.ok.inj hnone
    have hmade := (observeGroup_of_complete hcomplete).symm.trans hgo
    obtain ⟨c, hc, hco⟩ := bind_ok_iff.mp hmade
    cases Option.some.inj (Except.ok.inj hco)
    exact ⟨g.1, hcomplete, make_ok_iff.mp hc⟩
  · rintro ⟨k, hk, ho⟩
    have hgroup : (k, samplesOf payloads k) ∈
        Dict.group (fun m : Reported => m.2.key) (reported payloads) :=
      Dict.mem_group.mpr ⟨rfl, hk.1⟩
    obtain ⟨one, hone, hgo⟩ := hleft _ hgroup
    rw [observeGroup_of_complete hk, make_ok_iff.mpr ho] at hgo
    cases Except.ok.inj hgo
    exact hone

theorem exists_observation {payloads : List Payload} {found : List CollectiveObservation}
    (h : observations payloads = .ok found) {k : GroupKey} (hk : Complete payloads k) :
    ∃ o ∈ found, o.toObservationFields = observed k (isSlow (samplesOf payloads k)) := by
  obtain ⟨each, heach, -⟩ := bind_ok_iff.mp h
  have hgroup : (k, samplesOf payloads k) ∈
      Dict.group (fun m : Reported => m.2.key) (reported payloads) :=
    Dict.mem_group.mpr ⟨rfl, hk.1⟩
  obtain ⟨one, -, hone⟩ := (mem_of_forall₂ (mapM_ok_iff.mp heach)).1 _ hgroup
  rw [observeGroup_of_complete hk] at hone
  obtain ⟨o, ho, -⟩ := bind_ok_iff.mp hone
  exact ⟨o, (mem_observations h o).mpr ⟨k, hk, make_ok_iff.mp ho⟩, make_ok_iff.mp ho⟩

/-! ## The round of observations -/

/-- What the localizer makes of the observation of a group. -/
theorem scored {o : CollectiveObservation} {k : GroupKey} {slow : Bool}
    (h : o.toObservationFields = observed k slow) : localizer.tooSlow o = slow ∧
      (slow = false → o.normalizedLatency ≤ (localizer.healthyFactor : WithTop ℚ)) := by
  have hfailed : o.failed = false := congrArg ObservationFields.failed h
  have hbaseline : o.baselineLatencyS = some 1 := congrArg ObservationFields.baselineLatencyS h
  have hlatency : o.latencyS = if slow then 2 else 1 := congrArg ObservationFields.latencyS h
  have hscore : o.normalizedLatency = (((if slow then 2 else 1) / 1 : ℚ) : WithTop ℚ) := by
    rw [CollectiveObservation.normalizedLatency, hfailed, hbaseline, hlatency]
    rfl
  rw [CommunicationLocalizer.tooSlow, hscore]
  cases slow with
  | true =>
      refine ⟨decide_eq_true (WithTop.coe_le_coe.mpr ?_), fun h => by cases h⟩
      norm_num [localizer]
  | false =>
      refine ⟨decide_eq_false fun hle => ?_, fun _ => WithTop.coe_le_coe.mpr ?_⟩
      · exact absurd (WithTop.coe_le_coe.mp hle) (by norm_num [localizer])
      · norm_num [localizer]

theorem resources_observed {o : CollectiveObservation} {k : GroupKey} {slow : Bool}
    (h : o.toObservationFields = observed k slow) :
    localizer.resources o = .ok (k.groupRanks.map Text.str).dedup := by
  have hresources : o.memberResources = none := congrArg ObservationFields.memberResources h
  have hkind : o.resourceKind = .rank := congrArg ObservationFields.resourceKind h
  have hmembers : o.members = k.groupRanks.map Text.str := congrArg ObservationFields.members h
  unfold CommunicationLocalizer.resources
  simp only [hresources, hkind, hmembers, if_true]

theorem mem_resourceSet {o : CollectiveObservation} {k : GroupKey} {slow : Bool}
    (h : o.toObservationFields = observed k slow) {x : String} :
    x ∈ localizer.resourceSet o ↔ ∃ rank ∈ k.groupRanks, Text.str rank = x := by
  rw [CommunicationLocalizer.resourceSet, resources_observed h]
  show x ∈ (k.groupRanks.map Text.str).dedup ↔ _
  rw [List.mem_dedup, List.mem_map]

theorem str_mem_resourceSet {o : CollectiveObservation} {k : GroupKey} {slow : Bool}
    (h : o.toObservationFields = observed k slow) {rank : Int} :
    Text.str rank ∈ localizer.resourceSet o ↔ rank ∈ k.groupRanks := by
  rw [mem_resourceSet h]
  constructor
  · rintro ⟨rank', hrank', heq⟩
    exact Text.str_injective heq ▸ hrank'
  · intro hrank
    exact ⟨rank, hrank, rfl⟩

section

variable {payloads : List Payload} {found : List CollectiveObservation}
  (h : observations payloads = .ok found)

include h

theorem mem_slow {o : CollectiveObservation} :
    o ∈ localizer.slow ⟨found, []⟩ ↔
      ∃ k, SlowGroup payloads k ∧ o.toObservationFields = observed k true := by
  rw [CommunicationLocalizer.slow, List.mem_filter, mem_observations h]
  constructor
  · rintro ⟨⟨k, hk, ho⟩, hslow⟩
    have hvote : isSlow (samplesOf payloads k) = true := by
      rw [← (scored ho).1]
      exact (Bool.and_eq_true_iff.mp hslow).1
    exact ⟨k, ⟨hk, isSlow_iff.mp hvote⟩, hvote ▸ ho⟩
  · rintro ⟨k, ⟨hk, hslow⟩, ho⟩
    refine ⟨⟨k, hk, by rw [isSlow_iff.mpr hslow]; exact ho⟩, ?_⟩
    rw [(scored ho).1, CommunicationLocalizer.hasStraggler]
    simp

theorem mem_healthy {o : CollectiveObservation} :
    o ∈ localizer.healthy ⟨found, []⟩ ↔
      ∃ k, HealthyGroup payloads k ∧ o.toObservationFields = observed k false := by
  rw [CommunicationLocalizer.healthy, List.mem_filter, mem_observations h]
  constructor
  · rintro ⟨⟨k, hk, ho⟩, hhealthy⟩
    have hvote : isSlow (samplesOf payloads k) = false := by
      rw [← (scored ho).1]
      exact (Bool.not_eq_true' _).mp (Bool.and_eq_true_iff.mp hhealthy).1
    refine ⟨k, ⟨hk, fun hslow => ?_⟩, hvote ▸ ho⟩
    rw [isSlow_iff.mpr hslow] at hvote
    cases hvote
  · rintro ⟨k, ⟨hk, hslow⟩, ho⟩
    have hvote : isSlow (samplesOf payloads k) = false :=
      Bool.eq_false_iff.mpr fun hv => hslow (isSlow_iff.mp hv)
    refine ⟨⟨k, hk, by rw [hvote]; exact ho⟩, ?_⟩
    rw [(scored ho).1, decide_eq_true ((scored ho).2 rfl)]
    rfl

theorem mem_slowOf {key : String × ResourceKind} {o : CollectiveObservation} :
    o ∈ localizer.slowOf ⟨found, []⟩ key ↔
      key = ("machine_endpoint", .rank) ∧
        ∃ k, SlowGroup payloads k ∧ o.toObservationFields = observed k true := by
  rw [CommunicationLocalizer.slowOf, List.mem_filter, mem_slow h, decide_eq_true_iff]
  constructor
  · rintro ⟨⟨k, hk, ho⟩, rfl⟩
    refine ⟨?_, k, hk, ho⟩
    rw [CollectiveObservation.classKey, ho]
    rfl
  · rintro ⟨rfl, k, hk, ho⟩
    refine ⟨⟨k, hk, ho⟩, ?_⟩
    rw [CollectiveObservation.classKey, ho]
    rfl

theorem mem_healthyOf {o : CollectiveObservation} :
    o ∈ localizer.healthyOf ⟨found, []⟩ ("machine_endpoint", .rank) ↔
      ∃ k, HealthyGroup payloads k ∧ o.toObservationFields = observed k false := by
  rw [CommunicationLocalizer.healthyOf, List.mem_filter, mem_healthy h, decide_eq_true_iff]
  refine and_iff_left_of_imp ?_
  rintro ⟨k, hk, ho⟩
  rw [CollectiveObservation.classKey, ho]
  rfl

theorem exists_slow {k : GroupKey} (hk : SlowGroup payloads k) :
    ∃ o ∈ localizer.slowOf ⟨found, []⟩ ("machine_endpoint", .rank),
      o.toObservationFields = observed k true := by
  obtain ⟨o, -, ho⟩ := exists_observation h hk.1
  rw [isSlow_iff.mpr hk.2] at ho
  exact ⟨o, (mem_slowOf h).mpr ⟨rfl, k, hk, ho⟩, ho⟩

theorem exists_healthy {k : GroupKey} (hk : HealthyGroup payloads k) :
    ∃ o ∈ localizer.healthyOf ⟨found, []⟩ ("machine_endpoint", .rank),
      o.toObservationFields = observed k false := by
  obtain ⟨o, -, ho⟩ := exists_observation h hk.1
  rw [Bool.eq_false_iff.mpr fun hv => hk.2 (isSlow_iff.mp hv)] at ho
  exact ⟨o, (mem_healthyOf h).mpr ⟨k, hk, ho⟩, ho⟩

theorem mem_slowClasses_iff {key : String × ResourceKind} :
    key ∈ localizer.slowClasses ⟨found, []⟩ ↔
      key = ("machine_endpoint", .rank) ∧ ∃ k, SlowGroup payloads k := by
  rw [CommunicationLocalizer.mem_slowClasses]
  constructor
  · intro hne
    obtain ⟨o, ho⟩ := List.exists_mem_of_ne_nil _ hne
    obtain ⟨hkey, k, hk, -⟩ := (mem_slowOf h).mp ho
    exact ⟨hkey, k, hk⟩
  · rintro ⟨rfl, k, hk⟩
    obtain ⟨o, ho, -⟩ := exists_slow h hk
    exact List.ne_nil_of_mem ho

theorem groups_resolve : localizer.Answered ⟨found, []⟩ := by
  intro key hkey
  obtain ⟨rfl, -⟩ := (mem_slowClasses_iff h).mp hkey
  constructor
  · intro o ho
    obtain ⟨-, k, -, hok⟩ := (mem_slowOf h).mp ho
    exact ⟨_, resources_observed hok⟩
  · intro _ o ho
    obtain ⟨k, -, hok⟩ := (mem_healthyOf h).mp ho
    exact ⟨_, resources_observed hok⟩

/-- An endpoint survives just when it is a rank that all slow groups and no
healthy group contain. -/
theorem survives_iff {k₀ : GroupKey} (hk₀ : SlowGroup payloads k₀) {x : String} :
    localizer.Survives (localizer.slowOf ⟨found, []⟩ ("machine_endpoint", .rank))
        (localizer.healthyOf ⟨found, []⟩ ("machine_endpoint", .rank)) x ↔
      ∃ rank, Text.str rank = x ∧ (∀ k, SlowGroup payloads k → rank ∈ k.groupRanks) ∧
        ∀ k, HealthyGroup payloads k → rank ∉ k.groupRanks := by
  constructor
  · rintro ⟨hslow, hhealthy⟩
    have hin : ∀ k, SlowGroup payloads k → ∃ rank ∈ k.groupRanks, Text.str rank = x := by
      intro k hk
      obtain ⟨o, hin, ho⟩ := exists_slow h hk
      exact (mem_resourceSet ho).mp (hslow o hin)
    obtain ⟨rank, -, rfl⟩ := hin k₀ hk₀
    refine ⟨rank, rfl, fun k hk => ?_, fun k hk hrank => ?_⟩
    · obtain ⟨rank', hrank', heq⟩ := hin k hk
      exact Text.str_injective heq ▸ hrank'
    · obtain ⟨o, hin, ho⟩ := exists_healthy h hk
      exact hhealthy o hin ((str_mem_resourceSet ho).mpr hrank)
  · rintro ⟨rank, rfl, hslow, hhealthy⟩
    constructor
    · intro o ho
      obtain ⟨-, k, hk, hok⟩ := (mem_slowOf h).mp ho
      exact (str_mem_resourceSet hok).mpr (hslow k hk)
    · intro o ho hin
      obtain ⟨k, hk, hok⟩ := (mem_healthyOf h).mp ho
      exact hhealthy k hk ((str_mem_resourceSet hok).mp hin)

/-- The slow groups suffice just when two of them have different members. -/
theorem enough_iff : localizer.Enough
      (localizer.slowOf ⟨found, []⟩ ("machine_endpoint", .rank)) ↔
    ∃ k k', SlowGroup payloads k ∧ SlowGroup payloads k' ∧
      k.groupRanks.toFinset ≠ k'.groupRanks.toFinset := by
  constructor
  · rintro ⟨-, o, ho, o', ho', hne⟩
    obtain ⟨-, k, hk, hok⟩ := (mem_slowOf h).mp ho
    obtain ⟨-, k', hk', hok'⟩ := (mem_slowOf h).mp ho'
    refine ⟨k, k', hk, hk', fun hsets => hne fun x => ?_⟩
    have hranks : ∀ rank, rank ∈ k.groupRanks ↔ rank ∈ k'.groupRanks := fun rank => by
      rw [← List.mem_toFinset, hsets, List.mem_toFinset]
    simp only [mem_resourceSet hok, mem_resourceSet hok', hranks]
  · rintro ⟨k, k', hk, hk', hne⟩
    obtain ⟨o, hin, ho⟩ := exists_slow h hk
    obtain ⟨o', hin', ho'⟩ := exists_slow h hk'
    refine ⟨?_, o, hin, o', hin', fun hsame => hne ?_⟩
    · have hids : ∀ {k : GroupKey} {o : CollectiveObservation},
          o ∈ localizer.slowOf ⟨found, []⟩ ("machine_endpoint", .rank) →
          o.toObservationFields = observed k true →
          k.groupId ∈ (CommunicationLocalizer.groupIds
            (localizer.slowOf ⟨found, []⟩ ("machine_endpoint", .rank))).toFinset := by
        intro k o hin ho
        rw [List.mem_toFinset, CommunicationLocalizer.groupIds, List.mem_dedup]
        exact List.mem_map.mpr ⟨o, hin, congrArg ObservationFields.groupId ho⟩
      have hdiffer : k.groupId ≠ k'.groupId := by
        intro heq
        have hranks := groupRanks_of_groupId (ranks_ne_nil hk.1) (ranks_ne_nil hk'.1) heq
        exact hne (congrArg List.toFinset hranks)
      have hcard := Finset.one_lt_card.mpr ⟨_, hids hin ho, _, hids hin' ho', hdiffer⟩
      have hnodup : (CommunicationLocalizer.groupIds
          (localizer.slowOf ⟨found, []⟩ ("machine_endpoint", .rank))).Nodup :=
        List.nodup_dedup _
      rw [List.card_toFinset, List.dedup_eq_self.mpr hnodup] at hcard
      exact hcard
    · ext rank
      rw [List.mem_toFinset, List.mem_toFinset, ← str_mem_resourceSet ho,
        ← str_mem_resourceSet ho']
      exact hsame (Text.str rank)

theorem singlesOut_iff {rank : Int} :
    localizer.SinglesOut ⟨found, []⟩ ("machine_endpoint", .rank, Text.str rank) ↔
      Implicated payloads rank := by
  constructor
  · intro hs
    have hclass := ((hs.sole _).mpr rfl).1
    obtain ⟨k, k', hk, hk', hne⟩ := (enough_iff h).mp (hs.enough _ hclass)
    refine ⟨⟨{k, k'}, ?_, ?_⟩, ⟨k, k', hk, hk', hne⟩, fun x => ?_⟩
    · rw [Finset.card_pair fun heq => hne (congrArg (fun k => k.groupRanks.toFinset) heq)]
      exact Nat.le_refl 2
    · intro k'' hin
      rcases Finset.mem_insert.mp hin with rfl | hin
      · exact hk
      · exact Finset.mem_singleton.mp hin ▸ hk'
    · have hsole := hs.sole ("machine_endpoint", .rank, Text.str x)
      constructor
      · intro hx
        have hfp := hsole.mp ⟨hclass, (survives_iff h hk).mpr ⟨x, rfl, hx⟩⟩
        exact Text.str_injective (congrArg (fun f : Fingerprint => f.2.2) hfp)
      · rintro rfl
        obtain ⟨x', heq, hx'⟩ := (survives_iff h hk).mp (hsole.mpr rfl).2
        exact Text.str_injective heq ▸ hx'
  · intro hi
    obtain ⟨k, k', hk, hk', hne⟩ := hi.distinct
    refine ⟨groups_resolve h, fun key hkey => ?_, fun g => ?_, fun key hkey hdiffer => ?_⟩
    · obtain ⟨rfl, -⟩ := (mem_slowClasses_iff h).mp hkey
      exact (enough_iff h).mpr ⟨k, k', hk, hk', hne⟩
    · constructor
      · rintro ⟨hclass, hsurvives⟩
        have hkey := ((mem_slowClasses_iff h).mp hclass).1
        rw [hkey, survives_iff h hk] at hsurvives
        obtain ⟨x, hx, hall⟩ := hsurvives
        rw [← (hi.sole x).mp hall, hx]
        have hfirst : g.1 = "machine_endpoint" := congrArg Prod.fst hkey
        have hsecond : g.2.1 = .rank := congrArg Prod.snd hkey
        exact Prod.ext hfirst (Prod.ext hsecond rfl)
      · rintro rfl
        exact ⟨(mem_slowClasses_iff h).mpr ⟨rfl, k, hk⟩,
          (survives_iff h hk).mpr ⟨rank, rfl, (hi.sole rank).mpr rfl⟩⟩
    · exact absurd ((mem_slowClasses_iff h).mp hkey).1 hdiffer

end

/-! ## The diagnosis -/

/-- With `persistence = 1` a localized endpoint is confirmed. -/
theorem confirmed_of_suspect {r : CommunicationLocalizer.Round} {v : CommunicationVerdict}
    {s : Confirmation} {c : EndpointCandidate}
    (h : localizer.observe r .reset = .ok (v, s)) (hc : v.suspect = some c) :
    v.confirmed = true := by
  rcases CommunicationLocalizer.observe_spec h with ⟨c', hl⟩ | hd
  · rw [hl.confirmed, hl.state]
    exact Nat.le_refl 1
  · rw [hd.suspect] at hc
    cases hc

/-- The suspect is a rank that the groups implicate. -/
theorem implicated_of_suspect {payloads : List Payload} {found : List CollectiveObservation}
    (hfound : observations payloads = .ok found) {v : CommunicationVerdict} {s : Confirmation}
    {c : EndpointCandidate} (h : localizer.observe ⟨found, []⟩ .reset = .ok (v, s))
    (hc : v.suspect = some c) :
    ∃ rank, Text.int? c.resourceId = some rank ∧ Implicated payloads rank := by
  have hs : localizer.SinglesOut ⟨found, []⟩ c.fingerprint :=
    CommunicationLocalizer.reports_iff.mp
      (show localizer.Reports ⟨found, []⟩ [] c.fingerprint from ⟨v, s, c, h, hc, rfl⟩)
  obtain ⟨hclass, hsurvives⟩ := (hs.sole _).mpr rfl
  obtain ⟨hkey, k, hk⟩ := (mem_slowClasses_iff hfound).mp hclass
  rw [hkey, survives_iff hfound hk] at hsurvives
  obtain ⟨rank, hrank, -⟩ := hsurvives
  have hid : c.resourceId = Text.str rank := hrank.symm
  have hfirst : c.resourceClass = "machine_endpoint" := congrArg Prod.fst hkey
  have hsecond : c.resourceKind = .rank := congrArg Prod.snd hkey
  refine ⟨rank, hid ▸ Text.int?_str rank, (singlesOut_iff hfound).mp ?_⟩
  rw [EndpointCandidate.fingerprint, hid, hfirst, hsecond] at hs
  exact hs

theorem diagnose_confirmed (nodes : List (Int × String)) {v : CommunicationVerdict}
    {c : EndpointCandidate} {rank : Int} (hconfirmed : v.confirmed = true)
    (hc : v.suspect = some c) (hid : Text.int? c.resourceId = some rank) :
    ∃ result, diagnose nodes v = .ok result ∧ result.status = .localized ∧
      result.failedRank = some rank := by
  unfold diagnose
  rw [hconfirmed, hc]
  dsimp only
  rw [hid]
  exact ⟨_, rfl, rfl, rfl⟩

theorem suspect_of_diagnose {nodes : List (Int × String)} {v : CommunicationVerdict}
    {result : CrossPGResult} {rank : Int} (h : diagnose nodes v = .ok result)
    (hrank : result.failedRank = some rank) :
    ∃ c, v.suspect = some c ∧ Text.int? c.resourceId = some rank := by
  unfold diagnose at h
  split at h
  · rename_i c _ hc
    split at h
    · cases h
    · rename_i failedRank hid
      rw [← Except.ok.inj h] at hrank
      exact ⟨c, hc, hid.trans hrank⟩
  · rw [← Except.ok.inj h] at hrank
    cases hrank

/-- **The coordinator localizes a rank exactly when the groups implicate it**, once
the observation of every complete group can be made. -/
theorem localize_iff (payloads : List Payload) (hdistinct : DistinctRanks payloads)
    (rankToNode : List (Int × String)) (rank : Int) :
    Localizes payloads rankToNode rank ↔
      (∀ k, Complete payloads k → k.topologyRole ≠ "") ∧ Implicated payloads rank := by
  rw [← observations_total_iff hdistinct]
  constructor
  · rintro ⟨result, nodes, hok, -, hrank⟩
    obtain ⟨found, hfound, hrest⟩ := bind_ok_iff.mp hok
    obtain ⟨⟨v, s⟩, hv, hrest⟩ := bind_ok_iff.mp hrest
    obtain ⟨result', hdiagnose, hresult⟩ := bind_ok_iff.mp hrest
    cases Except.ok.inj hresult
    rw [mapError_ok_iff] at hfound hv
    obtain ⟨c, hc, hid⟩ := suspect_of_diagnose hdiagnose hrank
    obtain ⟨rank', hid', himplicated⟩ := implicated_of_suspect hfound hv hc
    exact ⟨⟨found, hfound⟩, Option.some.inj (hid.symm.trans hid') ▸ himplicated⟩
  · rintro ⟨⟨found, hfound⟩, hi⟩
    have hreports : localizer.Reports ⟨found, []⟩ [] ("machine_endpoint", .rank, Text.str rank) :=
      CommunicationLocalizer.reports_iff.mpr ((singlesOut_iff hfound).mpr hi)
    obtain ⟨v, s, c, hv, hc, hfp⟩ := hreports
    have hid : c.resourceId = Text.str rank := congrArg (fun f : Fingerprint => f.2.2) hfp
    obtain ⟨result, hdiagnose, hstatus, hrank⟩ := diagnose_confirmed
      (recordNodes rankToNode payloads) (confirmed_of_suspect hv hc) hc
      (hid ▸ Text.int?_str rank)
    exact ⟨result, recordNodes rankToNode payloads, bind_ok_iff.mpr
      ⟨found, mapError_ok_iff.mpr hfound, bind_ok_iff.mpr
        ⟨(v, s), mapError_ok_iff.mpr hv, bind_ok_iff.mpr ⟨result, hdiagnose, rfl⟩⟩⟩,
      hstatus, hrank⟩

/-- A slow all-reduce in one group. -/
def slowSample (groupRanks : List Int) (h : groupRanks ≠ []) (topologyRole : String) :
    CollectiveTimingSample where
  collective := "all_reduce"
  groupRanks := groupRanks
  messageBytes := 1024
  sequence := 0
  latencyMs := 5
  slow := true
  topologyRole := topologyRole
  nonempty := by simp [h]
  nonneg := by norm_num

/-- Two slow groups share rank 0, and a member of a third reports alone. -/
def samplePayloads (topologyRole : String) : List Payload :=
  [⟨0, "n0", [slowSample [0, 1] (by decide) topologyRole,
      slowSample [0, 2] (by decide) topologyRole]⟩,
   ⟨1, "n1", [slowSample [0, 1] (by decide) topologyRole]⟩,
   ⟨2, "n2", [slowSample [0, 2] (by decide) topologyRole]⟩,
   ⟨3, "n3", [slowSample [3, 4] (by decide) topologyRole]⟩]

theorem distinctRanks_sample (topologyRole : String) :
    DistinctRanks (samplePayloads topologyRole) := by
  simp [DistinctRanks, samplePayloads, slowSample]

theorem samplesOf_sample {topologyRole : String} {k : GroupKey}
    (h : samplesOf (samplePayloads topologyRole) k ≠ []) :
    k = ⟨"all_reduce", [0, 1], 1024, 0, topologyRole⟩ ∨
      k = ⟨"all_reduce", [0, 2], 1024, 0, topologyRole⟩ ∨
      k = ⟨"all_reduce", [3, 4], 1024, 0, topologyRole⟩ := by
  obtain ⟨p, hp, s, hs, rfl⟩ := exists_sample h
  simp only [samplePayloads, List.mem_cons, List.not_mem_nil, or_false] at hp
  rcases hp with rfl | rfl | rfl | rfl
  · simp only [List.mem_cons, List.not_mem_nil, or_false] at hs
    rcases hs with rfl | rfl
    · exact Or.inl rfl
    · exact Or.inr (Or.inl rfl)
  · cases List.mem_singleton.mp hs
    exact Or.inl rfl
  · cases List.mem_singleton.mp hs
    exact Or.inr (Or.inl rfl)
  · cases List.mem_singleton.mp hs
    exact Or.inr (Or.inr rfl)

theorem complete_sample {topologyRole : String} {k : GroupKey}
    (h : Complete (samplePayloads topologyRole) k) :
    k = ⟨"all_reduce", [0, 1], 1024, 0, topologyRole⟩ ∨
      k = ⟨"all_reduce", [0, 2], 1024, 0, topologyRole⟩ := by
  rcases samplesOf_sample h.1 with rfl | rfl | rfl
  · exact Or.inl rfl
  · exact Or.inr rfl
  · have hmissing := (h.2 4).mpr (by simp)
    simp [samplesOf, reported, samplePayloads, slowSample, CollectiveTimingSample.key] at hmissing

theorem slowGroup_sample (topologyRole : String) {other : Int} (h : other = 1 ∨ other = 2) :
    SlowGroup (samplePayloads topologyRole)
      ⟨"all_reduce", [0, other], 1024, 0, topologyRole⟩ := by
  rcases h with rfl | rfl
  · constructor
    · simp [Complete, samplesOf, reported, samplePayloads, slowSample, CollectiveTimingSample.key]
    · simp [Slow, samplesOf, reported, samplePayloads, slowSample, CollectiveTimingSample.key]
  · constructor
    · simp [Complete, samplesOf, reported, samplePayloads, slowSample, CollectiveTimingSample.key]
    · simp [Slow, samplesOf, reported, samplePayloads, slowSample, CollectiveTimingSample.key]

theorem implicated_sample (topologyRole : String) :
    Implicated (samplePayloads topologyRole) 0 := by
  have hfirst := slowGroup_sample topologyRole (Or.inl rfl)
  have hsecond := slowGroup_sample topologyRole (Or.inr rfl)
  have hdiffer : ([0, 1] : List Int).toFinset ≠ ([0, 2] : List Int).toFinset := by decide
  refine ⟨⟨{⟨"all_reduce", [0, 1], 1024, 0, topologyRole⟩,
      ⟨"all_reduce", [0, 2], 1024, 0, topologyRole⟩}, ?_, ?_⟩,
    ⟨_, _, hfirst, hsecond, hdiffer⟩, fun x => ⟨fun hx => ?_, ?_⟩⟩
  · rw [Finset.card_pair (by simp)]
    exact Nat.le_refl 2
  · intro k hk
    rcases Finset.mem_insert.mp hk with rfl | hk
    · exact hfirst
    · exact Finset.mem_singleton.mp hk ▸ hsecond
  · have hx₁ := hx.1 _ hfirst
    have hx₂ := hx.1 _ hsecond
    simp only [List.mem_cons, List.not_mem_nil, or_false] at hx₁ hx₂
    omega
  · rintro rfl
    constructor
    · intro k hk
      rcases complete_sample hk.1 with rfl | rfl
      · simp
      · simp
    · intro k hk
      rcases complete_sample hk.1 with rfl | rfl
      · exact absurd hfirst.2 hk.2
      · exact absurd hsecond.2 hk.2

/-- With a role for every group, rank 0 is localized. -/
theorem localizes_sample : Localizes (samplePayloads "dp") [] 0 := by
  refine (localize_iff _ (distinctRanks_sample "dp") [] 0).mpr ⟨fun k hk => ?_, ?_⟩
  · rcases complete_sample hk with rfl | rfl
    · simp
    · simp
  · exact implicated_sample "dp"

/-- Rank 0 is implicated, and the observation of a group without a role is refused; with
roles it is localized, though the slow group that is not complete does not contain it. -/
theorem unnamed_role_refused : (Implicated (samplePayloads "") 0 ∧
      ¬Localizes (samplePayloads "") [] 0) ∧
    ∃ k, Slow (samplePayloads "dp") k ∧ 0 ∉ k.groupRanks ∧
      (localize (samplePayloads "dp") []).toOption.map
        (fun p => (p.1.status, p.1.failedRank)) = some (.localized, some 0) := by
  refine ⟨⟨implicated_sample "", ?_⟩, ⟨"all_reduce", [3, 4], 1024, 0, "dp"⟩, ?_, by simp, ?_⟩
  · rintro ⟨result, nodes, hok, -⟩
    have hnone : (localize (samplePayloads "") []).toOption.isNone = true := by decide +kernel
    rw [hok] at hnone
    cases hnone
  · simp [Slow, samplesOf, reported, samplePayloads, slowSample, CollectiveTimingSample.key]
  · decide +kernel

end CrossPGCoordinator

end LmResiliency.Detection
