/-
# RecoveryAgreement — what all ranks recover

What a group of ranks announces, what it loads, and what of it every rank
has verified.  The collective operations of the two recovery modes do not
match: a group in which one rank has persisted another mode than the others
gets stuck.

The main results are `announced_step_loaded`, `verified_load_history` and
`default_mode_collective`, each an exact condition.  Steps are below 2^63, the
range of the tensors that are reduced.
-/
import LmResiliency.Checkpointing.RecoveryGroup

namespace LmResiliency.Checkpointing

open Lockstep

variable {σ α ε κ ρ : Type} {ι : Type} [Fintype ι] [Nonempty ι]
  {ranks : ι → RankState σ α ε κ}

/-! ## Sample ranks -/

/-- A rank of a group; a shard file says whether it is intact. -/
def sampleState (worldSize : Int) (rank : Nat) (shards : List (Int × Bool))
    (status : CheckpointStatusStore) : RankState Bool Nat Unit Unit where
  group := ⟨true, worldSize⟩
  disk := ⟨shards.map fun shard => .dir (stepName shard.1) [(rank, shard.2)], rank,
    fun step _ intact => if intact then .ok (⟨[], ()⟩, [step.toNat]) else .error .checksum⟩
  status := status
  memory := ⟨some ⟨[], ()⟩, ⟨true, { tensors := [20], step := 20, state := .ready }, {}, none⟩⟩

def sampleStore (rank : Nat) : CheckpointStatusStore := ⟨rank, "run", "topology", [], none⟩

/-! ## Ranks in different modes -/

section Split

variable {fuel : Nat} (hg : GroupedRanks ranks) (hone : Fintype.card ι ≠ 1)
include hg hone

omit [Nonempty ι]

theorem findLatestIn_verified (i : ι) :
    findLatestIn (ranks i) fuel .recoveryVerified =
      .call ⟨(.min, 1), ![localVerifiedStep (ranks i)]⟩
        fun reduced => announce (ranks i) fuel .recoveryVerified (-1, reduced 0) := by
  simp only [findLatestIn, recoverySteps, verifiedDiskStep, collectiveMinStep_eq_call hg hone]
  rfl

theorem findLatestIn_latest (i : ι) :
    findLatestIn (ranks i) fuel .latestGemini =
      .call ⟨(.min, 1), ![(ranks i).memory.latestStep]⟩ fun reduced => (do
        let memoryStep ← memoryVote (ranks i) (reduced 0)
        let diskStep ← consistentStep (ranks i).group (ranks i).disk fuel none
        announce (ranks i) fuel .latestGemini (memoryStep, diskStep)) := by
  simp only [findLatestIn, recoverySteps, consistentMemoryStep, collectiveMinStep_eq_call hg hone,
    bind_assoc]
  rfl

/-- In the verified mode at most one more operation is called, and it is a vote. -/
theorem announce_verified (i : ι) (hfuel : 0 < fuel) (diskStep : Int) :
    (diskStep ≤ 0 → ∃ a, Ends (announce (ranks i) fuel .recoveryVerified (-1, diskStep)) a) ∧
    (0 < diskStep → ∃ vote next,
      announce (ranks i) fuel .recoveryVerified (-1, diskStep) = .call ⟨(.min, 1), ![vote]⟩ next ∧
      ∀ reduced, ∃ a, Ends (next reduced) a) := by
  obtain ⟨rounds, rfl⟩ := Nat.exists_eq_succ_of_ne_zero hfuel.ne'
  constructor
  · intro hle
    simp only [announce, loadDisk, loadLatestCollectivelyValidatedDiskShard,
      if_neg (Int.not_lt.mpr hle)]
    split
    · exact ⟨.ok _, rfl⟩
    · exact ⟨.ok _, rfl⟩
  · intro hpos
    have hlt : -1 < diskStep := by omega
    simp only [announce, if_pos hlt, loadDisk, loadLatestCollectivelyValidatedDiskShard,
      if_pos hpos, loadCollectivelyValidatedDiskShard, collectiveMinStep_eq_call hg hone]
    refine ⟨_, _, rfl, fun reduced => ?_⟩
    refine Ends.exists_bind (Ends.exists_bind (p := if reduced 0 = 1 then
      .ret ((ranks i).disk.load diskStep).toOption else .ret none) ?_ fun loaded => ?_)
      fun loaded => ⟨.ok _, rfl⟩
    · split
      · exact ⟨.ok _, rfl⟩
      · exact ⟨.ok _, rfl⟩
    · cases loaded with
      | none => exact ⟨.ok _, rfl⟩
      | some shard => exact ⟨.ok _, rfl⟩

/-- In the latest mode the disk is still to be searched. -/
theorem memoryVote_latest (i : ι) (step : Int) {β : Type} (search : Int → RankM β)
    (hsearch : ∀ memoryStep, ∃ o next, search memoryStep = .call o next) :
    (step ≤ 0 → ∃ o next, (memoryVote (ranks i) step >>= search) = .call o next) ∧
    (0 < step → ∃ vote next,
      (memoryVote (ranks i) step >>= search) = .call ⟨(.min, 1), ![vote]⟩ next ∧
      ∀ reduced, ∃ o next', next reduced = .call o next') := by
  constructor
  · intro hle
    simp only [memoryVote, if_pos hle]
    exact hsearch (-1)
  · intro hpos
    simp only [memoryVote, if_neg (Int.not_le.mpr hpos), collectiveMinStep_eq_call hg hone]
    refine ⟨_, _, rfl, fun reduced => ?_⟩
    show ∃ o next', ((if reduced 0 = 1 then pure step else pure (-1) : RankM Int) >>= search) =
      .call o next'
    split
    · exact hsearch step
    · exact hsearch (-1)

/-- Ranks in different modes get stuck: after the operations that they share,
a rank in the verified mode has ended and one in the latest mode still searches
its disk. -/
theorem findLatest_split [Nonempty ι] (hfuel : 0 < fuel) {modes : ι → RecoveryMode} {i j : ι}
    (hi : modes i = .recoveryVerified) (hj : modes j = .latestGemini)
    {as : ι → Except CheckpointError Int} :
    ¬ Together (fun k => findLatestIn (ranks k) fuel (modes k)) as := by
  have hsearch : ∀ k memoryStep, ∃ o next,
      (consistentStep (ranks k).group (ranks k).disk fuel none >>= fun diskStep =>
        announce (ranks k) fuel .latestGemini (memoryStep, diskStep)) = .call o next := by
    intro k memoryStep
    simp only [consistentStep, collectiveMinStep_eq_call hg hone]
    exact ⟨_, _, rfl⟩
  -- the first operation, which all ranks call
  have hfirst : ∀ k, ∃ (v : Int) (next : Int → RankM Int),
      findLatestIn (ranks k) fuel (modes k) =
        .call ⟨(.min, 1), ![v]⟩ (fun reduced => next (reduced 0)) ∧
      (modes k = .recoveryVerified → ∀ step,
        next step = announce (ranks k) fuel .recoveryVerified (-1, step)) ∧
      (modes k = .latestGemini → ∀ step, next step = (memoryVote (ranks k) step >>=
        fun memoryStep => consistentStep (ranks k).group (ranks k).disk fuel none >>=
          fun diskStep => announce (ranks k) fuel .latestGemini (memoryStep, diskStep))) := by
    intro k
    cases hk : modes k with
    | recoveryVerified =>
        exact ⟨_, _, findLatestIn_verified hg hone k, fun _ _ => rfl, fun h => nomatch h⟩
    | latestGemini =>
        exact ⟨_, _, findLatestIn_latest hg hone k, (fun h => nomatch h), fun _ _ => rfl⟩
  choose vs next hcall hverified hlatest using hfirst
  rintro ⟨n, hruns⟩
  simp only [hcall] at hruns
  obtain ⟨m, -, hruns⟩ := hruns.of_call
  obtain ⟨step, hruns⟩ : ∃ step, Runs reduce (fun k => next k step) m as :=
    ⟨reduce (.min, 1) (fun k => ![vs k]) 0, hruns⟩
  by_cases hpos : 0 < step
  · -- the second operation is a vote of all ranks
    have hsecond : ∀ k, ∃ (vote : Int) (next' : (Fin 1 → Int) → RankM Int),
        next k step = .call ⟨(.min, 1), ![vote]⟩ next' ∧
        (modes k = .recoveryVerified → ∀ reduced, ∃ a, Ends (next' reduced) a) ∧
        (modes k = .latestGemini → ∀ reduced, ∃ o next'', next' reduced = .call o next'') := by
      intro k
      cases hk : modes k with
      | recoveryVerified =>
          obtain ⟨vote, next', heq, hends⟩ :=
            (announce_verified hg hone k hfuel step).2 hpos
          exact ⟨vote, next', (hverified k hk step).trans heq, fun _ => hends,
            fun h => nomatch h⟩
      | latestGemini =>
          obtain ⟨vote, next', heq, hcalls⟩ :=
            (memoryVote_latest hg hone k step _ (hsearch k)).2 hpos
          exact ⟨vote, next', (hlatest k hk step).trans heq, (fun h => nomatch h),
            fun _ => hcalls⟩
    choose votes next' hcall' hends hcalls using hsecond
    simp only [hcall'] at hruns
    obtain ⟨m', -, hruns⟩ := hruns.of_call
    obtain ⟨a, ha⟩ := hends i hi (reduce (.min, 1) fun k => ![votes k])
    obtain ⟨o, next'', hj'⟩ := hcalls j hj (reduce (.min, 1) fun k => ![votes k])
    exact hruns.not_split ha hj'
  · obtain ⟨a, ha⟩ := (announce_verified hg hone i hfuel step).1 (Int.not_lt.mp hpos)
    obtain ⟨o, next', hj'⟩ := (memoryVote_latest hg hone j step _ (hsearch j)).1 (Int.not_lt.mp hpos)
    rw [← hverified i hi step] at ha
    rw [← hlatest j hj step] at hj'
    exact hruns.not_split ha hj'

end Split

/-! ## The mode of a call -/

/-- The ranks once they have activated a mode. -/
def activated (ranks : ι → RankState σ α ε κ) (resolved : RecoveryMode) :
    ι → RankState σ α ε κ :=
  fun i => { ranks i with status := (ranks i).status.activate resolved }

/-- All ranks resolve one mode. -/
def Resolves (ranks : ι → RankState σ α ε κ) (mode : Option String) (resolved : RecoveryMode) :
    Prop :=
  ∀ i, (ranks i).status.resolvedRecoveryMode mode = some resolved

section Modes

variable {mode : Option String} {resolved : RecoveryMode} {fuel : Nat}

omit [Fintype ι] [Nonempty ι] in
theorem recover_of_resolves (h : Resolves ranks mode resolved) (result : Shard α ε κ → ρ) :
    (fun i => recover (ranks i) result fuel mode) =
      fun i => recoverIn (activated ranks resolved i) result fuel resolved := by
  funext i
  simp only [recover, withResolvedMode, h i]
  rfl

omit [Fintype ι] [Nonempty ι] in
/-- The activation of a mode does not change what is announced in it. -/
theorem findLatest_of_resolves (h : Resolves ranks mode resolved) :
    (fun i => findLatest (ranks i) fuel mode) =
      fun i => findLatestIn (activated ranks resolved i) fuel resolved := by
  funext i
  simp only [findLatest, withResolvedMode, h i]
  cases resolved with
  | latestGemini => rfl
  | recoveryVerified =>
      simp only [findLatestIn, recoverySteps, verifiedDiskStep, localVerifiedStep, activated,
        CheckpointStatusStore.read_activate_pointer]
      rfl

omit [Nonempty ι] in
theorem verifiedStep_activated [Nonempty ι] :
    verifiedStep (activated ranks resolved) = verifiedStep ranks := by
  simp only [verifiedStep, localVerifiedStep, activated,
    CheckpointStatusStore.read_activate_pointer]

/-- Ranks that return from `find_latest` together have resolved one mode. -/
theorem resolves_of_findLatest (hg : GroupedRanks ranks) (hfuel : 0 < fuel) {step : Int}
    (h : Together (fun i => findLatest (ranks i) fuel mode) fun _ => .ok step) :
    ∃ resolved, Resolves ranks mode resolved := by
  obtain ⟨i₀⟩ := ‹Nonempty ι›
  have hne : Nonempty ι := ⟨i₀⟩
  have hsome : ∀ i, ∃ resolved, (ranks i).status.resolvedRecoveryMode mode = some resolved := by
    cases mode with
    | none => exact fun i => ⟨_, rfl⟩
    | some value =>
        cases hvalue : RecoveryMode.ofValue value with
        | some resolved => exact fun i => ⟨resolved, hvalue⟩
        | none =>
            have hraise : Together (fun i => findLatest (ranks i) fuel (some value))
                fun _ => .error (unknownMode value) := by
              have hall : ∀ i, (ranks i).status.resolvedRecoveryMode (some value) = none :=
                fun i => hvalue
              simp only [findLatest, withResolvedMode, hall]
              exact ⟨0, .done fun i => rfl⟩
            cases congrFun (h.unique hraise) i₀
  choose modes hmodes using hsome
  have hprogs : (fun i => findLatest (ranks i) fuel mode) =
      fun i => findLatestIn (ranks i) fuel (modes i) := by
    funext i
    simp only [findLatest, withResolvedMode, hmodes i]
  rw [hprogs] at h
  by_contra hno
  have hdiffer : ∃ i j, modes i = .recoveryVerified ∧ modes j = .latestGemini := by
    by_contra hsame
    have hall : ∀ i, modes i = modes i₀ := by
      intro i
      cases hi : modes i <;> cases h₀ : modes i₀
      · rfl
      · exact absurd ⟨i₀, i, h₀, hi⟩ hsame
      · exact absurd ⟨i, i₀, hi, h₀⟩ hsame
      · rfl
    exact hno ⟨modes i₀, fun i => (hmodes i).trans (congrArg some (hall i))⟩
  obtain ⟨i, j, hi, hj⟩ := hdiffer
  have hone : Fintype.card ι ≠ 1 := by
    intro hone
    have : Subsingleton ι := Fintype.card_le_one_iff_subsingleton.mp hone.le
    rw [Subsingleton.elim i j, hj] at hi
    cases hi
  exact findLatest_split hg hone hfuel hi hj h

end Modes

/-! ## What is announced is loaded -/

/-- The step that `find_latest` announces; `-1` is none. -/
def announced (step : Int) : Option Int := if 0 < step then some step else none

/-- The ranks hold a step in memory, all of them have a newer generation on disk,
and no generation from that step on loads from disk on every rank. -/
def Overtaken (ranks : ι → RankState σ α ε κ) : Prop :=
  ∃ memoryStep, HeldInMemory ranks memoryStep ∧
    (∃ diskStep ∈ Common (fun i => (ranks i).disk) none, memoryStep < diskStep) ∧
    ∀ step, memoryStep ≤ step → ¬ Loads ranks step

omit [Fintype ι] [Nonempty ι] in
theorem loads_of_loadable {diskStep step : Int}
    (h : step ∈ Loadable (fun i => (ranks i).disk) diskStep) : Loads ranks step := h.2.2

theorem LatestOutcome.restored_iff {restored : Option Int} {step : Int}
    (h : LatestOutcome ranks restored step) :
    restored = announced step ↔ ¬ Overtaken ranks := by
  have hfound : ∀ {diskStep}, IsGreatest (Common (fun i => (ranks i).disk) none) diskStep →
      ∀ {step}, 0 < step → Loads ranks step →
        step ∈ Loadable (fun i => (ranks i).disk) diskStep := by
    intro diskStep hnewest step hpos hloads
    exact ⟨hpos, hnewest.2 (mem_common_of_loads hpos hloads), hloads⟩
  cases h with
  | memory memoryStep hheld hnewest =>
      refine iff_of_true (if_pos hheld.1).symm ?_
      rintro ⟨memoryStep', hheld', ⟨diskStep, hcommon, hlt⟩, -⟩
      have := hnewest diskStep hcommon
      rw [hheld'.2.1, ← hheld.2.1] at hlt
      omega
  | nothing hheld hempty =>
      refine iff_of_true rfl ?_
      rintro ⟨memoryStep, hheld', -⟩
      exact hheld ⟨memoryStep, hheld'⟩
  | disk memoryStep diskStep step hmemory hnewest hlt hloads =>
      have hpos : 0 < step := hloads.1.1
      rw [announced, if_pos (lt_max_of_lt_right hpos), Option.some.injEq, eq_comm, max_eq_right_iff]
      constructor
      · rintro hle ⟨memoryStep', hheld', -, hno⟩
        rcases hmemory with hheld | ⟨-, hnone⟩
        · rw [hheld'.2.1, ← hheld.2.1] at hno
          exact hno step hle (loads_of_loadable hloads.1)
        · exact hnone ⟨memoryStep', hheld'⟩
      · intro hnot
        rcases hmemory with hheld | ⟨rfl, -⟩
        · by_contra hless
          refine hnot ⟨memoryStep, hheld, ⟨diskStep, hnewest.1, hlt⟩, fun later hle hlater => ?_⟩
          have hpos' := hheld.1
          have := hloads.2 (hfound hnewest (by omega) hlater)
          omega
        · omega
  | invalid memoryStep diskStep hmemory hnewest hlt hempty =>
      rcases hmemory with hheld | ⟨rfl, hnone⟩
      · rw [announced, if_pos hheld.1]
        refine iff_of_false (by simp) (not_not.mpr ?_)
        refine ⟨_, hheld, ⟨diskStep, hnewest.1, hlt⟩, fun later hle hlater => ?_⟩
        have hpos := hheld.1
        have hmem := hfound hnewest (by omega) hlater
        rw [hempty] at hmem
        exact hmem
      · refine iff_of_true rfl ?_
        rintro ⟨memoryStep', hheld', -⟩
        exact hnone ⟨memoryStep', hheld'⟩

/-- **What `find_latest` announces is loaded**, by both loaders, except when the
disk has overtaken the memory with generations that do not load. -/
theorem announced_step_loaded {δ δ' : Type} (hg : GroupedRanks ranks) {fuel : Nat}
    (hfuel : enoughRounds ranks ≤ fuel) (unflatten : Shard α ε κ → δ) (extra : κ → Option δ')
    {mode : Option String} {step : Int}
    (hfind : Together (fun i => findLatest (ranks i) fuel mode) fun _ => .ok step) :
    (Restores (fun i => load (ranks i) unflatten fuel mode) (announced step) ∧
      Restores (fun i => loadTensors (ranks i) extra fuel mode) (announced step)) ↔
    ¬ (Resolves ranks mode .latestGemini ∧ Overtaken ranks) := by
  have hpos : 0 < fuel := Nat.lt_of_lt_of_le (Nat.succ_pos _) hfuel
  obtain ⟨resolved, hresolves⟩ := resolves_of_findLatest hg hpos hfind
  rw [findLatest_of_resolves hresolves] at hfind
  simp only [load, loadTensors, recover_of_resolves hresolves]
  cases resolved with
  | recoveryVerified =>
      have hother : ¬ Resolves ranks mode .latestGemini := by
        intro h
        obtain ⟨i⟩ := ‹Nonempty ι›
        cases (hresolves i).symm.trans (h i)
      have houtcome : ∀ {ρ : Type} (result : Shard α ε κ → ρ),
          Restores (fun i => recoverIn (activated ranks .recoveryVerified i) result fuel
            .recoveryVerified) (announced step) := by
        intro ρ result
        obtain ⟨restored, hrestores, hannounces, hout⟩ :=
          recovery_verified (activated ranks .recoveryVerified) hg result hpos
        obtain ⟨i⟩ := ‹Nonempty ι›
        have hstep : step = restored.getD (-1) :=
          Except.ok.inj (congrFun (hfind.unique hannounces) i)
        have hrestored : restored = announced step := by
          rcases hout with ⟨⟨hverified, -⟩, rfl⟩ | ⟨-, rfl⟩
          · rw [hstep, Option.getD_some, announced, if_pos hverified]
          · rw [hstep]
            rfl
        rw [← hrestored]
        exact hrestores
      exact iff_of_true ⟨houtcome _, houtcome _⟩ fun h => hother h.1
  | latestGemini =>
      have houtcome : ∀ {ρ : Type} (result : Shard α ε κ → ρ),
          Restores (fun i => recoverIn (activated ranks .latestGemini i) result fuel
            .latestGemini) (announced step) ↔ ¬ Overtaken ranks := by
        intro ρ result
        obtain ⟨restored, announcedStep, hrestores, hannounces, hout⟩ :=
          recovery_latest (activated ranks .latestGemini) hg result hfuel
        obtain ⟨i⟩ := ‹Nonempty ι›
        obtain rfl : step = announcedStep :=
          Except.ok.inj (congrFun (hfind.unique hannounces) i)
        refine Iff.trans ⟨fun h => hrestores.unique h, fun h => ?_⟩ hout.restored_iff
        rw [← h]
        exact hrestores
      rw [houtcome, houtcome, and_self]
      exact not_congr ⟨fun h => ⟨hresolves, h⟩, fun h => h.2⟩

/-- A rank alone with the step 20 in memory, and a newer shard on disk. -/
def soleRank (intact : Bool) : RankState Bool Nat Unit Unit :=
  sampleState 1 0 [(30, intact)] (sampleStore 0)

theorem soleRank_grouped (intact : Bool) : GroupedRanks fun _ : Fin 1 => soleRank intact :=
  ⟨fun _ => rfl, fun _ => rfl⟩

theorem announced_step_loaded_sample :
    (Restores (fun _ : Fin 1 => load (soleRank true) id 31 (some "latest")) (some 30) ∧
      Restores (fun _ : Fin 1 => loadTensors (soleRank true) (fun _ => (none : Option Unit)) 31
        (some "latest")) (some 30)) ↔
    ¬ (Resolves (fun _ : Fin 1 => soleRank true) (some "latest") .latestGemini ∧
      Overtaken fun _ : Fin 1 => soleRank true) := by
  have hfind : findLatest (soleRank true) 31 (some "latest") = .ret 30 := rfl
  exact announced_step_loaded (soleRank_grouped true) (by decide) id _
    (.of_eq_ret fun _ => hfind)

/-- **A newer shard that does not load hides the step in memory**: `find_latest`
announces it, and `load` restores nothing. -/
theorem newer_invalid_shard :
    Together (fun _ : Fin 1 => findLatest (soleRank false) 31 (some "latest"))
        (fun _ => .ok 20) ∧
      ¬ Restores (fun _ : Fin 1 => load (soleRank false) id 31 (some "latest")) (some 20) := by
  have hfind : findLatest (soleRank false) 31 (some "latest") = .ret 20 := rfl
  have hload : load (soleRank false) id 31 (some "latest") = .ret (none,
      { soleRank false with status := (soleRank false).status.activate .latestGemini }) := rfl
  have hnone : Restores (fun _ : Fin 1 => load (soleRank false) id 31 (some "latest")) none :=
    ⟨_, .of_eq_ret fun _ => hload, fun _ => rfl⟩
  refine ⟨.of_eq_ret fun _ => hfind, fun h => ?_⟩
  cases hnone.unique h

/-! ## What the verified mode loads -/

/-- **What the verified mode loads is in the history of every rank** exactly
when the least verified pointer is, or cannot be loaded. -/
theorem verified_load_history {δ : Type} (hg : GroupedRanks ranks) {fuel : Nat} (hfuel : 0 < fuel)
    (unflatten : Shard α ε κ → δ) :
    (∀ step, Restores (fun i => load (ranks i) unflatten fuel (some "recovery_verified"))
        (some step) → ∀ i, (ranks i).status.read.isRecoveryVerified step = true) ↔
      ¬ Verifiable ranks ∨
        ∀ i, (ranks i).status.read.isRecoveryVerified (verifiedStep ranks) = true := by
  have hresolves : Resolves ranks (some "recovery_verified") .recoveryVerified := fun i => rfl
  have hverifiable : Verifiable (activated ranks .recoveryVerified) ↔ Verifiable ranks := by
    rw [Verifiable, verifiedStep_activated]
    rfl
  obtain ⟨restored, hrestores, -, hout⟩ :=
    recovery_verified (activated ranks .recoveryVerified) hg unflatten hfuel
  simp only [load, recover_of_resolves hresolves]
  rw [hverifiable, verifiedStep_activated] at hout
  rcases hout with ⟨hload, rfl⟩ | ⟨hno, rfl⟩
  · rw [or_iff_right (not_not.mpr hload)]
    constructor
    · intro h
      exact h _ hrestores
    · intro h step hstep
      rw [Option.some.inj (hstep.unique hrestores)]
      exact h
  · refine iff_of_true (fun step hstep => ?_) (.inl hno)
    cases hstep.unique hrestores

/-- Two ranks after a job that died twice between their status writes: at the
boundary 30 only the first one has verified the candidate 20, and at the
verified boundary 40 only the second one has written its status. -/
def laggingRank (rank : Fin 2) : RankState Bool Nat Unit Unit :=
  let store := ((sampleStore rank).persistBoundary 10 false).persistBoundary 20 false
  sampleState 2 rank [(10, true), (20, true), (30, true), (40, true)]
    (if rank.val = 0 then store.persistBoundary 30 false else store.persistBoundary 40 true)

theorem laggingRank_grouped : GroupedRanks laggingRank := ⟨fun _ => rfl, fun _ => rfl⟩

theorem verified_load_history_sample :
    (∀ step, Restores (fun i => load (laggingRank i) id 1 (some "recovery_verified"))
        (some step) → ∀ i, (laggingRank i).status.read.isRecoveryVerified step = true) ↔
      ¬ Verifiable laggingRank ∨
        ∀ i, (laggingRank i).status.read.isRecoveryVerified (verifiedStep laggingRank) = true :=
  verified_load_history laggingRank_grouped (by decide) id

theorem verifiedStep_laggingRank : verifiedStep laggingRank = 20 := by decide

/-- **A step that one rank has not verified is loaded.** -/
theorem unverified_step_loaded :
    Restores (fun i => load (laggingRank i) id 1 (some "recovery_verified")) (some 20) ∧
      (laggingRank 1).status.read.isRecoveryVerified 20 = false := by
  have hresolves : Resolves laggingRank (some "recovery_verified") .recoveryVerified :=
    fun i => rfl
  have hloads : Loads laggingRank 20 := Fin.forall_fin_two.mpr
    ⟨⟨(⟨[], ()⟩, [20]), rfl⟩, ⟨(⟨[], ()⟩, [20]), rfl⟩⟩
  obtain ⟨restored, hrestores, -, hout⟩ :=
    recovery_verified (activated laggingRank .recoveryVerified) laggingRank_grouped id
      Nat.one_pos
  refine ⟨?_, by decide⟩
  simp only [load, recover_of_resolves hresolves]
  rw [Verifiable, verifiedStep_activated, verifiedStep_laggingRank] at hout
  rcases hout with ⟨-, rfl⟩ | ⟨hno, -⟩
  · exact hrestores
  · exact absurd ⟨by decide, hloads⟩ hno

/-! ## The default mode -/

/-- The persisted modes are the latest one on all ranks, or on none. -/
def SamePersistedMode (ranks : ι → RankState σ α ε κ) : Prop :=
  ∀ i j, (ranks i).status.read.recoveryMode = "latest" ↔
    (ranks j).status.read.recoveryMode = "latest"

omit [Fintype ι] [Nonempty ι] in
theorem resolved_default (i : ι) :
    (ranks i).status.resolvedRecoveryMode none =
      if (ranks i).status.read.recoveryMode = "latest" then some .latestGemini
      else some .recoveryVerified := by
  simp only [CheckpointStatusStore.resolvedRecoveryMode, RecoveryMode.ofValue]
  split
  · rfl
  · split <;> rfl

omit [Fintype ι] in
theorem samePersistedMode_iff :
    SamePersistedMode ranks ↔ ∃ resolved, Resolves ranks none resolved := by
  obtain ⟨i₀⟩ := ‹Nonempty ι›
  constructor
  · intro h
    by_cases h₀ : (ranks i₀).status.read.recoveryMode = "latest"
    · refine ⟨.latestGemini, fun i => ?_⟩
      rw [resolved_default, if_pos ((h i₀ i).mp h₀)]
    · refine ⟨.recoveryVerified, fun i => ?_⟩
      rw [resolved_default, if_neg (mt (h i i₀).mp h₀)]
  · rintro ⟨resolved, hresolves⟩ i j
    have hi := hresolves i
    have hj := hresolves j
    rw [resolved_default] at hi hj
    by_cases hmi : (ranks i).status.read.recoveryMode = "latest" <;>
      by_cases hmj : (ranks j).status.read.recoveryMode = "latest"
    · exact iff_of_true hmi hmj
    · rw [if_pos hmi] at hi
      rw [if_neg hmj] at hj
      cases hi.trans hj.symm
    · rw [if_neg hmi] at hi
      rw [if_pos hmj] at hj
      cases hi.trans hj.symm
    · exact iff_of_false hmi hmj

/-- **Recovery in the default mode is collective** exactly when the persisted
modes are one: then all ranks resolve it, end `load` and `find_latest` after one
number of operations, and restore one step. -/
theorem default_mode_collective {δ : Type} (hg : GroupedRanks ranks) {fuel : Nat}
    (hfuel : enoughRounds ranks ≤ fuel) (unflatten : Shard α ε κ → δ) :
    SamePersistedMode ranks ↔
      (∃ resolved, Resolves ranks none resolved) ∧
      (∃ restored, Restores (fun i => load (ranks i) unflatten fuel none) restored) ∧
      ∃ step, Together (fun i => findLatest (ranks i) fuel none) fun _ => .ok step := by
  refine ⟨fun h => ?_, fun h => samePersistedMode_iff.mpr h.1⟩
  obtain ⟨resolved, hresolves⟩ := samePersistedMode_iff.mp h
  refine ⟨⟨resolved, hresolves⟩, ?_⟩
  simp only [load, recover_of_resolves hresolves, findLatest_of_resolves hresolves]
  cases resolved with
  | recoveryVerified =>
      obtain ⟨restored, hrestores, hannounces, -⟩ := recovery_verified
        (activated ranks .recoveryVerified) hg unflatten (Nat.lt_of_lt_of_le (Nat.succ_pos _) hfuel)
      exact ⟨⟨_, hrestores⟩, _, hannounces⟩
  | latestGemini =>
      obtain ⟨restored, step, hrestores, hannounces, -⟩ :=
        recovery_latest (activated ranks .latestGemini) hg unflatten hfuel
      exact ⟨⟨_, hrestores⟩, _, hannounces⟩

/-- Two ranks with the candidate 10; a rank that has rejected it has persisted the
verified mode. -/
def rejectingRank (rejected : Fin 2 → Bool) (rank : Fin 2) : RankState Bool Nat Unit Unit :=
  let store := (sampleStore rank).persistBoundary 10 false
  sampleState 2 rank [(10, true)] (if rejected rank then store.rejectCandidate else store)

theorem rejectingRank_grouped (rejected : Fin 2 → Bool) : GroupedRanks (rejectingRank rejected) :=
  ⟨fun _ => rfl, fun _ => rfl⟩

theorem default_mode_collective_sample :
    SamePersistedMode (rejectingRank fun _ => true) ↔
      (∃ resolved, Resolves (rejectingRank fun _ => true) none resolved) ∧
      (∃ restored, Restores (fun i => load (rejectingRank (fun _ => true) i) id 11 none)
        restored) ∧
      ∃ step, Together (fun i => findLatest (rejectingRank (fun _ => true) i) 11 none)
        fun _ => .ok step :=
  default_mode_collective (rejectingRank_grouped _) (by decide) id

/-- **A crash between two status writes splits the group**: the first rank has
rejected the candidate and the second has not, they resolve different modes, and
`find_latest` does not return on both. -/
theorem rejected_on_one_rank :
    ¬ (∃ resolved, Resolves (rejectingRank (· = 0)) none resolved) ∧
      ∀ fuel step, 0 < fuel →
        ¬ Together (fun i => findLatest (rejectingRank (· = 0) i) fuel none)
          fun _ => .ok step := by
  have hno : ¬ ∃ resolved, Resolves (rejectingRank (· = 0)) none resolved := by
    rintro ⟨resolved, h⟩
    cases Option.some.inj (h 0)
    cases Option.some.inj (h 1)
  refine ⟨hno, fun fuel step hfuel h => ?_⟩
  exact hno (resolves_of_findLatest (rejectingRank_grouped _) hfuel h)

end LmResiliency.Checkpointing
