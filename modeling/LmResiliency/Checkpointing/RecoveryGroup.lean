/-
# RecoveryGroup — the ranks of one job recover together

What the recovery methods do when every rank of a group calls them in one
mode.  Each part ends on all ranks after one number of collective
operations; what it returns is read off the slots, the shards and the
statuses of all of them.
-/
import LmResiliency.Checkpointing.Recovery

namespace LmResiliency.Checkpointing

open Lockstep

variable {σ α ε κ ρ : Type} {ι : Type} [Fintype ι] [Nonempty ι]
  {ranks : ι → RankState σ α ε κ}

/-! ## What the ranks have -/

/-- The step that the ranks find in memory: the least of the newest ones, when
all of them hold it. -/
def HeldInMemory (ranks : ι → RankState σ α ε κ) (step : Int) : Prop :=
  0 < step ∧ step = least (fun i => (ranks i).memory.latestStep) ∧
    ∀ i, ((ranks i).memory.slotByStep step).isSome = true

/-- The step that the ranks find in memory, or `-1`. -/
def MemoryStep (ranks : ι → RankState σ α ε κ) (step : Int) : Prop :=
  HeldInMemory ranks step ∨ step = -1 ∧ ¬ ∃ step, HeldInMemory ranks step

/-- The shards of a step load on every rank. -/
def Loads (ranks : ι → RankState σ α ε κ) (step : Int) : Prop :=
  ∀ i, ∃ shard, (ranks i).disk.load step = .ok shard

/-- The least verified pointer; a rank without its shard has none. -/
def verifiedStep (ranks : ι → RankState σ α ε κ) : Int :=
  least fun i => localVerifiedStep (ranks i)

/-- Enough rounds for every search on disk. -/
def enoughRounds (ranks : ι → RankState σ α ε κ) : Nat :=
  (least fun i => (ranks i).disk.findLatestOnDisk none).toNat + 1

/-- All ranks of a group. -/
abbrev GroupedRanks (ranks : ι → RankState σ α ε κ) : Prop :=
  Grouped fun i => (ranks i).group

/-! ## The steps -/

theorem together_consistentMemoryStep (hg : GroupedRanks ranks) :
    ∃ step, Together (fun i => consistentMemoryStep (ranks i)) (fun _ => .ok step) ∧
      MemoryStep ranks step := by
  have hfirst := together_collectiveMinStep hg fun i => (ranks i).memory.latestStep
  generalize hstep : (least fun i => (ranks i).memory.latestStep) = step at hfirst
  by_cases hpos : 0 < step
  · let vote : ι → Int := fun i => if ((ranks i).memory.slotByStep step).isSome then 1 else 0
    have hsecond := together_collectiveMinStep hg vote
    by_cases hheld : ∀ i, ((ranks i).memory.slotByStep step).isSome = true
    · have hvote : least vote = 1 := by
        simp only [vote, hheld, if_true]
        exact Finset.inf'_const _ _
      refine ⟨step, hfirst.bind ?_, .inl ⟨hpos, hstep.symm, hheld⟩⟩
      simp only [memoryVote, if_neg (Int.not_le.mpr hpos)]
      refine hsecond.bind ?_
      simp only [if_pos hvote]
      exact Together.pure
    · obtain ⟨i, hi⟩ := not_forall.mp hheld
      have hvote : least vote ≠ 1 := by
        have hle := least_le vote i
        simp only [vote, if_neg hi] at hle
        intro h
        simp only [vote] at h
        omega
      refine ⟨-1, hfirst.bind ?_, .inr ⟨rfl, ?_⟩⟩
      · simp only [memoryVote, if_neg (Int.not_le.mpr hpos)]
        refine hsecond.bind ?_
        simp only [if_neg hvote]
        exact Together.pure
      · rintro ⟨held, -, heq, hall⟩
        rw [heq, hstep] at hall
        exact hheld hall
  · refine ⟨-1, hfirst.bind ?_, .inr ⟨rfl, ?_⟩⟩
    · simp only [memoryVote, if_pos (Int.not_lt.mp hpos)]
      exact Together.pure
    · rintro ⟨held, hpos', heq, -⟩
      rw [heq, hstep] at hpos'
      exact hpos hpos'

theorem together_verifiedDiskStep (hg : GroupedRanks ranks) :
    Together (fun i => verifiedDiskStep (ranks i)) fun _ => .ok (verifiedStep ranks) :=
  together_collectiveMinStep hg _

theorem together_recoverySteps_verified (hg : GroupedRanks ranks) (fuel : Nat) :
    Together (fun i => recoverySteps (ranks i) fuel .recoveryVerified)
      fun _ => .ok (-1, verifiedStep ranks) :=
  (together_verifiedDiskStep hg).bind Together.pure

theorem together_recoverySteps_latest (hg : GroupedRanks ranks) {fuel : Nat}
    (hfuel : enoughRounds ranks ≤ fuel) :
    ∃ memoryStep diskStep, Together (fun i => recoverySteps (ranks i) fuel .latestGemini)
      (fun _ => .ok (memoryStep, diskStep)) ∧ MemoryStep ranks memoryStep ∧
        Newest (Common (fun i => (ranks i).disk) none) diskStep := by
  obtain ⟨memoryStep, hmemory, hheld⟩ := together_consistentMemoryStep hg
  obtain ⟨diskStep, hdisk, hnewest⟩ :=
    together_consistentStep (fun i => (ranks i).disk) hg hfuel
  exact ⟨memoryStep, diskStep, hmemory.bind (hdisk.bind Together.pure), hheld, hnewest⟩

/-! ## The shards -/

omit [Fintype ι] [Nonempty ι] in
theorem mem_common_of_loads {step : Int} (hpos : 0 < step) (h : Loads ranks step) :
    step ∈ Common (fun i => (ranks i).disk) none := by
  refine ⟨hpos, by simp, fun i => ?_⟩
  obtain ⟨shard, hshard⟩ := h i
  exact DiskSerializer.hasRank_of_load hshard

theorem together_loadDisk_latest (hg : GroupedRanks ranks) {fuel : Nat}
    (hfuel : enoughRounds ranks ≤ fuel) {diskStep : Int}
    (hdisk : Newest (Common (fun i => (ranks i).disk) none) diskStep) :
    ∃ loaded, Together (fun i => loadDisk (ranks i) fuel .latestGemini diskStep)
      (fun i => .ok (loaded i)) ∧ LoadedNewest (fun i => (ranks i).disk) diskStep loaded := by
  have hle : diskStep ≤ least fun i => (ranks i).disk.findLatestOnDisk none := by
    refine le_least_iff.mpr fun i => ?_
    rcases hdisk with ⟨⟨hpos, hbefore, hall⟩, -⟩ | ⟨rfl, -⟩
    · exact DiskSerializer.le_findLatestOnDisk hpos.le hbefore (hall i)
    · rcases (ranks i).disk.findLatestOnDisk_cases none with h | h
      · exact h.ge
      · exact (by decide : (-1 : Int) ≤ 0).trans (DiskSerializer.nonneg_of_mem_findStepsOnDisk h)
  have hrounds : diskStep.toNat < fuel := by
    rw [enoughRounds] at hfuel
    omega
  exact together_loadLatest hg hrounds fuel diskStep hrounds le_rfl fun step hstep => hstep.2.1

/-- The one generation that is tried in the verified mode: every rank has its
shard of it, or none. -/
theorem together_loadDisk_verified (hg : GroupedRanks ranks) {fuel : Nat} (hfuel : 0 < fuel)
    (step : Int) :
    (∃ shard : ι → Shard α ε κ, 0 < step ∧ (∀ i, (ranks i).disk.load step = .ok (shard i)) ∧
      Together (fun i => loadDisk (ranks i) fuel .recoveryVerified step)
        fun i => .ok (some (shard i, step))) ∨
    ¬ (0 < step ∧ Loads ranks step) ∧
      Together (fun i => loadDisk (ranks i) fuel .recoveryVerified step) fun _ => .ok none := by
  obtain ⟨rounds, rfl⟩ := Nat.exists_eq_succ_of_ne_zero hfuel.ne'
  by_cases hpos : 0 < step
  · simp only [loadDisk, loadLatestCollectivelyValidatedDiskShard, if_pos hpos]
    rcases together_loadCollectivelyValidated (fun i => (ranks i).disk) hg step with
      ⟨shard, hshard, htogether⟩ | ⟨hno, htogether⟩
    · exact .inl ⟨shard, hpos, hshard, htogether.bind Together.pure⟩
    · refine .inr ⟨fun h => hno h.2, htogether.bind ?_⟩
      exact Together.pure
  · simp only [loadDisk, loadLatestCollectivelyValidatedDiskShard, if_neg hpos]
    exact .inr ⟨fun h => hpos h.1, Together.pure⟩

/-! ## What is announced and what is loaded -/

/-- The ranks load one step together, or nothing. -/
def Restores (ps : ι → RankM (Option (ρ × Int) × RankState σ α ε κ)) (step : Option Int) :
    Prop :=
  ∃ out : ι → Option (ρ × Int) × RankState σ α ε κ,
    Together ps (fun i => .ok (out i)) ∧ ∀ i, (out i).1.map Prod.snd = step

theorem Together.unique {β : Type} {ps : ι → RankM β} {as bs : ι → Except CheckpointError β}
    (h : Together ps as) (h' : Together ps bs) : as = bs := by
  obtain ⟨_, hn⟩ := h
  obtain ⟨_, hm⟩ := h'
  exact (hn.unique hm).2

theorem Restores.unique {ps : ι → RankM (Option (ρ × Int) × RankState σ α ε κ)}
    {step step' : Option Int} (h : Restores ps step) (h' : Restores ps step') : step = step' := by
  obtain ⟨out, hout, hstep⟩ := h
  obtain ⟨out', hout', hstep'⟩ := h'
  obtain ⟨i⟩ := ‹Nonempty ι›
  have heq := congrFun (hout.unique hout') i
  rw [← hstep i, ← hstep' i, Except.ok.inj heq]

/-- What `find_latest` announces. -/
def announcedOf (memoryStep : Int) (loaded : Option Int) : Int :=
  if 0 < max memoryStep (loaded.getD (-1)) then max memoryStep (loaded.getD (-1)) else -1

section Parts

variable {fuel : Nat} {resolved : RecoveryMode} {memoryStep diskStep : Int}
  (result : Shard α ε κ → ρ)

theorem restores_nothing
    (hsteps : Together (fun i => recoverySteps (ranks i) fuel resolved)
      fun _ => .ok (memoryStep, diskStep))
    (hmemory : memoryStep ≤ 0) (hdisk : diskStep ≤ 0) :
    Restores (fun i => recoverIn (ranks i) result fuel resolved) none := by
  refine ⟨fun i => (none, ranks i), hsteps.bind ?_, fun i => rfl⟩
  simp only [if_pos (And.intro hmemory hdisk)]
  exact Together.pure

theorem restores_memory
    (hsteps : Together (fun i => recoverySteps (ranks i) fuel resolved)
      fun _ => .ok (memoryStep, diskStep))
    (hpos : 0 < memoryStep) (hle : diskStep ≤ memoryStep)
    (hheld : ∀ i, ((ranks i).memory.slotByStep memoryStep).isSome = true) :
    Restores (fun i => recoverIn (ranks i) result fuel resolved) (some memoryStep) := by
  have hslots : ∀ i, ∃ shard, (ranks i).memory.slotByStep memoryStep = some shard :=
    fun i => Option.isSome_iff_exists.mp (hheld i)
  choose shard hshard using hslots
  refine ⟨fun i => (some (result (shard i), memoryStep), ranks i), hsteps.bind ?_, fun i => rfl⟩
  have hsome : ¬ (memoryStep ≤ 0 ∧ diskStep ≤ 0) := fun h => Int.not_le.mpr hpos h.1
  simp only [if_neg hsome, preferredShard, if_pos (And.intro hle hpos), hshard]
  exact Together.pure

theorem restores_disk
    (hsteps : Together (fun i => recoverySteps (ranks i) fuel resolved)
      fun _ => .ok (memoryStep, diskStep))
    (hpos : 0 < diskStep) (hlt : memoryStep < diskStep)
    {loaded : ι → Option (Shard α ε κ × Int)} {step : Option Int}
    (hload : Together (fun i => loadDisk (ranks i) fuel resolved diskStep)
      fun i => .ok (loaded i)) (hstep : ∀ i, (loaded i).map Prod.snd = step) :
    Restores (fun i => recoverIn (ranks i) result fuel resolved) step := by
  refine ⟨fun i => loadedFromDisk (ranks i) result (loaded i), hsteps.bind ?_, fun i => ?_⟩
  · have hsome : ¬ (memoryStep ≤ 0 ∧ diskStep ≤ 0) := fun h => Int.not_le.mpr hpos h.2
    have hpreferred : ¬ (diskStep ≤ memoryStep ∧ 0 < memoryStep) :=
      fun h => Int.not_le.mpr hlt h.1
    simp only [if_neg hsome, preferredShard, if_neg hpreferred, recoverFromDisk,
      if_neg (Int.not_le.mpr hpos)]
    exact hload.bind Together.pure
  · show (loadedFromDisk (ranks i) result (loaded i)).1.map Prod.snd = step
    rw [← hstep i]
    cases loaded i <;> rfl

theorem announces_disk
    (hsteps : Together (fun i => recoverySteps (ranks i) fuel resolved)
      fun _ => .ok (memoryStep, diskStep))
    (hlt : memoryStep < diskStep)
    {loaded : ι → Option (Shard α ε κ × Int)} {step : Option Int}
    (hload : Together (fun i => loadDisk (ranks i) fuel resolved diskStep)
      fun i => .ok (loaded i)) (hstep : ∀ i, (loaded i).map Prod.snd = step) :
    Together (fun i => findLatestIn (ranks i) fuel resolved)
      fun _ => .ok (announcedOf memoryStep step) := by
  refine hsteps.bind ?_
  simp only [announce, if_pos hlt]
  refine hload.bind ?_
  simp only [hstep]
  exact Together.pure

theorem announces_memory
    (hsteps : Together (fun i => recoverySteps (ranks i) fuel resolved)
      fun _ => .ok (memoryStep, diskStep)) (hle : diskStep ≤ memoryStep) :
    Together (fun i => findLatestIn (ranks i) fuel resolved)
      fun _ => .ok (announcedOf memoryStep (some diskStep)) := by
  refine hsteps.bind ?_
  simp only [announce, if_neg (Int.not_lt.mpr hle)]
  exact Together.pure

end Parts

/-! ## The verified mode -/

/-- The least verified pointer can be loaded. -/
def Verifiable (ranks : ι → RankState σ α ε κ) : Prop :=
  0 < verifiedStep ranks ∧ Loads ranks (verifiedStep ranks)

variable (ranks) in
/-- Recovery in the verified mode ends with the pointer, when it can be
loaded, and else with nothing. -/
theorem recovery_verified (hg : GroupedRanks ranks) (result : Shard α ε κ → ρ) {fuel : Nat}
    (hfuel : 0 < fuel) :
    ∃ restored : Option Int,
      Restores (fun i => recoverIn (ranks i) result fuel .recoveryVerified) restored ∧
      Together (fun i => findLatestIn (ranks i) fuel .recoveryVerified)
        (fun _ => .ok (restored.getD (-1))) ∧
      (Verifiable ranks ∧ restored = some (verifiedStep ranks) ∨
        ¬ Verifiable ranks ∧ restored = none) := by
  have hsteps := together_recoverySteps_verified hg fuel
  by_cases hpos : 0 < verifiedStep ranks
  · have hlt : -1 < verifiedStep ranks := by omega
    rcases together_loadDisk_verified hg hfuel (verifiedStep ranks) with
      ⟨shard, -, hshard, hload⟩ | ⟨hno, hload⟩
    · refine ⟨_, restores_disk result hsteps hpos hlt hload fun i => rfl, ?_,
        .inl ⟨⟨hpos, fun i => ⟨_, hshard i⟩⟩, rfl⟩⟩
      have hfind : Together (fun i => findLatestIn (ranks i) fuel .recoveryVerified)
          fun _ => .ok (announcedOf (-1) (some (verifiedStep ranks))) :=
        announces_disk hsteps hlt hload fun i => rfl
      have hannounced : announcedOf (-1) (some (verifiedStep ranks)) = verifiedStep ranks := by
        simp only [announcedOf, Option.getD_some]
        omega
      rw [hannounced] at hfind
      exact hfind
    · exact ⟨none, restores_disk result hsteps hpos hlt hload fun i => rfl,
        announces_disk hsteps hlt hload fun i => rfl, .inr ⟨hno, rfl⟩⟩
  · have hrest := restores_nothing result hsteps (by decide) (Int.not_lt.mp hpos)
    refine ⟨none, hrest, ?_, .inr ⟨fun h => hpos h.1, rfl⟩⟩
    by_cases hlt : -1 < verifiedStep ranks
    · rcases together_loadDisk_verified hg hfuel (verifiedStep ranks) with
        ⟨shard, hpos', -⟩ | ⟨-, hload⟩
      · exact absurd hpos' hpos
      · exact announces_disk hsteps hlt hload fun i => rfl
    · have hfind := announces_memory hsteps (Int.not_lt.mp hlt)
      have hannounced : announcedOf (-1) (some (verifiedStep ranks)) = -1 := by
        simp only [announcedOf, Option.getD_some]
        omega
      rw [hannounced] at hfind
      exact hfind

/-! ## The latest mode -/

/-- How recovery in the latest mode ends: what is loaded, and what is announced. -/
inductive LatestOutcome (ranks : ι → RankState σ α ε κ) : Option Int → Int → Prop where
  /-- The step in memory is the newest one. -/
  | memory (memoryStep : Int) (hheld : HeldInMemory ranks memoryStep)
      (hnewest : ∀ step ∈ Common (fun i => (ranks i).disk) none, step ≤ memoryStep) :
      LatestOutcome ranks (some memoryStep) memoryStep
  | nothing (hheld : ¬ ∃ step, HeldInMemory ranks step)
      (hempty : Common (fun i => (ranks i).disk) none = ∅) : LatestOutcome ranks none (-1)
  /-- A newer one on disk is loaded, or an older one in its place. -/
  | disk (memoryStep diskStep step : Int) (hmemory : MemoryStep ranks memoryStep)
      (hnewest : IsGreatest (Common (fun i => (ranks i).disk) none) diskStep)
      (hlt : memoryStep < diskStep)
      (hloads : IsGreatest (Loadable (fun i => (ranks i).disk) diskStep) step) :
      LatestOutcome ranks (some step) (max memoryStep step)
  /-- No generation on disk can be loaded. -/
  | invalid (memoryStep diskStep : Int) (hmemory : MemoryStep ranks memoryStep)
      (hnewest : IsGreatest (Common (fun i => (ranks i).disk) none) diskStep)
      (hlt : memoryStep < diskStep)
      (hempty : Loadable (fun i => (ranks i).disk) diskStep = ∅) :
      LatestOutcome ranks none memoryStep

variable (ranks) in
/-- **Recovery in the latest mode.** -/
theorem recovery_latest (hg : GroupedRanks ranks) (result : Shard α ε κ → ρ) {fuel : Nat}
    (hfuel : enoughRounds ranks ≤ fuel) :
    ∃ (restored : Option Int) (announced : Int),
      Restores (fun i => recoverIn (ranks i) result fuel .latestGemini) restored ∧
      Together (fun i => findLatestIn (ranks i) fuel .latestGemini) (fun _ => .ok announced) ∧
      LatestOutcome ranks restored announced := by
  obtain ⟨memoryStep, diskStep, hsteps, hmemory, hdisk⟩ := together_recoverySteps_latest hg hfuel
  have hge : -1 ≤ memoryStep ∧ memoryStep ≠ 0 := by
    rcases hmemory with ⟨hpos, -, -⟩ | ⟨rfl, -⟩
    · omega
    · decide
  by_cases hlt : memoryStep < diskStep
  · -- the disk is ahead of the memory
    have hpos : 0 < diskStep := by
      rcases hdisk with hnewest | ⟨rfl, -⟩
      · exact hnewest.1.1
      · omega
    have hnewest : IsGreatest (Common (fun i => (ranks i).disk) none) diskStep := by
      rcases hdisk with hnewest | ⟨rfl, -⟩
      · exact hnewest
      · omega
    obtain ⟨loaded, hload, hloaded⟩ := together_loadDisk_latest hg hfuel hdisk
    rcases hloaded with ⟨step, shard, hgreatest, -, rfl⟩ | ⟨hempty, rfl⟩
    · have hfind : Together (fun i => findLatestIn (ranks i) fuel .latestGemini)
          fun _ => .ok (announcedOf memoryStep (some step)) :=
        announces_disk hsteps hlt hload fun i => rfl
      have hannounced : announcedOf memoryStep (some step) = max memoryStep step := by
        have := hgreatest.1.1
        simp only [announcedOf, Option.getD_some]
        omega
      rw [hannounced] at hfind
      exact ⟨_, _, restores_disk result hsteps hpos hlt hload fun i => rfl, hfind,
        .disk _ _ _ hmemory hnewest hlt hgreatest⟩
    · have hfind : Together (fun i => findLatestIn (ranks i) fuel .latestGemini)
          fun _ => .ok (announcedOf memoryStep none) :=
        announces_disk hsteps hlt hload fun i => rfl
      have hannounced : announcedOf memoryStep none = memoryStep := by
        simp only [announcedOf, Option.getD_none]
        omega
      rw [hannounced] at hfind
      exact ⟨_, _, restores_disk result hsteps hpos hlt hload fun i => rfl, hfind,
        .invalid _ _ hmemory hnewest hlt hempty⟩
  · have hle := Int.not_lt.mp hlt
    have hfind := announces_memory hsteps hle
    have hannounced : announcedOf memoryStep (some diskStep) = memoryStep := by
      simp only [announcedOf, Option.getD_some]
      omega
    rw [hannounced] at hfind
    have hcommon : ∀ step ∈ Common (fun i => (ranks i).disk) none, step ≤ memoryStep := by
      intro step hstep
      rcases hdisk with hnewest | ⟨-, hempty⟩
      · exact (hnewest.2 hstep).trans hle
      · rw [hempty] at hstep
        exact hstep.elim
    rcases hmemory with hheld | ⟨rfl, hnone⟩
    · exact ⟨_, _, restores_memory result hsteps hheld.1 hle hheld.2.2, hfind,
        .memory _ hheld hcommon⟩
    · refine ⟨_, _, restores_nothing result hsteps (by decide) (by omega), hfind,
        .nothing hnone (Set.eq_empty_of_forall_notMem fun step hstep => ?_)⟩
      have := hcommon step hstep
      have := hstep.1
      omega

end LmResiliency.Checkpointing
