/-
# Search — the newest generation that all ranks have

The recovery search of a group of ranks: each looks at its own folder, and a
sequence of minimum reductions brings a bound down until every rank has the
shard it names.  Neither the loops nor the reductions know a rank that is
ahead of the others, so what has to be shown is that all of them go round
alike: after one reduction they have the same bound, and a bound that is not
the answer gets smaller without passing a step that every rank has.

The main result is `disk_recovery_newest`, for any validity of the shards.  Steps
are below 2^63, and no folder changes while the search runs.
-/
import LmResiliency.Checkpointing.Disk

namespace LmResiliency.Checkpointing

variable {σ τ : Type}

/-- The loop of `_consistent_step`. -/
def consistentStepFrom (group : ProcessGroup) (disk : DiskSerializer σ τ) :
    Nat → Int → RankM Int
  | 0, _ => .halt
  | fuel + 1, candidate =>
      if 0 < candidate then do
        let localStep :=
          if disk.hasRank candidate disk.rank then candidate
          else disk.findLatestOnDisk (some candidate)
        let agreed ← collectiveMinStep group localStep
        if agreed = candidate then pure candidate
        else consistentStepFrom group disk fuel agreed
      else pure (-1)

def consistentStep (group : ProcessGroup) (disk : DiskSerializer σ τ) (fuel : Nat)
    (beforeStep : Option Int) : RankM Int := do
  let candidate ← collectiveMinStep group (disk.findLatestOnDisk beforeStep)
  consistentStepFrom group disk fuel candidate

def loadCollectivelyValidatedDiskShard (group : ProcessGroup) (disk : DiskSerializer σ τ)
    (step : Int) : RankM (Option τ) := do
  let loaded := (disk.load step).toOption
  let allValid ← collectiveMinStep group (if loaded.isSome then 1 else 0)
  if allValid = 1 then pure loaded else pure none

/-- `_load_latest_collectively_validated_disk_shard`; the loop starts at `step`. -/
def loadLatestCollectivelyValidatedDiskShard (group : ProcessGroup) (disk : DiskSerializer σ τ)
    (searchFuel : Nat) (allowOlder : Bool) : Nat → Int → RankM (Option (τ × Int))
  | 0, _ => .halt
  | fuel + 1, candidate =>
      if 0 < candidate then do
        let loaded ← loadCollectivelyValidatedDiskShard group disk candidate
        match loaded with
        | some shard => pure (some (shard, candidate))
        | none =>
            if allowOlder then do
              let next ← consistentStep group disk searchFuel (some candidate)
              loadLatestCollectivelyValidatedDiskShard group disk searchFuel allowOlder fuel next
            else pure none
      else pure none

/-! ## The ranks of one group -/

variable {ι : Type} [Fintype ι] [Nonempty ι] {group : ι → ProcessGroup}
  {disk : ι → DiskSerializer σ τ}

/-- The steps that every rank has, below a bound. -/
def Common (disk : ι → DiskSerializer σ τ) (beforeStep : Option Int) : Set Int :=
  fun step => 0 < step ∧ (∀ before ∈ beforeStep, step < before) ∧
    ∀ i, (disk i).hasRank step (disk i).rank = true

/-- The steps up to a start that load on every rank. -/
def Loadable (disk : ι → DiskSerializer σ τ) (start : Int) : Set Int :=
  fun step => 0 < step ∧ step ≤ start ∧ ∀ i, ∃ shard, (disk i).load step = .ok shard

/-- The greatest step of a set, or `-1` for the empty set. -/
def Newest (steps : Set Int) (step : Int) : Prop :=
  IsGreatest steps step ∨ (step = -1 ∧ steps = ∅)

theorem together_consistentStepFrom (hg : Grouped group)
    {beforeStep : Option Int} (fuel : Nat) :
    ∀ candidate, candidate.toNat < fuel →
      (∀ step ∈ Common disk beforeStep, step ≤ candidate) →
      (0 < candidate → ∀ before ∈ beforeStep, candidate < before) →
      ∃ step, Together (fun i => consistentStepFrom (group i) (disk i) fuel candidate)
        (fun _ => .ok step) ∧ Newest (Common disk beforeStep) step := by
  induction fuel with
  | zero =>
      intro candidate hfuel
      exact absurd hfuel (Nat.not_lt_zero _)
  | succ fuel ih =>
      intro candidate hfuel hle hbefore
      by_cases hpos : 0 < candidate
      · simp only [consistentStepFrom, if_pos hpos]
        -- what each rank contributes to the reduction
        let localStep : ι → Int := fun i =>
          if (disk i).hasRank candidate (disk i).rank then candidate
          else (disk i).findLatestOnDisk (some candidate)
        have hlocal_le : ∀ i, localStep i ≤ candidate := by
          intro i
          by_cases hi : (disk i).hasRank candidate (disk i).rank = true
          · exact (if_pos hi).le
          · exact (if_neg hi).le.trans ((disk i).findLatestOnDisk_lt hpos.le).le
        have hhas : ∀ i, localStep i = candidate →
            (disk i).hasRank candidate (disk i).rank = true := by
          intro i hi
          by_contra hno
          have hlt := (disk i).findLatestOnDisk_lt hpos.le
          rw [show localStep i = _ from if_neg hno] at hi
          omega
        by_cases hagreed : least localStep = candidate
        · refine ⟨candidate, ?_, .inl ⟨⟨hpos, hbefore hpos, fun i => ?_⟩, hle⟩⟩
          · refine (together_collectiveMinStep hg localStep).bind ?_
            simp only [if_pos hagreed]
            exact Together.pure
          · exact hhas i (le_antisymm (hlocal_le i) (hagreed ▸ least_le localStep i))
        · have hlt : least localStep < candidate := by
            obtain ⟨i, hi⟩ := exists_least localStep
            have := hlocal_le i
            omega
          -- the bound gets smaller, and no step that every rank has is passed
          have hnext : ∀ step ∈ Common disk beforeStep, step ≤ least localStep := by
            intro step hstep
            have hall := hstep.2.2
            have hne : step ≠ candidate := by
              rintro rfl
              refine hagreed (le_antisymm hlt.le (le_least_iff.mpr fun i => ?_))
              exact (if_pos (hall i)).ge
            have hsmall : step < candidate := lt_of_le_of_ne (hle step hstep) hne
            refine le_least_iff.mpr fun i => ?_
            by_cases hi : (disk i).hasRank candidate (disk i).rank = true
            · exact hsmall.le.trans (if_pos hi).ge
            · refine le_trans ?_ (if_neg hi).ge
              exact DiskSerializer.le_findLatestOnDisk hstep.1.le
                (fun before hmem => Option.some.inj hmem ▸ hsmall) (hall i)
          obtain ⟨step, htogether, hnewest⟩ := ih (least localStep) (by omega) hnext
            fun hpos' before hmem => hlt.trans (hbefore hpos before hmem)
          refine ⟨step, (together_collectiveMinStep hg localStep).bind ?_, hnewest⟩
          simp only [if_neg hagreed]
          exact htogether
      · simp only [consistentStepFrom, if_neg hpos]
        refine ⟨-1, Together.pure, .inr ⟨rfl, Set.eq_empty_of_forall_notMem ?_⟩⟩
        intro step hstep
        have := hle step hstep
        have := hstep.1
        omega

variable (disk) in
/-- **The consistent step** is the newest one that every rank has. -/
theorem together_consistentStep (hg : Grouped group)
    {beforeStep : Option Int} {fuel : Nat}
    (hfuel : (least fun i => (disk i).findLatestOnDisk beforeStep).toNat < fuel) :
    ∃ step, Together (fun i => consistentStep (group i) (disk i) fuel beforeStep)
      (fun _ => .ok step) ∧ Newest (Common disk beforeStep) step := by
  have hle : ∀ step ∈ Common disk beforeStep,
      step ≤ least fun i => (disk i).findLatestOnDisk beforeStep := by
    intro step hstep
    exact le_least_iff.mpr fun i => DiskSerializer.le_findLatestOnDisk hstep.1.le
      hstep.2.1 (hstep.2.2 i)
  have hbefore : 0 < (least fun i => (disk i).findLatestOnDisk beforeStep) →
      ∀ before ∈ beforeStep, (least fun i => (disk i).findLatestOnDisk beforeStep) < before := by
    intro hpos before hmem
    obtain ⟨i⟩ := ‹Nonempty ι›
    have hle := least_le (fun i => (disk i).findLatestOnDisk beforeStep) i
    rcases (disk i).findLatestOnDisk_cases beforeStep with h | h
    · omega
    · obtain rfl : beforeStep = some before := hmem
      exact hle.trans_lt (DiskSerializer.lt_of_mem_findStepsOnDisk h)
  obtain ⟨step, htogether, hnewest⟩ :=
    together_consistentStepFrom hg fuel _ hfuel hle hbefore
  exact ⟨step, (together_collectiveMinStep hg _).bind htogether, hnewest⟩

variable (disk) in
/-- One collective validation: every rank keeps its shard, or none does. -/
theorem together_loadCollectivelyValidated (hg : Grouped group) (step : Int) :
    (∃ shard : ι → τ, (∀ i, (disk i).load step = .ok (shard i)) ∧
      Together (fun i => loadCollectivelyValidatedDiskShard (group i) (disk i) step)
        fun i => .ok (some (shard i))) ∨
    (¬ (∀ i, ∃ shard, (disk i).load step = .ok shard)) ∧
      Together (fun i => loadCollectivelyValidatedDiskShard (group i) (disk i) step)
        fun _ => .ok none := by
  let vote : ι → Int := fun i => if ((disk i).load step).toOption.isSome then 1 else 0
  by_cases hall : ∀ i, ∃ shard, (disk i).load step = .ok shard
  · choose shard hshard using hall
    refine .inl ⟨shard, hshard, (together_collectiveMinStep hg vote).bind ?_⟩
    have hvote : vote = fun _ => 1 := by
      funext i
      simp only [vote, hshard i]
      rfl
    have hone : least vote = 1 := by
      rw [hvote]
      exact Finset.inf'_const _ _
    simp only [if_pos hone, hshard]
    exact Together.pure
  · refine .inr ⟨hall, (together_collectiveMinStep hg vote).bind ?_⟩
    obtain ⟨i, hi⟩ := not_forall.mp hall
    have hzero : vote i = 0 := by
      cases hload : (disk i).load step with
      | ok shard => exact absurd ⟨shard, hload⟩ hi
      | error e =>
          simp only [vote, hload]
          rfl
    have hne : least vote ≠ 1 := by
      have := least_le vote i
      omega
    simp only [if_neg hne]
    exact Together.pure

/-- What the collectively validated load returns to each rank. -/
def LoadedNewest (disk : ι → DiskSerializer σ τ) (start : Int)
    (loaded : ι → Option (τ × Int)) : Prop :=
  (∃ step, ∃ shard : ι → τ, IsGreatest (Loadable disk start) step ∧
      (∀ i, (disk i).load step = .ok (shard i)) ∧ loaded = fun i => some (shard i, step)) ∨
    Loadable disk start = ∅ ∧ loaded = fun _ => none

theorem together_loadLatest (hg : Grouped group) {start : Int}
    {searchFuel : Nat} (hsearch : start.toNat < searchFuel) (fuel : Nat) :
    ∀ candidate, candidate.toNat < fuel → candidate ≤ start →
      (∀ step ∈ Loadable disk start, step ≤ candidate) →
      ∃ loaded, Together (fun i => loadLatestCollectivelyValidatedDiskShard (group i) (disk i)
        searchFuel true fuel candidate) (fun i => .ok (loaded i)) ∧
        LoadedNewest disk start loaded := by
  induction fuel with
  | zero =>
      intro candidate hfuel
      exact absurd hfuel (Nat.not_lt_zero _)
  | succ fuel ih =>
      intro candidate hfuel hstart hle
      by_cases hpos : 0 < candidate
      · simp only [loadLatestCollectivelyValidatedDiskShard, if_pos hpos]
        rcases together_loadCollectivelyValidated disk hg candidate with
          ⟨shard, hshard, htogether⟩ | ⟨hno, htogether⟩
        · refine ⟨fun i => some (shard i, candidate), htogether.bind Together.pure, Or.inl
            ⟨candidate, shard, ⟨⟨hpos, hstart, fun i => ⟨shard i, hshard i⟩⟩, hle⟩, hshard, rfl⟩⟩
        · -- the search for an older generation ends below the rejected one
          have hlatest : (least fun i => (disk i).findLatestOnDisk (some candidate)) < candidate := by
            obtain ⟨i⟩ := ‹Nonempty ι›
            exact (least_le _ i).trans_lt ((disk i).findLatestOnDisk_lt hpos.le)
          have henough : (least fun i => (disk i).findLatestOnDisk (some candidate)).toNat <
              searchFuel := by omega
          obtain ⟨next, hnext, hnewest⟩ := together_consistentStep disk hg henough
          have hsmaller : next < candidate := by
            rcases hnewest with hgreatest | ⟨rfl, -⟩
            · exact hgreatest.1.2.1 candidate rfl
            · omega
          have hpassed : ∀ step ∈ Loadable disk start, step ≤ next := by
            intro step hstep
            have hne : step ≠ candidate := by
              rintro rfl
              exact hno hstep.2.2
            have hcommon : step ∈ Common disk (some candidate) := by
              refine ⟨hstep.1, fun before hmem => ?_, fun i => ?_⟩
              · cases hmem
                exact lt_of_le_of_ne (hle step hstep) hne
              · obtain ⟨shard, hshard⟩ := hstep.2.2 i
                exact DiskSerializer.hasRank_of_load hshard
            rcases hnewest with hgreatest | ⟨-, hempty⟩
            · exact hgreatest.2 hcommon
            · rw [hempty] at hcommon
              exact hcommon.elim
          obtain ⟨loaded, hloaded, hspec⟩ := ih next (by omega) (by omega) hpassed
          exact ⟨loaded, htogether.bind (hnext.bind hloaded), hspec⟩
      · simp only [loadLatestCollectivelyValidatedDiskShard, if_neg hpos]
        refine ⟨fun _ => none, Together.pure, Or.inr ⟨Set.eq_empty_of_forall_notMem ?_, rfl⟩⟩
        intro step hstep
        have := hle step hstep
        have := hstep.1
        omega

/-- **Recovery from disk.**  In every group of ranks, whatever each of them has
on disk, and whichever of its shards load: the search ends on all ranks, after
one number of collective operations, with the newest step below the bound that
every rank has, or with `-1`; and the collectively validated load ends on all
ranks with each rank's own shard of the newest step, not above the start, that
loads on every rank, or with `none` everywhere. -/
theorem disk_recovery_newest (hg : Grouped group) :
    (∀ beforeStep, ∃ enough, ∀ fuel, enough ≤ fuel → ∃ step,
      Together (fun i => consistentStep (group i) (disk i) fuel beforeStep)
        (fun _ => .ok step) ∧ Newest (Common disk beforeStep) step) ∧
    (∀ start, ∃ enough, ∀ searchFuel fuel, enough ≤ searchFuel → enough ≤ fuel → ∃ loaded,
      Together (fun i => loadLatestCollectivelyValidatedDiskShard (group i) (disk i)
        searchFuel true fuel start) (fun i => .ok (loaded i)) ∧
        LoadedNewest disk start loaded) := by
  constructor
  · intro beforeStep
    refine ⟨(least fun i => (disk i).findLatestOnDisk beforeStep).toNat + 1, fun fuel hfuel => ?_⟩
    exact together_consistentStep disk hg hfuel
  · intro start
    refine ⟨start.toNat + 1, fun searchFuel fuel hsearch hfuel => ?_⟩
    exact together_loadLatest hg hsearch fuel start hfuel (le_refl start)
      fun step hstep => hstep.2.1

/-! ## Two ranks, one of them with a damaged shard -/

def sampleGroup : ProcessGroup := ⟨true, 2⟩

/-- A rank with the steps 10 and 20; a shard file says whether it is intact. -/
def sampleDisk (rank : Fin 2) : DiskSerializer Bool Int where
  folder := [.dir (stepName 10) [(rank, true)], .dir (stepName 20) [(rank, rank = 0)]]
  rank := rank
  decode step _ intact := if intact then .ok step else .error .checksum

theorem disk_recovery_newest_sample :
    ∃ enough, ∀ searchFuel fuel, enough ≤ searchFuel → enough ≤ fuel → ∃ loaded,
      Together (fun i => loadLatestCollectivelyValidatedDiskShard sampleGroup (sampleDisk i)
        searchFuel true fuel 20) (fun i => .ok (loaded i)) ∧
        LoadedNewest sampleDisk 20 loaded := by
  have hg : Grouped fun _ : Fin 2 => sampleGroup := ⟨fun _ => rfl, fun _ => rfl⟩
  exact (disk_recovery_newest hg).2 20

end LmResiliency.Checkpointing
