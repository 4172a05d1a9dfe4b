/-
# ExactRecovery — loading the step that the manager selected

`load` and `load_tensors` with an explicit step.  Every rank checks its own
request, then the ranks compare the least and the greatest of what they were
asked for, vote on the recovery mode that each has persisted, and vote on the
shard that each has loaded.  A rank whose own check fails takes part all the
same, with values that make the others reject the request.

The comparison is a reduction of 64-bit integers.  A step beyond their range
passes the check of its rank and raises where the tensor is built, before the
rank has called anything.

The main result, `agreeExactRecoveryRequest_exact`, says that such a step is all
that splits the ranks.
-/
import LmResiliency.Checkpointing.RecoveryAgreement

namespace LmResiliency.Checkpointing

open Lockstep

/-! ## The code -/

/-- The `step` of a caller. -/
inductive StepArgument where
  | int (step : Int)
  | bool (value : Bool)
  | other

/-- What one rank is asked for, and what its status file raises when it is read for the mode,
when the decision is persisted, and when it is read for the history. -/
structure ExactRequest where
  step : StepArgument
  mode : Option String
  resolveFails : Option CheckpointError := none
  activateFails : Option CheckpointError := none
  verifyFails : Option CheckpointError := none

section Methods

variable {σ α ε κ : Type} (self : RankState σ α ε κ) (request : ExactRequest)

/-- What is wrong with the step. -/
def stepError : CheckpointError := .valueError "checkpoint step must be a positive integer"

/-- The check of a rank's own request. -/
def checkedRequest : Except CheckpointError (Int × RecoveryMode) :=
  match request.step with
  | .int step =>
      if step < 1 then .error stepError
      else
        match request.mode, request.resolveFails with
        | none, some e => .error e
        | mode, _ =>
            match self.status.resolvedRecoveryMode mode with
            | none => .error (unknownMode (mode.getD ""))
            | some resolved => .ok (step, resolved)
  | _ => .error stepError

def modeCode : RecoveryMode → Int
  | .latestGemini => 0
  | .recoveryVerified => 1

/-- What a rank contributes to the comparison. -/
def requestValues : Fin 3 → Int :=
  match checkedRequest self request with
  | .ok (step, resolved) => ![1, step, modeCode resolved]
  | .error _ => ![0, -1, -1]

/-- `torch.tensor(values, dtype=torch.int64)` is possible. -/
def Int64 (value : Int) : Prop := -2 ^ 63 ≤ value ∧ value < 2 ^ 63

instance (value : Int) : Decidable (Int64 value) := inferInstanceAs (Decidable (_ ∧ _))

def collectiveIntBounds (group : ProcessGroup) {n : Nat} (values : Fin n → Int) :
    RankM ((Fin n → Int) × (Fin n → Int)) :=
  if ¬ group.initialized ∨ group.worldSize = 1 then pure (values, values)
  else if ¬ ∀ j, Int64 (values j) then
    .raise (.valueError "Overflow when unpacking long long")
  else do
    let lower ← allReduce .min values
    let upper ← allReduce .max values
    pure (lower, upper)

/-- `_activate_recovery_mode_collectively`, with a mode that was resolved. -/
def activateRecoveryModeCollectively (mode : RecoveryMode) :
    RankM (Option RecoveryMode × RankState σ α ε κ) := do
  let resolved := if request.activateFails.isSome then none else some mode
  let activated := match resolved with
    | none => self
    | some mode => { self with status := self.status.activate mode }
  let vote ← collectiveMinStep self.group (if resolved.isSome then 1 else 0)
  if vote = 1 then pure (resolved, activated) else pure (none, activated)

/-- `_agree_exact_recovery_request`, from the comparison on. -/
def decideRequest (lower upper : Fin 3 → Int) :
    RankM (Option (Int × RecoveryMode) × RankState σ α ε κ) :=
  if lower 0 ≠ 1 ∨ upper 0 ≠ 1 then
    if ¬ self.group.initialized ∨ self.group.worldSize = 1 then
      match checkedRequest self request with
      | .error e => .raise e
      | .ok _ => .raise (.runtimeError "AssertionError")
    else
      .raise (.runtimeError "checkpoint ranks supplied an invalid exact recovery request")
  else if lower 1 ≠ upper 1 ∨ lower 2 ≠ upper 2 then
    .raise (.runtimeError
      "checkpoint ranks disagree on the manager-selected recovery step or mode")
  else do
    let agreedMode := if lower 2 = 0 then RecoveryMode.latestGemini else .recoveryVerified
    let (activated, self) ← activateRecoveryModeCollectively self request agreedMode
    match activated with
    | none => pure (none, self)
    | some mode => pure (some (lower 1, mode), self)

def agreeExactRecoveryRequest : RankM (Option (Int × RecoveryMode) × RankState σ α ε κ) := do
  let (lower, upper) ← collectiveIntBounds self.group (requestValues self request)
  decideRequest self request lower upper

/-- This rank may restore the step in the verified mode. -/
def locallyEligible (step : Int) : Bool :=
  !request.verifyFails.isSome && self.status.read.isRecoveryVerified step &&
    self.disk.hasRank step self.disk.rank

/-- The shard that a rank has in memory, else on disk. -/
def localShard (step : Int) : Option (Shard α ε κ) :=
  match self.memory.slotByStep step with
  | some shard => some shard
  | none => (self.disk.load step).toOption

def loadExactCollectivelyValidatedShard (step : Int) (mode : RecoveryMode) :
    RankM (Option (Shard α ε κ)) :=
  if step < 1 then .raise stepError
  else
    match mode with
    | .recoveryVerified => do
        let eligible := locallyEligible self request step
        let vote ← collectiveMinStep self.group (if eligible then 1 else 0)
        if vote ≠ 1 then pure none
        else loadCollectivelyValidatedDiskShard self.group self.disk step
    | .latestGemini => do
        let loaded := localShard self step
        let vote ← collectiveMinStep self.group (if loaded.isSome then 1 else 0)
        if vote = 1 then pure loaded else pure none

/-- `load` and `load_tensors` with an explicit step, from the agreed request on. -/
def loadAgreed (agreed : Option (Int × RecoveryMode) × RankState σ α ε κ) :
    RankM (Option ((Int × RecoveryMode) × Shard α ε κ) × RankState σ α ε κ) :=
  match agreed with
  | (none, self) => pure (none, self)
  | (some (step, mode), self) => do
      let loaded ← loadExactCollectivelyValidatedShard self request step mode
      match loaded with
      | none => pure (none, self)
      | some shard => pure (some ((step, mode), shard),
          { self with memory := { self.memory with metadata := some shard.1 } })

/-- `load` and `load_tensors` with an explicit step. -/
def loadExact : RankM (Option ((Int × RecoveryMode) × Shard α ε κ) × RankState σ α ε κ) := do
  let agreed ← agreeExactRecoveryRequest self request
  loadAgreed request agreed

end Methods

/-! ## The ranks of one group -/

/-- One step and mode on all ranks, an exception on all ranks, or nothing on all ranks. -/
inductive OneOutcome {ι ρ τ : Type} (chosen : ρ → Int × RecoveryMode)
    (outcomes : ι → Except CheckpointError (Option ρ × τ)) : Prop where
  | agreed (request : Int × RecoveryMode)
      (h : ∀ i, ∃ found self, outcomes i = .ok (some found, self) ∧ chosen found = request)
  | raised (h : ∀ i, ∃ e, outcomes i = .error e)
  | nothing (h : ∀ i, ∃ self, outcomes i = .ok (none, self))

section Ranks

variable {ι σ α ε κ : Type} [Fintype ι] [Nonempty ι]
variable {ranks : ι → RankState σ α ε κ} {requests : ι → ExactRequest}

/-- A step that its rank accepts and that does not fit into the tensor. -/
def TooLarge (self : RankState σ α ε κ) (request : ExactRequest) : Prop :=
  ∃ step mode, checkedRequest self request = .ok (step, mode) ∧ 2 ^ 63 ≤ step

omit [Nonempty ι] in
theorem not_alone (hg : GroupedRanks ranks) (hone : Fintype.card ι ≠ 1) (i : ι) :
    ¬ (¬ (ranks i).group.initialized = true ∨ (ranks i).group.worldSize = 1) := by
  rintro (h | h)
  · exact h (hg.initialized i)
  · rw [hg.worldSize i] at h
    exact hone (by exact_mod_cast h)

theorem checkedRequest_pos {self : RankState σ α ε κ} {request : ExactRequest} {step : Int}
    {mode : RecoveryMode} (h : checkedRequest self request = .ok (step, mode)) : 1 ≤ step := by
  unfold checkedRequest at h
  split at h
  · split at h
    · cases h
    · rename_i hstep
      split at h
      · cases h
      · split at h
        · cases h
        · cases h
          omega
  · cases h

/-- Everything but a step that is too large fits into the tensor. -/
theorem fits_iff {self : RankState σ α ε κ} {request : ExactRequest} :
    (∀ j, Int64 (requestValues self request j)) ↔ ¬ TooLarge self request := by
  unfold requestValues TooLarge
  cases hchecked : checkedRequest self request with
  | error e => simp [Fin.forall_fin_succ, Int64]
  | ok found =>
      obtain ⟨step, mode⟩ := found
      have hpos := checkedRequest_pos hchecked
      have hcode : modeCode mode = 0 ∨ modeCode mode = 1 := by cases mode <;> simp [modeCode]
      simp [Fin.forall_fin_succ, Int64]
      omega

/-- The comparison gives every rank the same least and greatest values. -/
theorem together_collectiveIntBounds {n : Nat} (hg : GroupedRanks ranks)
    {values : ι → Fin n → Int}
    (hfits : Fintype.card ι = 1 ∨ ∀ i j, Int64 (values i j)) :
    Together (fun i => collectiveIntBounds (ranks i).group (values i)) fun _ =>
      .ok (fun j => least fun i => values i j, fun j => greatest fun i => values i j) := by
  by_cases hone : Fintype.card ι = 1
  · have : Subsingleton ι := Fintype.card_le_one_iff_subsingleton.mp hone.le
    refine Together.of_eq_ret fun i => ?_
    have hsize : (ranks i).group.worldSize = 1 := by
      rw [hg.worldSize i, hone, Nat.cast_one]
    have hleast : (fun j => least fun i => values i j) = values i := by
      funext j
      obtain ⟨k, hk⟩ := exists_least fun i => values i j
      rw [hk, Subsingleton.elim k i]
    have hgreatest : (fun j => greatest fun i => values i j) = values i := by
      funext j
      obtain ⟨k, -, hk⟩ := Finset.exists_mem_eq_sup' Finset.univ_nonempty fun i => values i j
      rw [greatest, hk, Subsingleton.elim k i]
    rw [collectiveIntBounds, if_pos (Or.inr hsize), hleast, hgreatest]
    rfl
  · have hfits := hfits.resolve_left hone
    have hcalls : (fun i => collectiveIntBounds (ranks i).group (values i)) = fun i =>
        .call ⟨(.min, n), values i⟩ fun lower =>
          .call ⟨(.max, n), values i⟩ fun upper => .ret (lower, upper) := by
      funext i
      rw [collectiveIntBounds, if_neg (not_alone hg hone i), if_neg (not_not.mpr (hfits i))]
      rfl
    rw [hcalls]
    exact ⟨2, Runs.call (Runs.call Runs.ret)⟩

omit [Fintype ι] [Nonempty ι] in
theorem Together.raise {β : Type} [Fintype ι] [Nonempty ι] {ps : ι → RankM β}
    {es : ι → CheckpointError} (h : ∀ i, ps i = .raise (es i)) :
    Together ps fun i => .error (es i) := ⟨0, .done h⟩

theorem least_vote {vote : ι → Bool} :
    (least fun i => if vote i = true then 1 else 0) = 1 ↔ ∀ i, vote i = true := by
  constructor
  · intro h i
    by_contra hno
    have hle := least_le (fun i => if vote i = true then 1 else 0) i
    rw [h, if_neg hno] at hle
    omega
  · intro h
    obtain ⟨i, hi⟩ := exists_least fun i => if vote i = true then (1 : Int) else 0
    rw [hi, if_pos (h i)]

variable (requests) in
/-- The vote on the recovery mode: activated everywhere, or nothing. -/
theorem together_activate (hg : GroupedRanks ranks) (mode : RecoveryMode) :
    ∃ selves : ι → RankState σ α ε κ, ∃ resolved : Option RecoveryMode,
      (resolved = some mode ∨ resolved = none) ∧
      (∀ i, (selves i).group = (ranks i).group) ∧
      Together (fun i => activateRecoveryModeCollectively (ranks i) (requests i) mode)
        fun i => .ok (resolved, selves i) := by
  let selves : ι → RankState σ α ε κ := fun i =>
    if (requests i).activateFails.isSome = true then ranks i
    else { ranks i with status := (ranks i).status.activate mode }
  let vote : ι → Bool := fun i =>
    (if (requests i).activateFails.isSome = true then none else some mode).isSome
  have hvote := together_collectiveMinStep hg fun i => if vote i = true then 1 else 0
  have hgroup : ∀ i, (selves i).group = (ranks i).group := by
    intro i
    simp only [selves]
    split <;> rfl
  by_cases hall : ∀ i, vote i = true
  · refine ⟨selves, some mode, Or.inl rfl, hgroup, hvote.bind ?_⟩
    rw [least_vote.mpr hall]
    refine Together.of_eq_ret fun i => ?_
    have hfails : ¬ (requests i).activateFails.isSome = true := by
      intro hfails
      have hi := hall i
      simp only [vote, if_pos hfails] at hi
      cases hi
    simp only [selves, if_neg hfails, if_true]
    rfl
  · refine ⟨selves, none, Or.inr rfl, hgroup, hvote.bind ?_⟩
    refine Together.of_eq_ret fun i => ?_
    rw [if_neg (mt least_vote.mp hall)]
    by_cases hfails : (requests i).activateFails.isSome = true
    · simp only [selves, if_pos hfails]
      rfl
    · simp only [selves, if_neg hfails]
      rfl

variable (requests) in
/-- The decision on the least and greatest values is one for all ranks. -/
theorem together_decideRequest (hg : GroupedRanks ranks) (lower upper : Fin 3 → Int) :
    ∃ outcomes, Together (fun i => decideRequest (ranks i) (requests i) lower upper) outcomes ∧
      OneOutcome id outcomes ∧
      ∀ i found self, outcomes i = .ok (found, self) → self.group = (ranks i).group := by
  by_cases hinvalid : lower 0 ≠ 1 ∨ upper 0 ≠ 1
  · have hraises : ∀ i, ∃ e, decideRequest (ranks i) (requests i) lower upper = .raise e := by
      intro i
      rw [decideRequest, if_pos hinvalid]
      split
      · split
        · exact ⟨_, rfl⟩
        · exact ⟨_, rfl⟩
      · exact ⟨_, rfl⟩
    choose es hes using hraises
    refine ⟨_, Together.raise hes, .raised fun i => ⟨es i, rfl⟩, ?_⟩
    exact fun i found self h => nomatch h
  · by_cases hdiffer : lower 1 ≠ upper 1 ∨ lower 2 ≠ upper 2
    · have hraises : ∀ i, ∃ e, decideRequest (ranks i) (requests i) lower upper = .raise e := by
        intro i
        rw [decideRequest, if_neg hinvalid, if_pos hdiffer]
        exact ⟨_, rfl⟩
      choose es hes using hraises
      refine ⟨_, Together.raise hes, .raised fun i => ⟨es i, rfl⟩, ?_⟩
      exact fun i found self h => nomatch h
    · let mode := if lower 2 = 0 then RecoveryMode.latestGemini else .recoveryVerified
      obtain ⟨selves, resolved, hresolved, hgroup, htogether⟩ :=
        together_activate requests hg mode
      simp only [decideRequest, if_neg hinvalid, if_neg hdiffer]
      rcases hresolved with rfl | rfl
      · refine ⟨_, htogether.bind Together.pure, .agreed (lower 1, mode) fun i => ?_, ?_⟩
        · exact ⟨_, selves i, rfl, rfl⟩
        · intro i found self h
          cases h
          exact hgroup i
      · refine ⟨_, htogether.bind Together.pure, .nothing fun i => ⟨selves i, rfl⟩, ?_⟩
        intro i found self h
        cases h
        exact hgroup i

variable (requests) in
/-- The agreement, when every value fits into the tensor. -/
theorem together_agree (hg : GroupedRanks ranks)
    (hfits : Fintype.card ι = 1 ∨ ∀ i, ¬ TooLarge (ranks i) (requests i)) :
    ∃ outcomes, Together (fun i => agreeExactRecoveryRequest (ranks i) (requests i)) outcomes ∧
      OneOutcome id outcomes ∧
      ∀ i found self, outcomes i = .ok (found, self) → self.group = (ranks i).group := by
  have hbounds := together_collectiveIntBounds hg
    (hfits.imp_right fun h i => fits_iff.mpr (h i))
  obtain ⟨outcomes, htogether, hone⟩ := together_decideRequest requests hg
    (fun j => least fun i => requestValues (ranks i) (requests i) j)
    (fun j => greatest fun i => requestValues (ranks i) (requests i) j)
  exact ⟨outcomes, hbounds.bind htogether, hone⟩

variable (requests) in
/-- The votes on the shard of one step and mode: loaded everywhere, nowhere, or an exception
on all ranks. -/
theorem together_loadShard {selves : ι → RankState σ α ε κ} (hg : GroupedRanks selves)
    (step : Int) (mode : RecoveryMode) :
    (∃ shards : ι → Shard α ε κ,
      Together (fun i => loadExactCollectivelyValidatedShard (selves i) (requests i) step mode)
        fun i => .ok (some (shards i))) ∨
    Together (fun i => loadExactCollectivelyValidatedShard (selves i) (requests i) step mode)
      (fun _ => .ok none) ∨
    Together (fun i => loadExactCollectivelyValidatedShard (selves i) (requests i) step mode)
      fun _ => .error stepError := by
  by_cases hstep : step < 1
  · exact Or.inr (Or.inr (Together.raise fun i => if_pos hstep))
  · simp only [loadExactCollectivelyValidatedShard, if_neg hstep]
    cases mode with
    | recoveryVerified =>
        have hvote := together_collectiveMinStep hg fun i =>
          if locallyEligible (selves i) (requests i) step = true then 1 else 0
        by_cases hall : ∀ i, locallyEligible (selves i) (requests i) step = true
        · obtain ⟨shards, -, hload⟩ | ⟨-, hload⟩ :=
            together_loadCollectivelyValidated (fun i => (selves i).disk) hg step
          · refine Or.inl ⟨shards, hvote.bind ?_⟩
            simpa only [least_vote.mpr hall, ne_eq, not_true, if_false] using hload
          · refine Or.inr (Or.inl (hvote.bind ?_))
            simpa only [least_vote.mpr hall, ne_eq, not_true, if_false] using hload
        · refine Or.inr (Or.inl (hvote.bind (Together.of_eq_ret fun i => ?_)))
          exact if_pos (mt least_vote.mp hall)
    | latestGemini =>
        have hvote := together_collectiveMinStep hg fun i =>
          if (localShard (selves i) step).isSome = true then 1 else 0
        by_cases hall : ∀ i, (localShard (selves i) step).isSome = true
        · choose shards hshards using fun i => Option.isSome_iff_exists.mp (hall i)
          refine Or.inl ⟨shards, hvote.bind (Together.of_eq_ret fun i => ?_)⟩
          rw [if_pos (least_vote.mpr hall), hshards i]
          rfl
        · refine Or.inr (Or.inl (hvote.bind (Together.of_eq_ret fun i => ?_)))
          exact if_neg (mt least_vote.mp hall)

variable (requests) in
/-- **The check that follows** the agreement keeps the outcome one. -/
theorem together_loadExact (hg : GroupedRanks ranks)
    (hfits : Fintype.card ι = 1 ∨ ∀ i, ¬ TooLarge (ranks i) (requests i)) :
    ∃ outcomes, Together (fun i => loadExact (ranks i) (requests i)) outcomes ∧
      OneOutcome Prod.fst outcomes := by
  obtain ⟨outcomes, htogether, hone, hgroup⟩ := together_agree requests hg hfits
  cases hone with
  | raised h =>
      choose es hes using h
      obtain rfl : outcomes = fun i => .error (es i) := funext hes
      obtain ⟨n, hn⟩ := htogether
      exact ⟨_, ⟨n, hn.bind_error⟩, .raised fun i => ⟨es i, rfl⟩⟩
  | nothing h =>
      choose selves hselves using h
      obtain rfl : outcomes = fun i => .ok (none, selves i) := funext hselves
      exact ⟨_, htogether.bind Together.pure, .nothing fun i => ⟨selves i, rfl⟩⟩
  | agreed request h =>
      choose found selves hselves using h
      obtain rfl : outcomes = fun i => .ok (some request, selves i) := funext fun i => by
        rw [(hselves i).1, ← (hselves i).2]
        rfl
      have hg' : GroupedRanks selves := by
        have heq : (fun i => (selves i).group) = fun i => (ranks i).group :=
          funext fun i => hgroup i _ _ rfl
        rw [GroupedRanks, heq]
        exact hg
      obtain ⟨step, mode⟩ := request
      obtain ⟨shards, hload⟩ | hload | hload :=
        together_loadShard requests hg' step mode
      · refine ⟨_, htogether.bind (hload.bind Together.pure), .agreed (step, mode) fun i => ?_⟩
        exact ⟨_, _, rfl, rfl⟩
      · refine ⟨_, htogether.bind (hload.bind Together.pure), .nothing fun i => ?_⟩
        exact ⟨selves i, rfl⟩
      · obtain ⟨n, hn⟩ := hload
        refine ⟨_, htogether.bind ⟨n, hn.bind_error⟩, .raised fun i => ?_⟩
        exact ⟨stepError, rfl⟩

omit [Nonempty ι] in
/-- A rank whose step is too large raises before it has called anything. -/
theorem agree_tooLarge (hg : GroupedRanks ranks) (hone : Fintype.card ι ≠ 1) {i : ι}
    (h : TooLarge (ranks i) (requests i)) :
    agreeExactRecoveryRequest (ranks i) (requests i) =
      .raise (.valueError "Overflow when unpacking long long") := by
  have hbounds : collectiveIntBounds (ranks i).group (requestValues (ranks i) (requests i)) =
      .raise (.valueError "Overflow when unpacking long long") := by
    rw [collectiveIntBounds, if_neg (not_alone hg hone i),
      if_pos (mt fits_iff.mp (not_not.mpr h))]
  rw [agreeExactRecoveryRequest, hbounds]
  rfl

omit [Nonempty ι] in
/-- Every other rank waits for the first comparison. -/
theorem agree_calls (hg : GroupedRanks ranks) (hone : Fintype.card ι ≠ 1) {i : ι}
    (h : ¬ TooLarge (ranks i) (requests i)) :
    ∃ next, agreeExactRecoveryRequest (ranks i) (requests i) =
      .call ⟨(.min, 3), requestValues (ranks i) (requests i)⟩ next := by
  refine ⟨fun lower => .call ⟨(.max, 3), requestValues (ranks i) (requests i)⟩ fun upper =>
    decideRequest (ranks i) (requests i) lower upper, ?_⟩
  rw [agreeExactRecoveryRequest, collectiveIntBounds, if_neg (not_alone hg hone i),
    if_neg (not_not.mpr (fits_iff.mpr h))]
  rfl

/-- **The request is agreed, or rejected, by all ranks**, and they load one shard or none, when
the rank is alone, or when all or none of the steps are too large for the comparison. -/
theorem agreeExactRecoveryRequest_exact (hg : GroupedRanks ranks) :
    ((∃ outcomes, Together (fun i => agreeExactRecoveryRequest (ranks i) (requests i)) outcomes ∧
        OneOutcome id outcomes) ∧
      ∃ outcomes, Together (fun i => loadExact (ranks i) (requests i)) outcomes ∧
        OneOutcome Prod.fst outcomes) ↔
      Fintype.card ι = 1 ∨ (∀ i, ¬ TooLarge (ranks i) (requests i)) ∨
        ∀ i, TooLarge (ranks i) (requests i) := by
  constructor
  · rintro ⟨⟨outcomes, ⟨n, hruns⟩, -⟩, -⟩
    by_contra hmixed
    push Not at hmixed
    obtain ⟨hone, ⟨i, hi⟩, j, hj⟩ := hmixed
    obtain ⟨next, hcalls⟩ := agree_calls hg hone hj
    have hends : Ends (agreeExactRecoveryRequest (ranks i) (requests i))
        (.error (.valueError "Overflow when unpacking long long")) := agree_tooLarge hg hone hi
    exact hruns.not_split hends hcalls
  · intro h
    by_cases hfits : Fintype.card ι = 1 ∨ ∀ i, ¬ TooLarge (ranks i) (requests i)
    · obtain ⟨outcomes, htogether, hagreed, -⟩ := together_agree requests hg hfits
      exact ⟨⟨outcomes, htogether, hagreed⟩, together_loadExact requests hg hfits⟩
    · push Not at hfits
      obtain ⟨hone, i, hi⟩ := hfits
      have hall : ∀ i, TooLarge (ranks i) (requests i) := by
        rcases h with h | h | h
        · exact absurd h hone
        · exact absurd hi (h i)
        · exact h
      have hraise := fun i => agree_tooLarge hg hone (hall i)
      have hload : ∀ i, loadExact (ranks i) (requests i) =
          .raise (.valueError "Overflow when unpacking long long") := by
        intro i
        rw [loadExact, hraise i]
        rfl
      exact ⟨⟨_, Together.raise hraise, .raised fun i => ⟨_, rfl⟩⟩,
        ⟨_, Together.raise hload, .raised fun i => ⟨_, rfl⟩⟩⟩

end Ranks

/-! ## A step that does not fit -/

/-- Two ranks that hold step 10. -/
def exactRank (i : Fin 2) : RankState Bool Nat Unit Unit :=
  sampleState 2 i [(10, true)] (sampleStore i)

theorem exactRank_grouped : GroupedRanks exactRank := ⟨fun _ => rfl, fun _ => rfl⟩

/-- A manager that selects one step for each rank. -/
def selected (steps : Fin 2 → Int) (i : Fin 2) : ExactRequest :=
  { step := .int (steps i), mode := some "latest" }

theorem agreeExactRecoveryRequest_exact_sample :
    ((∃ outcomes, Together (fun i => agreeExactRecoveryRequest (exactRank i)
          (selected ![10, 10] i)) outcomes ∧ OneOutcome id outcomes) ∧
      ∃ outcomes, Together (fun i => loadExact (exactRank i) (selected ![10, 10] i)) outcomes ∧
        OneOutcome Prod.fst outcomes) ↔
      Fintype.card (Fin 2) = 1 ∨ (∀ i, ¬ TooLarge (exactRank i) (selected ![10, 10] i)) ∨
        ∀ i, TooLarge (exactRank i) (selected ![10, 10] i) :=
  agreeExactRecoveryRequest_exact exactRank_grouped

/-- **One rank is asked for a step that is too large**: it raises, and the other rank waits in
the comparison for ever. -/
theorem too_large_step_splits :
    GroupedRanks exactRank ∧
      ¬ ∃ outcomes, Together (fun i => agreeExactRecoveryRequest (exactRank i)
        (selected ![2 ^ 63, 10] i)) outcomes ∧ OneOutcome id outcomes := by
  refine ⟨exactRank_grouped, ?_⟩
  rintro ⟨outcomes, ⟨n, hruns⟩, -⟩
  have hlarge : TooLarge (exactRank 0) (selected ![2 ^ 63, 10] 0) :=
    ⟨2 ^ 63, .latestGemini, rfl, le_rfl⟩
  have hfits : ¬ TooLarge (exactRank 1) (selected ![2 ^ 63, 10] 1) := by
    rintro ⟨step, mode, hstep, hlarge⟩
    cases (show Except.ok (10, RecoveryMode.latestGemini) = .ok (step, mode) from hstep)
    omega
  obtain ⟨next, hcalls⟩ := agree_calls exactRank_grouped (by decide) hfits
  have hraise := agree_tooLarge exactRank_grouped (by decide) hlarge
  exact hruns.not_split (show Ends _ (.error _) from hraise) hcalls

end LmResiliency.Checkpointing
