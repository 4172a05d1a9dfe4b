/-
# FastPathSaves — the list of tensors that a save captures

`_checkpoint_tensor_list` asks the adapter once and keeps the list for every
later save.  The list stays the adapter's own as long as nothing creates or
rebinds the optimizer's state after the first save.

Which saves take place is decided by the cadence and by the evidence of the
ranks; here every save may or may not take place.

The main result, `run_savesLiveState`, is about every run under that condition;
of what is saved after a rebinding nothing is claimed.
-/
import LmResiliency.Integrations.TensorRestore

namespace LmResiliency.Integrations

variable {δ : Type}

/-! ## Materializing optimizer state -/

/-- The tensors that `materialize_adam_state` allocates for a parameter. -/
structure AdamState (δ : Type) where
  step : Tensor δ
  expAvg : Tensor δ
  expAvgSq : Tensor δ

/-- The state of a parameter, with Adam's entries if it has no `exp_avg`. -/
def withAdamState (adam : AdamState δ) (state : List (String × StateValue δ)) :
    List (String × StateValue δ) :=
  if "exp_avg" ∈ state.map Prod.fst then state
  else Dict.update state [("step", .tensor adam.step), ("exp_avg", .tensor adam.expAvg),
    ("exp_avg_sq", .tensor adam.expAvgSq)]

/-- `materialize_adam_state`, on what is allocated for each parameter. -/
def materializeAdamState (alloc : Nat → AdamState δ) (base : BaseOptimizer δ)
    (params : List (Parameter δ)) : BaseOptimizer δ :=
  { base with
    state := params.foldl (fun state p =>
      Dict.put state (p.id, withAdamState (alloc p.id) ((state.lookup p.id).getD [])))
      base.state }

/-- The parameters that the base optimizer of DeepSpeed steps. -/
def DeepSpeedAdapter.steppedPartitions (self : DeepSpeedAdapter δ) : List (Parameter δ) :=
  if self.zeroStage ≤ 2 then self.optimizer.singlePartitionOfFp32Groups
  else heldPartitions self.optimizer

/-- What the framework provides for a materialization: the tensors that PyTorch allocates,
and what `_init_optimizer_states_with_dummy_values` leaves of a Megatron rank. -/
structure Materializer (δ : Type) where
  alloc : Nat → AdamState δ
  initOptimizerStates : MegatronAdapter δ → MegatronAdapter δ

def TensorAdapter.materializeOptimizerState (framework : Materializer δ) {ε : Type} :
    TensorAdapter δ → Except (LoadError ε) (TensorAdapter δ)
  | .megatron adapter => do
      let base ← adapter.optimizer.getBaseOptimizer
      if base.state.isEmpty then return .megatron (framework.initOptimizerStates adapter)
      else return .megatron adapter
  | .deepSpeed adapter =>
      .ok (.deepSpeed { adapter with
        optimizer.optimizer := materializeAdamState framework.alloc
          adapter.optimizer.optimizer adapter.steppedPartitions })

/-- `prepare_checkpoint_tensor_load`, for a checkpoint of `saved` tensors. -/
def TensorAdapter.prepareCheckpointTensorLoad (framework : Materializer δ) {ε : Type}
    (adapter : TensorAdapter δ) (saved : Nat) : Except (LoadError ε) (TensorAdapter δ) := do
  let live ← adapter.collectCheckpointTensors
  if live.length < saved then adapter.materializeOptimizerState framework
  else return adapter

/-! ## The integrations -/

/-- How a save ends that the coordinator may make: it is not made, the extra state raises
after the list was taken, or the list is handed to the manager. -/
inductive Capture where
  | skipped
  | failed
  | handed
deriving DecidableEq

/-- What `MegatronResiliency` and `DeepSpeedResiliency` hold, the framework's state behind the
adapter, and the saves so far: the list that was handed to the manager, and what the adapter
would have collected at that moment. -/
structure TrainingIntegration (δ ε : Type) where
  adapter : TensorAdapter δ
  hasScheduler : Bool
  optimizerStepPending : Bool
  ckptManager : Bool
  ckptTensors : Option (List (Tensor δ))
  saves : List (List (Tensor δ) × Except (LoadError ε) (List (Tensor δ)))

/-- What happens to an integration.  A step of the optimizer and a load of its state may
leave any state behind, with new tensors in it. -/
inductive TrainingEvent (δ : Type) where
  /-- `_wrapped_step` -/
  | optimizerStep (after : TensorAdapter δ) (raised : Bool) (capture : Capture)
  /-- `_wrapped_scheduler_step` -/
  | schedulerStep (raised : Bool) (capture : Capture)
  | loadOptimizerState (after : TensorAdapter δ)
  /-- `try_recover`, with the number of tensors of the checkpoint that is found -/
  | recover (found : Option Nat) (framework : Materializer δ)
  /-- `save_now` -/
  | saveNow (capture : Capture)

namespace TrainingIntegration

variable {ε : Type}

def checkpointTensorList (self : TrainingIntegration δ ε) :
    Except (LoadError ε) (List (Tensor δ)) × TrainingIntegration δ ε :=
  match self.ckptTensors with
  | some tensors => (.ok tensors, self)
  | none =>
    match self.adapter.collectCheckpointTensors with
    | .ok tensors => (.ok tensors, { self with ckptTensors := some tensors })
    | .error error => (.error error, self)

/-- `_save_checkpoint`, where the coordinator makes a save. -/
def saveCheckpoint (self : TrainingIntegration δ ε) (capture : Capture) :
    TrainingIntegration δ ε :=
  if self.ckptManager = false ∨ capture = .skipped then self
  else
    match self.checkpointTensorList with
    | (.error _, self) => self
    | (.ok tensors, self) =>
      if capture = .failed then self
      else
        { self with saves := self.saves ++ [(tensors, self.adapter.collectCheckpointTensors)] }

/-- `_wrapped_step`, after the framework's own step: Megatron leaves the rest to the step of
its scheduler, if it has one. -/
def afterOptimizerStep (self : TrainingIntegration δ ε) (raised : Bool) (capture : Capture) :
    TrainingIntegration δ ε :=
  match self.adapter with
  | .deepSpeed _ => if raised then self else self.saveCheckpoint capture
  | .megatron _ =>
    if raised then { self with optimizerStepPending := false }
    else if self.hasScheduler then { self with optimizerStepPending := true }
    else { self with optimizerStepPending := false }.saveCheckpoint capture

/-- `_wrapped_scheduler_step`.  DeepSpeed has none. -/
def afterSchedulerStep (self : TrainingIntegration δ ε) (raised : Bool) (capture : Capture) :
    TrainingIntegration δ ε :=
  if raised then { self with optimizerStepPending := false }
  else if self.optimizerStepPending then
    { self with optimizerStepPending := false }.saveCheckpoint capture
  else self

/-- What an event leaves of the framework's state. -/
def adapterAfter (self : TrainingIntegration δ ε) : TrainingEvent δ → TensorAdapter δ
  | .optimizerStep after _ _ | .loadOptimizerState after => after
  | .recover (some saved) framework =>
    if self.ckptManager then
      match self.adapter.prepareCheckpointTensorLoad (ε := ε) framework saved with
      | .ok adapter => adapter
      | .error _ => self.adapter
    else self.adapter
  | .recover none _ | .schedulerStep _ _ | .saveNow _ => self.adapter

/-- One event: what it does to the framework's state, and then the save.  A recovery copies
into the tensors that the adapter collects and binds none. -/
def step (self : TrainingIntegration δ ε) (event : TrainingEvent δ) : TrainingIntegration δ ε :=
  let moved := { self with adapter := self.adapterAfter event }
  match event with
  | .optimizerStep _ raised capture => moved.afterOptimizerStep raised capture
  | .schedulerStep raised capture => moved.afterSchedulerStep raised capture
  | .saveNow capture => moved.saveCheckpoint capture
  | .loadOptimizerState _ | .recover _ _ => moved

/-- One event after another. -/
def run (self : TrainingIntegration δ ε) (events : List (TrainingEvent δ)) :
    TrainingIntegration δ ε := events.foldl step self

/-- An integration as it is constructed. -/
structure Fresh (integration : TrainingIntegration δ ε) : Prop where
  pending : integration.optimizerStepPending = false
  ckptTensors : integration.ckptTensors = none
  saves : integration.saves = []

/-! ## What the saves capture -/

/-- Every save handed over what the adapter collects at that moment. -/
def SavesLiveState (self : TrainingIntegration δ ε) : Prop :=
  ∀ save ∈ self.saves, save.2 = .ok save.1

/-- Once a list is kept, no event changes what the adapter collects. -/
def Settled (self : TrainingIntegration δ ε) : List (TrainingEvent δ) → Prop
  | [] => True
  | event :: events =>
    (self.ckptTensors ≠ none →
      (self.adapterAfter event).collectCheckpointTensors (ε := ε) =
        self.adapter.collectCheckpointTensors) ∧
    (self.step event).Settled events

/-- The list that is kept is the one that the adapter collects, and every save handed over
what was live. -/
structure Inv (integration : TrainingIntegration δ ε) : Prop where
  kept : ∀ tensors, integration.ckptTensors = some tensors →
    integration.adapter.collectCheckpointTensors (ε := ε) = .ok tensors
  live : integration.SavesLiveState

theorem Fresh.inv {self : TrainingIntegration δ ε} (h : self.Fresh) : self.Inv where
  kept := fun _ htensors => absurd (h.ckptTensors.symm.trans htensors) nofun
  live := fun _ hsave => absurd (h.saves ▸ hsave) List.not_mem_nil

section Step

variable {self : TrainingIntegration δ ε}

/-- What is kept after it was asked for is what the adapter collects. -/
theorem checkpointTensorList_cases (h : self.Inv) :
    (∃ error, self.checkpointTensorList = (.error error, self)) ∨
      ∃ tensors, self.checkpointTensorList =
          (.ok tensors, { self with ckptTensors := some tensors }) ∧
        self.adapter.collectCheckpointTensors (ε := ε) = .ok tensors := by
  rw [checkpointTensorList]
  split
  · rename_i tensors hkept
    exact Or.inr ⟨tensors, by rw [← hkept], h.kept tensors hkept⟩
  · split
    · rename_i tensors hcollect
      exact Or.inr ⟨tensors, rfl, hcollect⟩
    · rename_i error _
      exact Or.inl ⟨error, rfl⟩

theorem saveCheckpoint_inv (h : self.Inv) (capture : Capture) :
    (self.saveCheckpoint capture).Inv := by
  rw [saveCheckpoint]
  split
  · exact h
  · obtain ⟨error, hlist⟩ | ⟨tensors, hlist, hcollect⟩ := checkpointTensorList_cases h
    · rw [hlist]
      exact h
    · have hkept : ∀ ts, some tensors = some ts →
          self.adapter.collectCheckpointTensors (ε := ε) = .ok ts :=
        fun ts hts => Option.some.inj hts ▸ hcollect
      rw [hlist]
      dsimp only
      split
      · exact ⟨hkept, h.live⟩
      · refine ⟨hkept, fun save hsave => ?_⟩
        rcases List.mem_append.mp hsave with hold | hnew
        · exact h.live save hold
        · rw [List.mem_singleton.mp hnew]
          exact hcollect

/-- What is not kept or collected does not matter. -/
theorem inv_pending (h : self.Inv) (pending : Bool) :
    Inv { self with optimizerStepPending := pending } := ⟨h.kept, h.live⟩

/-- **One event keeps the invariant**, if it leaves what the adapter collects once a list is
kept. -/
theorem step_inv {event : TrainingEvent δ} (h : self.Inv)
    (hsettled : self.ckptTensors ≠ none →
      (self.adapterAfter event).collectCheckpointTensors (ε := ε) =
        self.adapter.collectCheckpointTensors) : (self.step event).Inv := by
  have hmoved : Inv { self with adapter := self.adapterAfter event } := by
    refine ⟨fun tensors htensors => ?_, h.live⟩
    have hsome : self.ckptTensors = some tensors := htensors
    rw [← h.kept tensors hsome]
    exact hsettled (by rw [hsome]; exact Option.some_ne_none tensors)
  cases event with
  | optimizerStep after raised capture =>
      rw [step, afterOptimizerStep]
      split
      · split
        · exact hmoved
        · exact saveCheckpoint_inv hmoved capture
      · split
        · exact inv_pending hmoved false
        · split
          · exact inv_pending hmoved true
          · exact saveCheckpoint_inv (inv_pending hmoved false) capture
  | schedulerStep raised capture =>
      rw [step, afterSchedulerStep]
      split
      · exact inv_pending hmoved false
      · split
        · exact saveCheckpoint_inv (inv_pending hmoved false) capture
        · exact hmoved
  | loadOptimizerState after => exact hmoved
  | recover found framework => exact hmoved
  | saveNow capture => exact saveCheckpoint_inv hmoved capture

theorem run_inv {events : List (TrainingEvent δ)} (h : self.Inv)
    (hsettled : self.Settled events) : (self.run events).Inv := by
  induction events generalizing self with
  | nil => exact h
  | cons event events ih => exact ih (step_inv h hsettled.1) hsettled.2

/-- What is settled is so up to each of its states. -/
theorem Settled.take {before after : List (TrainingEvent δ)}
    (h : self.Settled (before ++ after)) : self.Settled before := by
  induction before generalizing self with
  | nil => trivial
  | cons event before ih => exact ⟨h.1, ih h.2⟩

/-- A save after the kept list has become stale hands over what is not live. -/
theorem saveCheckpoint_stale {tensors : List (Tensor δ)} (hmanager : self.ckptManager = true)
    (hkept : self.ckptTensors = some tensors)
    (hstale : self.adapter.collectCheckpointTensors (ε := ε) ≠ .ok tensors) :
    ¬ (self.saveCheckpoint .handed).SavesLiveState := by
  intro h
  have hsave : self.saveCheckpoint .handed = { self with
      saves := self.saves ++ [(tensors, self.adapter.collectCheckpointTensors)] } := by
    simp [saveCheckpoint, checkpointTensorList, hmanager, hkept]
  rw [hsave] at h
  exact hstale (h _ (List.mem_append_right _ List.mem_cons_self))

end Step

/-- **Every save captures the live state** in a run in which no event changes what the adapter
collects once a list is kept. -/
theorem run_savesLiveState {self : TrainingIntegration δ ε} (h : self.Fresh)
    {before after : List (TrainingEvent δ)} (hsettled : self.Settled (before ++ after)) :
    (self.run before).SavesLiveState := (run_inv h.inv hsettled.take).live

/-- A Megatron rank before the first step of its optimizer. -/
def sampleStart : TrainingIntegration String Unit where
  adapter := .megatron { sampleMegatron with
    optimizer.optimizer := some
      { paramGroups := [[⟨1, flatTensor "float32" 2 2⟩]]
        state := [] } }
  hasScheduler := false
  optimizerStepPending := false
  ckptManager := true
  ckptTensors := none
  saves := []

theorem run_savesLiveState_sample :
    (sampleStart.run [.optimizerStep (.megatron sampleMegatron) false .handed,
      .saveNow .handed]).SavesLiveState :=
  @run_savesLiveState _ _ sampleStart ⟨rfl, rfl, rfl⟩ _ []
    ⟨fun h => absurd rfl h, fun _ => rfl, trivial⟩

/-- A DeepSpeed rank, with Adam's first moment where it is given. -/
def sampleZero (moment : Nat) : TensorAdapter String :=
  .deepSpeed { sampleDeepSpeed with
    optimizer.optimizer :=
      { paramGroups := []
        state := [(1, [("exp_avg", .tensor (flatTensor "float32" moment 2))])] } }

/-- A save before the first step misses the optimizer's state for good, and a load of the
optimizer's state leaves the saves with the tensors of before. -/
theorem saves_stale :
    ¬ (sampleStart.run [.saveNow .handed,
        .optimizerStep (.megatron sampleMegatron) false .handed]).SavesLiveState ∧
      ¬ ({ sampleStart with adapter := .deepSpeed sampleDeepSpeed }.run
        [.optimizerStep (sampleZero 4) false .handed, .loadOptimizerState (sampleZero 6),
          .optimizerStep (sampleZero 6) false .handed]).SavesLiveState := by
  constructor
  · intro h
    have hlast := h _ (List.mem_cons_of_mem _ List.mem_cons_self)
    exact absurd (congrArg List.length (Except.ok.inj hlast)) (by decide)
  · intro h
    have hlast := h _ (List.mem_cons_of_mem _ List.mem_cons_self)
    exact absurd (congrArg (List.map Tensor.addresses) (Except.ok.inj hlast)) (by decide)

end TrainingIntegration

end LmResiliency.Integrations
