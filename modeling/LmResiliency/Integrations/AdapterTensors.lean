/-
# AdapterTensors — the live tensors that the framework adapters collect

A framework adapter lists the tensors of the model and of the optimizer of this
rank, in a fixed order and by reference.  What is saved for a step is a list of
copies of them, matched with the live ones by position only.
-/
import Mathlib.Data.String.Basic
import LmResiliency.Lib.Dict
import LmResiliency.Lib.Memory

namespace LmResiliency.Integrations

/-! ## Tensors -/

/-- Where an element is stored, and the type it is stored as. -/
structure Location (δ : Type) where
  address : Nat
  dtype : δ
deriving DecidableEq

/-- A tensor is a view of its elements' locations, in row-major order.  No two of its
elements share a location: PyTorch does not write to such a tensor. -/
structure Tensor (δ : Type) where
  dtype : δ
  shape : List Nat
  addresses : List Nat
  length_addresses : addresses.length = shape.prod
  nodup_addresses : addresses.Nodup

/-- A tensor of a checkpoint: a shape, and the elements in row-major order. -/
structure SavedTensor (α : Type) where
  shape : List Nat
  data : List α
  length_data : data.length = shape.prod

namespace Tensor

variable {δ α : Type}

def numel (self : Tensor δ) : Nat := self.shape.prod

def cells (self : Tensor δ) : List (Location δ) := self.addresses.map (⟨·, self.dtype⟩)

/-- The elements of a tensor. -/
def read (memory : Location δ → α) (self : Tensor δ) : List α := self.cells.map memory

@[simp] theorem length_cells (self : Tensor δ) : self.cells.length = self.shape.prod := by
  rw [cells, List.length_map, self.length_addresses]

theorem nodup_cells (self : Tensor δ) : self.cells.Nodup :=
  self.nodup_addresses.map fun _ _ h => (Location.mk.inj h).1

/-- Tensors that share a location store the same type there. -/
theorem dtype_of_mem_cells {self : Tensor δ} {c : Location δ} (h : c ∈ self.cells) :
    c.dtype = self.dtype := by
  obtain ⟨address, -, rfl⟩ := List.mem_map.mp h
  rfl

end Tensor

/-! ## What the adapters hold -/

/-- A parameter, by identity, and its `data`. -/
structure Parameter (δ : Type) where
  id : Nat
  data : Tensor δ

/-- An entry of the state of a parameter: a tensor or not. -/
inductive StateValue (δ : Type) where
  | tensor (value : Tensor δ)
  | other

/-- `isinstance(v, torch.Tensor)`. -/
def StateValue.tensor? {δ : Type} : StateValue δ → Option (Tensor δ)
  | .tensor value => some value
  | .other => none

/-- The base `torch.optim.Optimizer`.  The state of a parameter is keyed by its identity. -/
structure BaseOptimizer (δ : Type) where
  paramGroups : List (List (Parameter δ))
  state : List (Nat × List (String × StateValue δ))

/-- The tensors of the state of a parameter, in the order of the sorted keys. -/
def BaseOptimizer.stateTensors {δ : Type} (self : BaseOptimizer δ) (p : Parameter δ) :
    List (Tensor δ) :=
  match self.state.lookup p.id with
  | none => []
  | some state => (Dict.sortedItems state).filterMap fun item => item.2.tensor?

/-- A module with its parameters, and what its attribute `module` holds, if it has one. -/
inductive ModelChunk (δ : Type) where
  | base (parameters : List (Parameter δ))
  | wrapper (parameters : List (Parameter δ)) (module : ModelChunk δ)

namespace ModelChunk

variable {δ : Type}

def parameters : ModelChunk δ → List (Parameter δ)
  | .base parameters => parameters
  | .wrapper parameters _ => parameters

/-- `module.module` where there is one. -/
def inner : ModelChunk δ → ModelChunk δ
  | .base parameters => .base parameters
  | .wrapper _ module => module

/-- `_unwrap_model_chunk`: two wrappers at most. -/
def unwrapModelChunk (chunk : ModelChunk δ) : ModelChunk δ := chunk.inner.inner

end ModelChunk

/-- The optimizer that Megatron hands out: the attributes that may hold the base optimizer,
and the wrapper itself, each where it has `param_groups`. -/
structure OuterOptimizer (δ : Type) where
  optimizer : Option (BaseOptimizer δ)
  inner : Option (BaseOptimizer δ)
  optim : Option (BaseOptimizer δ)
  wrapper : Option (BaseOptimizer δ)

/-- What a load of checkpoint tensors raises. -/
inductive LoadError (ε : Type) where
  | attribute
  | assertion (saved live : Nat)
  | runtime
  | observer (error : ε)

def OuterOptimizer.getBaseOptimizer {δ ε : Type} (self : OuterOptimizer δ) :
    Except (LoadError ε) (BaseOptimizer δ) :=
  match self.optimizer <|> self.inner <|> self.optim <|> self.wrapper with
  | some base => .ok base
  | none => .error .attribute

structure MegatronAdapter (δ : Type) where
  model : List (ModelChunk δ)
  optimizer : OuterOptimizer δ

/-- `MegatronAdapter.collect_checkpoint_tensors`: the parameters of the model chunks, then
the parameters that the optimizer steps, each before the tensors of its state. -/
def MegatronAdapter.collectCheckpointTensors {δ ε : Type} (self : MegatronAdapter δ) :
    Except (LoadError ε) (List (Tensor δ)) := do
  let model := self.model.flatMap fun chunk => chunk.unwrapModelChunk.parameters.map (·.data)
  let base ← self.optimizer.getBaseOptimizer
  let optimizer := base.paramGroups.flatMap fun group =>
    group.flatMap fun p => p.data :: base.stateTensors p
  return model ++ optimizer

/-- The ZeRO optimizer of a DeepSpeed engine. -/
structure ZeroOptimizer (δ : Type) where
  bit16GroupsFlat : List (Parameter δ)
  singlePartitionOfFp32Groups : List (Parameter δ)
  fp16PartitionedGroupsFlat : List (Option (Parameter δ))
  fp32PartitionedGroupsFlat : List (Parameter δ)
  optimizer : BaseOptimizer δ

structure DeepSpeedAdapter (δ : Type) where
  zeroStage : Nat
  optimizer : ZeroOptimizer δ

namespace DeepSpeedAdapter

variable {δ : Type}

/-- `_collect_stage1_2`. -/
def collectStage1And2 (optimizer : ZeroOptimizer δ) : List (Tensor δ) :=
  optimizer.bit16GroupsFlat.map (·.data) ++
    optimizer.singlePartitionOfFp32Groups.map (·.data) ++
    optimizer.singlePartitionOfFp32Groups.flatMap optimizer.optimizer.stateTensors

/-- The master weights that this rank holds a part of. -/
def heldPartitions (optimizer : ZeroOptimizer δ) : List (Parameter δ) :=
  optimizer.fp32PartitionedGroupsFlat.filter fun p => 0 < p.data.numel

def collectStage3 (optimizer : ZeroOptimizer δ) : List (Tensor δ) :=
  (optimizer.fp16PartitionedGroupsFlat.filterMap id).map (·.data) ++
    (heldPartitions optimizer).map (·.data) ++
    (heldPartitions optimizer).flatMap optimizer.optimizer.stateTensors

def collectCheckpointTensors (self : DeepSpeedAdapter δ) : List (Tensor δ) :=
  if self.zeroStage ≤ 2 then collectStage1And2 self.optimizer
  else collectStage3 self.optimizer

end DeepSpeedAdapter

/-- The adapters that restore tensors directly. -/
inductive TensorAdapter (δ : Type) where
  | megatron (adapter : MegatronAdapter δ)
  | deepSpeed (adapter : DeepSpeedAdapter δ)

def TensorAdapter.collectCheckpointTensors {δ ε : Type} :
    TensorAdapter δ → Except (LoadError ε) (List (Tensor δ))
  | .megatron adapter => adapter.collectCheckpointTensors
  | .deepSpeed adapter => .ok adapter.collectCheckpointTensors

end LmResiliency.Integrations
