/-
# NativeAttach — the agreement before a native PyTorch adapter attaches

At a distributed forward every rank looks for one outermost model and one
optimizer of its own, and the ranks agree by one reduction whether all have found
theirs.  A rank that does not recognize the model that is called raises before
that reduction, and the others wait for it.

The main result is `attach_allOrNothing_iff`; its condition is on what each rank
sees before the reduction.
-/
import LmResiliency.Checkpointing.Collective

namespace LmResiliency.Integrations.NativeAttach

open Lockstep Checkpointing

/-! ## What a rank has constructed -/

/-- A model: its parameters and its modules, itself among them. -/
structure Model where
  parameters : List Nat
  modules : List Nat

/-- The objects of a process, by identity. -/
structure Heap where
  models : Nat → Model
  requiresGrad : Nat → Bool

/-- An optimizer, with the parameters of its groups. -/
structure Optimizer where
  paramGroups : List (List Nat)
deriving DecidableEq

/-- What `NativePyTorchAdapter` and `torch.distributed` hold in a process.  A weak reference
to an object that is gone holds nothing. -/
structure NativePyTorchAdapter where
  heap : Heap
  distributedModels : List (Option Nat)
  optimizers : List (Option Optimizer)
  group : ProcessGroup
  backend : String
  cudaAvailable : Bool

/-- `TorchrunWorkerAdapterError`, or a failed assertion. -/
inductive AttachError where
  | adapter (message : String)
  | assertion

/-- Code that one rank runs. -/
abbrev AdapterM (α : Type) : Type := Prog allReduces.iface AttachError α

namespace Heap

def parameterIds (heap : Heap) (model : Nat) : Finset Nat :=
  (heap.models model).parameters.toFinset

/-- Whether a candidate is a part of another one. -/
def nestedIn (heap : Heap) (candidate other : Nat) : Bool :=
  other ≠ candidate ∧ (candidate ∈ (heap.models other).modules ∨
    (heap.parameterIds candidate).Nonempty ∧
      heap.parameterIds candidate ⊂ heap.parameterIds other)

def outermostModels (heap : Heap) (models : List Nat) : List Nat :=
  let candidates := models.eraseDups
  candidates.filter fun candidate => !candidates.any (heap.nestedIn candidate)

end Heap

namespace NativePyTorchAdapter

def distributedWorldSize (self : NativePyTorchAdapter) : Int :=
  if self.group.initialized then self.group.worldSize else 1

/-- The outermost of the models that are still there. -/
def candidates (self : NativePyTorchAdapter) : List Nat :=
  self.heap.outermostModels (self.distributedModels.filterMap id)

/-- `_candidate_optimizer_locked`. -/
def candidateOptimizer (self : NativePyTorchAdapter) (model : Nat) : Except String Optimizer :=
  let modelParameters := self.heap.parameterIds model
  let trainable := modelParameters.filter fun parameter => self.heap.requiresGrad parameter
  if trainable = ∅ then .error "the distributed model has no trainable parameters"
  else
    let optimizers := self.optimizers.filterMap id
    if 1 < optimizers.length then .error "multiple optimizers were constructed in this process"
    else
      let found := optimizers.filter fun optimizer =>
        trainable ⊆ optimizer.paramGroups.flatten.toFinset ∧
          optimizer.paramGroups.flatten.toFinset ⊆ modelParameters
      match found with
      | [optimizer] => .ok optimizer
      | [] =>
          if optimizers.isEmpty then
            .error "no optimizer was constructed before the first model forward"
          else .error "no optimizer owns exactly one model's trainable parameters"
      | _ => .error "multiple optimizers own the model's trainable parameters"

def agreeDistributedCandidate (self : NativePyTorchAdapter) (locallyValid : Bool) :
    AdapterM Bool :=
  if !self.group.initialized then
    .raise (.adapter ("distributed native PyTorch attachment requires an initialized " ++
      "default process group"))
  else if self.backend.toLower = "nccl" ∧ self.cudaAvailable = false then
    .raise (.adapter "NCCL native PyTorch attachment agreement requires CUDA")
  else do
    let valid ← Prog.op (I := allReduces.iface)
      ⟨(.min, 1), ![if locallyValid then 1 else 0]⟩
    return valid (Fin.last 0) ≠ 0

/-- The part of `_attach_distributed_candidate` that looks for the pair. -/
def localCandidate (self : NativePyTorchAdapter) (model : Nat) : Except String Optimizer :=
  if self.candidates = [model] then self.candidateOptimizer model
  else .error ("distributed native PyTorch automatic attachment requires one " ++
    "recognized outermost DDP or FSDP model on every rank")

/-- The part of `_attach_distributed_candidate` after the vote, up to the call of `_attach`
with what is returned. -/
def conclude (model : Nat) (found : Except String Optimizer) (agreed : Bool) :
    AdapterM (Option (Nat × Optimizer)) :=
  if !agreed then
    let detail := match found with
      | .ok _ => ""
      | .error reason => ": " ++ reason
    .raise (.adapter ("cannot attach native PyTorch adapter: every rank must have exactly " ++
      "one matching model/optimizer pair" ++ detail))
  else
    match found with
    | .ok optimizer => .ret (some (model, optimizer))
    | .error _ => .raise .assertion

/-- `_attach_distributed_candidate`; it does nothing where the process is alone. -/
def attachDistributedCandidate (self : NativePyTorchAdapter) (model : Nat) :
    AdapterM (Option (Nat × Optimizer)) :=
  if self.distributedWorldSize ≤ 1 then pure none
  else if model ∉ self.candidates then
    .raise (.adapter ("distributed native PyTorch automatic attachment requires a " ++
      "DDP or FSDP construction boundary on every rank"))
  else do
    let found := self.localCandidate model
    let agreed ← self.agreeDistributedCandidate found.toOption.isSome
    conclude model found agreed

/-- The rank comes to the vote: the model that is called is one of its outermost ones, and
its backend can reduce. -/
def Votes (self : NativePyTorchAdapter) (model : Nat) : Prop :=
  model ∈ self.candidates ∧ (self.backend.toLower = "nccl" → self.cudaAvailable = true)

end NativePyTorchAdapter

/-! ## The ranks of one group -/

section Ranks

variable {ι : Type} [Fintype ι] [Nonempty ι]

/-- The ranks never wait for one that has left: they take part in one number of collectives,
and all go on to attach or all raise. -/
def AllOrNothing (ps : ι → AdapterM (Option (Nat × Optimizer))) : Prop :=
  ∃ n as, Runs reduce ps n as ∧
    ((∀ i, ∃ pair, as i = .ok (some pair)) ∨ ∀ i, ∃ error, as i = .error error)

variable {ranks : ι → NativePyTorchAdapter} {models : ι → Nat}

namespace NativePyTorchAdapter

variable {self : NativePyTorchAdapter} {model : Nat}

theorem distributedWorldSize_gt (hinit : self.group.initialized = true)
    (hsize : 1 < self.group.worldSize) : ¬self.distributedWorldSize ≤ 1 := by
  rw [distributedWorldSize, if_pos hinit]
  omega

theorem agree_eq_call (hinit : self.group.initialized = true)
    (hcuda : self.backend.toLower = "nccl" → self.cudaAvailable = true) (locallyValid : Bool) :
    self.agreeDistributedCandidate locallyValid =
      .call ⟨(.min, 1), ![if locallyValid then 1 else 0]⟩ fun valid => .ret (valid 0 ≠ 0) := by
  have hbackend : ¬(self.backend.toLower = "nccl" ∧ self.cudaAvailable = false) := by
    rintro ⟨hnccl, hnone⟩
    rw [hcuda hnccl] at hnone
    cases hnone
  unfold agreeDistributedCandidate
  rw [hinit, if_neg hbackend]
  rfl

theorem agree_eq_raise (hinit : self.group.initialized = true)
    (hnone : ¬(self.backend.toLower = "nccl" → self.cudaAvailable = true))
    (locallyValid : Bool) :
    ∃ error, self.agreeDistributedCandidate locallyValid = .raise error := by
  have hbackend : self.backend.toLower = "nccl" ∧ self.cudaAvailable = false :=
    ⟨by_contra fun hother => hnone fun hnccl => absurd hnccl hother,
      Bool.not_eq_true _ ▸ fun hcuda => hnone fun _ => hcuda⟩
  unfold agreeDistributedCandidate
  rw [hinit, if_pos hbackend]
  exact ⟨_, rfl⟩

/-- A rank that comes to the vote calls the reduction once. -/
theorem attach_eq_call (hinit : self.group.initialized = true) (hsize : 1 < self.group.worldSize)
    (hvotes : self.Votes model) :
    self.attachDistributedCandidate model =
      .call ⟨(.min, 1), ![if (self.localCandidate model).toOption.isSome then 1 else 0]⟩
        fun valid => conclude model (self.localCandidate model) (valid 0 ≠ 0) := by
  rw [attachDistributedCandidate, if_neg (distributedWorldSize_gt hinit hsize),
    if_neg (not_not.mpr hvotes.1)]
  dsimp only
  rw [agree_eq_call hinit hvotes.2]
  rfl

/-- A rank that does not come to the vote raises. -/
theorem attach_eq_raise (hinit : self.group.initialized = true)
    (hsize : 1 < self.group.worldSize) (hnot : ¬self.Votes model) :
    ∃ error, self.attachDistributedCandidate model = .raise error := by
  rw [attachDistributedCandidate, if_neg (distributedWorldSize_gt hinit hsize)]
  by_cases hmem : model ∈ self.candidates
  · obtain ⟨error, herror⟩ := agree_eq_raise hinit (fun hcuda => hnot ⟨hmem, hcuda⟩)
      (self.localCandidate model).toOption.isSome
    rw [if_neg (not_not.mpr hmem)]
    dsimp only
    rw [herror]
    exact ⟨error, rfl⟩
  · rw [if_pos hmem]
    exact ⟨_, rfl⟩

theorem conclude_spec (model : Nat) (found : Except String Optimizer) {agreed : Bool}
    (hlocal : agreed = true → found.toOption.isSome = true) :
    ∃ a, Ends (conclude model found agreed) a ∧
      if agreed then ∃ pair, a = .ok (some pair) else ∃ error, a = .error error := by
  cases agreed with
  | false => exact ⟨.error _, rfl, _, rfl⟩
  | true =>
      cases found with
      | ok optimizer => exact ⟨.ok (some (model, optimizer)), rfl, _, rfl⟩
      | error reason => exact absurd (hlocal rfl) Bool.false_ne_true

end NativePyTorchAdapter

/-- **Attachment is all or nothing** exactly where all ranks come to the vote, or none. -/
theorem attach_allOrNothing_iff (hgroup : Grouped fun i => (ranks i).group)
    (hmany : 1 < Fintype.card ι) :
    AllOrNothing (fun i => (ranks i).attachDistributedCandidate (models i)) ↔
      (∀ i, (ranks i).Votes (models i)) ∨ ∀ i, ¬(ranks i).Votes (models i) := by
  have hsize : ∀ i, 1 < (ranks i).group.worldSize := fun i => by
    rw [hgroup.worldSize i]
    exact_mod_cast hmany
  constructor
  · rintro ⟨n, as, hruns, -⟩
    -- a rank that raises and one that votes would never go on together
    by_contra hmixed
    push Not at hmixed
    obtain ⟨⟨i, hi⟩, j, hj⟩ := hmixed
    obtain ⟨error, hraise⟩ :=
      NativePyTorchAdapter.attach_eq_raise (hgroup.initialized i) (hsize i) hi
    exact hruns.not_split (i := i) (j := j) (a := .error error) hraise
      (NativePyTorchAdapter.attach_eq_call (hgroup.initialized j) (hsize j) hj)
  · rintro (hall | hnone)
    · have hcalls : (fun i => (ranks i).attachDistributedCandidate (models i)) = _ :=
        funext fun i => NativePyTorchAdapter.attach_eq_call (hgroup.initialized i) (hsize i)
          (hall i)
      rw [AllOrNothing, hcalls]
      let flags : ι → Fin 1 → Int := fun i =>
        ![if ((ranks i).localCandidate (models i)).toOption.isSome then 1 else 0]
      -- all find a pair where the least of the flags is one
      have hlocal : ∀ i, decide (reduce (.min, 1) flags 0 ≠ 0) = true →
          ((ranks i).localCandidate (models i)).toOption.isSome = true := by
        intro i hne
        by_contra hnone
        obtain ⟨j, hj⟩ := exists_least fun i => flags i 0
        have hle := least_le (fun i => flags i 0) i
        have hnonneg : 0 ≤ flags j 0 := by
          change 0 ≤ (if _ then (1 : Int) else 0)
          split <;> decide
        have hzero : flags i 0 = 0 := if_neg hnone
        refine of_decide_eq_true hne ?_
        change least (fun i => flags i 0) = 0
        omega
      have hends := fun i => NativePyTorchAdapter.conclude_spec (models i)
        ((ranks i).localCandidate (models i)) (hlocal i)
      choose as has houtcome using hends
      refine ⟨1, as, .call (.done has), ?_⟩
      cases hagreed : decide (reduce (.min, 1) flags 0 ≠ 0) with
      | true =>
          refine Or.inl fun i => ?_
          have := houtcome i
          rwa [if_pos hagreed] at this
      | false =>
          refine Or.inr fun i => ?_
          have := houtcome i
          rwa [if_neg (by rw [hagreed]; decide)] at this
    · have hends : ∀ i, ∃ error,
          (ranks i).attachDistributedCandidate (models i) = .raise error := fun i =>
        NativePyTorchAdapter.attach_eq_raise (hgroup.initialized i) (hsize i) (hnone i)
      choose errors herrors using hends
      exact ⟨0, fun i => .error (errors i), .done herrors, Or.inr fun i => ⟨errors i, rfl⟩⟩

end Ranks

/-! Two ranks, of which the second has not wrapped its model. -/

def sampleRank (distributedModels : List (Option Nat)) : NativePyTorchAdapter where
  heap := { models := fun _ => { parameters := [1], modules := [0] }
            requiresGrad := fun _ => true }
  distributedModels := distributedModels
  optimizers := [some { paramGroups := [[1]] }]
  group := { initialized := true, worldSize := 2 }
  backend := "gloo"
  cudaAvailable := false

def sampleRanks : Fin 2 → NativePyTorchAdapter := ![sampleRank [some 0], sampleRank []]

theorem grouped_sampleRanks : Grouped fun i => (sampleRanks i).group where
  worldSize := by decide
  initialized := by decide

/-- The first rank waits in the vote for the second one, which has raised. -/
theorem attach_blocks : ¬AllOrNothing fun i => (sampleRanks i).attachDistributedCandidate 0 := by
  rintro ⟨n, as, hruns, -⟩
  have hvotes : (sampleRanks 0).Votes 0 :=
    ⟨by decide, fun hnccl => absurd hnccl (by decide +kernel)⟩
  have hnot : ¬(sampleRanks 1).Votes 0 := fun hvotes => absurd hvotes.1 (by decide)
  obtain ⟨error, hraise⟩ := NativePyTorchAdapter.attach_eq_raise
    (grouped_sampleRanks.initialized 1) (by decide) hnot
  exact hruns.not_split (i := 1) (j := 0) (a := .error error) hraise
    (NativePyTorchAdapter.attach_eq_call (grouped_sampleRanks.initialized 0) (by decide) hvotes)

theorem attach_allOrNothing_iff_sample :
    AllOrNothing (fun i => (sampleRanks i).attachDistributedCandidate 0) ↔
      (∀ i, (sampleRanks i).Votes 0) ∨ ∀ i, ¬(sampleRanks i).Votes 0 :=
  attach_allOrNothing_iff grouped_sampleRanks (by decide)

end LmResiliency.Integrations.NativeAttach
