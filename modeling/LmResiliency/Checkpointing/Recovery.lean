/-
# Recovery — the generation that a restarted job loads

`find_latest`, `load` and `load_tensors` without an explicit step: what each
rank has in memory and on disk is brought to one step by collective
operations, and in the verified mode the persisted pointers are.

The two loaders differ only in what they make of a shard.
-/
import LmResiliency.Checkpointing.Buffer
import LmResiliency.Checkpointing.Search
import LmResiliency.Checkpointing.Status

namespace LmResiliency.Checkpointing

open Lockstep

/-- The parts of an enabled manager that recovery uses. -/
structure RankState (σ α ε κ : Type) where
  group : ProcessGroup
  disk : DiskSerializer σ (Shard α ε κ)
  status : CheckpointStatusStore
  memory : Memory α ε κ

section Methods

variable {σ α ε κ ρ : Type} (self : RankState σ α ε κ)

/-- The vote of `_consistent_memory_step` on the least of the newest steps. -/
def memoryVote (step : Int) : RankM Int :=
  if step ≤ 0 then pure (-1)
  else do
    let agreed ← collectiveMinStep self.group
      (if (self.memory.slotByStep step).isSome then 1 else 0)
    if agreed = 1 then pure step else pure (-1)

def consistentMemoryStep : RankM Int := do
  let step ← collectiveMinStep self.group self.memory.latestStep
  memoryVote self step

/-- The verified pointer of a rank whose shard is there. -/
def localVerifiedStep : Int :=
  let localStep := self.status.read.recoveryVerifiedStep
  if 0 < localStep ∧ self.disk.hasRank localStep self.disk.rank = false then -1 else localStep

def verifiedDiskStep : RankM Int := collectiveMinStep self.group (localVerifiedStep self)

def recoverySteps (fuel : Nat) (resolved : RecoveryMode) : RankM (Int × Int) :=
  match resolved with
  | .recoveryVerified => do
      let diskStep ← verifiedDiskStep self
      pure (-1, diskStep)
  | .latestGemini => do
      let memoryStep ← consistentMemoryStep self
      let diskStep ← consistentStep self.group self.disk fuel none
      pure (memoryStep, diskStep)

/-- `_load_latest_collectively_validated_disk_shard`, in a recovery mode. -/
def loadDisk (fuel : Nat) (resolved : RecoveryMode) (step : Int) :
    RankM (Option (Shard α ε κ × Int)) :=
  loadLatestCollectivelyValidatedDiskShard self.group self.disk fuel
    (resolved = .latestGemini) fuel step

/-- What `RecoveryMode(value)` raises. -/
def unknownMode (value : String) : CheckpointError :=
  .valueError s!"'{value}' is not a valid RecoveryMode"

/-- A part of a method that starts with `_resolved_recovery_mode`. -/
def withResolvedMode {β : Type} (mode : Option String) (body : RecoveryMode → RankM β) :
    RankM β :=
  match self.status.resolvedRecoveryMode mode with
  | some resolved => body resolved
  | none => .raise (unknownMode (mode.getD ""))

/-- `find_latest`, from the two steps on. -/
def announce (fuel : Nat) (resolved : RecoveryMode) (steps : Int × Int) : RankM Int :=
  if steps.1 < steps.2 then do
    let loaded ← loadDisk self fuel resolved steps.2
    let step := max steps.1 ((loaded.map Prod.snd).getD (-1))
    pure (if 0 < step then step else -1)
  else
    let step := max steps.1 steps.2
    pure (if 0 < step then step else -1)

/-- `find_latest`, once the mode is resolved. -/
def findLatestIn (fuel : Nat) (resolved : RecoveryMode) : RankM Int := do
  let steps ← recoverySteps self fuel resolved
  announce self fuel resolved steps

def findLatest (fuel : Nat) (mode : Option String) : RankM Int :=
  withResolvedMode self mode (findLatestIn self fuel)

/-- What the two loaders make of the shard that was loaded from disk. -/
def loadedFromDisk (result : Shard α ε κ → ρ) (loaded : Option (Shard α ε κ × Int)) :
    Option (ρ × Int) × RankState σ α ε κ :=
  match loaded with
  | none => (none, self)
  | some found =>
      (some (result found.1, found.2),
        { self with memory := { self.memory with metadata := some found.1.1 } })

/-- The part of `load` and `load_tensors` that falls back to the disk. -/
def recoverFromDisk (result : Shard α ε κ → ρ) (fuel : Nat) (resolved : RecoveryMode)
    (diskStep : Int) : RankM (Option (ρ × Int) × RankState σ α ε κ) :=
  if diskStep ≤ 0 then pure (none, self)
  else do
    let loaded ← loadDisk self fuel resolved diskStep
    pure (loadedFromDisk self result loaded)

/-- The shard in memory that `load` and `load_tensors` prefer to the disk. -/
def preferredShard (steps : Int × Int) : Option (Shard α ε κ) :=
  if steps.2 ≤ steps.1 ∧ 0 < steps.1 then self.memory.slotByStep steps.1 else none

/-- `load` and `load_tensors`, once the mode is activated. -/
def recoverIn (result : Shard α ε κ → ρ) (fuel : Nat) (resolved : RecoveryMode) :
    RankM (Option (ρ × Int) × RankState σ α ε κ) := do
  let steps ← recoverySteps self fuel resolved
  if steps.1 ≤ 0 ∧ steps.2 ≤ 0 then pure (none, self)
  else
    match preferredShard self steps with
    | some shard => pure (some (result shard, steps.1), self)
    | none => recoverFromDisk self result fuel resolved steps.2

/-- `load` and `load_tensors`; `result` is what they make of a shard. -/
def recover (result : Shard α ε κ → ρ) (fuel : Nat) (mode : Option String) :
    RankM (Option (ρ × Int) × RankState σ α ε κ) :=
  withResolvedMode self mode fun resolved =>
    recoverIn { self with status := self.status.activate resolved } result fuel resolved

def load {δ : Type} (unflatten : Shard α ε κ → δ) (fuel : Nat) (mode : Option String) :
    RankM (Option (δ × Int) × RankState σ α ε κ) := recover self unflatten fuel mode

/-- `load_tensors`; `extra` reads the reserved key of the non-tensor data. -/
def loadTensors {δ : Type} (extra : κ → Option δ) (fuel : Nat) (mode : Option String) :
    RankM (Option ((List α × Option δ) × Int) × RankState σ α ε κ) :=
  recover self (fun shard => (shard.2, extra shard.1.nonTensorData)) fuel mode

end Methods

end LmResiliency.Checkpointing
