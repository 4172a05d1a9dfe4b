/-
# Status — the recovery status of one rank

What a manager keeps on its node about the trust in its checkpoints: the
candidate, the verified pointer with its history, and the recovery mode.
Every rank has a status file of its own; a rank whose file is gone, or is
that of another run, reads what the other ranks of its node agree on.

Status files are replaced at once, so that what is there is either a whole
status or none.
-/
import Mathlib.Data.Finset.Insert
import Mathlib.Data.Finset.Filter

namespace LmResiliency.Checkpointing

/-! ## Recovery modes -/

/-- `RecoveryMode`. -/
inductive RecoveryMode where
  | latestGemini
  | recoveryVerified
deriving DecidableEq

namespace RecoveryMode

/-- The `value` of a mode. -/
def value : RecoveryMode → String
  | latestGemini => "latest"
  | recoveryVerified => "recovery_verified"

/-- `RecoveryMode(value)`; `none` stands for the `ValueError`. -/
def ofValue (value : String) : Option RecoveryMode :=
  if value = "latest" then some latestGemini
  else if value = "recovery_verified" then some recoveryVerified
  else none

@[simp] theorem ofValue_value (mode : RecoveryMode) : ofValue mode.value = some mode := by
  cases mode <;> rfl

end RecoveryMode

/-! ## The status -/

/-- `CheckpointStatus`: the sorted tuple of verified steps is a set. -/
structure CheckpointStatus where
  candidateStep : Int
  recoveryVerifiedStep : Int
  recoveryVerifiedSteps : Finset Int
  recoveryMode : String
  pos_of_mem : ∀ step ∈ recoveryVerifiedSteps, 0 < step
  pointer_mem : 0 < recoveryVerifiedStep → recoveryVerifiedStep ∈ recoveryVerifiedSteps

namespace CheckpointStatus

/-- `CheckpointStatus(…)`, whose `__post_init__` adds the pointer to the history. -/
def new (candidateStep recoveryVerifiedStep : Int) (recoveryVerifiedSteps : Finset Int)
    (recoveryMode : String) (hpos : ∀ step ∈ recoveryVerifiedSteps, 0 < step) :
    CheckpointStatus where
  candidateStep := candidateStep
  recoveryVerifiedStep := recoveryVerifiedStep
  recoveryVerifiedSteps :=
    if 0 < recoveryVerifiedStep then insert recoveryVerifiedStep recoveryVerifiedSteps
    else recoveryVerifiedSteps
  recoveryMode := recoveryMode
  pos_of_mem := by
    intro step hstep
    split at hstep
    · rcases Finset.mem_insert.mp hstep with rfl | hmem
      · assumption
      · exact hpos step hmem
    · exact hpos step hstep
  pointer_mem := by
    intro h
    rw [if_pos h]
    exact Finset.mem_insert_self _ _

/-- The empty history holds no step that is not positive. -/
theorem empty_pos : ∀ step ∈ (∅ : Finset Int), 0 < step := by simp

/-- `CheckpointStatus()`. -/
def default : CheckpointStatus := new (-1) (-1) ∅ "latest" empty_pos

@[ext] theorem ext {s t : CheckpointStatus} (hc : s.candidateStep = t.candidateStep)
    (hv : s.recoveryVerifiedStep = t.recoveryVerifiedStep)
    (hs : s.recoveryVerifiedSteps = t.recoveryVerifiedSteps)
    (hm : s.recoveryMode = t.recoveryMode) : s = t := by
  cases s
  cases t
  simp_all

instance : DecidableEq CheckpointStatus := fun s t =>
  decidable_of_iff (s.candidateStep = t.candidateStep ∧
    s.recoveryVerifiedStep = t.recoveryVerifiedStep ∧
    s.recoveryVerifiedSteps = t.recoveryVerifiedSteps ∧ s.recoveryMode = t.recoveryMode)
    ⟨fun ⟨hc, hv, hs, hm⟩ => ext hc hv hs hm, fun h => h ▸ ⟨rfl, rfl, rfl, rfl⟩⟩

def isRecoveryVerified (status : CheckpointStatus) (step : Int) : Bool :=
  step ∈ status.recoveryVerifiedSteps

end CheckpointStatus

/-! ## The store -/

/-- A status file, with the identity that it is written for. -/
structure StatusFile where
  runId : String
  topologyId : String
  status : CheckpointStatus

/-- `CheckpointStatusStore` of one rank, on the status files of its folder. -/
structure CheckpointStatusStore where
  rank : Nat
  runId : String
  topologyId : String
  /-- `GEMINI_CHECKPOINT_STATUS.rank-{rank}` of every rank that has one. -/
  files : List (Nat × StatusFile)
  /-- `GEMINI_CHECKPOINT_STATUS` -/
  legacy : Option StatusFile

namespace CheckpointStatusStore

/-- `_read_eligible_path`: a file of another run or topology is ignored. -/
def readEligible (store : CheckpointStatusStore) (file : StatusFile) : Option CheckpointStatus :=
  if file.runId = store.runId ∧ file.topologyId = store.topologyId then some file.status
  else none

/-- The eligible statuses of the other ranks. -/
def peerStatuses (store : CheckpointStatusStore) : List CheckpointStatus :=
  (store.files.filter fun entry => entry.1 ≠ store.rank).filterMap fun entry =>
    store.readEligible entry.2

/-- What `_read_peer_fallback` makes of the first status and the others. -/
def commonStatus (first : CheckpointStatus) (rest : List CheckpointStatus) : CheckpointStatus :=
  let verifiedSteps := (first :: rest).map (·.recoveryVerifiedStep)
  .new (-1)
    (if ∀ step ∈ verifiedSteps, 0 < step then
      (rest.map (·.recoveryVerifiedStep)).foldl min first.recoveryVerifiedStep else -1)
    (first.recoveryVerifiedSteps.filter fun step =>
      ∀ status ∈ rest, step ∈ status.recoveryVerifiedSteps)
    "recovery_verified"
    fun step hstep => first.pos_of_mem step (Finset.mem_filter.mp hstep).1

def readPeerFallback (store : CheckpointStatusStore) : CheckpointStatus :=
  match store.peerStatuses with
  | [] => .default
  | first :: rest => commonStatus first rest

def read (store : CheckpointStatusStore) : CheckpointStatus :=
  match (store.files.lookup store.rank).bind store.readEligible with
  | some status => status
  | none =>
      if store.readPeerFallback ≠ .default then store.readPeerFallback
      else (store.legacy.bind store.readEligible).getD .default

def write (store : CheckpointStatusStore) (status : CheckpointStatus) : CheckpointStatusStore :=
  { store with
    files := (store.rank, ⟨store.runId, store.topologyId, status⟩) ::
      store.files.filter fun entry => entry.1 ≠ store.rank }

/-- A status that was written is read. -/
@[simp] theorem read_write (store : CheckpointStatusStore) (status : CheckpointStatus) :
    (store.write status).read = status := by
  simp [read, write, readEligible]

/-! ## The operations of the manager on it -/

def setRecoveryMode (store : CheckpointStatusStore) (mode : RecoveryMode) :
    CheckpointStatusStore :=
  let status := store.read
  store.write (.new (if mode = .recoveryVerified then -1 else status.candidateStep)
    status.recoveryVerifiedStep status.recoveryVerifiedSteps mode.value status.pos_of_mem)

def clearCandidate (store : CheckpointStatusStore) : CheckpointStatusStore :=
  let status := store.read
  store.write (.new (-1) status.recoveryVerifiedStep status.recoveryVerifiedSteps
    status.recoveryMode status.pos_of_mem)

def rejectCandidate (store : CheckpointStatusStore) : CheckpointStatusStore :=
  store.setRecoveryMode .recoveryVerified

/-- The status that `_persist_boundary` writes at the end. -/
def boundaryStatus (previous : CheckpointStatus) (step : Int) (verifyCurrent : Bool) :
    CheckpointStatus :=
  .new (if verifyCurrent then -1 else step)
    (if verifyCurrent then step
      else if 0 < previous.candidateStep then previous.candidateStep
      else previous.recoveryVerifiedStep)
    previous.recoveryVerifiedSteps RecoveryMode.latestGemini.value previous.pos_of_mem

/-- The last write of `_persist_boundary`. -/
def persistBoundary (store : CheckpointStatusStore) (step : Int) (verifyCurrent : Bool) :
    CheckpointStatusStore :=
  store.write (boundaryStatus store.read step verifyCurrent)

/-- `_resolved_recovery_mode`; a mode that was persisted and is unknown is the verified one. -/
def resolvedRecoveryMode (store : CheckpointStatusStore) (mode : Option String) :
    Option RecoveryMode :=
  match mode with
  | some value => RecoveryMode.ofValue value
  | none => some ((RecoveryMode.ofValue store.read.recoveryMode).getD .recoveryVerified)

/-- The second half of `_activate_recovery_mode`: a decision that was made is persisted. -/
def activate (store : CheckpointStatusStore) (resolved : RecoveryMode) : CheckpointStatusStore :=
  let status := store.read
  if status.recoveryMode ≠ resolved.value ∨
      (resolved = .recoveryVerified ∧ 0 < status.candidateStep) then
    store.setRecoveryMode resolved
  else store

/-! ## What they leave -/

variable (store : CheckpointStatusStore)

/-- A pointer that is in its history is not added to it again. -/
theorem insert_pointer (status : CheckpointStatus) :
    (if 0 < status.recoveryVerifiedStep then
      insert status.recoveryVerifiedStep status.recoveryVerifiedSteps
      else status.recoveryVerifiedSteps) = status.recoveryVerifiedSteps := by
  split
  · rename_i h
    exact Finset.insert_eq_of_mem (status.pointer_mem h)
  · rfl

@[simp] theorem read_setRecoveryMode_mode (mode : RecoveryMode) :
    (store.setRecoveryMode mode).read.recoveryMode = mode.value := by
  simp [setRecoveryMode, CheckpointStatus.new]

@[simp] theorem read_setRecoveryMode_candidate (mode : RecoveryMode) :
    (store.setRecoveryMode mode).read.candidateStep =
      if mode = .recoveryVerified then -1 else store.read.candidateStep := by
  simp [setRecoveryMode, CheckpointStatus.new]

@[simp] theorem read_setRecoveryMode_pointer (mode : RecoveryMode) :
    (store.setRecoveryMode mode).read.recoveryVerifiedStep = store.read.recoveryVerifiedStep := by
  simp [setRecoveryMode, CheckpointStatus.new]

@[simp] theorem read_setRecoveryMode_steps (mode : RecoveryMode) :
    (store.setRecoveryMode mode).read.recoveryVerifiedSteps =
      store.read.recoveryVerifiedSteps := by
  simp only [setRecoveryMode, CheckpointStatus.new, read_write]
  exact insert_pointer store.read

/-- **Activation leaves the verified history alone.** -/
@[simp] theorem read_activate_pointer (resolved : RecoveryMode) :
    (store.activate resolved).read.recoveryVerifiedStep = store.read.recoveryVerifiedStep := by
  rw [activate]
  split
  · exact store.read_setRecoveryMode_pointer resolved
  · rfl

@[simp] theorem read_activate_steps (resolved : RecoveryMode) :
    (store.activate resolved).read.recoveryVerifiedSteps = store.read.recoveryVerifiedSteps := by
  rw [activate]
  split
  · exact store.read_setRecoveryMode_steps resolved
  · rfl

/-- The mode that was activated is the persisted one. -/
@[simp] theorem read_activate_mode (resolved : RecoveryMode) :
    (store.activate resolved).read.recoveryMode = resolved.value := by
  rw [activate]
  split
  · exact store.read_setRecoveryMode_mode resolved
  · rename_i h
    exact not_not.mp fun hne => h (.inl hne)

theorem read_rejectCandidate :
    store.rejectCandidate.read.candidateStep = -1 ∧
      store.rejectCandidate.read.recoveryMode = RecoveryMode.recoveryVerified.value := by
  simp [rejectCandidate]

end CheckpointStatusStore

end LmResiliency.Checkpointing
