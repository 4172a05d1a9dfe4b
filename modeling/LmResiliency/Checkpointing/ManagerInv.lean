/-
# ManagerInv — what every step of a manager keeps

How far the worker is decides how the slots are labelled that it works on: the
own slot that it serves is not empty, and the peer slot it receives into is,
while an exchange runs.  None of this depends on how the copies, launches,
exchanges and writes turn out.
-/
import LmResiliency.Checkpointing.Manager

namespace LmResiliency.Checkpointing

/-- The worker has cleared the peer slot and is not done with it. -/
def WorkerPoint.peerCleared : WorkerPoint → Prop
  | .stateCleared | .dataCleared | .launched | .marked => True
  | _ => False

namespace Manager

variable {α ε κ : Type} {config : ManagerConfig} {host : HostCopy α ε}
  {m m' : Manager α ε κ}

/-! ## Rules -/

/-- A capture whose copy came to its end. -/
def captured (host : HostCopy α ε) (metadata : FlatStateDictMetadata ε κ) (srcs : List α)
    (step : Int) (m : Manager α ε κ) : Manager α ε κ :=
  labelCapture
    { m.modifyOwn .current fun slot =>
        { slot with tensors := (copyLoop host srcs m.pool.ownCurrent.tensors).1 } with
      copyInFlight := true } metadata srcs step

/-- What a save leaves once the slots are free: `start_copy` refuses, it gives
up, or it comes to its end and the worker starts unless the disk fails. -/
inductive Captured (config : ManagerConfig) (host : HostCopy α ε)
    (metadata : FlatStateDictMetadata ε κ) (srcs : List α) (step : Int) (diskFails : Bool)
    (m : Manager α ε κ) : Manager α ε κ → Prop where
  | refused (h : m.copyInFlight = true ∨ srcs.length ≠ m.pool.ownCurrent.tensors.length) :
      Captured config host metadata srcs step diskFails m m
  | gaveUp (hflight : m.copyInFlight = false)
      (hlength : srcs.length = m.pool.ownCurrent.tensors.length)
      (hloop : (copyLoop host srcs m.pool.ownCurrent.tensors).2 = false) :
      Captured config host metadata srcs step diskFails m
        (m.modifyOwn .current fun slot =>
          { slot with tensors := (copyLoop host srcs m.pool.ownCurrent.tensors).1 })
  | copied (hflight : m.copyInFlight = false)
      (hlength : srcs.length = m.pool.ownCurrent.tensors.length)
      (hloop : (copyLoop host srcs m.pool.ownCurrent.tensors).2 = true)
      (e : Ended (Manager α ε κ) Unit)
      (he : e = (m.captured host metadata srcs step).finalizeSave config metadata step
        diskFails) :
      Captured config host metadata srcs step diskFails m
        (if e.result.isSome then e.state.startCompletionWorker else e.state)

/-- A save ends while it frees the slots, or as `Captured` says. -/
theorem doSave_cases (config : ManagerConfig) (host : HostCopy α ε) (m : Manager α ε κ)
    (metadata : FlatStateDictMetadata ε κ) (tensors : List α) (step : Int)
    (waited : Waited α ε κ) (diskFails : Bool) :
    ((m.prepareNextCapture config waited).result = none ∧
      (m.doSave config host metadata tensors step waited diskFails).state =
        (m.prepareNextCapture config waited).state) ∨
    ((m.prepareNextCapture config waited).result = some () ∧
      Captured config host metadata tensors step diskFails
        (m.prepareNextCapture config waited).state
        (m.doSave config host metadata tensors step waited diskFails).state) := by
  unfold doSave
  rcases m.prepareNextCapture config waited with ⟨p, _ | _⟩
  · exact .inl ⟨rfl, rfl⟩
  · refine .inr ⟨rfl, ?_⟩
    show Captured config host metadata tensors step diskFails p _
    by_cases hflight : p.copyInFlight = true
    · simpa only [startCopy, hflight, if_true] using Captured.refused (.inl hflight)
    · by_cases hlength : tensors.length = p.pool.ownCurrent.tensors.length
      · by_cases hloop : (copyLoop host tensors p.pool.ownCurrent.tensors).2 = true
        · have hcopied := Captured.copied (by simpa using hflight) hlength hloop _
            (rfl : _ = (p.captured host metadata tensors step).finalizeSave config metadata
              step diskFails)
          simp only [startCopy, hflight, hlength, hloop, if_true, if_false, ne_eq,
            not_true_eq_false, Bool.false_eq_true]
          simp only [captured] at hcopied
          rcases hfinal : (labelCapture _ metadata tensors step).finalizeSave config metadata step
            diskFails with ⟨f, _ | _⟩
          · simpa [hfinal] using hcopied
          · simpa [hfinal] using hcopied
        · simp only [startCopy, hflight, hlength, hloop, if_false, ne_eq,
            not_true_eq_false, Bool.false_eq_true]
          exact .gaveUp (by simpa using hflight) hlength (by simpa using hloop)
      · simpa only [startCopy, hflight, hlength, if_true, ne_eq, not_false_eq_true,
          Bool.false_eq_true, if_false] using Captured.refused (.inr hlength)

/-- The shards that the blocking flushes write: complete slots, each for its own
rank. -/
inductive Flushed (m : Manager α ε κ) : Written α ε κ → Prop where
  | self (shared : FlatStateDictMetadata ε κ) (slot : BufferSlot α ε κ)
      (hmem : slot ∈ m.pool.ownSlots) (hcomplete : slot.complete = true) :
      Flushed m (shardOf .self shared slot)
  | peer (shared : FlatStateDictMetadata ε κ) (slot : BufferSlot α ε κ)
      (hmem : slot ∈ m.pool.peerSlots) (hcomplete : slot.complete = true) :
      Flushed m (shardOf .peer shared slot)

theorem flushed_of_flushShards {shared : FlatStateDictMetadata ε κ} {w : Written α ε κ}
    (h : w ∈ m.flushShards config shared) : Flushed m w := by
  simp only [flushShards, List.mem_append, List.mem_map, List.mem_filter,
    decide_eq_true_eq] at h
  rcases h with ⟨slot, ⟨hmem, hready, -⟩, rfl⟩ | h
  · exact .self shared slot hmem (by simp [BufferSlot.complete, hready])
  · split at h
    · simp only [List.mem_map, List.mem_filter, decide_eq_true_eq] at h
      obtain ⟨slot, ⟨hmem, hready, -⟩, rfl⟩ := h
      exact .peer shared slot hmem (by simp [BufferSlot.complete, hready])
    · simp at h

theorem flushed_of_boundaryShards {shared : FlatStateDictMetadata ε κ} {step : Int}
    {shards : List (Written α ε κ)} (h : m.boundaryShards config shared step = some shards)
    {w : Written α ε κ} (hw : w ∈ shards) : Flushed m w := by
  have hfound : ∀ {slots : List (BufferSlot α ε κ)} {slot : BufferSlot α ε κ},
      (slots.find? fun slot => slot.step = step ∧ slot.state = .ready) = some slot →
      slot ∈ slots ∧ slot.complete = true := by
    intro slots slot hfind
    have hready := List.find?_some hfind
    simp only [decide_eq_true_eq] at hready
    exact ⟨List.mem_of_find?_eq_some hfind, by simp [BufferSlot.complete, hready.2]⟩
  simp only [boundaryShards] at h
  split at h
  · cases h
  · next ownSlot hown =>
      have hself : Flushed m (shardOf .self shared ownSlot) :=
        .self shared ownSlot (hfound hown).1 (hfound hown).2
      split at h
      · split at h
        · cases h
          obtain rfl : w = _ := by simpa using hw
          exact hself
        · next peerSlot hpeer =>
            cases h
            rcases List.mem_cons.mp hw with rfl | hw
            · exact hself
            · obtain rfl : w = _ := by simpa using hw
              exact .peer shared peerSlot (hfound hpeer).1 (hfound hpeer).2
      · cases h
        obtain rfl : w = _ := by simpa using hw
        exact hself

/-- `flush_for_restart` finishes the exchange and writes. -/
theorem flushForRestart_cases (config : ManagerConfig) (m : Manager α ε κ)
    (waited : Waited α ε κ) (written : Option Nat) :
    (m.flushForRestart config waited written).state = m ∨
    ∃ writes, (∀ w ∈ writes, Flushed (m.finalizeReplication config waited).state w) ∧
      (m.flushForRestart config waited written).state =
        let m' := (m.finalizeReplication config waited).state
        { m' with writes := writes ++ m'.writes } := by
  unfold flushForRestart
  split
  · exact .inl rfl
  · next shared _ =>
      right
      split
      · next m' h =>
          exact ⟨[], by simp, by simp [h]⟩
      · next m' succeeded h =>
          simp only [h]
          split
          · refine ⟨_, fun w hw => ?_, rfl⟩
            exact flushed_of_flushShards (List.mem_reverse.mp hw)
          · refine ⟨_, fun w hw => ?_, rfl⟩
            exact flushed_of_flushShards (List.mem_of_mem_take (List.mem_reverse.mp hw))

/-- `persist_boundary` finishes the exchange and writes. -/
theorem persistBoundary_cases (config : ManagerConfig) (m : Manager α ε κ) (step : Int)
    (waited : Waited α ε κ) (agreed : Bool) (written : Option Nat) :
    (m.persistBoundary config step waited agreed written).state = m ∨
    ∃ writes, (∀ w ∈ writes, Flushed (m.finalizeReplication config waited).state w) ∧
      (m.persistBoundary config step waited agreed written).state =
        let m' := (m.finalizeReplication config waited).state
        { m' with writes := writes ++ m'.writes } := by
  have hnone : ∀ m' : Manager α ε κ, (m.finalizeReplication config waited).state = m' →
      ∃ writes, (∀ w ∈ writes, Flushed (m.finalizeReplication config waited).state w) ∧
        m' = { (m.finalizeReplication config waited).state with
          writes := writes ++ (m.finalizeReplication config waited).state.writes } :=
    fun m' h => ⟨[], by simp, by simp [h]⟩
  unfold persistBoundary
  split
  · exact .inl rfl
  · next shared _ =>
      right
      split
      · next m' h => exact hnone m' (by simp [h])
      · next m' succeeded h =>
          split
          · exact hnone m' (by simp [h])
          · split
            · exact hnone m' (by simp [h])
            · next shards hshards =>
                split
                · exact hnone m' (by simp [h])
                · simp only [h]
                  refine ⟨_, fun w hw => ?_, rfl⟩
                  exact flushed_of_boundaryShards hshards
                    (List.mem_of_mem_take (List.mem_reverse.mp hw))

/-- What every method and the worker keep. -/
structure Preserved (config : ManagerConfig) (host : HostCopy α ε)
    (ok : Manager α ε κ → Event α ε κ → Prop) (I : Manager α ε κ → Prop) : Prop where
  save : ∀ m metadata tensors step waited diskFails, I m →
    ok m (.save metadata tensors step waited diskFails) → m.saveCount = 0 ∨ m.joinable →
    I (m.save config host metadata tensors step waited diskFails).state
  join : ∀ m, I m → m.joinable → I m.waitForCompletionWorker.state
  finalize : ∀ m waited, I m → m.joinable → I (m.finalizeReplication config waited).state
  flush : ∀ m writes, I m → (∀ w ∈ writes, Flushed m w) →
    I { m with writes := writes ++ m.writes }
  disk : ∀ m step diskFails, I m → ok m (.flushToDisk step diskFails) →
    I (m.flushToDisk step diskFails).state
  work : ∀ m p fails, I m → m.worker = some p → p ≠ .finished → I (m.work config p fails)
  transfer : ∀ m tensors, I m → m.exchange = .running →
    I (m.modifyPeer fun slot => { slot with tensors })

/-- One event keeps what the methods and the worker keep. -/
theorem Preserved.next {ok : Manager α ε κ → Event α ε κ → Prop} {I : Manager α ε κ → Prop}
    (h : Preserved config host ok I) {event : Event α ε κ} {result : Option (Option Bool)}
    (ih : I m) (hok : ok m event)
    (hnext : Manager.next config host m event = some ⟨m', result⟩) : I m' := by
  cases event with
  | save metadata tensors step waited diskFails =>
      simp only [Manager.next] at hnext
      split at hnext
      · next hjoin =>
          cases hnext
          exact h.save m metadata tensors step waited diskFails ih hok hjoin
      · cases hnext
  | maybeWait =>
      simp only [Manager.next] at hnext
      split at hnext
      · next hjoin => cases hnext; exact h.join m ih hjoin
      · cases hnext
  | finalizeReplication waited =>
      simp only [Manager.next] at hnext
      split at hnext
      · next hjoin => cases hnext; exact h.finalize m waited ih hjoin
      · cases hnext
  | flushForRestart waited written =>
      simp only [Manager.next] at hnext
      split at hnext
      · next hjoin =>
          cases hnext
          rcases flushForRestart_cases config m waited written with hf | ⟨writes, hw, hf⟩
          · rw [hf]
            exact ih
          · rw [hf]
            rcases hjoin with hnone | hjoin
            · rw [show (m.flushForRestart config waited written).state = m by
                simp [flushForRestart, hnone]] at hf
              rw [← hf]
              exact ih
            · exact h.flush _ _ (h.finalize m waited ih hjoin) hw
      · cases hnext
  | persistBoundary step waited agreed written =>
      simp only [Manager.next] at hnext
      split at hnext
      · next hjoin =>
          cases hnext
          rcases persistBoundary_cases config m step waited agreed written with
            hf | ⟨writes, hw, hf⟩
          · rw [hf]
            exact ih
          · rw [hf]
            rcases hjoin with hnone | hjoin
            · rw [show (m.persistBoundary config step waited agreed written).state = m by
                simp [persistBoundary, hnone]] at hf
              rw [← hf]
              exact ih
            · exact h.flush _ _ (h.finalize m waited ih hjoin) hw
      · cases hnext
  | flushToDisk step diskFails =>
      simp only [Manager.next] at hnext
      cases hnext
      exact h.disk m step diskFails ih hok
  | work fails =>
      simp only [Manager.next] at hnext
      split at hnext
      · cases hnext
      · cases hnext
      · next p hp hworker =>
          cases hnext
          exact h.work m p fails ih hworker hp
  | transfer tensors =>
      simp only [Manager.next] at hnext
      split at hnext
      · next hrunning => cases hnext; exact h.transfer m tensors ih hrunning
      · cases hnext

/-- **What every event keeps holds in every state of a run.** -/
theorem Reaches.rule {ok : Manager α ε κ → Event α ε κ → Prop} {I : Manager α ε κ → Prop}
    (h : Reaches config host ok m) (hinit : I (Manager.init config))
    (hpreserved : Preserved config host ok I) : I m := by
  induction h with
  | init => exact hinit
  | step _ hok hnext ih => exact hpreserved.next ih hok hnext

/-! ## The worker and the labels -/

section Projections

variable (which : OwnSlot) (f : BufferSlot α ε κ → BufferSlot α ε κ)

@[simp] theorem modifyOwn_peer : (m.modifyOwn which f).pool.peer = m.pool.peer := by
  cases which <;> rfl

@[simp] theorem modifyOwn_allocated :
    (m.modifyOwn which f).pool.allocated = m.pool.allocated := by
  cases which <;> rfl

@[simp] theorem modifyOwn_worker : (m.modifyOwn which f).worker = m.worker := by
  cases which <;> rfl

@[simp] theorem modifyOwn_source : (m.modifyOwn which f).source = m.source := by
  cases which <;> rfl

@[simp] theorem modifyOwn_exchange : (m.modifyOwn which f).exchange = m.exchange := by
  cases which <;> rfl

@[simp] theorem modifyOwn_saveCount : (m.modifyOwn which f).saveCount = m.saveCount := by
  cases which <;> rfl

@[simp] theorem modifyOwn_copyInFlight :
    (m.modifyOwn which f).copyInFlight = m.copyInFlight := by
  cases which <;> rfl

@[simp] theorem modifyOwn_completionError :
    (m.modifyOwn which f).completionError = m.completionError := by
  cases which <;> rfl

@[simp] theorem modifyOwn_captures : (m.modifyOwn which f).captures = m.captures := by
  cases which <;> rfl

@[simp] theorem modifyOwn_received : (m.modifyOwn which f).received = m.received := by
  cases which <;> rfl

@[simp] theorem modifyOwn_writes : (m.modifyOwn which f).writes = m.writes := by
  cases which <;> rfl

@[simp] theorem modifyOwn_completed : (m.modifyOwn which f).completed = m.completed := by
  cases which <;> rfl

@[simp] theorem modifyOwn_current_ownCurrent :
    (m.modifyOwn .current f).pool.ownCurrent = f m.pool.ownCurrent := rfl

@[simp] theorem modifyOwn_current_ownPrevious :
    (m.modifyOwn .current f).pool.ownPrevious = m.pool.ownPrevious := rfl

@[simp] theorem modifyPeer_ownCurrent :
    (m.modifyPeer f).pool.ownCurrent = m.pool.ownCurrent := rfl

@[simp] theorem modifyPeer_ownPrevious :
    (m.modifyPeer f).pool.ownPrevious = m.pool.ownPrevious := rfl

@[simp] theorem modifyPeer_exchange : (m.modifyPeer f).exchange = m.exchange := rfl

@[simp] theorem modifyPeer_peer :
    (m.modifyPeer f).pool.peer = m.pool.peer.map fun slots => (f slots.1, slots.2) := rfl

end Projections

/-- The worker or the exchange uses `peer_current`. -/
def Receiving (m : Manager α ε κ) : Prop :=
  (∃ p, m.worker = some p ∧ p.peerCleared) ∨ m.source ≠ none

/-- How the worker, the exchange and the labels of the slots go together. -/
structure Control (config : ManagerConfig) (m : Manager α ε κ) : Prop where
  receiving : m.Receiving → ∀ slots, m.pool.peer = some slots → slots.1.state = .empty
  running : m.exchange = .running →
    m.worker = some .launched ∨ m.worker = some .marked ∨ m.source ≠ none
  launched : m.worker = some .launched ∨ m.worker = some .marked → m.exchange = .running
  marked : m.worker = some .marked → m.pool.ownCurrent.state = .replicating
  serving : ∀ p, m.worker = some p → p ≠ .finished → m.pool.ownCurrent.state ≠ .empty
  source : ∀ which, m.source = some which →
    which = .current ∧ m.joinable ∧ m.pool.ownCurrent.state = .replicating
  unused : m.saveCount = 0 ∨ m.pool.allocated = false → m.worker = none ∧ m.source = none
  alone : config.replicating = false → m.source = none ∧
    ∀ p, m.worker = some p → p = .copying ∨ p = .copied ∨ p = .finished

/-- Nothing uses the slots that the next capture needs. -/
structure Quiet (m : Manager α ε κ) : Prop where
  worker : m.worker = none
  source : m.source = none
  exchange : m.exchange ≠ .running

theorem Quiet.not_receiving (h : Quiet m) : ¬ m.Receiving := by
  simp [Receiving, h.worker, h.source]

/-- A manager in which nothing goes on needs no more. -/
theorem Quiet.control (h : Quiet m) : Control config m where
  receiving hr := absurd hr h.not_receiving
  running hr := absurd hr h.exchange
  launched hw := by simp [h.worker] at hw
  marked hw := by simp [h.worker] at hw
  serving p hw := by simp [h.worker] at hw
  source which hs := by simp [h.source] at hs
  unused _ := ⟨h.worker, h.source⟩
  alone _ := ⟨h.source, by simp [h.worker]⟩

theorem control_init : Control config (init config : Manager α ε κ) :=
  Quiet.control ⟨rfl, rfl, nofun⟩

/-- Only a worker that is there or a source keeps a manager from being quiet. -/
theorem Control.quiet (h : Control config m) (hworker : m.worker = none) (hsource : m.source = none) :
    Quiet m :=
  ⟨hworker, hsource, fun hr => by simpa [hworker, hsource] using h.running hr⟩

theorem Control.join (h : Control config m) (hjoin : m.joinable) (error : Bool) :
    Control config { m with worker := none, completionError := error } where
  receiving hr := by
    rcases hr with ⟨p, hp, -⟩ | hs
    · cases hp
    · exact h.receiving (.inr hs)
  running hr := by
    rcases h.running hr with hw | hw | hs
    · simp [joinable, hw] at hjoin
    · simp [joinable, hw] at hjoin
    · exact .inr (.inr hs)
  launched hw := by simp at hw
  marked hw := by simp at hw
  serving p hp := by simp at hp
  source which hs := ⟨(h.source which hs).1, .inl rfl, (h.source which hs).2.2⟩
  unused h0 := ⟨rfl, (h.unused h0).2⟩
  alone hc := ⟨(h.alone hc).1, by simp⟩

theorem waitForCompletionWorker_eq (m : Manager α ε κ) :
    m.waitForCompletionWorker =
      ⟨{ m with worker := none, completionError := false },
        if m.completionError then none else some ()⟩ := by
  unfold waitForCompletionWorker
  dsimp only
  split
  · rfl
  · next h => simp [Bool.eq_false_iff.mpr h]

/-- After `wait` no exchange is running, and only peer buffers have changed. -/
theorem wait_cases (m : Manager α ε κ) (waited : Waited α ε κ) :
    ∃ (f : List α → List α) (exchange : Exchange ε κ) (received : List (Int × List α)),
      exchange ≠ .running ∧
      (m.wait waited).1 =
        { m with
          pool := { m.pool with
            peer := m.pool.peer.map fun slots =>
              ({ slots.1 with tensors := f slots.1.tensors }, slots.2) }
          exchange, received } := by
  unfold wait
  split
  · next h => exact ⟨id, .idle, m.received, nofun, by simp [← h]⟩
  · next peerStep peerMeta h =>
      exact ⟨id, .ended peerStep peerMeta, m.received, nofun, by simp [← h]⟩
  · next h =>
      cases waited with
      | failed tensors => exact ⟨fun _ => tensors, .ended _ _, m.received, nofun, rfl⟩
      | received peerStep peerMeta tensors =>
          exact ⟨fun _ => tensors, .ended peerStep peerMeta, _, nofun, rfl⟩

theorem quiet_releaseSource (which : OwnSlot) (hworker : m.worker = none)
    (hexchange : m.exchange ≠ .running) : Quiet (m.releaseSource which) :=
  ⟨by simpa [releaseSource] using hworker, rfl, by simpa [releaseSource] using hexchange⟩

theorem Quiet.withCompleted (h : Quiet m) (completed : Option Int) :
    Quiet { m with completed } := ⟨h.worker, h.source, h.exchange⟩

/-- With the worker gone, only an unreadable metadata blob keeps the source. -/
theorem Control.finalizeExchange (h : Control config m) (hworker : m.worker = none)
    {which : OwnSlot} (hsource : m.source = some which) (waited : Waited α ε κ) :
    Control config (m.finalizeExchange which waited).state ∧
      ((m.finalizeExchange which waited).result ≠ none →
        Quiet (m.finalizeExchange which waited).state) := by
  obtain ⟨f, exchange, received, hended, hwait⟩ := wait_cases m waited
  have hempty := h.receiving (.inr (by simp [hsource]))
  unfold Manager.finalizeExchange
  rcases hw : m.wait waited with ⟨m', peerStep, peerMeta⟩
  obtain rfl : m' = _ := (congrArg Prod.fst hw).symm.trans hwait
  dsimp only
  split
  · cases peerMeta with
    | none =>
        refine ⟨?_, fun hr => absurd rfl hr⟩
        exact
          { receiving := fun _ slots hslots => by
              obtain ⟨slots', hslots', rfl⟩ := Option.map_eq_some_iff.mp hslots
              obtain ⟨slots'', hslots'', rfl⟩ := Option.map_eq_some_iff.mp hslots'
              exact hempty slots'' hslots''
            running := fun hr => absurd hr hended
            launched := fun hl => by simp [modifyPeer, hworker] at hl
            marked := fun hl => by simp [modifyPeer, hworker] at hl
            serving := fun p hp => by simp [modifyPeer, hworker] at hp
            source := fun w hs => h.source w hs
            unused := fun h0 => h.unused h0
            alone := fun hc => h.alone hc }
    | some received =>
        suffices hquiet : Quiet _ from ⟨hquiet.control, fun _ => hquiet⟩
        refine Quiet.withCompleted (m := Manager.releaseSource _ which) ?_ _
        exact quiet_releaseSource which hworker hended
  · suffices hquiet : Quiet _ from ⟨hquiet.control, fun _ => hquiet⟩
    exact quiet_releaseSource which hworker hended

theorem Control.finalizeReplication (h : Control config m) (hjoin : m.joinable)
    (waited : Waited α ε κ) :
    Control config (m.finalizeReplication config waited).state ∧
      ((m.finalizeReplication config waited).result ≠ none →
        Quiet (m.finalizeReplication config waited).state) := by
  have hjoined := h.join hjoin false
  unfold Manager.finalizeReplication
  rw [waitForCompletionWorker_eq]
  split
  · next hm =>
      obtain ⟨rfl, -⟩ := Ended.mk.inj hm
      exact ⟨hjoined, fun hr => absurd rfl hr⟩
  · next hm =>
      obtain ⟨rfl, -⟩ := Ended.mk.inj hm
      split
      · next hc => exact ⟨hjoined, fun _ => hjoined.quiet rfl (hjoined.alone hc).1⟩
      · split
        · next hsource => exact ⟨hjoined, fun _ => hjoined.quiet rfl hsource⟩
        · next which hsource => exact hjoined.finalizeExchange rfl hsource waited

/-- **Once a save has freed the slots, nothing uses them.** -/
theorem Control.prepareNextCapture (h : Control config m)
    (hjoin : m.saveCount = 0 ∨ m.joinable) (waited : Waited α ε κ) :
    Control config (m.prepareNextCapture config waited).state ∧
      ((m.prepareNextCapture config waited).result ≠ none →
        Quiet (m.prepareNextCapture config waited).state) := by
  unfold Manager.prepareNextCapture
  split
  · next h0 => exact ⟨h, fun _ => h.quiet (h.unused (.inl h0)).1 (h.unused (.inl h0)).2⟩
  · next h0 =>
      have hfinal := h.finalizeReplication (hjoin.resolve_left h0) waited
      split
      · next m' hm => exact ⟨by simpa [hm] using hfinal.1, fun hr => absurd rfl hr⟩
      · next m' succeeded hm =>
          have hquiet : Quiet m' := by simpa [hm] using hfinal.2 (by simp [hm])
          split
          · have hrotated : Quiet m'.rotate :=
              ⟨hquiet.worker, by simp [rotate, hquiet.source], hquiet.exchange⟩
            exact ⟨hrotated.control, fun _ => hrotated⟩
          · have hcleared : Quiet ((m'.modifyOwn .current BufferSlot.cleared).modifyPeer
                BufferSlot.cleared) :=
              ⟨hquiet.worker, hquiet.source, hquiet.exchange⟩
            exact ⟨hcleared.control, fun _ => hcleared⟩

/-- What `_finalize_save` changes: the bookkeeping, and what is on the disk. -/
theorem finalizeSave_cases (config : ManagerConfig) (m : Manager α ε κ)
    (metadata : FlatStateDictMetadata ε κ) (step : Int) (diskFails : Bool) :
    ∃ writes, (m.finalizeSave config metadata step diskFails).state =
        { m with
          lastSavedStep := step, saveCount := m.saveCount + 1, metadata := some metadata
          writes := writes ++ m.writes } ∧
      ∀ w ∈ writes, 0 < m.pool.ownPrevious.step ∧
        w = shardOf .self metadata m.pool.ownPrevious := by
  unfold finalizeSave
  dsimp only
  split
  · next h =>
      split
      · exact ⟨[], rfl, by simp⟩
      · exact ⟨[_], rfl, fun w hw => ⟨h.2.2, by simpa using hw⟩⟩
  · exact ⟨[], rfl, by simp⟩

/-- Freeing the slots leaves the copier and the allocation alone. -/
theorem prepareNextCapture_frame (config : ManagerConfig) (m : Manager α ε κ)
    (waited : Waited α ε κ) :
    (m.prepareNextCapture config waited).state.copyInFlight = m.copyInFlight ∧
      (m.prepareNextCapture config waited).state.pool.allocated = m.pool.allocated := by
  have hexchange : ∀ (n : Manager α ε κ) (source : OwnSlot),
      (n.finalizeExchange source waited).state.copyInFlight = n.copyInFlight ∧
        (n.finalizeExchange source waited).state.pool.allocated = n.pool.allocated := by
    intro n source
    obtain ⟨f, exchange, received, -, hwait⟩ := wait_cases n waited
    have hn : (n.wait waited).1.copyInFlight = n.copyInFlight ∧
        (n.wait waited).1.pool.allocated = n.pool.allocated := by
      rw [hwait]
      exact ⟨rfl, rfl⟩
    rw [← hn.1, ← hn.2]
    unfold Manager.finalizeExchange
    dsimp only
    split
    · split <;> simp [releaseSource, modifyPeer]
    · simp [releaseSource]
  have hfinal : (m.finalizeReplication config waited).state.copyInFlight = m.copyInFlight ∧
      (m.finalizeReplication config waited).state.pool.allocated = m.pool.allocated := by
    unfold Manager.finalizeReplication
    rw [waitForCompletionWorker_eq]
    split
    · next hm => obtain ⟨rfl, -⟩ := Ended.mk.inj hm; exact ⟨rfl, rfl⟩
    · next hm =>
        obtain ⟨rfl, -⟩ := Ended.mk.inj hm
        split
        · exact ⟨rfl, rfl⟩
        · split
          · exact ⟨rfl, rfl⟩
          · exact hexchange _ _
  unfold Manager.prepareNextCapture
  split
  · exact ⟨rfl, rfl⟩
  · split
    · next hm => rw [hm] at hfinal; exact hfinal
    · next hm =>
        rw [hm] at hfinal
        split <;> exact hfinal

theorem Captured.control {metadata : FlatStateDictMetadata ε κ} {srcs : List α} {step : Int}
    {diskFails : Bool} (h : Captured config host metadata srcs step diskFails m m')
    (hquiet : Quiet m) (hallocated : m.pool.allocated = true) : Control config m' := by
  cases h with
  | refused => exact hquiet.control
  | gaveUp => exact Quiet.control ⟨hquiet.worker, hquiet.source, hquiet.exchange⟩
  | copied _ _ _ e he =>
      obtain ⟨writes, hstate, -⟩ := finalizeSave_cases config
        (m.captured host metadata srcs step) metadata step diskFails
      rw [← he] at hstate
      rw [hstate]
      split
      · exact
          { receiving := fun hr => by
              rcases hr with ⟨p, hp, hcleared⟩ | hs
              · cases hp; exact hcleared.elim
              · exact absurd hquiet.source hs
            running := fun hr => absurd hr hquiet.exchange
            launched := fun hw => by simp [startCompletionWorker] at hw
            marked := fun hw => by simp [startCompletionWorker] at hw
            serving := fun _ _ _ => by
              simp [startCompletionWorker, captured, labelCapture, modifyOwn]
            source := fun w hs => absurd (hquiet.source.symm.trans hs) nofun
            unused := fun h0 => by
              rcases h0 with h0 | hf
              · exact absurd h0 (Nat.succ_ne_zero _)
              · exact absurd (hallocated.symm.trans hf) nofun
            alone := fun _ => ⟨hquiet.source, fun p hp => by
              simp [startCompletionWorker] at hp
              exact .inl hp.symm⟩ }
      · exact Quiet.control ⟨hquiet.worker, hquiet.source, hquiet.exchange⟩

/-- Control is about the labels that allocation leaves alone. -/
theorem Control.allocate (h : Control config m) (metadata : FlatStateDictMetadata ε κ) :
    Control config (m.allocate host metadata) where
  receiving hr slots hslots := by
    obtain ⟨slots', hslots', rfl⟩ := Option.map_eq_some_iff.mp hslots
    exact h.receiving hr slots' hslots'
  running := h.running
  launched := h.launched
  marked := h.marked
  serving := h.serving
  source := h.source
  unused h0 := by
    rcases h0 with h0 | hf
    · exact h.unused (.inl h0)
    · cases hf
  alone := h.alone

theorem Control.save (h : Control config m) (hjoin : m.saveCount = 0 ∨ m.joinable)
    (metadata : FlatStateDictMetadata ε κ) (tensors : List α) (step : Int)
    (waited : Waited α ε κ) (diskFails : Bool) :
    Control config (m.save config host metadata tensors step waited diskFails).state := by
  have hsaved : ∀ m : Manager α ε κ, Control config m → m.saveCount = 0 ∨ m.joinable →
      m.pool.allocated = true →
      Control config (m.doSave config host metadata tensors step waited diskFails).state := by
    intro m h hjoin hallocated
    obtain ⟨hcontrol, hquiet⟩ := h.prepareNextCapture hjoin waited
    rcases doSave_cases config host m metadata tensors step waited diskFails with
      ⟨-, hstate⟩ | ⟨hprepared, hcaptured⟩
    · rw [hstate]
      exact hcontrol
    · exact hcaptured.control (hquiet (by simp [hprepared]))
        ((prepareNextCapture_frame config m waited).2.trans hallocated)
  unfold Manager.save
  dsimp only
  split
  · next hallocated => exact hsaved m h hjoin hallocated
  · exact hsaved _ (h.allocate metadata) hjoin rfl

/-- What is to be said of a manager that a worker is there for. -/
theorem Control.ofWorker {p : WorkerPoint} (hworker : m.worker = some p)
    (hsource : m.source = none)
    (hcount : ¬ (m.saveCount = 0 ∨ m.pool.allocated = false))
    (hempty : p.peerCleared → ∀ slots, m.pool.peer = some slots → slots.1.state = .empty)
    (hrunning : m.exchange = .running ↔ p = .launched ∨ p = .marked)
    (hmarked : p = .marked → m.pool.ownCurrent.state = .replicating)
    (hserving : p ≠ .finished → m.pool.ownCurrent.state ≠ .empty)
    (halone : config.replicating = false → p = .copying ∨ p = .copied ∨ p = .finished) :
    Control config m where
  receiving hr := by
    rcases hr with ⟨q, hq, hcleared⟩ | hs
    · obtain rfl := Option.some.inj (hworker.symm.trans hq)
      exact hempty hcleared
    · exact absurd hsource hs
  running hr := by
    rcases hrunning.mp hr with rfl | rfl
    · exact .inl hworker
    · exact .inr (.inl hworker)
  launched hw := hrunning.mpr (by simpa [hworker] using hw)
  marked hw := hmarked (by simpa [hworker] using hw)
  serving q hq := by
    obtain rfl := Option.some.inj (hworker.symm.trans hq)
    exact hserving
  source which hs := absurd (hsource.symm.trans hs) nofun
  unused h0 := absurd h0 hcount
  alone hc := ⟨hsource, fun q hq => by
    obtain rfl := Option.some.inj (hworker.symm.trans hq)
    exact halone hc⟩

/-- The peer slot is empty from the moment that the worker cleared its state. -/
theorem Control.work (h : Control config m) {p : WorkerPoint} (hp : m.worker = some p)
    (hfinished : p ≠ .finished) (fails : Bool) : Control config (m.work config p fails) := by
  have hserving := h.serving p hp hfinished
  have hsource : m.source = none := by
    cases hs : m.source with
    | none => rfl
    | some which =>
        rcases (h.source which hs).2.1 with hw | hw
        · simp [hw] at hp
        · rw [hw] at hp
          exact absurd (Option.some.inj hp).symm hfinished
  have hcount : ¬ (m.saveCount = 0 ∨ m.pool.allocated = false) := fun h0 => by
    simp [(h.unused h0).1] at hp
  have hidle : p ≠ .launched → p ≠ .marked → m.exchange ≠ .running := by
    intro hl hm hr
    rcases h.running hr with hw | hw | hs
    · exact hl (Option.some.inj (hp.symm.trans hw))
    · exact hm (Option.some.inj (hp.symm.trans hw))
    · exact hs hsource
  have hempty := fun (hc : p.peerCleared) => h.receiving (.inl ⟨p, hp, hc⟩)
  have halone := fun hc => (h.alone hc).2 p hp
  cases p with
  | copying =>
      have hr := hidle nofun nofun
      cases fails
      · exact Control.ofWorker rfl hsource hcount nofun (by simpa [Manager.work] using hr)
          nofun (fun _ => hserving) (fun _ => by simp)
      · exact Control.ofWorker rfl hsource hcount nofun (by simpa [Manager.work] using hr)
          nofun (fun hf => absurd rfl hf) (fun _ => by simp)
  | copied =>
      have hr := hidle nofun nofun
      cases hc : config.replicating
      · exact Control.ofWorker (p := .finished) (by simp [Manager.work, hc]) hsource hcount
          nofun (by simpa [Manager.work] using hr) nofun (fun hf => absurd rfl hf)
          (fun _ => by simp)
      · exact Control.ofWorker (p := .readied) (by simp [Manager.work, hc]) hsource hcount
          nofun (by simpa [Manager.work] using hr) nofun (fun _ => by simp [Manager.work])
          (fun hc' => by simp [hc] at hc')
  | readied =>
      exact Control.ofWorker rfl hsource hcount nofun
        (by simpa [Manager.work] using hidle nofun nofun) nofun (fun _ => hserving)
        (fun hc => by simpa using halone hc)
  | stepCleared =>
      refine Control.ofWorker rfl hsource hcount (fun _ slots hslots => ?_)
        (by simpa [Manager.work] using hidle nofun nofun) nofun (fun _ => hserving)
        (fun hc => by simpa using halone hc)
      obtain ⟨slots', -, rfl⟩ := Option.map_eq_some_iff.mp hslots
      rfl
  | stateCleared =>
      refine Control.ofWorker rfl hsource hcount (fun _ slots hslots => ?_)
        (by simpa [Manager.work] using hidle nofun nofun) nofun (fun _ => hserving)
        (fun hc => by simpa using halone hc)
      obtain ⟨slots', hslots', rfl⟩ := Option.map_eq_some_iff.mp hslots
      exact hempty trivial slots' hslots'
  | dataCleared =>
      cases fails
      · exact Control.ofWorker rfl hsource hcount (fun _ => hempty trivial)
          (by simp [Manager.work]) nofun (fun _ => hserving)
          (fun hc => by simpa using halone hc)
      · exact Control.ofWorker rfl hsource hcount nofun
          (by simpa [Manager.work] using hidle nofun nofun) nofun
          (fun hf => absurd rfl hf) (fun _ => by simp)
  | launched =>
      exact Control.ofWorker rfl hsource hcount (fun _ => hempty trivial)
        (by simpa [Manager.work] using h.launched (.inl hp)) (fun _ => rfl)
        (fun _ => by simp [Manager.work]) (fun hc => by simpa using halone hc)
  | marked =>
      exact
        { receiving := fun _ => hempty trivial
          running := fun _ => .inr (.inr (by simp [Manager.work]))
          launched := fun hw => by simp [Manager.work] at hw
          marked := fun hw => by simp [Manager.work] at hw
          serving := fun q hq hf => by simp [Manager.work] at hq; exact absurd hq.symm hf
          source := fun which hs => ⟨(Option.some.inj hs).symm, .inr rfl, h.marked hp⟩
          unused := fun h0 => absurd h0 hcount
          alone := fun hc => by simpa using halone hc }
  | finished => exact absurd rfl hfinished

theorem Control.transfer (h : Control config m) (tensors : List α) :
    Control config (m.modifyPeer fun slot => { slot with tensors }) where
  receiving hr slots hslots := by
    obtain ⟨slots', hslots', rfl⟩ := Option.map_eq_some_iff.mp hslots
    exact h.receiving hr slots' hslots'
  running := h.running
  launched := h.launched
  marked := h.marked
  serving := h.serving
  source := h.source
  unused := h.unused
  alone := h.alone

theorem Control.withWrites (h : Control config m) (writes : List (Written α ε κ)) :
    Control config { m with writes } :=
  { h with }

theorem flushToDisk_cases (m : Manager α ε κ) (step : Option Int) (diskFails : Bool) :
    ∃ writes, (m.flushToDisk step diskFails).state = { m with writes } := by
  unfold flushToDisk
  split
  · exact ⟨m.writes, rfl⟩
  · dsimp only
    split
    · exact ⟨m.writes, rfl⟩
    · split
      · exact ⟨m.writes, rfl⟩
      · exact ⟨_, rfl⟩

theorem control_preserved (ok : Manager α ε κ → Event α ε κ → Prop) :
    Preserved config host ok (Control config) where
  save _ metadata tensors step waited diskFails hm _ hjoin :=
    hm.save hjoin metadata tensors step waited diskFails
  join _ hm hjoin := by
    rw [waitForCompletionWorker_eq]
    exact hm.join hjoin false
  finalize _ waited hm hjoin := (hm.finalizeReplication hjoin waited).1
  flush _ _ hm _ := hm.withWrites _
  disk m step diskFails hm _ := by
    obtain ⟨writes, hstate⟩ := flushToDisk_cases m step diskFails
    rw [hstate]
    exact hm.withWrites _
  work _ _ fails hm hp hfinished := hm.work hp hfinished fails
  transfer _ tensors hm _ := hm.transfer tensors

/-- **Every state of a run is under control.** -/
theorem Reaches.control {ok : Manager α ε κ → Event α ε κ → Prop}
    (h : Reaches config host ok m) : Control config m :=
  h.rule control_init (control_preserved ok)

/-- Under control, an invariant may be shown with it. -/
theorem Preserved.withControl {ok : Manager α ε κ → Event α ε κ → Prop}
    {I : Manager α ε κ → Prop}
    (save : ∀ m metadata tensors step waited diskFails, Control config m → I m →
      ok m (.save metadata tensors step waited diskFails) → m.saveCount = 0 ∨ m.joinable →
      I (m.save config host metadata tensors step waited diskFails).state)
    (finalize : ∀ m waited, Control config m → I m → m.joinable →
      I (m.finalizeReplication config waited).state)
    (join : ∀ m, I m → I { m with worker := none, completionError := false })
    (flush : ∀ m writes, I m → (∀ w ∈ writes, Flushed m w) →
      I { m with writes := writes ++ m.writes })
    (disk : ∀ m step diskFails, I m → ok m (.flushToDisk step diskFails) →
      I (m.flushToDisk step diskFails).state)
    (work : ∀ m p fails, Control config m → I m → m.worker = some p → p ≠ .finished →
      I (m.work config p fails))
    (transfer : ∀ m tensors, Control config m → I m → m.exchange = .running →
      I (m.modifyPeer fun slot => { slot with tensors })) :
    Preserved config host ok fun m => Control config m ∧ I m where
  save m metadata tensors step waited diskFails hm hok hjoin :=
    ⟨hm.1.save hjoin metadata tensors step waited diskFails,
      save m metadata tensors step waited diskFails hm.1 hm.2 hok hjoin⟩
  join m hm hjoin := by
    rw [waitForCompletionWorker_eq]
    exact ⟨hm.1.join hjoin false, join m hm.2⟩
  finalize m waited hm hjoin :=
    ⟨(hm.1.finalizeReplication hjoin waited).1, finalize m waited hm.1 hm.2 hjoin⟩
  flush m writes hm hflushed := ⟨hm.1.withWrites _, flush m writes hm.2 hflushed⟩
  disk m step diskFails hm hok := by
    refine ⟨?_, disk m step diskFails hm.2 hok⟩
    obtain ⟨writes, hstate⟩ := flushToDisk_cases m step diskFails
    rw [hstate]
    exact hm.1.withWrites _
  work m p fails hm hp hfinished :=
    ⟨hm.1.work hp hfinished fails, work m p fails hm.1 hm.2 hp hfinished⟩
  transfer m tensors hm hrunning :=
    ⟨hm.1.transfer tensors, transfer m tensors hm.1 hm.2 hrunning⟩

end Manager

end LmResiliency.Checkpointing
