/-
# Provenance — whose bytes a slot holds and a shard contains

A slot that is labelled with a step holds what was captured at that step, and
what is written for this rank under a step was captured by it at that step.
Two events break this: a copy that gives up midway over a slot that is still
labelled, and an explicit flush of a step that only a peer slot has.

The main results, `own_shards_captured` and `untorn_intact`, compare with the
tensors that `save` was given (`labelCapture`), not with what the slot holds
afterwards.  What a peer sent is taken as it came.
-/
import LmResiliency.Checkpointing.ManagerInv
import Mathlib.Data.List.Forall2

namespace LmResiliency.Checkpointing

namespace Manager

variable {α ε κ : Type} {config : ManagerConfig} {host : HostCopy α ε}
  {m m' : Manager α ε κ}

/-! ## What a run must not do -/

/-- Every source fits its buffer. -/
def Fits (host : HostCopy α ε) : List α → List α → Prop
  | src :: srcs, dst :: dsts => (host.copyInto dst src).isSome ∧ Fits host srcs dsts
  | _, _ => True

/-- The first source fits its buffer and a later one does not. -/
def PartialCopy (host : HostCopy α ε) : List α → List α → Prop
  | src :: srcs, dst :: dsts =>
      srcs.length = dsts.length ∧ (host.copyInto dst src).isSome ∧ ¬ Fits host srcs dsts
  | _, _ => False

/-- The exchange brings the generation that was sent. -/
def Aligned (m : Manager α ε κ) (waited : Waited α ε κ) : Prop :=
  ∃ source, m.source = some source ∧ 0 < (m.wait waited).2.1 ∧
    (m.wait waited).2.1 = (m.own source).step ∧ (m.wait waited).2.2 ≠ none

/-- The next save reuses `own_previous`. -/
def Rotates (config : ManagerConfig) (m : Manager α ε κ) (waited : Waited α ε κ) : Prop :=
  m.saveCount ≠ 0 ∧ m.completionError = false ∧
    (config.replicating = false ∨ m.source = none ∨ m.Aligned waited)

/-- A save that gives up midway over a slot which holds a generation. -/
def Torn (config : ManagerConfig) (host : HostCopy α ε) (m : Manager α ε κ) :
    Event α ε κ → Prop
  | .save _ tensors _ waited _ =>
      Rotates config m waited ∧ m.copyInFlight = false ∧
        m.pool.ownPrevious.state ≠ .empty ∧ PartialCopy host tensors m.pool.ownPrevious.tensors
  | _ => False

theorem copyLoop_fits {srcs dsts : List α} (h : Fits host srcs dsts) :
    (copyLoop host srcs dsts).2 = true := by
  induction srcs generalizing dsts with
  | nil => simp [copyLoop]
  | cons src srcs ih =>
      cases dsts with
      | nil => simp [copyLoop]
      | cons dst dsts =>
          obtain ⟨copy, hcopy⟩ := Option.isSome_iff_exists.mp h.1
          simpa [copyLoop, hcopy] using ih h.2

/-- A copy that gives up has copied a part, or nothing. -/
theorem copyLoop_gaveUp {srcs dsts : List α} (hlength : srcs.length = dsts.length)
    (hloop : (copyLoop host srcs dsts).2 = false) (h : ¬ PartialCopy host srcs dsts) :
    (copyLoop host srcs dsts).1 = dsts := by
  cases srcs with
  | nil => simp [copyLoop] at hloop
  | cons src srcs =>
      cases dsts with
      | nil => simp at hlength
      | cons dst dsts =>
          cases hcopy : host.copyInto dst src with
          | none => simp [copyLoop, hcopy]
          | some copy =>
              refine absurd ⟨by simpa using hlength, by simp [hcopy], fun hfits => ?_⟩ h
              simp [copyLoop, hcopy, copyLoop_fits hfits] at hloop

/-- What `copy_` makes of a buffer, from a source. -/
def CopyOf (host : HostCopy α ε) (src t : α) : Prop := ∃ dst, host.copyInto dst src = some t

/-- A copy that comes to its end has copied every source. -/
theorem copyLoop_copies {srcs dsts : List α} (hlength : srcs.length = dsts.length)
    (hloop : (copyLoop host srcs dsts).2 = true) :
    List.Forall₂ (CopyOf host) srcs (copyLoop host srcs dsts).1 := by
  induction srcs generalizing dsts with
  | nil =>
      obtain rfl := List.length_eq_zero_iff.mp hlength.symm
      exact .nil
  | cons src srcs ih =>
      cases dsts with
      | nil => simp at hlength
      | cons dst dsts =>
          cases hcopy : host.copyInto dst src with
          | none => simp [copyLoop, hcopy] at hloop
          | some t =>
              simp only [copyLoop, hcopy] at hloop ⊢
              exact .cons ⟨dst, hcopy⟩ (ih (by simpa using hlength) hloop)

/-! ## Own slots -/

/-- A slot with the same contents, which is empty if the other is. -/
structure Relabelled (slot slot' : BufferSlot α ε κ) : Prop where
  step : slot'.step = slot.step
  tensors : slot'.tensors = slot.tensors
  nonTensorData : slot'.nonTensorData = slot.nonTensorData
  empty : slot'.state = .empty ↔ slot.state = .empty

theorem Relabelled.refl (slot : BufferSlot α ε κ) : Relabelled slot slot := ⟨rfl, rfl, rfl, .rfl⟩

theorem Relabelled.trans {a b c : BufferSlot α ε κ} (h : Relabelled a b)
    (h' : Relabelled b c) : Relabelled a c :=
  ⟨h'.step.trans h.step, h'.tensors.trans h.tensors,
    h'.nonTensorData.trans h.nonTensorData, h'.empty.trans h.empty⟩

/-- The own slots have kept their contents. -/
structure Kept (m m' : Manager α ε κ) : Prop where
  own : ∀ which, Relabelled (m.own which) (m'.own which)
  captures : m'.captures = m.captures
  allocated : m'.pool.allocated = m.pool.allocated
  saveCount : m'.saveCount = m.saveCount
  writes : m'.writes = m.writes

theorem Kept.of_own (hown : ∀ which, m'.own which = m.own which)
    (hcaptures : m'.captures = m.captures) (hallocated : m'.pool.allocated = m.pool.allocated)
    (hsaves : m'.saveCount = m.saveCount) (hwrites : m'.writes = m.writes) : Kept m m' :=
  ⟨fun which => by rw [hown which]; exact .refl _, hcaptures, hallocated, hsaves, hwrites⟩

theorem Kept.refl (m : Manager α ε κ) : Kept m m := .of_own (fun _ => rfl) rfl rfl rfl rfl

theorem Kept.trans {m'' : Manager α ε κ} (h : Kept m m') (h' : Kept m' m'') : Kept m m'' :=
  ⟨fun which => (h.own which).trans (h'.own which), h'.captures.trans h.captures,
    h'.allocated.trans h.allocated, h'.saveCount.trans h.saveCount,
    h'.writes.trans h.writes⟩

theorem Kept.label (m : Manager α ε κ) {f : BufferSlot α ε κ → BufferSlot α ε κ}
    {which : OwnSlot} (h : Relabelled (m.own which) (f (m.own which))) :
    Kept m (m.modifyOwn which f) where
  own which' := by
    cases which <;> cases which'
    · exact h
    · exact .refl _
    · exact .refl _
    · exact h
  captures := by simp
  allocated := by simp
  saveCount := by simp
  writes := by simp

theorem Kept.peer {n : Manager α ε κ} (h : Kept m n)
    (f : BufferSlot α ε κ → BufferSlot α ε κ) : Kept m (n.modifyPeer f) :=
  ⟨h.own, h.captures, h.allocated, h.saveCount, h.writes⟩

theorem Kept.withCompleted {n : Manager α ε κ} (h : Kept m n) (completed : Option Int) :
    Kept m { n with completed } := ⟨h.own, h.captures, h.allocated, h.saveCount, h.writes⟩

theorem kept_releaseSource (m : Manager α ε κ) (which : OwnSlot) :
    Kept m (m.releaseSource which) := by
  have h : Kept m (m.modifyOwn which fun slot =>
      if slot.state = .replicating then { slot with state := .ready } else slot) := by
    refine .label m ?_
    split
    · next hstate => exact ⟨rfl, rfl, rfl, by simp [hstate]⟩
    · exact .refl _
  exact h.trans (.of_own (fun which => by cases which <;> rfl) rfl rfl rfl rfl)

theorem kept_wait (m : Manager α ε κ) (waited : Waited α ε κ) : Kept m (m.wait waited).1 := by
  obtain ⟨f, exchange, received, -, hwait⟩ := wait_cases m waited
  rw [hwait]
  exact .of_own (fun which => by cases which <;> rfl) rfl rfl rfl rfl

theorem kept_finalizeExchange (m : Manager α ε κ) (source : OwnSlot) (waited : Waited α ε κ) :
    Kept m (m.finalizeExchange source waited).state := by
  refine (kept_wait m waited).trans ?_
  unfold finalizeExchange
  dsimp only
  split
  · split
    · dsimp only
      exact (Kept.refl _).peer _
    · refine Kept.withCompleted (n := Manager.releaseSource _ source) ?_ _
      exact (((Kept.refl _).peer _).peer _).trans (kept_releaseSource _ source)
  · exact kept_releaseSource _ source

theorem kept_finalizeReplication (config : ManagerConfig) (m : Manager α ε κ)
    (waited : Waited α ε κ) : Kept m (m.finalizeReplication config waited).state := by
  have hjoined : Kept m { m with worker := none, completionError := false } :=
    .of_own (fun which => by cases which <;> rfl) rfl rfl rfl rfl
  unfold finalizeReplication
  rw [waitForCompletionWorker_eq]
  split
  · next hm => obtain ⟨rfl, -⟩ := Ended.mk.inj hm; exact hjoined
  · next hm =>
      obtain ⟨rfl, -⟩ := Ended.mk.inj hm
      split
      · exact hjoined
      · split
        · exact hjoined
        · exact hjoined.trans (kept_finalizeExchange _ _ waited)

/-- A copy of every tensor that the save of its step was given. -/
structure Holds (host : HostCopy α ε) (slot : BufferSlot α ε κ) (capture : Capture α κ) :
    Prop where
  step : capture.step = slot.step
  tensors : List.Forall₂ (CopyOf host) capture.tensors slot.tensors
  nonTensorData : slot.nonTensorData = some capture.nonTensorData

/-- An own slot that is not empty holds a capture. -/
structure Genuine (host : HostCopy α ε) (m : Manager α ε κ) : Prop where
  holds : ∀ which, (m.own which).state ≠ .empty → ∃ c ∈ m.captures, Holds host (m.own which) c
  unlabelled : ∀ which, (m.own which).state = .empty → (m.own which).step ≤ 0
  fresh : m.saveCount = 0 ∨ m.pool.allocated = false → ∀ which, (m.own which).state = .empty

theorem Genuine.kept (h : Genuine host m) (hkept : Kept m m') : Genuine host m' where
  holds which hstate := by
    have hrel := hkept.own which
    obtain ⟨c, hc, hholds⟩ := h.holds which (hrel.empty.not.mp hstate)
    refine ⟨c, hkept.captures ▸ hc, ?_, ?_, ?_⟩
    · exact hholds.step.trans hrel.step.symm
    · exact hrel.tensors ▸ hholds.tensors
    · exact hrel.nonTensorData.trans hholds.nonTensorData
  unlabelled which hstate := by
    have hrel := hkept.own which
    rw [hrel.step]
    exact h.unlabelled which (hrel.empty.mp hstate)
  fresh hfresh which := by
    rw [hkept.saveCount, hkept.allocated] at hfresh
    exact (hkept.own which).empty.mpr (h.fresh hfresh which)

theorem Genuine.rotate (h : Genuine host m) : Genuine host m.rotate where
  holds which := by
    cases which
    · exact h.holds .previous
    · exact h.holds .current
  unlabelled which := by
    cases which
    · exact h.unlabelled .previous
    · exact h.unlabelled .current
  fresh hfresh which := by
    cases which
    · exact h.fresh hfresh .previous
    · exact h.fresh hfresh .current

/-- Nothing has to be said of an empty `own_current`. -/
theorem Genuine.dropped (h : Genuine host m) {f : BufferSlot α ε κ → BufferSlot α ε κ}
    (hstate : (f m.pool.ownCurrent).state = .empty) (hstep : (f m.pool.ownCurrent).step ≤ 0) :
    Genuine host (m.modifyOwn .current f) where
  holds which := by
    cases which
    · exact fun hne => absurd hstate hne
    · exact h.holds .previous
  unlabelled which := by
    cases which
    · exact fun _ => hstep
    · exact h.unlabelled .previous
  fresh hfresh which := by
    cases which
    · exact hstate
    · exact h.fresh hfresh .previous

/-! ## Saving -/

theorem finalizeExchange_true {source : OwnSlot} {waited : Waited α ε κ}
    (h : (m.finalizeExchange source waited).result = some true) :
    0 < (m.wait waited).2.1 ∧ (m.wait waited).2.1 = ((m.wait waited).1.own source).step ∧
      (m.wait waited).2.2 ≠ none := by
  unfold finalizeExchange at h
  dsimp only at h
  split at h
  · next haligned =>
      split at h
      · cases h
      · next hmeta => exact ⟨haligned.1, haligned.2, by simp [hmeta]⟩
  · cases h

/-- Joining the worker does not change what the exchange brings. -/
theorem wait_join (m : Manager α ε κ) (waited : Waited α ε κ) :
    ({ m with worker := none, completionError := false }.wait waited).2 = (m.wait waited).2 := by
  unfold wait
  cases m.exchange with
  | running => cases waited <;> rfl
  | _ => rfl

/-- The outcome of `finalize_replication` is that of the exchange. -/
theorem finalizeReplication_rotates {waited : Waited α ε κ} {succeeded : Bool}
    (h : (m.finalizeReplication config waited).result = some succeeded) :
    m.completionError = false ∧ (succeeded = true →
      config.replicating = false ∨ m.source = none ∨ m.Aligned waited) := by
  unfold finalizeReplication at h
  rw [waitForCompletionWorker_eq] at h
  split at h
  · cases h
  · next hm =>
      obtain ⟨rfl, herror⟩ := Ended.mk.inj hm
      have herror : m.completionError = false := by
        cases he : m.completionError
        · rfl
        · simp [he] at herror
      refine ⟨herror, ?_⟩
      split at h
      · next hc => exact fun _ => .inl hc
      · split at h
        · next hsource => exact fun _ => .inr (.inl hsource)
        · next source hsource =>
            intro hsucceeded
            subst hsucceeded
            have hown := (kept_wait { m with worker := none, completionError := false }
              waited).own source
            have haligned := finalizeExchange_true h
            rw [wait_join] at haligned
            exact .inr (.inr ⟨source, hsource, haligned.1,
              haligned.2.1.trans (hown.step.trans (by cases source <;> rfl)),
              haligned.2.2⟩)

/-- What the save that comes to its copy finds in `own_current`: the old
`own_previous`, or a slot that is empty. -/
theorem Genuine.prepareNextCapture (h : Genuine host m) (waited : Waited α ε κ) :
    Genuine host (m.prepareNextCapture config waited).state ∧
      ((m.prepareNextCapture config waited).result = some () →
        (m.prepareNextCapture config waited).state.pool.ownCurrent.state = .empty ∨
        Rotates config m waited ∧
          Relabelled m.pool.ownPrevious
            (m.prepareNextCapture config waited).state.pool.ownCurrent) := by
  unfold Manager.prepareNextCapture
  split
  · next h0 => exact ⟨h, fun _ => .inl (h.fresh (.inl h0) .current)⟩
  · next h0 =>
      have hkept := kept_finalizeReplication config m waited
      have hfinal := h.kept hkept
      split
      · next m' hm =>
          rw [hm] at hkept hfinal
          exact ⟨hfinal, nofun⟩
      · next m' succeeded hm =>
          have hrotates := finalizeReplication_rotates (congrArg Ended.result hm)
          rw [hm] at hkept hfinal
          split
          · next hc =>
              refine ⟨hfinal.rotate, fun _ => .inr ⟨⟨h0, hrotates.1, ?_⟩, ?_⟩⟩
              · rcases hc with hc | hc
                · exact .inl hc
                · exact hrotates.2 hc
              · exact hkept.own .previous
          · have hdropped := hfinal.dropped (f := BufferSlot.cleared) rfl (by
              simp [BufferSlot.cleared])
            exact ⟨hdropped.kept ((Kept.refl _).peer _), fun _ => .inl rfl⟩

/-- A shard of copies of what this rank was given to capture at its step. -/
def Captures (host : HostCopy α ε) (m : Manager α ε κ) (w : Written α ε κ) : Prop :=
  ∃ c ∈ m.captures, c.step = w.step ∧ List.Forall₂ (CopyOf host) c.tensors w.shard.2 ∧
    c.nonTensorData = w.shard.1.nonTensorData

theorem Genuine.captures (h : Genuine host m) {which : OwnSlot}
    (hstate : (m.own which).state ≠ .empty) (shared : FlatStateDictMetadata ε κ) :
    Captures host m (shardOf .self shared (m.own which)) := by
  obtain ⟨c, hc, hholds⟩ := h.holds which hstate
  exact ⟨c, hc, hholds.step, hholds.tensors, by
    simp [shardOf, BufferSlot.metadata, hholds.nonTensorData]⟩

/-- A new capture, and what `_finalize_save` writes after it. -/
theorem Genuine.captured {srcs : List α} {step : Int} {diskFails : Bool}
    {metadata : FlatStateDictMetadata ε κ} (h : Genuine host m) (hallocated : m.pool.allocated = true)
    (hcaptured : Captured config host metadata srcs step diskFails m m')
    (hwhole : m.pool.ownCurrent.state = .empty ∨ m.copyInFlight = true ∨
      ¬ PartialCopy host srcs m.pool.ownCurrent.tensors) :
    Genuine host m' ∧ (∀ w, Captures host m w → Captures host m' w) ∧
      ∃ writes, m'.writes = writes ++ m.writes ∧ ∀ w ∈ writes, Captures host m' w := by
  cases hcaptured with
  | refused => exact ⟨h, fun _ hw => hw, [], rfl, by simp⟩
  | gaveUp hflight hlength hloop =>
      refine ⟨?_, fun _ hw => hw, [], rfl, by simp⟩
      rcases hwhole with hempty | hflight' | hwhole
      · exact h.dropped hempty (h.unlabelled .current hempty)
      · simp [hflight] at hflight'
      · exact h.kept (.label m ⟨rfl, copyLoop_gaveUp hlength hloop hwhole, rfl, .rfl⟩)
  | copied _ hlength hloop e he =>
      obtain ⟨writes, hstate, hwrites⟩ := finalizeSave_cases config
        (m.captured host metadata srcs step) metadata step diskFails
      rw [← he] at hstate
      -- starting the worker changes neither slots nor history
      suffices hsaved : Genuine host e.state ∧ (∀ w, Captures host m w → Captures host e.state w) ∧
          ∃ writes, e.state.writes = writes ++ m.writes ∧ ∀ w ∈ writes, Captures host e.state w by
        split
        · exact ⟨hsaved.1.kept (.of_own (fun which => by cases which <;> rfl) rfl rfl rfl rfl),
            hsaved.2⟩
        · exact hsaved
      have hgenuine : Genuine host e.state := by
        rw [hstate]
        constructor
        · intro which hne
          cases which
          · exact ⟨_, List.mem_cons_self, rfl, copyLoop_copies hlength hloop, rfl⟩
          · obtain ⟨c, hc, hholds⟩ := h.holds .previous hne
            exact ⟨c, List.mem_cons_of_mem _ hc, hholds⟩
        · intro which hempty
          cases which
          · cases hempty
          · exact h.unlabelled .previous hempty
        · intro hfresh
          rcases hfresh with h0 | hf
          · exact absurd h0 (Nat.succ_ne_zero _)
          · exact absurd (hallocated.symm.trans hf) nofun
      refine ⟨hgenuine, ?_, writes, by rw [hstate]; rfl, ?_⟩
      · rintro w ⟨c, hc, hw⟩
        rw [hstate]
        exact ⟨c, List.mem_cons_of_mem _ hc, hw⟩
      · intro w hw
        obtain ⟨hstep, rfl⟩ := hwrites w hw
        have hown : e.state.own .previous = (m.captured host metadata srcs step).own .previous :=
          by rw [hstate]; rfl
        have hne : (e.state.own .previous).state ≠ .empty := by
          intro hempty
          have hle := hgenuine.unlabelled .previous hempty
          rw [hown] at hle
          exact absurd hstep (not_lt.mpr hle)
        rw [← show e.state.own .previous =
          (m.captured host metadata srcs step).pool.ownPrevious from hown]
        exact hgenuine.captures hne metadata

/-! ## Shards written for this rank -/

/-- An explicit flush of a step that only a peer slot has. -/
def Misplaced (m : Manager α ε κ) : Event α ε κ → Prop
  | .flushToDisk step _ =>
      let target := if step.getD 0 = 0 then m.lastSavedStep else step.getD 0
      let found := fun slot : BufferSlot α ε κ => slot.step = target ∧ slot.complete
      m.pool.ownSlots.find? found = none ∧ m.pool.peerSlots.find? found ≠ none
  | _ => False

/-- Every shard written for this rank is its own capture of the step. -/
def OwnWrites (host : HostCopy α ε) (m : Manager α ε κ) : Prop :=
  ∀ w ∈ m.writes, w.owner = .self → Captures host m w

theorem OwnWrites.append (h : OwnWrites host m) {writes : List (Written α ε κ)}
    (hwrites : ∀ w ∈ writes, w.owner = .self → Captures host m w) :
    OwnWrites host { m with writes := writes ++ m.writes } := by
  intro w hw hself
  rcases List.mem_append.mp hw with hw | hw
  · exact hwrites w hw hself
  · exact h w hw hself

theorem complete_ne_empty {slot : BufferSlot α ε κ} (h : slot.complete = true) :
    slot.state ≠ .empty := by
  intro hempty
  simp [BufferSlot.complete, hempty] at h

theorem mem_ownSlots {slot : BufferSlot α ε κ} (h : slot ∈ m.pool.ownSlots) :
    ∃ which, slot = m.own which := by
  rcases List.mem_cons.mp h with rfl | h
  · exact ⟨.current, rfl⟩
  · exact ⟨.previous, List.mem_singleton.mp h⟩

theorem OwnWrites.kept (h : OwnWrites host m) (hkept : Kept m m') : OwnWrites host m' := by
  intro w hw hself
  obtain ⟨c, hc, hcapture⟩ := h w (hkept.writes ▸ hw) hself
  exact ⟨c, hkept.captures ▸ hc, hcapture⟩

theorem prepareNextCapture_writes (config : ManagerConfig) (m : Manager α ε κ)
    (waited : Waited α ε κ) (h : OwnWrites host m) :
    OwnWrites host (m.prepareNextCapture config waited).state := by
  have hfinal := h.kept (kept_finalizeReplication config m waited)
  unfold prepareNextCapture
  split
  · exact h
  · split
    · next hm => rw [hm] at hfinal; exact hfinal
    · next hm =>
        rw [hm] at hfinal
        split <;> exact hfinal

theorem Genuine.allocate (h : Genuine host m) (hfresh : m.pool.allocated = false)
    (metadata : FlatStateDictMetadata ε κ) : Genuine host (m.allocate host metadata) := by
  have hempty : ∀ which, ((m.allocate host metadata).own which).state = .empty := by
    intro which
    have hstate := h.fresh (.inr hfresh) which
    cases which <;> exact hstate
  refine ⟨fun which hne => absurd (hempty which) hne, fun which _ => ?_, fun _ => hempty⟩
  have hstep := h.unlabelled which (h.fresh (.inr hfresh) which)
  cases which <;> exact hstep

/-- **A save keeps the own slots genuine** unless it gives up midway over a
slot that holds a generation. -/
theorem Genuine.save (h : Genuine host m) {metadata : FlatStateDictMetadata ε κ}
    {tensors : List α} {step : Int} {waited : Waited α ε κ} {diskFails : Bool}
    (htorn : ¬ Torn config host m (.save metadata tensors step waited diskFails)) :
    Genuine host (m.save config host metadata tensors step waited diskFails).state ∧
      (OwnWrites host m →
        OwnWrites host (m.save config host metadata tensors step waited diskFails).state) := by
  -- from here on the pool is allocated
  have hsaved : ∀ n : Manager α ε κ, Genuine host n → n.pool.allocated = true →
      ¬ Torn config host n (.save metadata tensors step waited diskFails) →
      Genuine host (n.doSave config host metadata tensors step waited diskFails).state ∧
        (OwnWrites host n →
          OwnWrites host (n.doSave config host metadata tensors step waited diskFails).state) := by
    intro n h hallocated htorn
    obtain ⟨hgenuine, hslot⟩ := Genuine.prepareNextCapture h waited
    have hframe := prepareNextCapture_frame config n waited
    have hwrites : OwnWrites host n → _ := prepareNextCapture_writes config n waited
    rcases doSave_cases config host n metadata tensors step waited diskFails with
      ⟨-, hstate⟩ | ⟨hprepared, hcaptured⟩
    · rw [hstate]
      exact ⟨hgenuine, hwrites⟩
    · have hwhole : (n.prepareNextCapture config waited).state.pool.ownCurrent.state = .empty ∨
          (n.prepareNextCapture config waited).state.copyInFlight = true ∨
          ¬ PartialCopy host tensors
            (n.prepareNextCapture config waited).state.pool.ownCurrent.tensors := by
        rcases hslot hprepared with hempty | ⟨hrotates, hrelabelled⟩
        · exact .inl hempty
        · refine Classical.or_iff_not_imp_left.mpr fun hne => ?_
          rw [hframe.1, hrelabelled.tensors]
          refine Classical.or_iff_not_imp_left.mpr fun hflight hpartial => ?_
          exact htorn ⟨hrotates, by simpa using hflight, hrelabelled.empty.not.mp hne, hpartial⟩
      obtain ⟨hgenuine', hcaptures, writes, happend, hnew⟩ :=
        hgenuine.captured (hframe.2.trans hallocated) hcaptured hwhole
      refine ⟨hgenuine', fun hown w hw hself => ?_⟩
      rw [happend] at hw
      rcases List.mem_append.mp hw with hw | hw
      · exact hnew w hw
      · exact hcaptures w (hwrites hown w hw hself)
  unfold Manager.save
  dsimp only
  split
  · next hallocated => exact hsaved m h hallocated htorn
  · next hallocated =>
      have hfalse : m.pool.allocated = false := by simpa using hallocated
      refine (hsaved _ (h.allocate hfalse metadata) rfl ?_).imp_right fun hown hm => hown ?_
      · rintro ⟨hrotates, -, hne, -⟩
        exact hne (h.fresh (.inr hfalse) .previous)
      · exact hm

theorem OwnWrites.flushToDisk (h : OwnWrites host m) (hgenuine : Genuine host m) {step : Option Int}
    {diskFails : Bool} (hplaced : ¬ Misplaced m (.flushToDisk step diskFails)) :
    OwnWrites host (m.flushToDisk step diskFails).state := by
  unfold Manager.flushToDisk
  split
  · exact h
  · next shared _ =>
      dsimp only
      split
      · exact h
      · next slot hslot =>
          split
          · exact h
          · have hfound := List.find?_some hslot
            simp only [decide_eq_true_eq] at hfound
            have hmem : slot ∈ m.pool.ownSlots := by
              rw [BufferPool.getSlotByStep, List.find?_append] at hslot
              cases hown : m.pool.ownSlots.find? _ with
              | some slot' =>
                  rw [hown] at hslot
                  obtain rfl := Option.some.inj hslot
                  exact List.mem_of_find?_eq_some hown
              | none =>
                  rw [hown, Option.none_or] at hslot
                  refine absurd ⟨hown, fun hpeer => ?_⟩ hplaced
                  rw [hpeer] at hslot
                  cases hslot
            obtain ⟨which, rfl⟩ := mem_ownSlots hmem
            show OwnWrites host { m with writes := [_] ++ m.writes }
            refine h.append fun w hw _ => ?_
            obtain rfl := List.mem_singleton.mp hw
            have hcaptures := hgenuine.captures (complete_ne_empty hfound.2) shared
            rw [shardOf, hfound.1] at hcaptures
            exact hcaptures

/-! ## Peer slots -/

/-- A peer slot that is `READY` under a step holds what was received as that step;
while the worker clears the slot, its step is -1. -/
def Genuinely (m : Manager α ε κ) (slot : BufferSlot α ε κ) : Prop :=
  slot.state = .ready → slot.step ≠ -1 → (slot.step, slot.tensors) ∈ m.received

/-- The peer slots hold what was received, and so does the receive buffer of an
exchange that has ended. -/
structure Received (m : Manager α ε κ) : Prop where
  current : ∀ slots, m.pool.peer = some slots → Genuinely m slots.1
  previous : ∀ slots, m.pool.peer = some slots → Genuinely m slots.2
  taken : ∀ step peerMeta, m.exchange = .ended step peerMeta → m.source ≠ none → 0 < step →
    ∀ slots, m.pool.peer = some slots → (step, slots.1.tensors) ∈ m.received
  fresh : m.pool.allocated = false → ∀ slots, m.pool.peer = some slots →
    slots.1.state = .empty ∧ slots.2.state = .empty

theorem genuinely_of_empty {slot : BufferSlot α ε κ} (h : slot.state = .empty) :
    Genuinely m slot := fun hready => absurd (h.symm.trans hready) nofun

theorem received_init : Received (init config : Manager α ε κ) := by
  have hempty : ∀ slots : BufferSlot α ε κ × BufferSlot α ε κ,
      (init config : Manager α ε κ).pool.peer = some slots →
      slots.1.state = .empty ∧ slots.2.state = .empty := by
    intro slots hslots
    simp only [init] at hslots
    split at hslots
    · cases hslots
    · cases hslots; exact ⟨rfl, rfl⟩
  exact ⟨fun slots h => genuinely_of_empty (hempty slots h).1,
    fun slots h => genuinely_of_empty (hempty slots h).2, nofun, fun _ => hempty⟩

/-- What has to do with neither the peer slots nor the exchange, except that the
source may be gone. -/
theorem Received.frame (h : Received m) (hpeer : m'.pool.peer = m.pool.peer)
    (hexchange : m'.source = none ∨ m'.exchange = m.exchange ∧ m'.source = m.source)
    (hreceived : m'.received = m.received)
    (hallocated : m'.pool.allocated = m.pool.allocated) : Received m' := by
  have hgenuinely : ∀ slot, Genuinely m slot → Genuinely m' slot := fun slot hslot hr hs =>
    hreceived ▸ hslot hr hs
  constructor
  · intro slots hslots
    exact hgenuinely _ (h.current slots (hpeer ▸ hslots))
  · intro slots hslots
    exact hgenuinely _ (h.previous slots (hpeer ▸ hslots))
  · intro step peerMeta hended hsource hstep slots hslots
    rcases hexchange with hnone | ⟨hexchange, hsame⟩
    · exact absurd hnone hsource
    · rw [hreceived]
      exact h.taken step peerMeta (hexchange ▸ hended) (hsame ▸ hsource) hstep slots
        (hpeer ▸ hslots)
  · intro hfresh slots hslots
    exact h.fresh (hallocated ▸ hfresh) slots (hpeer ▸ hslots)

/-- Any change to an empty `peer_current` that leaves it empty. -/
theorem Received.onCurrent (h : Received m) {f : BufferSlot α ε κ → BufferSlot α ε κ}
    (hcurrent : ∀ slots, m.pool.peer = some slots → Genuinely m (f slots.1))
    (htaken : m.source = none ∨ m.exchange = .running ∨ ∀ slot, (f slot).tensors = slot.tensors)
    (hempty : m.pool.allocated = true ∨ ∀ slot, slot.state = .empty → (f slot).state = .empty) :
    Received (m.modifyPeer f) where
  current slots hslots := by
    obtain ⟨slots', hslots', rfl⟩ := Option.map_eq_some_iff.mp hslots
    exact hcurrent slots' hslots'
  previous slots hslots := by
    obtain ⟨slots', hslots', rfl⟩ := Option.map_eq_some_iff.mp hslots
    exact h.previous slots' hslots'
  taken step peerMeta hexchange hsource hstep slots hslots := by
    obtain ⟨slots', hslots', rfl⟩ := Option.map_eq_some_iff.mp hslots
    rcases htaken with hnone | hrunning | htensors
    · exact absurd hnone hsource
    · exact absurd (hrunning.symm.trans hexchange) nofun
    · dsimp only
      rw [htensors]
      exact h.taken step peerMeta hexchange hsource hstep slots' hslots'
  fresh hfresh slots hslots := by
    obtain ⟨slots', hslots', rfl⟩ := Option.map_eq_some_iff.mp hslots
    obtain ⟨hcur, hprev⟩ := h.fresh hfresh slots' hslots'
    rcases hempty with hallocated | hempty
    · exact absurd (hallocated.symm.trans hfresh) nofun
    · exact ⟨hempty _ hcur, hprev⟩

/-- Waiting for the exchange: what has been received is in the buffer. -/
theorem Received.wait (h : Received m) (hsource : m.source ≠ none)
    (hempty : ∀ slots, m.pool.peer = some slots → slots.1.state = .empty)
    (waited : Waited α ε κ) :
    Received (m.wait waited).1 ∧ (0 < (m.wait waited).2.1 →
      ∀ slots, (m.wait waited).1.pool.peer = some slots →
        ((m.wait waited).2.1, slots.1.tensors) ∈ (m.wait waited).1.received) := by
  unfold Manager.wait
  split
  · exact ⟨h, nofun⟩
  · next peerStep peerMeta hexchange =>
      exact ⟨h, fun hstep => h.taken peerStep peerMeta hexchange hsource hstep⟩
  · next hexchange =>
      cases waited with
      | failed tensors =>
          refine ⟨⟨?_, ?_, ?_, ?_⟩, nofun⟩
          · intro slots hslots
            obtain ⟨slots', hslots', rfl⟩ := Option.map_eq_some_iff.mp hslots
            exact genuinely_of_empty (hempty slots' hslots')
          · intro slots hslots
            obtain ⟨slots', hslots', rfl⟩ := Option.map_eq_some_iff.mp hslots
            exact h.previous slots' hslots'
          · rintro step peerMeta he - hstep
            cases he
            exact absurd hstep (by decide)
          · intro hfresh slots hslots
            obtain ⟨slots', hslots', rfl⟩ := Option.map_eq_some_iff.mp hslots
            exact h.fresh hfresh slots' hslots'
      | received peerStep peerMeta tensors =>
          refine ⟨⟨?_, ?_, ?_, ?_⟩, ?_⟩
          · intro slots hslots
            obtain ⟨slots', hslots', rfl⟩ := Option.map_eq_some_iff.mp hslots
            exact genuinely_of_empty (hempty slots' hslots')
          · intro slots hslots
            obtain ⟨slots', hslots', rfl⟩ := Option.map_eq_some_iff.mp hslots
            exact fun hready hstep =>
              List.mem_cons_of_mem _ (h.previous slots' hslots' hready hstep)
          · rintro step peerMeta he - hstep slots hslots
            cases he
            obtain ⟨slots', hslots', rfl⟩ := Option.map_eq_some_iff.mp hslots
            exact List.mem_cons_self
          · intro hfresh slots hslots
            obtain ⟨slots', hslots', rfl⟩ := Option.map_eq_some_iff.mp hslots
            exact h.fresh hfresh slots' hslots'
          · intro _ slots hslots
            obtain ⟨slots', hslots', rfl⟩ := Option.map_eq_some_iff.mp hslots
            exact List.mem_cons_self

/-- Once the source is released, the end of the exchange says no more. -/
theorem Received.release (h : Received m) (which : OwnSlot) :
    Received (m.releaseSource which) :=
  h.frame (by simp [releaseSource]) (.inl rfl) (by simp [releaseSource]) (by simp [releaseSource])

theorem Received.finalizeExchange (h : Received m) (hallocated : m.pool.allocated = true)
    {which : OwnSlot} (hsource : m.source = some which)
    (hempty : ∀ slots, m.pool.peer = some slots → slots.1.state = .empty)
    (waited : Waited α ε κ) : Received (m.finalizeExchange which waited).state := by
  obtain ⟨hreceived, htaken⟩ := h.wait (by simp [hsource]) hempty waited
  have hkept := kept_wait m waited
  have hempty' : ∀ slots, (m.wait waited).1.pool.peer = some slots →
      slots.1.state = .empty := by
    obtain ⟨f, exchange, received, -, hwait⟩ := wait_cases m waited
    rw [hwait]
    intro slots hslots
    obtain ⟨slots', hslots', rfl⟩ := Option.map_eq_some_iff.mp hslots
    exact hempty slots' hslots'
  unfold Manager.finalizeExchange
  dsimp only
  split
  · next haligned =>
      have hstepped : Received ((m.wait waited).1.modifyPeer fun slot =>
          { slot with step := (m.wait waited).2.1 }) :=
        hreceived.onCurrent (fun slots hslots => genuinely_of_empty (hempty' slots hslots))
          (.inr (.inr fun _ => rfl)) (.inr fun _ hslot => hslot)
      split
      · exact hstepped
      · next nonTensorData tensorEntries _ =>
        have hcommitted := hstepped.onCurrent (f := fun slot => { slot with
            nonTensorData, tensorEntries, state := .ready })
          (fun slots hslots _ _ => by
            obtain ⟨slots', hslots', rfl⟩ := Option.map_eq_some_iff.mp hslots
            exact htaken haligned.1 slots' hslots')
          (.inr (.inr fun _ => rfl)) (.inl (hkept.allocated.trans hallocated))
        exact (hcommitted.release which).frame rfl (.inl rfl) rfl rfl
  · exact hreceived.release which

theorem Received.finalizeReplication (h : Received m) (hcontrol : Control config m)
    (waited : Waited α ε κ) :
    Received (m.finalizeReplication config waited).state := by
  have hjoined : Received { m with worker := none, completionError := false } :=
    h.frame rfl (.inr ⟨rfl, rfl⟩) rfl rfl
  unfold Manager.finalizeReplication
  rw [waitForCompletionWorker_eq]
  split
  · next hm => obtain ⟨rfl, -⟩ := Ended.mk.inj hm; exact hjoined
  · next hm =>
      obtain ⟨rfl, -⟩ := Ended.mk.inj hm
      split
      · exact hjoined
      · split
        · exact hjoined
        · next which hsource =>
            refine hjoined.finalizeExchange ?_ hsource ?_ waited
            · by_contra hfalse
              have hnone := (hcontrol.unused (.inr (by simpa using hfalse))).2
              exact absurd (hnone.symm.trans hsource) nofun
            · exact hcontrol.receiving (.inr fun hnone => absurd (hnone.symm.trans hsource) nofun)

theorem Received.prepareNextCapture (h : Received m) (hcontrol : Control config m)
    (hjoin : m.saveCount = 0 ∨ m.joinable) (waited : Waited α ε κ) :
    Received (m.prepareNextCapture config waited).state := by
  unfold Manager.prepareNextCapture
  split
  · exact h
  · next h0 =>
      have hjoin := hjoin.resolve_left h0
      have hfinal := h.finalizeReplication hcontrol waited
      have hquiet := (hcontrol.finalizeReplication hjoin waited).2
      split
      · next hm => rw [hm] at hfinal; exact hfinal
      · next m' succeeded hm =>
          rw [hm] at hfinal hquiet
          have hsource := (hquiet nofun).source
          split
          · exact
              { current := fun slots hslots => by
                  obtain ⟨slots', hslots', rfl⟩ := Option.map_eq_some_iff.mp hslots
                  exact hfinal.previous slots' hslots'
                previous := fun slots hslots => by
                  obtain ⟨slots', hslots', rfl⟩ := Option.map_eq_some_iff.mp hslots
                  exact hfinal.current slots' hslots'
                taken := fun _ _ _ hs =>
                  absurd (congrArg (Option.map OwnSlot.rotated) hsource) hs
                fresh := fun hfresh slots hslots => by
                  obtain ⟨slots', hslots', rfl⟩ := Option.map_eq_some_iff.mp hslots
                  exact (hfinal.fresh hfresh slots' hslots').symm }
          · refine Received.onCurrent (m := m'.modifyOwn .current _)
              (hfinal.frame rfl (.inr ⟨rfl, rfl⟩) rfl rfl) (fun slots _ => genuinely_of_empty rfl)
              (.inl hsource) (.inr fun _ _ => rfl)

theorem Received.captured {metadata : FlatStateDictMetadata ε κ} {srcs : List α} {step : Int}
    {diskFails : Bool} (h : Received m)
    (hcaptured : Captured config host metadata srcs step diskFails m m') : Received m' := by
  cases hcaptured with
  | refused => exact h
  | gaveUp => exact h.frame rfl (.inr ⟨rfl, rfl⟩) rfl rfl
  | copied _ _ _ e he =>
      obtain ⟨writes, hstate, -⟩ := finalizeSave_cases config
        (m.captured host metadata srcs step) metadata step diskFails
      rw [← he] at hstate
      rw [hstate]
      split
      · exact h.frame rfl (.inr ⟨rfl, rfl⟩) rfl rfl
      · exact h.frame rfl (.inr ⟨rfl, rfl⟩) rfl rfl

theorem Received.allocate (h : Received m) (hfresh : m.pool.allocated = false)
    (metadata : FlatStateDictMetadata ε κ) (hsource : m.source = none) :
    Received (m.allocate host metadata) where
  current slots hslots := by
    obtain ⟨slots', hslots', rfl⟩ := Option.map_eq_some_iff.mp hslots
    exact genuinely_of_empty (h.fresh hfresh slots' hslots').1
  previous slots hslots := by
    obtain ⟨slots', hslots', rfl⟩ := Option.map_eq_some_iff.mp hslots
    exact genuinely_of_empty (h.fresh hfresh slots' hslots').2
  taken _ _ _ hs := absurd hsource hs
  fresh hallocated := absurd hallocated nofun

theorem Received.save (h : Received m) (hcontrol : Control config m)
    (hjoin : m.saveCount = 0 ∨ m.joinable) (metadata : FlatStateDictMetadata ε κ)
    (tensors : List α) (step : Int) (waited : Waited α ε κ) (diskFails : Bool) :
    Received (m.save config host metadata tensors step waited diskFails).state := by
  have hsaved : ∀ n : Manager α ε κ, Received n → Control config n →
      n.saveCount = 0 ∨ n.joinable →
      Received (n.doSave config host metadata tensors step waited diskFails).state := by
    intro n h hcontrol hjoin
    have hprepared := h.prepareNextCapture hcontrol hjoin waited
    rcases doSave_cases config host n metadata tensors step waited diskFails with
      ⟨-, hstate⟩ | ⟨-, hcaptured⟩
    · rw [hstate]
      exact hprepared
    · exact hprepared.captured hcaptured
  unfold Manager.save
  dsimp only
  split
  · exact hsaved m h hcontrol hjoin
  · next hallocated =>
      have hfresh : m.pool.allocated = false := by simpa using hallocated
      exact hsaved _ (h.allocate hfresh metadata (hcontrol.unused (.inr hfresh)).2)
        (hcontrol.allocate metadata) hjoin

/-- The worker clears the step of the peer slot first, and then its state. -/
theorem Received.work (h : Received m) (hcontrol : Control config m) {p : WorkerPoint}
    (hp : m.worker = some p) (fails : Bool) : Received (m.work config p fails) := by
  have hframe : ∀ {n : Manager α ε κ}, Received n → ∀ worker, Received { n with worker } :=
    fun h _ => h.frame rfl (.inr ⟨rfl, rfl⟩) rfl rfl
  cases p with
  | copying => cases fails <;> exact h.frame rfl (.inr ⟨rfl, rfl⟩) rfl rfl
  | copied => exact h.frame rfl (.inr ⟨rfl, rfl⟩) rfl rfl
  | readied =>
      refine hframe (h.onCurrent (f := fun slot => { slot with step := -1 })
        ?_ (.inr (.inr fun _ => rfl)) ?_) _
      · exact fun _ _ _ hstep => absurd rfl hstep
      · exact .inr fun _ hstate => hstate
  | stepCleared =>
      refine hframe (h.onCurrent (f := fun slot => { slot with state := .empty })
        ?_ (.inr (.inr fun _ => rfl)) ?_) _
      · exact fun _ _ => genuinely_of_empty rfl
      · exact .inr fun _ _ => rfl
  | stateCleared =>
      refine hframe (h.onCurrent (f := fun slot => { slot with nonTensorData := none })
        ?_ (.inr (.inr fun _ => rfl)) ?_) _
      · exact h.current
      · exact .inr fun _ hstate => hstate
  | dataCleared =>
      cases fails
      · exact ⟨h.current, h.previous, nofun, h.fresh⟩
      · exact h.frame rfl (.inr ⟨rfl, rfl⟩) rfl rfl
  | launched => exact h.frame rfl (.inr ⟨rfl, rfl⟩) rfl rfl
  | marked =>
      have hrunning := hcontrol.launched (.inr hp)
      exact ⟨h.current, h.previous,
        fun _ _ hended => absurd (hrunning.symm.trans hended) nofun, h.fresh⟩
  | finished => exact h

theorem Received.transfer (h : Received m) (hcontrol : Control config m)
    (hrunning : m.exchange = .running) (tensors : List α) :
    Received (m.modifyPeer fun slot => { slot with tensors }) := by
  have hreceiving : m.Receiving := by
    rcases hcontrol.running hrunning with hw | hw | hs
    · exact .inl ⟨_, hw, trivial⟩
    · exact .inl ⟨_, hw, trivial⟩
    · exact .inr hs
  refine h.onCurrent (fun slots hslots => ?_) (.inr (.inl hrunning)) (.inr fun _ hs => hs)
  exact genuinely_of_empty (hcontrol.receiving hreceiving slots hslots)

theorem received_preserved (ok : Manager α ε κ → Event α ε κ → Prop) :
    Preserved config host ok fun m => Control config m ∧ Received m := by
  have hframe : ∀ {m m' : Manager α ε κ}, Received m → m'.pool = m.pool →
      m'.exchange = m.exchange → m'.source = m.source → m'.received = m.received →
      Received m' :=
    fun h hpool hexchange hsource hreceived =>
      h.frame (by rw [hpool]) (.inr ⟨hexchange, hsource⟩) hreceived (by rw [hpool])
  refine .withControl ?_ ?_ ?_ ?_ ?_ ?_ ?_
  · intro m metadata tensors step waited diskFails hc h _ hjoin
    exact h.save hc hjoin metadata tensors step waited diskFails
  · intro m waited hc h _
    exact h.finalizeReplication hc waited
  · intro m h
    exact hframe h rfl rfl rfl rfl
  · intro m writes h _
    exact hframe h rfl rfl rfl rfl
  · intro m step diskFails h _
    obtain ⟨writes, hstate⟩ := flushToDisk_cases m step diskFails
    rw [hstate]
    exact hframe h rfl rfl rfl rfl
  · intro m p fails hc h hp _
    exact h.work hc hp fails
  · intro m tensors hc h hrunning
    exact h.transfer hc hrunning tensors

theorem Reaches.received {ok : Manager α ε κ → Event α ε κ → Prop}
    (h : Reaches config host ok m) : Received m :=
  (h.rule ⟨control_init, received_init⟩ (received_preserved ok)).2

/-! ## Runs -/

theorem Reaches.mono {ok ok' : Manager α ε κ → Event α ε κ → Prop}
    (hok : ∀ m event, ok m event → ok' m event) (h : Reaches config host ok m) :
    Reaches config host ok' m := by
  induction h with
  | init => exact .init
  | step _ hevent hnext ih => exact .step ih (hok _ _ hevent) hnext

/-- The state that events lead to, if they can happen. -/
def run (config : ManagerConfig) (host : HostCopy α ε) :
    List (Event α ε κ) → Manager α ε κ → Option (Manager α ε κ)
  | [], m => some m
  | event :: events, m =>
      match next config host m event with
      | none => none
      | some e => run config host events e.state

/-- Every event of a run is one that `ok` lets pass. -/
def RunOk (config : ManagerConfig) (host : HostCopy α ε)
    (ok : Manager α ε κ → Event α ε κ → Prop) : List (Event α ε κ) → Manager α ε κ → Prop
  | [], _ => True
  | event :: events, m => ok m event ∧
      ∀ e, next config host m event = some e → RunOk config host ok events e.state

theorem Reaches.run {ok : Manager α ε κ → Event α ε κ → Prop} (h : Reaches config host ok m)
    {events : List (Event α ε κ)} (hok : RunOk config host ok events m)
    (hrun : Manager.run config host events m = some m') : Reaches config host ok m' := by
  induction events generalizing m with
  | nil =>
      cases hrun
      exact h
  | cons event events ih =>
      simp only [Manager.run] at hrun
      split at hrun
      · cases hrun
      · next e he => exact ih (.step h hok.1 he) (hok.2 e he) hrun

/-! A sample: tensors are lists, which are copied where the lengths agree. -/

/-- Tensors of one dimension. -/
def sampleHost : HostCopy (List Nat) Nat where
  blank n := List.replicate n 0
  copyInto dst src := if src.length = dst.length then some src else none

/-- A save of two tensors with two entries and one. -/
def sampleSave (step : Int) (tensors : List (List Nat))
    (waited : Waited (List Nat) Nat Unit) : Event (List Nat) Nat Unit :=
  .save ⟨[2, 1], ()⟩ tensors step waited false

/-- The steps of the worker that nothing fails in. -/
def sampleWork (n : Nat) : List (Event (List Nat) Nat Unit) := List.replicate n (.work false)

theorem runOk_events {ok : Event α ε κ → Prop} {events : List (Event α ε κ)}
    (h : ∀ event ∈ events, ok event) (m : Manager α ε κ) :
    RunOk config host (fun _ event => ok event) events m := by
  induction events generalizing m with
  | nil => trivial
  | cons event events ih =>
      exact ⟨h event List.mem_cons_self,
        fun e _ => ih (fun event hevent => h event (List.mem_cons_of_mem _ hevent)) e.state⟩

/-- Two ranks that replicate. -/
def samplePaired : ManagerConfig where
  skipReplication := false
  severalRanks := true
  diskFlushInterval := 0

/-- The peer's generation of a step. -/
def sampleReceived (step : Int) (tensors : List (List Nat)) : Waited (List Nat) Nat Unit :=
  .received step (some (some (), some [2, 1])) tensors

end Manager

end LmResiliency.Checkpointing
