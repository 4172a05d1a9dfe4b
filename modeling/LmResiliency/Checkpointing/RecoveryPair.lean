/-
# RecoveryPair — the aligned pair that recovery falls back on

Once an exchange has completed, the own slots and the peer slots hold one common
generation.  The pair is in the current slots until the next capture, and in the
previous ones from then on.  It is lost where a save rotates although the current
slots are not paired: `finalize_replication` answers `True` when there is nothing
to finish, also after an exchange that failed.

`pair_kept` is about whole runs in which no call finds nothing to finish while
the current slots hold no pair; `pair_lost` is a run with such a call.
-/
import LmResiliency.Checkpointing.Provenance

namespace LmResiliency.Checkpointing

namespace Manager

variable {α ε κ : Type} {config : ManagerConfig} {host : HostCopy α ε}
  {m m' : Manager α ε κ}

/-! ## Pairs -/

/-- The slot can be restored as the step. -/
def Restorable (slot : BufferSlot α ε κ) (step : Int) : Prop :=
  slot.step = step ∧ slot.complete = true

/-- `own_current` and `peer_current` hold the step. -/
def CurrentPair (m : Manager α ε κ) (step : Int) : Prop :=
  Restorable m.pool.ownCurrent step ∧
    ∃ slots, m.pool.peer = some slots ∧ Restorable slots.1 step

/-- `own_previous` and `peer_previous` hold the step. -/
def PreviousPair (m : Manager α ε κ) (step : Int) : Prop :=
  Restorable m.pool.ownPrevious step ∧
    ∃ slots, m.pool.peer = some slots ∧ Restorable slots.2 step

/-- The own slots and the peer slots both hold one step, `step` or a later one. -/
def HasPair (m : Manager α ε κ) (step : Int) : Prop :=
  ∃ common, step ≤ common ∧ (∃ slot ∈ m.pool.ownSlots, Restorable slot common) ∧
    ∃ slot ∈ m.pool.peerSlots, Restorable slot common

/-- A capture would come to the end of its copy. -/
def CopyLands (host : HostCopy α ε) (m : Manager α ε κ) (srcs dsts : List α) : Prop :=
  m.copyInFlight = false ∧ srcs.length = dsts.length ∧ Fits host srcs dsts

/-- With no exchange to finish, a save overwrites the pair. -/
def Evicts (host : HostCopy α ε) (m : Manager α ε κ) : Event α ε κ → Prop
  | .save _ tensors _ _ _ =>
      m.saveCount ≠ 0 ∧ m.completionError = false ∧ m.source = none ∧
        CopyLands host m tensors m.pool.ownPrevious.tensors ∧
        ∃ step, m.completed = some step ∧ ¬ CurrentPair m step
  | _ => False

/-- With no exchange to finish, `finalize_replication` answers for no pair. -/
def Unfounded (m : Manager α ε κ) : Event α ε κ → Prop
  | .finalizeReplication _ =>
      m.completionError = false ∧ m.source = none ∧ ¬ ∃ step, 0 < step ∧ CurrentPair m step
  | _ => False

/-- Where the pair of the exchange that completed last is. -/
structure Paired (m : Manager α ε κ) : Prop where
  pair : ∀ step, m.completed = some step → 0 < step ∧
    (PreviousPair m step ∨ CurrentPair m step ∧ m.joinable ∧ m.source = none)
  unused : m.saveCount = 0 ∨ m.pool.allocated = false → m.completed = none
  peers : m.pool.peer ≠ none

theorem paired_init (h : config.replicating = true) :
    Paired (init config : Manager α ε κ) := by
  refine ⟨nofun, fun _ => rfl, ?_⟩
  have hskip : config.skipReplication = false := by
    simp only [ManagerConfig.replicating, Bool.and_eq_true, Bool.not_eq_true'] at h
    exact h.1
  simp [init, hskip]

theorem Paired.hasPair (h : Paired m) {step : Int} (hstep : m.completed = some step) :
    HasPair m step := by
  rcases (h.pair step hstep).2 with ⟨hown, slots, hslots, hpeer⟩ | ⟨⟨hown, slots, hslots, hpeer⟩, -⟩
  · exact ⟨step, le_rfl, ⟨_, List.mem_cons_of_mem _ List.mem_cons_self, hown⟩,
      slots.2, by simp [BufferPool.peerSlots, hslots], hpeer⟩
  · exact ⟨step, le_rfl, ⟨_, List.mem_cons_self, hown⟩,
      slots.1, by simp [BufferPool.peerSlots, hslots], hpeer⟩

/-- While a worker or an exchange is there, the pair is in the previous slots. -/
theorem Paired.previous (h : Paired m) (hbusy : ¬ (m.joinable ∧ m.source = none)) {step : Int}
    (hstep : m.completed = some step) : 0 < step ∧ PreviousPair m step :=
  ⟨(h.pair step hstep).1, (h.pair step hstep).2.resolve_right fun hc => hbusy hc.2⟩

/-- The pair in the previous slots is not touched by what happens to the current
ones. -/
theorem PreviousPair.frame {step : Int} (h : PreviousPair m step)
    (hown : m'.pool.ownPrevious = m.pool.ownPrevious)
    (hpeer : m'.pool.peer.map (·.2) = m.pool.peer.map (·.2)) : PreviousPair m' step := by
  obtain ⟨hprevious, slots, hslots, hrestorable⟩ := h
  rw [hslots, Option.map_some] at hpeer
  obtain ⟨slots', hslots', hsame⟩ := Option.map_eq_some_iff.mp hpeer
  exact ⟨hown ▸ hprevious, slots', hslots', hsame ▸ hrestorable⟩

theorem previousPair_rotate {step : Int} (h : CurrentPair m step) :
    PreviousPair m.rotate step := by
  obtain ⟨hown, slots, hslots, hrestorable⟩ := h
  exact ⟨hown, slots.swap, by simp [rotate, BufferPool.rotate, hslots], hrestorable⟩

theorem currentPair_rotate {step : Int} (h : PreviousPair m step) :
    CurrentPair m.rotate step := by
  obtain ⟨hown, slots, hslots, hrestorable⟩ := h
  exact ⟨hown, slots.swap, by simp [rotate, BufferPool.rotate, hslots], hrestorable⟩

/-! ## Finishing an exchange -/

/-- The completed pair is in the previous slots. -/
def Behind (m : Manager α ε κ) : Prop :=
  ∀ step, m.completed = some step → 0 < step ∧ PreviousPair m step

theorem Behind.frame (h : Behind m) (hown : m'.pool.ownPrevious = m.pool.ownPrevious)
    (hpeer : m'.pool.peer.map (·.2) = m.pool.peer.map (·.2))
    (hcompleted : m'.completed = m.completed) : Behind m' := by
  intro step hstep
  obtain ⟨hpos, hprevious⟩ := h step (hcompleted ▸ hstep)
  exact ⟨hpos, hprevious.frame hown hpeer⟩

theorem Behind.modifyPeer (h : Behind m) (f : BufferSlot α ε κ → BufferSlot α ε κ) :
    Behind (m.modifyPeer f) :=
  h.frame rfl (by simp [Function.comp_def]) rfl

theorem Behind.paired (h : Behind m)
    (hunused : m.saveCount = 0 ∨ m.pool.allocated = false → m.completed = none)
    (hpeers : m.pool.peer ≠ none) : Paired m :=
  ⟨fun step hstep => ⟨(h step hstep).1, .inl (h step hstep).2⟩, hunused, hpeers⟩

/-- The exchange that completes leaves its pair in the current slots. -/
theorem Paired.finalizeExchange (h : Paired m) (hcontrol : Control config m)
    (hworker : m.worker = none) {which : OwnSlot} (hsource : m.source = some which)
    (waited : Waited α ε κ) :
    Paired (m.finalizeExchange which waited).state ∧
      ((m.finalizeExchange which waited).result = some true →
        ∃ step, (m.finalizeExchange which waited).state.completed = some step ∧
          CurrentPair (m.finalizeExchange which waited).state step) ∧
      ((m.finalizeExchange which waited).result = some false →
        Behind (m.finalizeExchange which waited).state) := by
  obtain ⟨rfl, hjoin, hstate⟩ := hcontrol.source which hsource
  have hused : ¬ (m.saveCount = 0 ∨ m.pool.allocated = false) := fun h0 =>
    Option.some_ne_none _ (hsource.symm.trans (hcontrol.unused h0).2)
  have hbehind : Behind m := fun step hstep =>
    h.previous (fun hquiet => Option.some_ne_none _ (hsource.symm.trans hquiet.2)) hstep
  obtain ⟨slots, hslots⟩ := Option.ne_none_iff_exists'.mp h.peers
  obtain ⟨f, exchange, received, -, hwait⟩ := wait_cases m waited
  unfold Manager.finalizeExchange
  rcases hw : m.wait waited with ⟨m', peerStep, peerMeta⟩
  have hm' : m' = _ := (congrArg Prod.fst hw).symm.trans hwait
  have hbehind' : Behind m' := by
    rw [hm']
    exact hbehind.frame rfl (by simp [hslots]) rfl
  have hused' : ¬ (m'.saveCount = 0 ∨ m'.pool.allocated = false) := by rw [hm']; exact hused
  have hstate' : m'.pool.ownCurrent.state = .replicating := by rw [hm']; exact hstate
  have hworker' : m'.worker = none := by rw [hm']; exact hworker
  obtain ⟨slots', hslots'⟩ : ∃ slots, m'.pool.peer = some slots := by
    rw [hm']
    exact ⟨_, congrArg (Option.map _) hslots⟩
  dsimp only
  split
  · next haligned =>
      cases peerMeta with
      | none =>
          have hraised := hbehind'.modifyPeer fun slot => { slot with step := peerStep }
          refine ⟨hraised.paired (fun h0 => absurd h0 hused') (by simp [hslots']), ?_, ?_⟩
          · intro hresult
            cases hresult
          · intro hresult
            cases hresult
      | some peer =>
          have hcurrent : ∀ n : Manager α ε κ,
              n = { Manager.releaseSource
                ((m'.modifyPeer fun slot => { slot with step := peerStep }).modifyPeer
                  fun slot => { slot with
                    nonTensorData := peer.1, tensorEntries := peer.2, state := .ready })
                .current with completed := some peerStep } →
              CurrentPair n peerStep ∧ n.joinable ∧ n.source = none := by
            rintro n rfl
            refine ⟨⟨⟨?_, ?_⟩, ({ slots'.1 with
              step := peerStep, nonTensorData := peer.1, tensorEntries := peer.2
              state := .ready }, slots'.2), ?_, rfl, rfl⟩, .inl hworker', rfl⟩
            · simpa [releaseSource, hstate', own] using haligned.2.symm
            · simp [releaseSource, hstate', BufferSlot.complete]
            · simp [releaseSource, hslots']
          obtain ⟨hpair, hquiet⟩ := hcurrent _ rfl
          refine ⟨⟨?_, fun h0 => absurd h0 hused', ?_⟩, fun _ => ⟨peerStep, rfl, hpair⟩, ?_⟩
          · intro step hstep
            obtain rfl := Option.some.inj hstep
            exact ⟨haligned.1, .inr ⟨hpair, hquiet⟩⟩
          · simp [releaseSource, hslots']
          · intro hresult
            cases hresult
  · have hreleased : Behind (m'.releaseSource .current) :=
      hbehind'.frame rfl (by simp [releaseSource]) rfl
    refine ⟨hreleased.paired (fun h0 => absurd h0 hused') (by simp [releaseSource, hslots']),
      ?_, fun _ => hreleased⟩
    intro hresult
    cases hresult

/-- What `finalize_replication` answers says where the pair is, unless there was
nothing to finish. -/
theorem Paired.finalizeReplication (h : Paired m) (hcontrol : Control config m)
    (hrep : config.replicating = true) (hjoin : m.joinable) (waited : Waited α ε κ) :
    Paired (m.finalizeReplication config waited).state ∧
      ((m.finalizeReplication config waited).result = some true →
        m.completionError = false ∧ m.source = none ∧
          (m.finalizeReplication config waited).state =
            { m with worker := none, completionError := false } ∨
        ∃ step, (m.finalizeReplication config waited).state.completed = some step ∧
          CurrentPair (m.finalizeReplication config waited).state step) ∧
      ((m.finalizeReplication config waited).result = some false →
        Behind (m.finalizeReplication config waited).state) := by
  have hjoined : Paired { m with worker := none, completionError := false } := by
    refine ⟨fun step hstep => ⟨(h.pair step hstep).1, ?_⟩, h.unused, h.peers⟩
    exact (h.pair step hstep).2.imp id fun hc => ⟨hc.1, .inl rfl, hc.2.2⟩
  have hcontrolled := hcontrol.join hjoin false
  unfold Manager.finalizeReplication
  rw [waitForCompletionWorker_eq]
  split
  · next hm =>
      obtain ⟨rfl, -⟩ := Ended.mk.inj hm
      exact ⟨hjoined, nofun, nofun⟩
  · next hm =>
      obtain ⟨rfl, herror⟩ := Ended.mk.inj hm
      have herror : m.completionError = false := by
        cases he : m.completionError
        · rfl
        · simp [he] at herror
      split
      · next hc => exact absurd (hrep.symm.trans hc) nofun
      · split
        · next hsource => exact ⟨hjoined, fun _ => .inl ⟨herror, hsource, rfl⟩, nofun⟩
        · next which hsource =>
            obtain ⟨hpaired, htrue, hfalse⟩ :=
              hjoined.finalizeExchange hcontrolled rfl hsource waited
            exact ⟨hpaired, fun hr => .inr (htrue hr), hfalse⟩

/-! ## Saving -/

theorem fits_of_copyLoop {srcs dsts : List α} (h : (copyLoop host srcs dsts).2 = true) :
    Fits host srcs dsts := by
  induction srcs generalizing dsts with
  | nil => trivial
  | cons src srcs ih =>
      cases dsts with
      | nil => trivial
      | cons dst dsts =>
          cases hcopy : host.copyInto dst src with
          | none => simp [copyLoop, hcopy] at h
          | some copy =>
              refine ⟨by simp [hcopy], ih ?_⟩
              simpa [copyLoop, hcopy] using h

/-- Once the slots are free, the pair is behind unless the copy will not land. -/
theorem Paired.prepareNextCapture (h : Paired m) (hcontrol : Control config m)
    (hrep : config.replicating = true) (hjoin : m.saveCount = 0 ∨ m.joinable)
    {metadata : FlatStateDictMetadata ε κ} {tensors : List α} {step : Int}
    {waited : Waited α ε κ} {diskFails : Bool}
    (hok : ¬ Evicts host m (.save metadata tensors step waited diskFails)) :
    Paired (m.prepareNextCapture config waited).state ∧
      ((m.prepareNextCapture config waited).result = some () →
        CopyLands host (m.prepareNextCapture config waited).state tensors
          (m.prepareNextCapture config waited).state.pool.ownCurrent.tensors →
        Behind (m.prepareNextCapture config waited).state) := by
  unfold Manager.prepareNextCapture
  split
  · next h0 =>
      exact ⟨h, fun _ _ step hstep =>
        absurd ((h.unused (.inl h0)).symm.trans hstep) nofun⟩
  · next h0 =>
      have hjoin := hjoin.resolve_left h0
      obtain ⟨hfinal, htrue, hfalse⟩ := h.finalizeReplication hcontrol hrep hjoin waited
      have hquiet := (hcontrol.finalizeReplication hjoin waited).2
      split
      · next m' hm => rw [hm] at hfinal; exact ⟨hfinal, nofun⟩
      · next m' succeeded hm =>
          rw [hm] at hfinal htrue hfalse hquiet
          dsimp only at hfinal htrue hfalse hquiet
          have hidle : Quiet m' := hquiet nofun
          split
          · next hc =>
              have hsucceeded : succeeded = true := by
                rcases hc with hc | hc
                · exact absurd (hrep.symm.trans hc) nofun
                · exact hc
              subst hsucceeded
              have hrotated : Paired m'.rotate := by
                refine ⟨fun step hstep => ⟨(hfinal.pair step hstep).1, ?_⟩,
                  hfinal.unused, ?_⟩
                · rcases (hfinal.pair step hstep).2 with hp | ⟨hp, -⟩
                  · exact .inr ⟨currentPair_rotate hp, .inl hidle.worker, by
                      simp [rotate, hidle.source]⟩
                  · exact .inl (previousPair_rotate hp)
                · simpa [rotate, BufferPool.rotate] using hfinal.peers
              refine ⟨hrotated, fun _ hlands step hstep => ?_⟩
              refine ⟨(hfinal.pair step hstep).1, previousPair_rotate ?_⟩
              rcases htrue rfl with ⟨herror, hsource, rfl⟩ | ⟨step', hstep', hpair⟩
              · by_contra hunpaired
                exact hok ⟨h0, herror, hsource, hlands, step, hstep, hunpaired⟩
              · obtain rfl := Option.some.inj (hstep.symm.trans hstep')
                exact hpair
          · next hc =>
              have hfailed : succeeded = false := by
                cases succeeded
                · rfl
                · exact absurd (.inr rfl) hc
              subst hfailed
              have hcleared : Behind (m'.modifyOwn .current BufferSlot.cleared) :=
                (hfalse rfl).frame rfl rfl rfl
              have hdropped := hcleared.modifyPeer BufferSlot.cleared
              exact ⟨hdropped.paired hfinal.unused
                (by simpa using hfinal.peers), fun _ _ => hdropped⟩

theorem Paired.frame (h : Paired m)
    (hown : ∀ which step, Restorable (m.own which) step → Restorable (m'.own which) step)
    (hpeer : ∀ slots, m.pool.peer = some slots → ∃ slots', m'.pool.peer = some slots' ∧
      (∀ step, Restorable slots.1 step → Restorable slots'.1 step) ∧
      ∀ step, Restorable slots.2 step → Restorable slots'.2 step)
    (hworker : m.joinable → m'.joinable) (hsource : m'.source = m.source)
    (hcompleted : m'.completed = m.completed)
    (hused : m'.saveCount = 0 ∨ m'.pool.allocated = false →
      m.saveCount = 0 ∨ m.pool.allocated = false) : Paired m' where
  pair step hstep := by
    obtain ⟨hpos, hpair⟩ := h.pair step (hcompleted ▸ hstep)
    refine ⟨hpos, ?_⟩
    rcases hpair with ⟨hprevious, slots, hslots, hr⟩ | ⟨⟨hcurrent, slots, hslots, hr⟩, hj, hs⟩
    · obtain ⟨slots', hslots', -, hpeer⟩ := hpeer slots hslots
      exact .inl ⟨hown .previous step hprevious, slots', hslots', hpeer step hr⟩
    · obtain ⟨slots', hslots', hpeer, -⟩ := hpeer slots hslots
      exact .inr ⟨⟨hown .current step hcurrent, slots', hslots', hpeer step hr⟩,
        hworker hj, hsource.trans hs⟩
  unused h0 := hcompleted.trans (h.unused (hused h0))
  peers := by
    obtain ⟨slots, hslots⟩ := Option.ne_none_iff_exists'.mp h.peers
    obtain ⟨slots', hslots', -⟩ := hpeer slots hslots
    simp [hslots']

theorem Paired.captured {metadata : FlatStateDictMetadata ε κ} {srcs : List α} {step : Int}
    {diskFails : Bool} (h : Paired m) (hallocated : m.pool.allocated = true)
    (hbehind : CopyLands host m srcs m.pool.ownCurrent.tensors → Behind m)
    (hcaptured : Captured config host metadata srcs step diskFails m m') : Paired m' := by
  cases hcaptured with
  | refused => exact h
  | gaveUp =>
      refine h.frame (fun which step hr => ?_) (fun slots hslots => ?_) id rfl rfl id
      · cases which <;> exact hr
      · exact ⟨slots, hslots, fun _ => id, fun _ => id⟩
  | copied hflight hlength hloop e he =>
      have hbehind := hbehind ⟨hflight, hlength, fits_of_copyLoop hloop⟩
      obtain ⟨writes, hstate, -⟩ := finalizeSave_cases config
        (m.captured host metadata srcs step) metadata step diskFails
      rw [← he] at hstate
      have hsaved : Behind e.state := by
        rw [hstate]
        exact hbehind.frame rfl rfl rfl
      have hused : ¬ (e.state.saveCount = 0 ∨ e.state.pool.allocated = false) := by
        rw [hstate]
        rintro (h0 | hf)
        · exact Nat.succ_ne_zero _ h0
        · exact absurd (hallocated.symm.trans hf) nofun
      have hpeers : e.state.pool.peer ≠ none := by
        rw [hstate]
        exact h.peers
      split
      · have hstarted : Behind e.state.startCompletionWorker := hsaved.frame rfl rfl rfl
        exact hstarted.paired (fun h0 => absurd h0 hused) hpeers
      · exact hsaved.paired (fun h0 => absurd h0 hused) hpeers

theorem Paired.save (h : Paired m) (hcontrol : Control config m)
    (hrep : config.replicating = true) (hjoin : m.saveCount = 0 ∨ m.joinable)
    {metadata : FlatStateDictMetadata ε κ} {tensors : List α} {step : Int}
    {waited : Waited α ε κ} {diskFails : Bool}
    (hok : ¬ Evicts host m (.save metadata tensors step waited diskFails)) :
    Paired (m.save config host metadata tensors step waited diskFails).state := by
  have hsaved : ∀ n : Manager α ε κ, Paired n → Control config n →
      n.saveCount = 0 ∨ n.joinable → n.pool.allocated = true →
      ¬ Evicts host n (.save metadata tensors step waited diskFails) →
      Paired (n.doSave config host metadata tensors step waited diskFails).state := by
    intro n h hcontrol hjoin hallocated hok
    obtain ⟨hprepared, hbehind⟩ := h.prepareNextCapture hcontrol hrep hjoin hok
    rcases doSave_cases config host n metadata tensors step waited diskFails with
      ⟨-, hstate⟩ | ⟨hresult, hcaptured⟩
    · rw [hstate]
      exact hprepared
    · exact hprepared.captured ((prepareNextCapture_frame config n waited).2.trans hallocated)
        (hbehind hresult) hcaptured
  unfold Manager.save
  dsimp only
  split
  · next hallocated => exact hsaved m h hcontrol hjoin hallocated hok
  · next hallocated =>
      have hnone := h.unused (.inr (by simpa using hallocated))
      have hallocate : Paired (m.allocate host metadata) := by
        refine h.frame (fun which step hr => ?_) (fun slots hslots => ?_) id rfl rfl
          (fun _ => .inr (by simpa using hallocated))
        · cases which <;> exact hr
        · exact ⟨_, congrArg (Option.map _) hslots, fun _ => id, fun _ => id⟩
      refine hsaved _ hallocate (hcontrol.allocate metadata) hjoin rfl ?_
      rintro ⟨-, -, -, -, step', hstep, -⟩
      exact absurd (hnone.symm.trans hstep) nofun

/-- The worker touches the current slots only, and the pair is behind. -/
theorem Paired.work (h : Paired m) {p : WorkerPoint} (hp : m.worker = some p)
    (hfinished : p ≠ .finished) (fails : Bool) : Paired (m.work config p fails) := by
  have hbusy : ¬ (m.joinable ∧ m.source = none) := by
    rintro ⟨hw | hw, -⟩
    · simp [hw] at hp
    · exact hfinished (Option.some.inj (hp.symm.trans hw))
  have hbehind : Behind m := fun step hstep => h.previous hbusy hstep
  obtain ⟨slots, hslots⟩ := Option.ne_none_iff_exists'.mp h.peers
  refine Behind.paired ?_ ?_ ?_
  · cases p with
    | copying => cases fails <;> exact hbehind.frame rfl rfl rfl
    | dataCleared => cases fails <;> exact hbehind.frame rfl rfl rfl
    | _ => exact hbehind.frame rfl (by simp [Manager.work, hslots]) rfl
  · intro h0
    have hnone := h.unused (by cases p <;> cases fails <;> exact h0)
    cases p <;> cases fails <;> exact hnone
  · cases p <;> cases fails <;> simp [Manager.work, hslots]

/-! ## Runs -/

theorem paired_preserved (hrep : config.replicating = true)
    {ok : Manager α ε κ → Event α ε κ → Prop}
    (hok : ∀ m event, ok m event → ¬ Evicts host m event) :
    Preserved config host ok fun m => Control config m ∧ Paired m := by
  refine .withControl ?_ ?_ ?_ ?_ ?_ ?_ ?_
  · intro m metadata tensors step waited diskFails hc hp hevent hjoin
    exact hp.save hc hrep hjoin (hok m _ hevent)
  · intro m waited hc hp hjoin
    exact (hp.finalizeReplication hc hrep hjoin waited).1
  · intro m hp
    refine hp.frame (fun which _ hr => ?_) (fun slots hslots => ?_) (fun _ => .inl rfl) rfl rfl id
    · cases which <;> exact hr
    · exact ⟨slots, hslots, fun _ => id, fun _ => id⟩
  · intro m writes hp _
    exact ⟨hp.pair, hp.unused, hp.peers⟩
  · intro m step diskFails hp _
    obtain ⟨writes, hstate⟩ := flushToDisk_cases m step diskFails
    rw [hstate]
    exact ⟨hp.pair, hp.unused, hp.peers⟩
  · intro m p fails _ hp hworker hfinished
    exact hp.work hworker hfinished fails
  · intro m tensors _ hp _
    refine hp.frame (fun which _ hr => ?_) (fun slots hslots => ?_) id rfl rfl id
    · cases which <;> exact hr
    · exact ⟨_, congrArg (Option.map _) hslots, fun _ => id, fun _ => id⟩

theorem Reaches.paired (hrep : config.replicating = true)
    (h : Reaches config host (fun m event => ¬ Evicts host m event) m) : Paired m :=
  (h.rule ⟨control_init, paired_init hrep⟩ (paired_preserved hrep fun _ _ => id)).2

/-- **Once an exchange has completed, the own slots and the peer slots hold one
common generation, and `finalize_replication` answers `True` only with one** —
in runs in which nothing is saved over an unpaired generation, and nothing
unpaired is finalised, without an exchange to finish. -/
theorem pair_kept (hrep : config.replicating = true)
    (h : Reaches config host
      (fun m event => ¬ Evicts host m event ∧ ¬ Unfounded m event) m) :
    (∀ step, m.completed = some step → HasPair m step) ∧
      ∀ waited e, ¬ Unfounded m (.finalizeReplication waited) →
        next config host m (.finalizeReplication waited) = some e →
        e.result = some (some true) → ∃ step, 0 < step ∧ CurrentPair e.state step := by
  have hpaired := (h.mono fun _ _ hok => hok.1).paired hrep
  refine ⟨fun step hstep => hpaired.hasPair hstep, fun waited e hok hnext hresult => ?_⟩
  simp only [next] at hnext
  split at hnext
  · next hjoin =>
      obtain rfl := Option.some.inj hnext
      obtain ⟨hfinal, htrue, -⟩ := hpaired.finalizeReplication h.control hrep hjoin waited
      have hreturned : (m.finalizeReplication config waited).result = some true := by
        simpa using hresult
      rcases htrue hreturned with ⟨herror, hsource, hstate⟩ | ⟨step, hstep, hpair⟩
      · by_contra hnone
        refine hok ⟨herror, hsource, ?_⟩
        rintro ⟨step, hpos, hpair⟩
        refine hnone ⟨step, hpos, ?_⟩
        rw [hstate]
        exact hpair
      · exact ⟨step, (hfinal.pair step hstep).1, hpair⟩
  · cases hnext

theorem run_append {events events' : List (Event α ε κ)} :
    run config host (events ++ events') m =
      (run config host events m).bind (run config host events') := by
  induction events generalizing m with
  | nil => rfl
  | cons event events ih =>
      simp only [List.cons_append, run]
      split
      · rfl
      · exact ih

theorem RunOk.append {ok : Manager α ε κ → Event α ε κ → Prop}
    {events events' : List (Event α ε κ)} (h : RunOk config host ok events m)
    (h' : ∀ n, run config host events m = some n → RunOk config host ok events' n) :
    RunOk config host ok (events ++ events') m := by
  induction events generalizing m with
  | nil => exact h' m rfl
  | cons event events ih =>
      refine ⟨h.1, fun e he => ih (h.2 e he) fun n hn => h' n ?_⟩
      simp only [run, he]
      exact hn

theorem runOk_work (ok : Manager (List Nat) Nat Unit → Event (List Nat) Nat Unit → Prop)
    (config : ManagerConfig) (host : HostCopy (List Nat) Nat)
    (hok : ∀ m, ok m (.work false)) (n : Nat) (m : Manager (List Nat) Nat Unit) :
    RunOk config host ok (sampleWork n) m := by
  induction n generalizing m with
  | zero => trivial
  | succ n ih => exact ⟨hok m, fun e _ => ih e.state⟩

/-- One save and its exchange. -/
def sampleExchanged : List (Event (List Nat) Nat Unit) :=
  [sampleSave 10 [[1, 1], [1]] (.failed [])] ++ sampleWork 8 ++
    [.finalizeReplication (sampleReceived 10 [[7, 7], [7]])]

theorem pair_kept_sample :
    ∃ m, run samplePaired sampleHost sampleExchanged (init samplePaired) = some m ∧
      m.completed = some 10 ∧ HasPair m 10 := by
  obtain ⟨m, hm⟩ : ∃ m, run samplePaired sampleHost sampleExchanged (init samplePaired) =
      some m := Option.isSome_iff_exists.mp rfl
  have hcompleted : (run samplePaired sampleHost sampleExchanged (init samplePaired)).map
      (·.completed) = some (some 10) := rfl
  rw [hm] at hcompleted
  have hcompleted := Option.some.inj hcompleted
  have hok : RunOk samplePaired sampleHost
      (fun m event => ¬ Evicts sampleHost m event ∧ ¬ Unfounded m event)
      sampleExchanged (init samplePaired) := by
    refine RunOk.append (RunOk.append ⟨⟨fun h => h.1 rfl, id⟩, fun _ _ => trivial⟩ fun n _ =>
      runOk_work _ _ _ (fun _ => ⟨id, id⟩) 8 n) fun n hn => ⟨⟨id, ?_⟩, fun _ _ => trivial⟩
    have hsource : (run samplePaired sampleHost
        ([sampleSave 10 [[1, 1], [1]] (.failed [])] ++ sampleWork 8) (init samplePaired)).map
        (·.source) = some (some .current) := rfl
    rw [hn] at hsource
    exact fun h => absurd ((Option.some.inj hsource).symm.trans h.2.1) nofun
  exact ⟨m, hm, hcompleted,
    (pair_kept rfl (Reaches.run .init hok hm)).1 10 hcompleted⟩

/-- The calls that a run of saves and exchanges is made of. -/
def Exchanging : Event α ε κ → Bool
  | .persistBoundary .. | .flushToDisk .. => false
  | _ => true

/-- A second exchange that fails and is finalised before the third save: that
save finds nothing to finish and rotates the pair of the first one away. -/
theorem pair_lost :
    ¬ ∀ m : Manager (List Nat) Nat Unit,
      Reaches samplePaired sampleHost (fun _ event => Exchanging event) m →
      (∀ step, m.completed = some step → HasPair m step) ∧
        ∀ waited e, next samplePaired sampleHost m (.finalizeReplication waited) = some e →
          e.result = some (some true) → ∃ step, 0 < step ∧ CurrentPair e.state step := by
  intro h
  let events := sampleExchanged ++ [sampleSave 20 [[2, 2], [2]] (.failed [])] ++ sampleWork 8 ++
    [.finalizeReplication (.failed []), sampleSave 30 [[3, 3], [3]] (.failed [])]
  obtain ⟨m, hm⟩ : ∃ m, run samplePaired sampleHost events (init samplePaired) = some m :=
    Option.isSome_iff_exists.mp rfl
  have hfacts : (run samplePaired sampleHost events (init samplePaired)).map
      (fun m => (m.completed,
        m.pool.ownSlots.map fun slot => (slot.step, slot.complete))) =
      some (some 10, [(30, false), (20, true)]) := rfl
  rw [hm, Option.map_some, Option.some.injEq, Prod.mk.injEq] at hfacts
  obtain ⟨hcompleted, hown⟩ := hfacts
  have hpeers : (run samplePaired sampleHost events (init samplePaired)).map
      (fun m => m.pool.peerSlots.map fun slot => (slot.step, slot.complete)) =
      some [(10, true), (-1, false)] := rfl
  rw [hm, Option.map_some, Option.some.injEq] at hpeers
  have hok : RunOk samplePaired sampleHost (fun _ event => Exchanging event) events
      (init samplePaired) := by
    exact runOk_events (List.all_eq_true.mp (rfl : events.all Exchanging = true)) _
  obtain ⟨common, -, ⟨slot, hslot, hr⟩, ⟨peer, hpeer, hr'⟩⟩ :=
    (h m (Reaches.run .init hok hm)).1 10 hcompleted
  have hmem := List.mem_map_of_mem (f := fun slot : BufferSlot (List Nat) Nat Unit =>
    (slot.step, slot.complete)) hslot
  have hmem' := List.mem_map_of_mem (f := fun slot : BufferSlot (List Nat) Nat Unit =>
    (slot.step, slot.complete)) hpeer
  rw [hown, hr.1, hr.2] at hmem
  rw [hpeers, hr'.1, hr'.2] at hmem'
  simp at hmem hmem'
  omega

end Manager

end LmResiliency.Checkpointing
