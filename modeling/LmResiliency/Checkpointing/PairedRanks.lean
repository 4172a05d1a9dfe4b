/-
# PairedRanks — two ranks that keep each other's replicas

Each rank decides from its own view of an exchange which slot the next capture
reuses.  As long as the two views of a generation agree, one rank is at most one
exchange ahead of the other, and its generation is still in a slot of the other.

`ranks_common` is the main result; its condition, that the two ranks agree on
how each exchange ended, is load-bearing: `ranks_without_common` is a run
without it.  Whose bytes the slots hold is left to `Provenance`.
-/
import LmResiliency.Checkpointing.RecoveryPair

namespace LmResiliency.Checkpointing

namespace Manager

variable {α ε κ : Type} {config : ManagerConfig} {host : HostCopy α ε}
  {m m' : Manager α ε κ}

/-! ## What an event does to an exchange -/

/-- The rank has launched the exchange of the step, and has not finished it. -/
def OpenAt (m : Manager α ε κ) (step : Int) : Prop :=
  (m.worker = some .launched ∨ m.worker = some .marked ∨ m.source ≠ none) ∧
    Restorable m.pool.ownCurrent step

/-- The exchange brings another generation than was sent, or none. -/
def Dropped (m : Manager α ε κ) (waited : Waited α ε κ) : Prop :=
  ∃ source, m.source = some source ∧
    ¬ (0 < (m.wait waited).2.1 ∧ (m.wait waited).2.1 = (m.own source).step)

/-- How the exchange turns out that an event waits for. -/
def Event.waited : Event α ε κ → Option (Waited α ε κ)
  | .save _ _ _ waited _ => some waited
  | .finalizeReplication waited => some waited
  | .flushForRestart waited _ => some waited
  | .persistBoundary _ waited _ _ => some waited
  | _ => none

/-- What an event makes of the exchange: nothing, or it is completed or dropped. -/
inductive Outcome (m : Manager α ε κ) (waited : Option (Waited α ε κ)) (m' : Manager α ε κ) :
    Prop where
  | same (hcompleted : m'.completed = m.completed)
      (hopen : ∀ step, OpenAt m step → OpenAt m' step)
  | dropped (w : Waited α ε κ) (hw : waited = some w) (hdropped : Dropped m w)
      (hcompleted : m'.completed = m.completed)
  | completed (w : Waited α ε κ) (hw : waited = some w) (haligned : Aligned m w)
      (hcompleted : m'.completed = some m.pool.ownCurrent.step)

theorem OpenAt.join {step : Int} (h : OpenAt m step) (hjoin : m.joinable) :
    OpenAt { m with worker := none, completionError := false } step := by
  obtain ⟨hopen, hr⟩ := h
  refine ⟨?_, hr⟩
  rcases hopen with hw | hw | hs
  · rcases hjoin with hj | hj <;> simp [hw] at hj
  · rcases hjoin with hj | hj <;> simp [hw] at hj
  · exact .inr (.inr hs)

theorem outcome_finalizeExchange {source : OwnSlot} (hsource : m.source = some source)
    (hcurrent : source = .current) (waited : Waited α ε κ) :
    Outcome m (some waited) (m.finalizeExchange source waited).state := by
  subst hcurrent
  obtain ⟨f, exchange, received, -, hwait⟩ := wait_cases m waited
  have hown : (m.wait waited).1.pool.ownCurrent = m.pool.ownCurrent := by rw [hwait]
  have hcompleted : (m.wait waited).1.completed = m.completed := by rw [hwait]
  have hsource' : (m.wait waited).1.source = m.source := by rw [hwait]
  unfold finalizeExchange
  dsimp only
  split
  · next haligned =>
      split
      · refine .same hcompleted fun step h => ⟨.inr (.inr ?_), ?_⟩
        · exact fun hnone => absurd (hsource'.symm.trans hnone) (by simp [hsource])
        · exact hown ▸ h.2
      · next hmeta =>
          have hstep : (m.wait waited).2.1 = (m.own .current).step :=
            haligned.2.trans (congrArg BufferSlot.step hown)
          refine .completed waited rfl ⟨.current, hsource, haligned.1, hstep, ?_⟩ ?_
          · simp [hmeta]
          · exact congrArg some hstep
  · next haligned =>
      refine .dropped waited rfl ⟨.current, hsource, ?_⟩ ?_
      · rintro ⟨hpos, hstep⟩
        exact haligned ⟨hpos, hstep.trans (congrArg BufferSlot.step hown).symm⟩
      · simpa [releaseSource] using hcompleted

theorem outcome_finalizeReplication (hcontrol : Control config m) (hjoin : m.joinable)
    (waited : Waited α ε κ) :
    Outcome m (some waited) (m.finalizeReplication config waited).state := by
  have hsame : Outcome m (some waited) { m with worker := none, completionError := false } :=
    .same rfl fun step h => h.join hjoin
  unfold Manager.finalizeReplication
  rw [waitForCompletionWorker_eq]
  split
  · next hm =>
      obtain ⟨rfl, -⟩ := Ended.mk.inj hm
      exact hsame
  · next hm =>
      obtain ⟨rfl, -⟩ := Ended.mk.inj hm
      split
      · exact hsame
      · split
        · exact hsame
        · next source hsource =>
            have hwait := wait_join m waited
            cases outcome_finalizeExchange hsource (hcontrol.source source hsource).1 waited with
            | same hcompleted hopen =>
                exact .same hcompleted fun step h => hopen step (h.join hjoin)
            | dropped w hw hdropped hcompleted =>
                obtain rfl := Option.some.inj hw
                obtain ⟨which, hwhich, hnot⟩ := hdropped
                rw [hwait] at hnot
                exact .dropped waited rfl ⟨which, hwhich, hnot⟩ hcompleted
            | completed w hw haligned hcompleted =>
                obtain rfl := Option.some.inj hw
                obtain ⟨which, hwhich, haligned⟩ := haligned
                rw [hwait] at haligned
                exact .completed waited rfl ⟨which, hwhich, haligned⟩ hcompleted

theorem Quiet.not_open (h : Quiet m) (step : Int) : ¬ OpenAt m step := by
  rintro ⟨hw | hw | hs, -⟩
  · simp [h.worker] at hw
  · simp [h.worker] at hw
  · exact hs h.source

/-- With the exchange over, only the completed step matters. -/
theorem Outcome.of_quiet {waited : Option (Waited α ε κ)} {n : Manager α ε κ}
    (h : Outcome m waited m') (hquiet : Quiet m') (hcompleted : n.completed = m'.completed) :
    Outcome m waited n := by
  cases h with
  | same hsame hopen =>
      exact .same (hcompleted.trans hsame) fun step h => absurd (hopen step h) (hquiet.not_open step)
  | dropped w hw hdropped hsame => exact .dropped w hw hdropped (hcompleted.trans hsame)
  | completed w hw haligned hnew => exact .completed w hw haligned (hcompleted.trans hnew)

theorem Captured.completed {metadata : FlatStateDictMetadata ε κ} {srcs : List α} {step : Int}
    {diskFails : Bool} (h : Captured config host metadata srcs step diskFails m m') :
    m'.completed = m.completed := by
  cases h with
  | refused => rfl
  | gaveUp => rfl
  | copied _ _ _ e he =>
      obtain ⟨writes, hstate, -⟩ := finalizeSave_cases config
        (m.captured host metadata srcs step) metadata step diskFails
      rw [← he] at hstate
      have hcompleted : e.state.completed = m.completed := by rw [hstate]; rfl
      split
      · exact hcompleted
      · exact hcompleted

theorem outcome_prepareNextCapture (hcontrol : Control config m)
    (hjoin : m.saveCount = 0 ∨ m.joinable) (waited : Waited α ε κ) :
    Outcome m (some waited) (m.prepareNextCapture config waited).state := by
  unfold Manager.prepareNextCapture
  split
  · exact .same rfl fun _ => id
  · next h0 =>
      have hjoin := hjoin.resolve_left h0
      have houtcome := outcome_finalizeReplication hcontrol hjoin waited
      have hquiet := (hcontrol.finalizeReplication hjoin waited).2
      split
      · next hm => rw [hm] at houtcome; exact houtcome
      · next n succeeded hm =>
          rw [hm] at houtcome hquiet
          split
          · exact houtcome.of_quiet (hquiet nofun) rfl
          · exact houtcome.of_quiet (hquiet nofun) rfl

/-- Before the copy, a save finishes the exchange; after it, there is none. -/
theorem outcome_doSave (hcontrol : Control config m) (hjoin : m.saveCount = 0 ∨ m.joinable)
    (metadata : FlatStateDictMetadata ε κ) (tensors : List α) (step : Int)
    (waited : Waited α ε κ) (diskFails : Bool) :
    Outcome m (some waited)
      (m.doSave config host metadata tensors step waited diskFails).state := by
  have houtcome := outcome_prepareNextCapture hcontrol hjoin waited
  rcases doSave_cases config host m metadata tensors step waited diskFails with
    ⟨-, hstate⟩ | ⟨hresult, hcaptured⟩
  · rw [hstate]
    exact houtcome
  · have hquiet := (hcontrol.prepareNextCapture hjoin waited).2 (by simp [hresult])
    exact houtcome.of_quiet hquiet hcaptured.completed

theorem outcome_save (hcontrol : Control config m) (hjoin : m.saveCount = 0 ∨ m.joinable)
    (metadata : FlatStateDictMetadata ε κ) (tensors : List α) (step : Int)
    (waited : Waited α ε κ) (diskFails : Bool) :
    Outcome m (some waited)
      (m.save config host metadata tensors step waited diskFails).state := by
  unfold Manager.save
  dsimp only
  split
  · exact outcome_doSave hcontrol hjoin metadata tensors step waited diskFails
  · next hallocated =>
      -- nothing has been saved, so there is no exchange
      obtain ⟨hworker, hsource⟩ := hcontrol.unused (.inr (by simpa using hallocated))
      have hquiet := hcontrol.quiet hworker hsource
      have houtcome : Outcome (m.allocate host metadata) (some waited)
          ((m.allocate host metadata).doSave config host metadata tensors step waited
            diskFails).state :=
        outcome_doSave (hcontrol.allocate metadata) hjoin metadata tensors step waited diskFails
      cases houtcome with
      | same hcompleted _ =>
          exact .same hcompleted fun step h => absurd h (hquiet.not_open step)
      | dropped w hw hdropped _ =>
          obtain ⟨source, hs, -⟩ := hdropped
          exact absurd (hsource.symm.trans hs) nofun
      | completed w hw haligned _ =>
          obtain ⟨source, hs, -⟩ := haligned
          exact absurd (hsource.symm.trans hs) nofun

/-- The worker opens an exchange and hands it over. -/
theorem outcome_work (hcontrol : Control config m) {p : WorkerPoint} (hp : m.worker = some p)
    (hfinished : p ≠ .finished) (fails : Bool) : Outcome m none (m.work config p fails) := by
  have hnone : p ≠ .launched → p ≠ .marked → ∀ step, ¬ OpenAt m step := by
    rintro hl hm step ⟨hw | hw | hs, -⟩
    · exact hl (Option.some.inj (hp.symm.trans hw))
    · exact hm (Option.some.inj (hp.symm.trans hw))
    · obtain ⟨which, hwhich⟩ := Option.ne_none_iff_exists'.mp hs
      rcases (hcontrol.source which hwhich).2.1 with hw | hw
      · simp [hw] at hp
      · exact hfinished (Option.some.inj (hp.symm.trans hw))
  cases p with
  | copying => cases fails <;> exact .same rfl fun step h => absurd h (hnone nofun nofun step)
  | copied => exact .same rfl fun step h => absurd h (hnone nofun nofun step)
  | readied => exact .same rfl fun step h => absurd h (hnone nofun nofun step)
  | stepCleared => exact .same rfl fun step h => absurd h (hnone nofun nofun step)
  | stateCleared => exact .same rfl fun step h => absurd h (hnone nofun nofun step)
  | dataCleared => cases fails <;> exact .same rfl fun step h => absurd h (hnone nofun nofun step)
  | launched => exact .same rfl fun step h => ⟨.inr (.inl rfl), h.2.1, rfl⟩
  | marked => exact .same rfl fun step h => ⟨.inr (.inr nofun), h.2⟩
  | finished => exact absurd rfl hfinished

theorem Outcome.withWrites {waited : Option (Waited α ε κ)} (h : Outcome m waited m')
    (writes : List (Written α ε κ)) : Outcome m waited { m' with writes } := by
  cases h with
  | same hsame hopen => exact .same hsame hopen
  | dropped w hw hdropped hsame => exact .dropped w hw hdropped hsame
  | completed w hw haligned hnew => exact .completed w hw haligned hnew

/-- **What an event makes of the exchange.** -/
theorem outcome_next (hcontrol : Control config m) {event : Event α ε κ}
    {result : Option (Option Bool)} (hnext : next config host m event = some ⟨m', result⟩) :
    Outcome m event.waited m' := by
  have hunchanged : ∀ {waited : Option (Waited α ε κ)}, Outcome m waited m :=
    .same rfl fun _ => id
  cases event with
  | save metadata tensors step waited diskFails =>
      simp only [next] at hnext
      split at hnext
      · next hjoin =>
          cases hnext
          exact outcome_save hcontrol hjoin metadata tensors step waited diskFails
      · cases hnext
  | maybeWait =>
      simp only [next] at hnext
      split at hnext
      · next hjoin =>
          cases hnext
          rw [maybeWait, waitForCompletionWorker_eq]
          exact .same rfl fun step h => h.join hjoin
      · cases hnext
  | finalizeReplication waited =>
      simp only [next] at hnext
      split at hnext
      · next hjoin => cases hnext; exact outcome_finalizeReplication hcontrol hjoin waited
      · cases hnext
  | flushForRestart waited written =>
      simp only [next] at hnext
      split at hnext
      · next hjoin =>
          cases hnext
          rcases hjoin with hnone | hjoin
          · simpa [flushForRestart, hnone] using hunchanged
          · rcases flushForRestart_cases config m waited written with h | ⟨writes, -, h⟩
            · rw [h]
              exact hunchanged
            · rw [h]
              exact (outcome_finalizeReplication hcontrol hjoin waited).withWrites _
      · cases hnext
  | persistBoundary step waited agreed written =>
      simp only [next] at hnext
      split at hnext
      · next hjoin =>
          cases hnext
          rcases hjoin with hnone | hjoin
          · simpa [persistBoundary, hnone] using hunchanged
          · rcases persistBoundary_cases config m step waited agreed written with
              h | ⟨writes, -, h⟩
            · rw [h]
              exact hunchanged
            · rw [h]
              exact (outcome_finalizeReplication hcontrol hjoin waited).withWrites _
      · cases hnext
  | flushToDisk step diskFails =>
      simp only [next] at hnext
      cases hnext
      obtain ⟨writes, hstate⟩ := flushToDisk_cases m step diskFails
      rw [hstate]
      exact hunchanged.withWrites _
  | work fails =>
      simp only [next] at hnext
      split at hnext
      · cases hnext
      · cases hnext
      · next p hp hworker => cases hnext; exact outcome_work hcontrol hworker hp fails
  | transfer tensors =>
      simp only [next] at hnext
      split at hnext
      · cases hnext; exact .same rfl fun _ => id
      · cases hnext

/-! ## Two ranks -/

/-- What the two ranks do, one event of one rank after the other; `ok` sees the
event, the rank that it happens on, and the other one. -/
inductive Together (config : Bool → ManagerConfig) (host : HostCopy α ε)
    (ok : Manager α ε κ → Event α ε κ → Manager α ε κ → Prop) :
    (Bool → Manager α ε κ) → (Bool → Manager α ε κ) → Prop where
  | refl (ranks : Bool → Manager α ε κ) : Together config host ok ranks ranks
  | step {ranks ranks' : Bool → Manager α ε κ} (h : Together config host ok ranks ranks')
      (rank : Bool) {event : Event α ε κ} {m : Manager α ε κ} {result : Option (Option Bool)}
      (hok : ok (ranks' rank) event (ranks' !rank))
      (hnext : next (config rank) host (ranks' rank) event = some ⟨m, result⟩) :
      Together config host ok ranks (Function.update ranks' rank m)

/-- Both ranks get one result for each generation: an exchange completes only if
the peer has it open or completed, and it is dropped only if the peer has not
completed it. -/
def Consistent (m : Manager α ε κ) (event : Event α ε κ) (peer : Manager α ε κ) : Prop :=
  ∀ waited, event.waited = some waited →
    (Aligned m waited → OpenAt peer m.pool.ownCurrent.step ∨
      peer.completed = some m.pool.ownCurrent.step) ∧
    (Dropped m waited → peer.completed ≠ some m.pool.ownCurrent.step)

/-- Both ranks have one generation in an own slot that can be restored. -/
def Common (ranks : Bool → Manager α ε κ) : Prop :=
  ∃ step, ∀ rank, ∃ slot ∈ (ranks rank).pool.ownSlots, Restorable slot step

/-- The ranks have completed the same exchange, or one is ahead of the other. -/
structure InStep (config : Bool → ManagerConfig) (ranks : Bool → Manager α ε κ) : Prop where
  control : ∀ rank, Control (config rank) (ranks rank)
  paired : ∀ rank, Paired (ranks rank)
  ahead : (ranks true).completed = (ranks false).completed ∨
    ∃ rank step, (ranks rank).completed = some step ∧ OpenAt (ranks !rank) step

/-- The next event of a rank keeps the ranks in step. -/
theorem InStep.next {config : Bool → ManagerConfig} {ranks : Bool → Manager α ε κ}
    (hrep : ∀ rank, (config rank).replicating = true) (h : InStep config ranks) {rank : Bool}
    {event : Event α ε κ} {result : Option (Option Bool)}
    (hevicts : ¬ Evicts host (ranks rank) event)
    (hconsistent : Consistent (ranks rank) event (ranks !rank))
    (hnext : Manager.next (config rank) host (ranks rank) event = some ⟨m, result⟩) :
    InStep config (Function.update ranks rank m) := by
  have hpreserved : Preserved (config rank) host
      (fun (m : Manager α ε κ) event => ¬ Evicts host m event)
      fun m => Control (config rank) m ∧ Paired m := paired_preserved (hrep rank) fun _ _ => id
  have hboth := hpreserved.next ⟨h.control rank, h.paired rank⟩ hevicts hnext
  have hself : Function.update ranks rank m rank = m := Function.update_self ..
  have hother : Function.update ranks rank m (!rank) = ranks !rank := by
    refine Function.update_of_ne ?_ _ _
    cases rank <;> nofun
  have hrank : ∀ r, r = rank ∨ r = !rank := fun r => by cases r <;> cases rank <;> simp
  refine ⟨fun r => ?_, fun r => ?_, ?_⟩
  · rcases hrank r with rfl | rfl
    · rw [hself]; exact hboth.1
    · rw [hother]; exact h.control _
  · rcases hrank r with rfl | rfl
    · rw [hself]; exact hboth.2
    · rw [hother]; exact h.paired _
  -- in terms of the rank of the event and its peer
  suffices hahead : m.completed = (ranks !rank).completed ∨
      (∃ step, m.completed = some step ∧ OpenAt (ranks !rank) step) ∨
      ∃ step, (ranks !rank).completed = some step ∧ OpenAt m step by
    rcases hahead with hsame | ⟨step, hstep, hopen⟩ | ⟨step, hstep, hopen⟩
    · left
      cases rank
      · simp only [Bool.not_false] at hother hsame
        rw [hself, hother, hsame]
      · simp only [Bool.not_true] at hother hsame
        rw [hself, hother, hsame]
    · exact .inr ⟨rank, step, by rw [hself]; exact hstep, by rw [hother]; exact hopen⟩
    · refine .inr ⟨!rank, step, by rw [hother]; exact hstep, ?_⟩
      rw [Bool.not_not, hself]
      exact hopen
  have hbefore : (ranks rank).completed = (ranks !rank).completed ∨
      (∃ step, (ranks rank).completed = some step ∧ OpenAt (ranks !rank) step) ∨
      ∃ step, (ranks !rank).completed = some step ∧ OpenAt (ranks rank) step := by
    rcases h.ahead with hsame | ⟨r, step, hstep, hopen⟩
    · left
      cases rank
      · exact hsame.symm
      · exact hsame
    · rcases hrank r with rfl | rfl
      · exact .inr (.inl ⟨step, hstep, hopen⟩)
      · rw [Bool.not_not] at hopen
        exact .inr (.inr ⟨step, hstep, hopen⟩)
  cases outcome_next (h.control rank) hnext with
  | same hcompleted hopen =>
      rw [hcompleted]
      exact hbefore.imp id fun hb => hb.imp id fun ⟨step, hstep, ho⟩ => ⟨step, hstep, hopen step ho⟩
  | dropped w hw hdropped hcompleted =>
      rw [hcompleted]
      refine hbefore.imp id fun hb => hb.imp id fun ⟨step, hstep, ho⟩ => ?_
      -- the peer has completed what this rank drops
      exact absurd (ho.2.1.symm ▸ hstep) ((hconsistent w hw).2 hdropped)
  | completed w hw haligned hcompleted =>
      rcases (hconsistent w hw).1 haligned with hopen | hpeer
      · exact .inr (.inl ⟨_, hcompleted, hopen⟩)
      · exact .inl (hcompleted.trans hpeer.symm)

theorem Together.inStep {config : Bool → ManagerConfig} {ranks : Bool → Manager α ε κ}
    (hrep : ∀ rank, (config rank).replicating = true)
    (h : Together config host
      (fun m event peer => ¬ Evicts host m event ∧ Consistent m event peer)
      (fun rank => init (config rank)) ranks) : InStep config ranks := by
  generalize hinit : (fun rank => (init (config rank) : Manager α ε κ)) = start at h
  induction h with
  | refl =>
      subst hinit
      exact ⟨fun _ => control_init, fun rank => paired_init (hrep rank), .inl rfl⟩
  | step _ rank hok hnext ih => exact ih.next hrep hok.1 hok.2 hnext

/-- **Once a rank has completed an exchange, both ranks have a common generation**
in every later state, if both get one result for each generation and nothing is
saved over an unpaired generation. -/
theorem ranks_common {config : Bool → ManagerConfig} {ranks : Bool → Manager α ε κ}
    (hrep : ∀ rank, (config rank).replicating = true)
    (h : Together config host
      (fun m event peer => ¬ Evicts host m event ∧ Consistent m event peer)
      (fun rank => init (config rank)) ranks)
    (hcompleted : ∃ rank, (ranks rank).completed ≠ none) : Common ranks := by
  have hin := h.inStep hrep
  have hown : ∀ rank step, (ranks rank).completed = some step →
      ∃ slot ∈ (ranks rank).pool.ownSlots, Restorable slot step := by
    intro rank step hstep
    rcases ((hin.paired rank).pair step hstep).2 with ⟨hr, -⟩ | ⟨⟨hr, -⟩, -⟩
    · exact ⟨_, List.mem_cons_of_mem _ List.mem_cons_self, hr⟩
    · exact ⟨_, List.mem_cons_self, hr⟩
  rcases hin.ahead with hsame | ⟨rank, step, hstep, hopen⟩
  · obtain ⟨rank, hrank⟩ := hcompleted
    obtain ⟨step, hstep⟩ := Option.ne_none_iff_exists'.mp hrank
    refine ⟨step, fun r => hown r step ?_⟩
    cases rank <;> cases r
    · exact hstep
    · exact hsame.trans hstep
    · exact hsame.symm.trans hstep
    · exact hstep
  · refine ⟨step, fun r => ?_⟩
    rcases (by cases r <;> cases rank <;> simp : r = rank ∨ r = !rank) with rfl | rfl
    · exact hown r step hstep
    · exact ⟨_, List.mem_cons_self, hopen.2⟩

/-- While one rank runs, the other one stays as it is. -/
theorem Together.run {config : Bool → ManagerConfig} {start ranks : Bool → Manager α ε κ}
    {ok : Manager α ε κ → Event α ε κ → Manager α ε κ → Prop}
    (h : Together config host ok start ranks) (rank : Bool) {events : List (Event α ε κ)}
    (hok : RunOk (config rank) host (fun m event => ok m event (ranks !rank)) events
      (ranks rank))
    (hrun : Manager.run (config rank) host events (ranks rank) = some m) :
    Together config host ok start (Function.update ranks rank m) := by
  induction events generalizing ranks with
  | nil =>
      cases hrun
      rw [Function.update_eq_self]
      exact h
  | cons event events ih =>
      simp only [Manager.run] at hrun
      split at hrun
      · cases hrun
      · next e he =>
          have hne : (!rank) ≠ rank := Bool.not_ne_self rank
          have hstep := ih (.step h rank hok.1 he)
          rw [Function.update_self, Function.update_of_ne hne, Function.update_idem] at hstep
          exact hstep (hok.2 e he) hrun

/-- Two saves, and the exchange of the first. -/
def sampleTwice : List (Event (List Nat) Nat Unit) :=
  [sampleSave 10 [[1, 1], [1]] (.failed [])] ++ sampleWork 8 ++
    [sampleSave 20 [[2, 2], [2]] (sampleReceived 10 [[7, 7], [7]])] ++ sampleWork 8

/-- Two ranks that have saved nothing. -/
def sampleStart : Bool → Manager (List Nat) Nat Unit := fun _ => init samplePaired

/-- The first rank completes the second exchange and reuses the slot of the first;
the second rank drops the second exchange and reuses its slot. -/
theorem ranks_without_common :
    ¬ ∀ ranks ranks' : Bool → Manager (List Nat) Nat Unit,
      Together (fun _ => samplePaired) sampleHost (fun _ _ _ => True) sampleStart ranks →
      (∃ step, ∀ rank, (ranks rank).completed = some step) →
      Together (fun _ => samplePaired) sampleHost (fun _ _ _ => True) ranks ranks' →
      (ranks' true).captures.map (·.step) = (ranks' false).captures.map (·.step) →
      Common ranks' := by
  intro h
  have hany : ∀ (events : List (Event (List Nat) Nat Unit)) m,
      RunOk samplePaired sampleHost (fun _ _ => True) events m :=
    fun events m => runOk_events (fun _ _ => trivial) m
  obtain ⟨m, hm⟩ : ∃ m, run samplePaired sampleHost sampleTwice (init samplePaired) = some m :=
    Option.isSome_iff_exists.mp rfl
  have hcompleted : (run samplePaired sampleHost sampleTwice (init samplePaired)).map
      (·.completed) = some (some 10) := rfl
  rw [hm] at hcompleted
  -- up to the second exchange, the ranks do the same
  have htwice : Together (fun _ => samplePaired) sampleHost (fun _ _ _ => True)
      sampleStart fun _ => m := by
    have hstart : Together (fun _ => samplePaired) sampleHost (fun _ _ _ => True)
      sampleStart sampleStart := .refl _
    have hboth := (hstart.run false (hany _ _) hm).run true (hany _ _) hm
    have hsame : Function.update (Function.update sampleStart false m) true m = fun _ => m := by
      funext rank
      cases rank <;> rfl
    rwa [hsame] at hboth
  have hlast : ∀ waited, (run samplePaired sampleHost
      (sampleTwice ++ [sampleSave 30 [[3, 3], [3]] waited]) (init samplePaired)) =
      run samplePaired sampleHost [sampleSave 30 [[3, 3], [3]] waited] m := by
    intro waited
    rw [run_append, hm, Option.bind_some]
  let facts := fun m : Manager (List Nat) Nat Unit =>
    (m.captures.map (·.step), m.pool.ownSlots.map fun slot => (slot.step, slot.complete))
  have hcompletes : (run samplePaired sampleHost
      (sampleTwice ++ [sampleSave 30 [[3, 3], [3]] (sampleReceived 20 [[8, 8], [8]])])
      (init samplePaired)).map facts =
      some ([30, 20, 10], [(30, false), (20, true)]) := rfl
  have hdrops : (run samplePaired sampleHost
      (sampleTwice ++ [sampleSave 30 [[3, 3], [3]] (.failed [])]) (init samplePaired)).map facts =
      some ([30, 20, 10], [(30, false), (10, true)]) := rfl
  rw [hlast, Option.map_eq_some_iff] at hcompletes hdrops
  obtain ⟨m₁, hm₁, hfacts₁⟩ := hcompletes
  obtain ⟨m₂, hm₂, hfacts₂⟩ := hdrops
  obtain ⟨hsteps₁, hslots₁⟩ := Prod.mk.inj hfacts₁
  obtain ⟨hsteps₂, hslots₂⟩ := Prod.mk.inj hfacts₂
  have hstart : Together (fun _ => samplePaired) sampleHost (fun _ _ _ => True)
    (fun _ => m) fun _ => m := .refl _
  have hthird := (hstart.run false (hany _ _) hm₁).run true (hany _ _) hm₂
  obtain ⟨step, hcommon⟩ := h _ _ htwice ⟨10, fun _ => Option.some.inj hcompleted⟩ hthird
    (hsteps₂.trans hsteps₁.symm)
  obtain ⟨slot₁, hslot₁, hr₁⟩ := hcommon false
  obtain ⟨slot₂, hslot₂, hr₂⟩ := hcommon true
  have hmem : ∀ {m : Manager (List Nat) Nat Unit} {slot : BufferSlot (List Nat) Nat Unit},
      slot ∈ m.pool.ownSlots → Restorable slot step →
      (step, true) ∈ m.pool.ownSlots.map fun slot => (slot.step, slot.complete) :=
    fun hslot hr => List.mem_map.mpr ⟨_, hslot, by rw [hr.1, hr.2]⟩
  have hmem₁ := hmem (m := m₁) hslot₁ hr₁
  have hmem₂ := hmem (m := m₂) hslot₂ hr₂
  rw [hslots₁] at hmem₁
  rw [hslots₂] at hmem₂
  simp only [List.mem_cons, Prod.mk.injEq, List.not_mem_nil, reduceCtorEq, and_false, and_true,
    false_or, or_false] at hmem₁ hmem₂
  omega

/-- Both ranks save, and the first one completes its exchange. -/
theorem ranks_common_sample :
    ∃ ranks : Bool → Manager (List Nat) Nat Unit, (ranks false).completed = some 10 ∧
      Common ranks := by
  let saved := [sampleSave 10 [[1, 1], [1]] (.failed [])] ++ sampleWork 8
  obtain ⟨m, hm⟩ : ∃ m, run samplePaired sampleHost saved (init samplePaired) = some m :=
    Option.isSome_iff_exists.mp rfl
  let finish : Event (List Nat) Nat Unit := .finalizeReplication (sampleReceived 10 [[7, 7], [7]])
  obtain ⟨m', hm'⟩ : ∃ m', run samplePaired sampleHost (saved ++ [finish]) (init samplePaired) =
      some m' := Option.isSome_iff_exists.mp rfl
  have hcompleted : (run samplePaired sampleHost (saved ++ [finish]) (init samplePaired)).map
      (·.completed) = some (some 10) := rfl
  rw [hm', Option.map_some, Option.some.injEq] at hcompleted
  rw [run_append, hm, Option.bind_some] at hm'
  -- the launched exchange
  have hfacts : (run samplePaired sampleHost saved (init samplePaired)).map
      (fun m => (m.source, m.completed, m.pool.ownCurrent.complete)) =
      some (some .current, none, true) := rfl
  rw [hm, Option.map_some, Option.some.injEq, Prod.mk.injEq, Prod.mk.injEq] at hfacts
  obtain ⟨hsource, hnone, hcomplete⟩ := hfacts
  have hopen : OpenAt m m.pool.ownCurrent.step := ⟨.inr (.inr (by simp [hsource])), rfl, hcomplete⟩
  let ok := fun (m : Manager (List Nat) Nat Unit) event peer =>
    ¬ Evicts sampleHost m event ∧ Consistent m event peer
  have hsaved : ∀ peer, RunOk samplePaired sampleHost (fun m event => ok m event peer) saved
      (init samplePaired) := by
    refine fun peer => .append ⟨⟨fun h => h.1 rfl, fun w hw => ?_⟩, fun _ _ => trivial⟩
      fun n _ => runOk_work _ _ _ (fun _ => ⟨id, nofun⟩) 8 n
    exact ⟨fun ⟨_, hs, _⟩ => absurd hs nofun, fun ⟨_, hs, _⟩ => absurd hs nofun⟩
  have hstart : Together (fun _ => samplePaired) sampleHost ok sampleStart sampleStart := .refl _
  have hboth := (hstart.run false (hsaved _) hm).run true (hsaved _) hm
  have hconsistent : RunOk samplePaired sampleHost (fun n event => ok n event m) [finish] m :=
    ⟨⟨id, fun w _ => ⟨fun _ => .inl hopen, fun _ => by simp [hnone]⟩⟩, fun _ _ => trivial⟩
  have hfinish := hboth.run false hconsistent hm'
  exact ⟨_, hcompleted, ranks_common (fun _ => rfl) hfinish ⟨false, by simp [hcompleted]⟩⟩

end Manager

end LmResiliency.Checkpointing
