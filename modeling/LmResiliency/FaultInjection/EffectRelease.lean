/-
# EffectRelease — every effect is taken back

Whatever executors, hooks, store and training context do and raise, and however the ranks'
collective operations end: an effect that an executor reports as active, and can
deactivate, is deactivated or was tried to be once the session is closed, and nothing is
deactivated that is not active.  No record of a closed session is left open.

The main results are `effects_released` and `records_settled`.  A deactivation
that raises has been tried; that it had its effect is the executor's promise.
-/
import LmResiliency.FaultInjection.Activation
import LmResiliency.FaultInjection.Boundary

namespace LmResiliency.FaultInjection.Effects

open Release (Entry Held Tried Orderly)
open Act (self assign raise attempt ofExcept forEach firstError)

variable {campaign : FaultCampaign} {setup : Setup} {world : World} {w w' : Runtime campaign}

/-! ## Code that touches no effect -/

/-- Neither effects nor records change. -/
structure Quiet (w w' : Runtime campaign) : Prop where
  records : w'.records = w.records
  locals : w'.locals = w.locals
  externals : w'.externals = w.externals
  active : w'.active = w.active
  closed : w'.closed = w.closed
  ledger : entries w'.log = entries w.log

instance : IsPreorder (Runtime campaign) Quiet where
  refl _ := ⟨rfl, rfl, rfl, rfl, rfl, rfl⟩
  trans _ _ _ h h' := ⟨h'.records.trans h.records, h'.locals.trans h.locals,
    h'.externals.trans h.externals, h'.active.trans h.active, h'.closed.trans h.closed,
    h'.ledger.trans h.ledger⟩

theorem ask_quiet {c : Call} (h : ∀ r, entryOf ⟨c, r⟩ = none) :
    (ask world c : Code campaign c.Res).Moves Quiet := fun _ =>
  ⟨rfl, rfl, rfl, rfl, rfl, entries_other (h _)⟩

theorem candidatesFor_quiet (iteration : Int) :
    (candidatesFor iteration : Code campaign _).Moves Quiet := fun _ =>
  ⟨rfl, rfl, rfl, rfl, rfl, rfl⟩

theorem candidatesFor_returns (iteration : Int) :
    (candidatesFor iteration : Code campaign _).Ensures (fun _ => Quiet w) (fun _ _ => False) w :=
  ⟨rfl, rfl, rfl, rfl, rfl, rfl⟩

theorem hasSafeActivation_returns (iteration : Int) :
    (hasSafeActivation setup iteration : Code campaign _).Ensures (fun _ => Quiet w)
      (fun _ _ => False) w :=
  ⟨rfl, rfl, rfl, rfl, rfl, rfl⟩

theorem selectedFor_quiet (iteration : Int) :
    (selectedFor setup iteration : Code campaign _).Moves Quiet :=
  .bind (candidatesFor_quiet iteration) fun _ => .pure _

theorem requestsFor_quiet (iteration : Int) :
    (requestsFor setup iteration : Code campaign _).Moves Quiet :=
  .bind (selectedFor_quiet iteration) fun _ => .pure _

theorem historyFaultsFor_quiet (iteration : Int) :
    (historyFaultsFor setup iteration : Code campaign _).Moves Quiet :=
  .bind (selectedFor_quiet iteration) fun _ => .bind (selectedFor_quiet _) fun _ => .pure _

theorem expirationsAt_quiet (iteration : Int) :
    (expirationsAt iteration : Code campaign _).Moves Quiet := fun _ =>
  ⟨rfl, rfl, rfl, rfl, rfl, rfl⟩

theorem requiresBoundaryConsensus_quiet (finished next : Int) :
    (requiresBoundaryConsensus setup finished next : Code campaign _).Moves Quiet :=
  .bind (candidatesFor_quiet next) fun _ => .ite (.pure _) <|
    .bind (historyFaultsFor_quiet next) fun _ => .ite (.pure _) <|
      .bind (expirationsAt_quiet finished) fun _ => .bind .self fun _ => .pure _

theorem executorFor_quiet (fault : FaultSpec) :
    (executorFor setup fault : Code campaign _).Moves Quiet := by
  unfold executorFor
  split
  · exact .pure _
  · exact .raise _

theorem validateExecutorLifecycle_quiet (executor : FaultExecutor) :
    (validateExecutorLifecycle executor : Code campaign _).Moves Quiet :=
  .ite (.raise _) (.pure _)

theorem preflightRequest_quiet (request : FaultExecutionRequest) :
    (preflightRequest setup world request : Code campaign _).Moves Quiet :=
  .ite (.pure _) <| .bind (executorFor_quiet _) fun executor =>
    .bind (validateExecutorLifecycle_quiet executor) fun _ => .ite (.raise _) <|
      .ite (.raise _) <| .ite (.bind (ask_quiet fun _ => rfl) fun _ => .ofExcept _) (.pure _)

theorem preflightIteration_quiet (iteration : Int) :
    (preflightIteration setup world iteration : Code campaign _).Moves Quiet :=
  .bind (requestsFor_quiet iteration) fun requests =>
    .bind (selectedFor_quiet iteration) fun _ => .bind (ask_quiet fun _ => rfl) fun _ =>
      .bind (.ofExcept _) fun _ => .forEach preflightRequest_quiet requests

theorem validateCapabilities_quiet :
    (validateCapabilities setup : Code campaign _).Moves Quiet := .ite (.pure _) (.raise _)

theorem stageAttempts_quiet (iteration : Int) (candidates : List (FaultIncident × Int)) :
    (stageAttempts setup world iteration candidates : Code campaign _).Moves Quiet := by
  refine .bind .self fun w => .ite (.pure _) ?_
  split
  · exact .raise _
  · refine .bind (ask_quiet fun _ => rfl) fun _ => .bind (.ofExcept _) fun _ => .ite ?_ (.raise _)
    exact .bind (.assign fun _ => ⟨rfl, rfl, rfl, rfl, rfl, rfl⟩) fun _ => .pure _

theorem restoreAttempts_quiet (previous : CampaignJournal) :
    (restoreAttempts world previous : Code campaign _).Moves Quiet :=
  .bind .self fun _ => .bind (ask_quiet fun _ => rfl) fun _ => .bind (.ofExcept _) fun _ =>
    .ite (.assign fun _ => ⟨rfl, rfl, rfl, rfl, rfl, rfl⟩) (.raise _)

theorem commitJournalBinding_quiet :
    (commitJournalBinding world : Code campaign _).Moves Quiet := by
  have hcommitted : (assign fun w : Runtime campaign =>
      { w with journalBase := w.session.journal.copy, journalCommitted := true } :
      Code campaign Unit).Moves Quiet := .assign fun _ => ⟨rfl, rfl, rfl, rfl, rfl, rfl⟩
  exact .bind .self fun _ => .ite (.pure _) <| .bind (ask_quiet fun _ => rfl) fun _ =>
    .bind (.ofExcept _) fun _ => .ite hcommitted <| .bind (ask_quiet fun _ => rfl) fun _ =>
      .bind (.ofExcept _) fun _ => .ite hcommitted (.raise _)

theorem checkSession_quiet : (checkSession setup world : Code campaign _).Moves Quiet :=
  .bind validateCapabilities_quiet fun _ => .bind (ask_quiet fun _ => rfl) fun _ =>
    .bind (.ofExcept _) fun _ => .bind (ask_quiet fun _ => rfl) fun _ => .bind (.ofExcept _) fun _ =>
      .bind .self fun _ => .bind (historyFaultsFor_quiet _) fun _ =>
        .bind (ask_quiet fun _ => rfl) fun _ => .bind (.ofExcept _) fun _ =>
          preflightIteration_quiet _

/-! ## What holds between two calls of a session -/

theorem Quiet.done (h : Quiet w w') (a : ActiveFault) : w'.done a = w.done a :=
  Runtime.done_congr (by rw [h.locals]) (by rw [h.externals])

/-- Nothing counts of a local effect but whether it is done. -/
theorem Inv.sameDone {start : Nat} (h : Inv start w) (hactive : w'.active = w.active)
    (hrecords : w'.records = w.records) (hlocals : ∀ n, (w'.locals n).done = (w.locals n).done)
    (hexternals : w'.externals = w.externals) (hlog : entries w'.log = entries w.log) :
    Inv start w' := by
  have hdone : ∀ a, w'.done a = w.done a := fun a => by
    cases heffect : a.effect with
    | «local» identity => rw [done_local heffect, done_local heffect, hlocals]
    | external effect => rw [done_external heffect, done_external heffect, hexternals]
  refine ⟨?_, by rw [hactive]; exact h.nodup, by rw [hactive, hrecords]; exact h.bound,
    fun n hn => ?_, fun a ha effect heffect hopen => ?_, fun n hn record hrecord hunsettled => ?_,
    by rw [hrecords]; exact h.honest⟩
  · rw [hlog, hand_congr hactive hexternals]
    exact h.held
  · rw [hlocals] at hn
    rw [hactive]
    exact h.known n hn
  · exact h.lasting a (hactive ▸ ha) effect heffect ((hdone a).symm.trans hopen)
  · rw [hrecords] at hrecord
    obtain ⟨a, ha, hnumber, hopen⟩ := h.settled n hn record hrecord hunsettled
    exact ⟨a, hactive ▸ ha, hnumber, (hdone a).trans hopen⟩

theorem Quiet.sound (h : Quiet w w') (hsound : Sound w) : Sound w' :=
  .of_length (hsound.sameDone h.active h.records (fun _ => by rw [h.locals]) h.externals h.ledger)
    (by rw [h.records])

/-- A session between two of its calls; a closed one has nothing active. -/
structure Good (w : Runtime campaign) : Prop where
  sound : Sound w
  closed : w.closed = true → w.active = []

/-- A session that is good, and has nothing that is done among its active effects. -/
structure Calm (w : Runtime campaign) : Prop extends Good w where
  undone : ∀ a ∈ w.active, w.done a = false

theorem Quiet.good (h : Quiet w w') (hgood : Good w) : Good w' :=
  ⟨h.sound hgood.sound, fun hclosed => h.active.trans (hgood.closed (h.closed ▸ hclosed))⟩

theorem Quiet.calm (h : Quiet w w') (hcalm : Calm w) : Calm w' :=
  ⟨h.good hcalm.toGood, fun a ha => (h.done a).trans (hcalm.undone a (h.active ▸ ha))⟩

theorem Calm.ready (h : Calm w) : Ready w := ⟨h.sound, h.undone⟩

theorem Swept.good {xs : List ActiveFault} {Q : ActiveFault → Runtime campaign → Prop}
    (hgood : Good w) (h : Swept w.records.length xs Q w w') : Good w' :=
  ⟨.of_length h.inv h.ending.length, fun hclosed =>
    h.ending.active.trans (hgood.closed (h.ending.closed ▸ hclosed))⟩

theorem Ended.good {number : Nat} (hgood : Good w) (h : Ended w.records.length number w w') :
    Good w' :=
  ⟨.of_length h.inv h.ending.length, fun hclosed =>
    h.ending.active.trans (hgood.closed (h.ending.closed ▸ hclosed))⟩

theorem Good.discarded (h : Good w) : Calm w.discarded where
  sound := h.sound.discarded
  closed hclosed := by
    show w.active.filter _ = []
    rw [h.closed hclosed]
    rfl
  undone a ha := by
    have hopen := (List.mem_filter.mp ha).2
    rwa [Bool.not_eq_true'] at hopen

/-! ## The end of effects -/

theorem completeUntil_good (hgood : Good w) (boundary : Until) :
    (completeUntil world boundary).Ensures (fun _ => Good) (fun _ => Good) w := by
  unfold completeUntil
  rw [Act.ensures_bind, Act.ensures_self, Act.ensures_bind]
  have hsweep : (firstError (unlessDone fun active =>
      if active.incident.lifetime.endsAt = some boundary then
        completeFault world active false (boundary = .recovery)
      else pure ()) w.active).Ensures
      (fun _ => Swept w.records.length w.active (fun _ _ => True) w) (fun _ => Good) w := by
    refine firstError_spec hgood.sound (fun _ ha _ => ha) (fun _ _ _ => trivial)
      (fun _ _ _ _ _ => trivial) fun a w hinv hmem => ?_
    split
    · exact (completeFault_spec hinv hmem _ _).mono (fun _ _ hw => ⟨hw.1, trivial⟩)
        fun _ _ hw => ⟨hw.1, trivial⟩
    · exact ⟨.refl hinv _, trivial⟩
  refine hsweep.mono (fun first w' hswept => ?_) fun _ _ hw => hw
  have hdiscarded := (hswept.good hgood).discarded.toGood
  cases first with
  | none => exact hdiscarded
  | some error =>
      cases hkind : error.isException <;> simp only [hkind] <;> exact hdiscarded

/-- What changes of a local effect that is not done, apart from that. -/
theorem Good.modifyLocal (hgood : Good w) (number : Nat) {f : LocalState → LocalState}
    (hf : ∀ state, (f state).done = state.done) :
    Good { w with locals := Function.update w.locals number (f (w.locals number)) } := by
  refine ⟨hgood.sound.sameDone rfl rfl (fun n => ?_) rfl rfl, hgood.closed⟩
  by_cases heq : n = number
  · rw [heq]
    show (Function.update w.locals number (f (w.locals number)) number).done = _
    rw [Function.update_self, hf]
  · show (Function.update w.locals number (f (w.locals number)) n).done = _
    rw [Function.update_of_ne heq]

theorem failLocal_good (hgood : Good w) (number : Nat) (error : String)
    (propagate preserve : Bool) :
    (failLocal world number error propagate preserve).Ensures (fun _ => Good) (fun _ => Good) w :=
  (failLocal_spec hgood.sound number error propagate preserve).mono
    (fun _ _ hw => hw.1.good hgood) fun _ _ hw => hw.1.good hgood

theorem markStateReplaced_good (hgood : Good w) (family : StateFamily) (identities : List Nat) :
    (markStateReplaced world family identities).Ensures (fun _ => Good) (fun _ => Good) w := by
  unfold markStateReplaced
  rw [Act.ensures_bind, Act.ensures_self, Act.ensures_bind]
  have hloop : (forEach (unlessDone (markReplaced world family identities)) w.active).Ensures
      (fun _ => Good) (fun _ => Good) w := by
    refine Act.ensures_forEach (fun a _ w hgood => ?_) hgood
    unfold unlessDone markReplaced
    rw [Act.ensures_bind, Act.ensures_self]
    split
    · exact hgood
    · rw [Act.ensures_bind, Act.ensures_self]
      split
      · exact hgood
      · split
        · rw [Act.ensures_bind]
          have hmarked := hgood.modifyLocal a.number
            (f := fun state => { state with stateReplaced := true }) fun _ => rfl
          show Act.Ensures (ite _ _ _) _ _ _
          split
          · exact failLocal_good hmarked _ _ _ _
          · exact hmarked
        · exact hgood
  exact hloop.mono (fun _ _ hw => hw.discarded.toGood) fun _ _ hw => hw

/-- A fault that is verified is active, and its effect is known. -/
theorem verify_good (hgood : Good w) (number : Nat) (evidence : Evidence) :
    (verify number evidence).Ensures (fun _ => Good) (fun _ => Good) w := by
  unfold verify
  rw [Act.ensures_bind, Act.ensures_self]
  split
  · exact hgood
  · rename_i hopen
    obtain ⟨a, ha, hnumber, identity, heffect⟩ :=
      hgood.sound.known number (Bool.eq_false_iff.mpr hopen)
    refine ⟨.of_length (w := w) ⟨hgood.sound.held, hgood.sound.nodup, fun b hb => ?_,
      hgood.sound.known, hgood.sound.lasting, fun n hn record hrecord hunsettled => ?_,
      fun record hmem => ?_⟩ (List.length_modify _ _ _), hgood.closed⟩
    · exact (List.length_modify _ _ _).symm ▸ hgood.sound.bound b hb
    · obtain ⟨r, hr, rfl⟩ := of_modify hrecord
      split at hunsettled
      · rename_i heq
        refine ⟨a, ha, hnumber.trans heq, ?_⟩
        rw [done_local heffect, hnumber]
        exact Bool.eq_false_iff.mpr hopen
      · exact hgood.sound.settled n hn r hr hunsettled
    · obtain ⟨n, hn⟩ := List.mem_iff_getElem?.mp hmem
      obtain ⟨r, hr, rfl⟩ := of_modify hn
      have hhonest := hgood.sound.honest r (List.mem_of_getElem? hr)
      split
      · split
        · exact hhonest
        · exact fun _ => rfl
      · exact hhonest

theorem matched_good (hgood : Good w) (number : Nat) :
    (matched world number).Ensures (fun _ => Good) (fun _ => Good) w := by
  unfold matched
  rw [Act.ensures_bind, Act.ensures_self]
  split
  · rename_i remaining _ _
    rw [Act.ensures_bind]
    have hcounted := hgood.modifyLocal number
      (f := fun state => { state with remainingCalls := some (remaining - 1) }) fun _ => rfl
    show Act.Ensures (ite _ _ _) _ _ _
    split
    · exact (completeLocal_spec hcounted.sound number false false).mono
        (fun _ _ hw => hw.1.good hcounted) fun _ _ hw => hw.1.good hcounted
    · exact hcounted
  · exact hgood

/-! ## Closing -/

/-- A session that is closed has nothing active. -/
theorem cleanup_spec (hgood : Good w) (completeCampaignEnd : Bool)
    {E : Raised → Runtime campaign → Prop} :
    (cleanup world completeCampaignEnd).Ensures (fun _ w' => Good w' ∧ w'.closed = true) E w := by
  unfold cleanup
  rw [Act.ensures_bind, Act.ensures_self]
  split
  · rename_i hclosed
    exact ⟨hgood, hclosed⟩
  · rw [Act.ensures_bind]
    have hsweep : (firstError (unlessDone fun active => completeFault world active
        (!completeCampaignEnd || active.incident.lifetime.endsAt ≠ some .campaignEnd) false)
        w.active.reverse).Ensures
        (fun _ => Swept w.records.length w.active.reverse (fun a w => Over w a) w) E w :=
      firstError_spec hgood.sound (fun _ ha _ => List.mem_reverse.mp ha) (fun _ _ => .of_done)
        (fun _ _ _ hending => hending.over) fun a w hinv hmem => completeFault_spec hinv hmem _ _
    refine hsweep.mono (fun first w' hswept => ?_) fun _ _ hw => hw
    rw [Act.ensures_bind, Act.ensures_assign]
    have hperm : w'.active.Perm ([] ++ w'.active) := List.Perm.refl _
    refine ensures_asked fun localEnd => ensures_asked fun contextEnd => ?_
    refine ⟨⟨.of_length (Inv.drop hswept.inv hperm (fun a ha => hswept.each a ?_) rfl rfl rfl rfl
      ((entries_other rfl).trans (entries_other rfl))) hswept.ending.length, fun _ => rfl⟩, rfl⟩
    rw [List.mem_reverse, ← hswept.ending.active]
    exact ha

theorem cleanupAndRaise_spec {α : Type} (hgood : Good w) (error : Raised)
    {R : α → Runtime campaign → Prop} :
    (cleanupAndRaise world error : Code campaign α).Ensures R
      (fun _ w' => Good w' ∧ w'.closed = true) w := by
  unfold cleanupAndRaise
  rw [Act.ensures_bind]
  exact (cleanup_spec hgood false).mono (fun _ _ hw => hw) fun _ _ hw => hw

theorem close_spec (hgood : Good w) :
    (close world).Ensures (fun _ w' => Good w' ∧ w'.closed = true)
      (fun _ w' => Good w' ∧ w'.closed = true) w := by
  unfold close
  rw [Act.ensures_bind]
  refine (cleanup_spec hgood true).mono (fun first w' hw => ?_) fun _ _ hw => hw
  cases first with
  | none => exact hw
  | some error => exact hw

theorem exit_spec (hgood : Good w) (error : Option Raised) :
    (exit world error).Ensures (fun _ w' => Good w' ∧ w'.closed = true)
      (fun _ w' => Good w' ∧ w'.closed = true) w := by
  unfold exit
  cases error with
  | none => exact close_spec hgood
  | some error =>
      show (cleanup world false >>= fun _ => pure ()).Ensures _ _ _
      rw [Act.ensures_bind]
      exact (cleanup_spec hgood false).mono (fun _ _ hw => hw) fun _ _ hw => hw

/-! ## Code of an iteration -/

theorem quiet_calm {α : Type} {m : Code campaign α} (hm : m.Moves Quiet) (hcalm : Calm w) :
    m.Ensures (fun _ => Calm) (fun _ => Calm) w :=
  (hm.ensures w).mono (fun _ _ h => h.calm hcalm) fun _ _ h => h.calm hcalm

theorem quiet_good {α : Type} {m : Code campaign α} (hm : m.Moves Quiet) (hgood : Good w) :
    m.Ensures (fun _ => Good) (fun _ => Good) w :=
  (hm.ensures w).mono (fun _ _ h => h.good hgood) fun _ _ h => h.good hgood

/-- The effects that are over have ended when an iteration is prepared. -/
theorem prepareIteration_spec (hgood : Good w) (finished next : Int) :
    (prepareIteration setup world finished next).Ensures
      (fun _ w' => Calm w' ∧ w'.closed = w.closed) (fun _ => Good) w := by
  unfold prepareIteration
  rw [Act.ensures_bind, Act.ensures_self, Act.ensures_bind]
  have hsweep : (firstError (unlessDone fun active =>
      if expires finished active then completeFault world active false false else pure ())
      w.active).Ensures
      (fun _ => Swept w.records.length w.active (fun _ _ => True) w) (fun _ => Good) w := by
    refine firstError_spec hgood.sound (fun _ ha _ => ha) (fun _ _ _ => trivial)
      (fun _ _ _ _ _ => trivial) fun a w hinv hmem => ?_
    split
    · exact (completeFault_spec hinv hmem _ _).mono (fun _ _ hw => ⟨hw.1, trivial⟩)
        fun _ _ hw => ⟨hw.1, trivial⟩
    · exact ⟨.refl hinv _, trivial⟩
  refine hsweep.mono (fun expirationError w' hswept => ?_) fun _ _ hw => hw
  have hcalm := (hswept.good hgood).discarded
  cases expirationError with
  | some error => exact hcalm.toGood
  | none =>
      have hquiet : ∀ w₁ : Runtime campaign, Quiet w₁
          { w₁ with completedIterations := finished, currentIteration := next } := fun _ =>
        ⟨rfl, rfl, rfl, rfl, rfl, rfl⟩
      have hrest : (do
          let history ← historyFaultsFor setup next
          ofExcept (← ask world (.syncHistory history)) : Code campaign Unit).Moves Quiet :=
        .bind (historyFaultsFor_quiet next) fun _ => .bind (ask_quiet fun _ => rfl) fun _ =>
          .ofExcept _
      have hprepared := (hquiet w'.discarded).calm hcalm
      refine (hrest.ensures _).mono (fun _ w₁ h => ?_) fun _ _ h => h.good hprepared.toGood
      exact ⟨h.calm hprepared, h.closed.trans hswept.ending.closed⟩

/-- A session that is closed, and good. -/
def Shut (w : Runtime campaign) : Prop := Good w ∧ w.closed = true

theorem activated_good (hsound : Sound w') (hgrown : Grown w w')
    (hopen : w.closed = false) : Good w' :=
  ⟨hsound, fun hclosed => by rw [hgrown.closed, hopen] at hclosed; cases hclosed⟩

theorem Restored.good (hgood : Good w) (h : Restored w w') : Good w' :=
  ⟨h.sound, fun hclosed => h.active.trans (hgood.closed (h.grown.closed ▸ hclosed))⟩

theorem enterAlone_spec (hcalm : Calm w) (hopen : w.closed = false) (iteration : Int)
    (candidates : List (FaultIncident × Int)) :
    (enterAlone setup world iteration candidates).Ensures (fun _ => Good) (fun _ => Shut) w := by
  unfold enterAlone
  rw [Act.ensures_tryCatch]
  have hbody : (do
      preflightIteration setup world iteration
      let staged ← stageAttempts setup world iteration candidates
      activateStagedIteration setup world iteration staged : Code campaign Unit).Ensures
      (fun _ => Good) (fun _ => Good) w := by
    rw [Act.ensures_bind]
    refine ((preflightIteration_quiet iteration).ensures w).mono (fun _ w₁ h₁ => ?_)
      fun _ _ h => h.good hcalm.toGood
    rw [Act.ensures_bind]
    refine ((stageAttempts_quiet iteration candidates).ensures w₁).mono (fun staged w₂ h₂ => ?_)
      fun _ _ h => h.good (h₁.good hcalm.toGood)
    have hcalm₂ := h₂.calm (h₁.calm hcalm)
    have hopen₂ : w₂.closed = false := h₂.closed.trans (h₁.closed.trans hopen)
    exact (activateStagedIteration_spec hcalm₂.ready iteration staged).mono
      (fun _ _ h => activated_good h.1 h.2 hopen₂) fun _ _ h => h.good hcalm₂.toGood
  exact hbody.mono (fun _ _ h => h) fun error w' hgood => cleanupAndRaise_spec hgood error

theorem failStage_spec {α : Type} (hgood : Good w) (stage : String) (own : Option Raised)
    (failures : List String) {R : α → Runtime campaign → Prop} :
    (failStage world stage own failures : Code campaign α).Ensures R (fun _ => Shut) w := by
  unfold failStage
  rw [Act.ensures_bind]
  exact (cleanup_spec hgood false).mono (fun _ _ hw => hw) fun _ _ hw => hw

theorem raiseUnrecorded_spec (hgood : Good w) (own : Option Raised)
    (failures rollbackFailures : List String) {R : Unit → Runtime campaign → Prop} :
    (raiseUnrecorded world own failures rollbackFailures).Ensures R (fun _ => Shut) w := by
  unfold raiseUnrecorded
  rw [Act.ensures_bind]
  exact (cleanup_spec hgood false).mono (fun _ _ hw => hw) fun _ _ hw => hw

theorem failStep_spec (hgood : Good w) (stage : String) (optimizerError preparation : Option Raised)
    (failures : List String) {R : Unit → Runtime campaign → Prop} :
    (failStep world stage optimizerError preparation failures).Ensures R (fun _ => Shut) w := by
  unfold failStep
  rw [Act.ensures_bind]
  exact (cleanup_spec hgood false).mono (fun _ _ hw => hw) fun _ _ hw => hw

/-- Faults that were not activated everywhere are taken back. -/
theorem abandonArming_spec {w₀ : Runtime campaign} (hcalm : Calm w₀)
    (h : Sound w ∧ Grown w₀ w ∨ Restored w₀ w) (own : Option Raised) (failures : List String)
    {R : Unit → Runtime campaign → Prop} :
    (abandonArming world w₀.active.length w₀.records.length own failures).Ensures R
      (fun _ => Shut) w := by
  unfold abandonArming
  dsimp only
  rw [Act.ensures_bind]
  have hinv : Inv w₀.records.length w ∧ Grown w₀ w := by
    rcases h with h | h
    · exact ⟨h.1.of_sound _, h.2⟩
    · exact ⟨h.sound.of_sound _, h.grown⟩
  refine (rollbackNewActivations_spec hinv.1 hinv.2 _).mono (fun _ w' hrestored => ?_)
    fun _ _ h => h
  rw [Act.ensures_bind]
  exact (cleanup_spec (hrestored.good hcalm.toGood) false).mono (fun _ _ hw => hw)
    fun _ _ hw => hw

/-! ## The methods of a session -/

/-- What the ranks gather has what the rank itself has passed. -/
def Answers (setup : Setup) (o : gathers.fallible.iface.Op) (r : gathers.fallible.iface.Res o) :
    Prop :=
  ∀ gathered : List o.1.Passed, r = some gathered → gathered[setup.rank.toNat]? = some o.2

/-- What a method ensures, whatever the other ranks pass. -/
abbrev Yields (setup : Setup) {α : Type} (m : Method campaign α)
    (R : α → Runtime campaign → Prop) (E : Raised → Runtime campaign → Prop)
    (w : Runtime campaign) : Prop := Meth.Ensures (Answers setup) m R E w

section Methods

theorem ensures_collective {kind : Gather} {passed : kind.Passed}
    {R : List kind.Passed → Runtime campaign → Prop} {E : Raised → Runtime campaign → Prop}
    (hR : ∀ r : List kind.Passed, r[setup.rank.toNat]? = some passed → R r w)
    (hE : E setup.lost w) :
    Yields setup (Lockstep.collective (C := gathers) setup.lost kind passed) R E w := by
  intro r hr
  cases r with
  | none => exact hE
  | some r => exact hR r (hr r rfl)

/-- Ranks without failures have no failure of their own. -/
theorem failuresOf_eq_nil {gathered : List (Option String)} (h : failuresOf gathered = [])
    {n : Nat} {error : Option String} (hn : gathered[n]? = some error) : error = none := by
  cases error with
  | none => rfl
  | some failure =>
      have hmem : (some failure, n) ∈ gathered.zipIdx := List.mem_zipIdx_iff_getElem?.mpr hn
      have hnil := List.filterMap_eq_nil_iff.mp h _ hmem
      cases hnil

/-- Gathering changes nothing of a session that goes on, and hides no error of its own. -/
theorem gatherRankErrors_spec (error : Option Raised) :
    Yields setup (gatherRankErrors setup error)
      (fun failures w' => w' = w ∧ (failures = [] → error = none)) (fun _ w' => w' = w) w := by
  refine .bind (ensures_collective (fun gathered hown => ⟨rfl, fun hnil => ?_⟩) rfl)
  exact Option.map_eq_none_iff.mp (failuresOf_eq_nil hnil hown)

theorem gatherRuntimeRankErrors_spec (hgood : Good w) (error : Option Raised) (stage : String) :
    Yields setup (gatherRuntimeRankErrors setup world error stage)
      (fun failures w' => w' = w ∧ (failures = [] → error = none)) (fun _ => Shut) w := by
  refine .tryCatch ((gatherRankErrors_spec error).mono (fun _ _ h => h) fun collectiveError w' h => ?_)
  subst h
  exact .act (cleanupAndRaise_spec hgood _)

/-- Errors that are gathered where the ranks have to agree. -/
theorem gatherWhere_spec {f : List String → Method campaign Unit} (hgood : Good w)
    (requiresConsensus : Bool) (error : Option Raised) (stage : String)
    (hf : ∀ failures, Yields setup (f failures) (fun _ => Good) (fun _ => Shut) w) :
    Yields setup
      (if requiresConsensus then gatherRuntimeRankErrors setup world error stage >>= f
        else pure [] >>= f) (fun _ => Good) (fun _ => Shut) w := by
  split
  · refine .bind ((gatherRuntimeRankErrors_spec hgood _ _).mono (fun failures w₁ h => ?_)
      fun _ _ h => h)
    obtain ⟨rfl, -⟩ := h
    exact hf failures
  · exact .bind (.pure (hf []))

theorem armIteration_spec (hcalm : Calm w) (hopen : w.closed = false) (iteration : Int)
    (staged : List StagedIncident) (requiresConsensus : Bool) :
    Yields setup (armIteration setup world iteration staged requiresConsensus) (fun _ => Good)
      (fun _ => Shut) w := by
  refine .bind (.self (.bind (.act (Act.ensures_attempt.mpr ?_))))
  refine (activateStagedIteration_spec hcalm.ready iteration staged).mono (fun _ w' h => ?_)
    fun error w' h => ?_
  · have hgood := activated_good h.1 h.2 hopen
    refine gatherWhere_spec hgood requiresConsensus _ _ fun failures => ?_
    dsimp only
    split
    · exact .pure hgood
    · exact .act (abandonArming_spec hcalm (Or.inl h) _ _)
  · have hgood := h.good hcalm.toGood
    refine gatherWhere_spec hgood requiresConsensus _ _ fun failures => ?_
    dsimp only
    split
    · exact .act (cleanupAndRaise_spec hgood error)
    · exact .act (abandonArming_spec hcalm (Or.inr h) _ _)

theorem abandonAttempts_spec (hgood : Good w) (previous : CampaignJournal) (own : Option Raised)
    (failures : List String) :
    Yields setup (abandonAttempts setup world previous own failures) (fun _ => Good) (fun _ => Shut) w := by
  have hrest : ∀ (outcome : Except Raised Unit) (w' : Runtime campaign), Good w' → Yields setup (do
      let rollbackFailures ←
        gatherRuntimeRankErrors setup world (errorOf outcome) "attempt rollback"
      locally (raiseUnrecorded world own failures rollbackFailures)) (fun _ => Good)
      (fun _ => Shut) w' := by
    intro outcome w' hgood
    refine .bind ((gatherRuntimeRankErrors_spec hgood _ _).mono (fun _ w₁ h => ?_) fun _ _ h => h)
    obtain ⟨rfl, -⟩ := h
    exact .act (raiseUnrecorded_spec hgood _ _ _)
  refine .bind (.act (Act.ensures_attempt.mpr ?_))
  exact (quiet_good (restoreAttempts_quiet previous) hgood).mono (fun _ w' h => hrest _ w' h)
    fun _ w' h => hrest _ w' h

theorem enterTogether_spec (hcalm : Calm w) (hopen : w.closed = false) (iteration : Int)
    (candidates : List (FaultIncident × Int)) (requiresConsensus : Bool) :
    Yields setup (enterTogether setup world iteration candidates requiresConsensus) (fun _ => Good)
      (fun _ => Shut) w := by
  have hstaged : ∀ (previous : CampaignJournal) (staged : Except Raised (List StagedIncident))
      (w' : Runtime campaign), Calm w' → w'.closed = false → Yields setup (do
        let failures ←
          gatherRuntimeRankErrors setup world (errorOf staged) "attempt persistence"
        if failures.isEmpty then
          armIteration setup world iteration (staged.toOption.getD []) requiresConsensus
        else abandonAttempts setup world previous (errorOf staged) failures) (fun _ => Good)
        (fun _ => Shut) w' := by
    intro previous staged w' hcalm hopen
    refine .bind ((gatherRuntimeRankErrors_spec hcalm.toGood _ _).mono (fun failures w₁ h => ?_)
      fun _ _ h => h)
    obtain ⟨rfl, -⟩ := h
    split
    · exact armIteration_spec hcalm hopen _ _ _
    · exact abandonAttempts_spec hcalm.toGood _ _ _
  have hpreflight : ∀ (preflight : Except Raised Unit) (w' : Runtime campaign), Calm w' →
      w'.closed = false → Yields setup (do
      let failures ← gatherRuntimeRankErrors setup world (errorOf preflight) "iteration preflight"
      if failures.isEmpty then do
        let before ← Meth.self
        let staged ← locally (attempt (stageAttempts setup world iteration candidates))
        let failures ← gatherRuntimeRankErrors setup world (errorOf staged) "attempt persistence"
        if failures.isEmpty then
          armIteration setup world iteration (staged.toOption.getD []) requiresConsensus
        else abandonAttempts setup world before.session.journal (errorOf staged) failures
      else locally (failStage world "iteration preflight" (errorOf preflight) failures))
      (fun _ => Good) (fun _ => Shut) w' := by
    intro preflight w' hcalm hopen
    refine .bind ((gatherRuntimeRankErrors_spec hcalm.toGood _ _).mono (fun failures w₁ h => ?_)
      fun _ _ h => h)
    obtain ⟨rfl, -⟩ := h
    split
    · refine .bind (.self (.bind (.act (Act.ensures_attempt.mpr ?_))))
      exact ((stageAttempts_quiet iteration candidates).ensures w₁).mono
        (fun staged w₂ h => hstaged _ (.ok staged) w₂ (h.calm hcalm) (h.closed.trans hopen))
        fun error w₂ h => hstaged _ (.error error) w₂ (h.calm hcalm) (h.closed.trans hopen)
    · exact .act (failStage_spec hcalm.toGood _ _ _)
  refine .bind (.act (Act.ensures_attempt.mpr ?_))
  exact ((preflightIteration_quiet iteration).ensures w).mono
    (fun _ w' h => hpreflight (.ok ()) w' (h.calm hcalm) (h.closed.trans hopen))
    fun error w' h => hpreflight (.error error) w' (h.calm hcalm) (h.closed.trans hopen)

/-- A rank enters an iteration; where that fails it closes. -/
theorem enterIteration_spec (hcalm : Calm w) (hopen : w.closed = false) (iteration : Int) :
    Yields setup (enterIteration setup world iteration) (fun _ => Good) (fun _ => Shut) w := by
  refine .bind (.act ((candidatesFor_returns iteration).mono (fun candidates w₁ h₁ => ?_)
    fun _ _ => False.elim))
  have hcalm₁ := h₁.calm hcalm
  split
  · exact .pure hcalm₁.toGood
  · refine .bind (.act ((hasSafeActivation_returns iteration).mono (fun requiresConsensus w₂ h₂ => ?_)
      fun _ _ => False.elim))
    have hopen₂ := h₂.closed.trans (h₁.closed.trans hopen)
    split
    · exact .act (enterAlone_spec (h₂.calm hcalm₁) hopen₂ iteration candidates)
    · exact enterTogether_spec (h₂.calm hcalm₁) hopen₂ iteration candidates _

/-! ## Steps -/

theorem stepConsensus_quiet (finished : Int) :
    (stepConsensus setup finished : Code campaign _).Moves Quiet :=
  .ite (requiresBoundaryConsensus_quiet _ _) (.pure _)

/-- What keeps a rank from the next iteration, or nothing. -/
theorem stepError_spec (hgood : Good w) (hopen : w.closed = false) (optimizerError : Option Raised)
    (finished : Int) : (stepError setup world optimizerError finished).Ensures
      (fun preparation w' => Good w' ∧ (preparation = none → Calm w' ∧ w'.closed = false))
      (fun _ => Good) w := by
  unfold stepError
  cases optimizerError with
  | some error => exact ⟨hgood, nofun⟩
  | none =>
      rw [Act.ensures_bind, Act.ensures_attempt]
      refine (prepareIteration_spec hgood finished (finished + 1)).mono (fun _ w' h => ?_)
        fun error w' h => ⟨h, nofun⟩
      exact ⟨h.1.toGood, fun _ => ⟨h.1, h.2.trans hopen⟩⟩

/-- A step of a session that is open. -/
theorem completeStep_spec (hgood : Good w) (hopen : w.closed = false)
    (optimizerError : Option Raised) (finished : Int) :
    Yields setup (completeStep setup world optimizerError finished) (fun _ => Good)
      (fun _ => Good) w := by
  have henter : ∀ w' : Runtime campaign, Calm w' → w'.closed = false →
      Yields setup (do
        let w ← Meth.self
        enterIteration setup world w.currentIteration) (fun _ => Good) (fun _ => Good) w' := by
    intro w' hcalm hopen
    exact .bind (.self ((enterIteration_spec hcalm hopen _).mono (fun _ _ h => h) fun _ _ h => h.1))
  refine .bind (.act (((stepConsensus_quiet finished).ensures w).mono (fun required w₁ h₁ => ?_)
    fun _ _ h => h.good hgood))
  refine .bind (.act ((stepError_spec (h₁.good hgood) (h₁.closed.trans hopen) optimizerError
    finished).mono (fun preparation w₂ h₂ => ?_) fun _ _ h => h))
  split
  · refine .bind ((gatherRuntimeRankErrors_spec h₂.1 _ _).mono (fun failures w₃ h => ?_)
      fun _ _ h => h.1)
    obtain ⟨rfl, hnone⟩ := h
    split
    · rename_i hempty
      obtain ⟨hcalm, hopen⟩ := h₂.2 (hnone (List.isEmpty_iff.mp hempty))
      exact henter w₃ hcalm hopen
    · exact .act ((failStep_spec h₂.1 _ _ _ _).mono (fun _ _ h => h) fun _ _ h => h.1)
  · cases preparation with
    | some error =>
        exact .act ((cleanupAndRaise_spec h₂.1 error).mono (fun _ _ h => h) fun _ _ h => h.1)
    | none => exact henter w₂ (h₂.2 rfl).1 (h₂.2 rfl).2

theorem onStepComplete_spec (hgood : Good w) (optimizerError : Option Raised) :
    Yields setup (onStepComplete setup world optimizerError) (fun _ => Good) (fun _ => Good) w := by
  refine .bind (.self ?_)
  split
  · cases optimizerError with
    | some error => exact .raise hgood
    | none => exact .pure hgood
  · rename_i hopen
    exact completeStep_spec hgood (Bool.eq_false_iff.mpr hopen) _ _

/-! ## Enablement -/

theorem start_spec (hcalm : Calm w) :
    Yields setup (start setup world) (fun _ => Good) (fun _ => Good) w := by
  refine .bind (.self ?_)
  split
  · exact .raise hcalm.toGood
  · rename_i hopen
    split
    · exact .pure hcalm.toGood
    · split
      · exact .raise hcalm.toGood
      · refine .bind ((enterIteration_spec hcalm (Bool.eq_false_iff.mpr hopen) _).mono
          (fun _ w' h => ?_) fun _ _ h => h.1)
        have hstarted : Quiet w' { w' with started := true } := ⟨rfl, rfl, rfl, rfl, rfl, rfl⟩
        exact hstarted.good h

theorem makeAlone_spec (hcalm : Calm w) :
    Yields setup (makeAlone setup world) (fun _ => Good) (fun _ => Shut) w := by
  have hbody : Yields setup (do
      locally (checkSession setup world)
      locally (commitJournalBinding world)
      start setup world) (fun _ => Good) (fun _ => Good) w := by
    refine .bind (.act ((quiet_calm checkSession_quiet hcalm).mono (fun _ w₁ h₁ => ?_)
      fun _ _ h => h.toGood))
    refine .bind (.act ((quiet_calm commitJournalBinding_quiet h₁).mono (fun _ w₂ h₂ => ?_)
      fun _ _ h => h.toGood))
    exact start_spec h₂
  exact .tryCatch (hbody.mono (fun _ _ h => h) fun error w' h => .act (cleanupAndRaise_spec h error))

theorem bindAndStart_spec (hcalm : Calm w) :
    Yields setup (bindAndStart setup world) (fun _ => Good) (fun _ => Shut) w := by
  have hbound : ∀ (bound : Except Raised Unit) (w' : Runtime campaign), Calm w' →
      Yields setup (do
        let failures ← (gatherRankErrors setup (errorOf bound)).tryCatch fun error =>
          locally (cleanupAndRaise world error)
        if failures.isEmpty then
          (start setup world).tryCatch fun error => locally (cleanupAndRaise world error)
        else locally (abandonBinding world bound failures)) (fun _ => Good) (fun _ => Shut) w' := by
    intro bound w' hcalm
    have hgathered : Yields setup ((gatherRankErrors setup (errorOf bound)).tryCatch fun error =>
        locally (cleanupAndRaise world error)) (fun _ w₁ => w₁ = w') (fun _ => Shut) w' := by
      refine .tryCatch ((gatherRankErrors_spec _).mono (fun _ _ h => h.1) fun error w₁ h => ?_)
      subst h
      exact .act (cleanupAndRaise_spec hcalm.toGood error)
    refine .bind (hgathered.mono (fun failures w₁ h => ?_) fun _ _ h => h)
    subst h
    split
    · exact .tryCatch ((start_spec hcalm).mono (fun _ _ h => h) fun error w₂ h =>
        .act (cleanupAndRaise_spec h error))
    · refine .act (Act.ensures_bind.mpr ?_)
      exact (cleanup_spec hcalm.toGood false).mono (fun _ _ h => h) fun _ _ h => h
  refine .bind (.act (Act.ensures_attempt.mpr ?_))
  exact (quiet_calm commitJournalBinding_quiet hcalm).mono (fun _ w' h => hbound (.ok ()) w' h)
    fun error w' h => hbound (.error error) w' h

/-- A session that is made, or was not. -/
structure Made (made : Except Raised Unit) (w : Runtime campaign) : Prop where
  good : Good w
  calm : made = .ok () → Calm w
  none : made ≠ .ok () → w.active = []

/-- What is left when a session is not enabled. -/
def Gone (w : Runtime campaign) : Prop := Good w ∧ w.active = []

theorem Shut.gone (h : Shut w) : Gone w := ⟨h.1, h.1.closed h.2⟩

theorem closeMade_spec {made : Except Raised Unit} (h : Made made w)
    {E : Raised → Runtime campaign → Prop} :
    (closeMade world made).Ensures (fun _ => Gone) E w := by
  unfold closeMade
  cases made with
  | error error => exact ⟨h.good, h.none nofun⟩
  | ok _ =>
      show (attempt (close world) >>= fun closing => pure (errorOf closing)).Ensures _ _ _
      rw [Act.ensures_bind, Act.ensures_attempt]
      exact (close_spec h.good).mono (fun _ _ hw => Shut.gone hw) fun _ _ hw => Shut.gone hw

theorem makeDeferred_spec (hcalm : Calm w) (hnone : w.active = []) (ranks : Except Raised Unit) :
    (makeDeferred setup world ranks).Ensures (fun _ => Calm) (fun _ => Gone) w := by
  unfold makeDeferred
  rw [Act.ensures_bind]
  cases ranks with
  | error error => exact ⟨hcalm.toGood, hnone⟩
  | ok _ =>
      show ((checkSession setup world).tryCatch (cleanupAndRaise world)).Ensures _ _ _
      rw [Act.ensures_tryCatch]
      exact (quiet_calm checkSession_quiet hcalm).mono (fun _ _ h => h) fun error w' h =>
        (cleanupAndRaise_spec h.toGood error).mono (fun _ _ h => h) fun _ _ h => Shut.gone h

/-- Preparations without failures have no failure of their own. -/
theorem made_of_prepared {gathered : List Preparation} (h : preparationFailures gathered = [])
    {n : Nat} {made : Except Raised Unit} {ranksValid : Bool}
    (hn : gathered[n]? = some (preparationOf setup w ranksValid made)) : made = .ok () := by
  have hfailures : failuresOf (gathered.map Preparation.error) = [] := by
    unfold preparationFailures at h
    dsimp only at h
    split at h
    · exact List.isEmpty_iff.mp ‹_›
    · exact h
  have hown : (gathered.map Preparation.error)[n]? =
      some (preparationOf setup w ranksValid made).error := by
    rw [List.getElem?_map, hn]
    rfl
  have hnone := failuresOf_eq_nil hfailures hown
  cases made with
  | ok _ => rfl
  | error error => cases hnone

/-- A session is enabled, or nothing of it is left active. -/
theorem enable_spec (hcalm : Calm w) (hnone : w.active = []) :
    Yields setup (enable setup world) (fun _ => Good) (fun _ => Gone) w := by
  unfold enable
  split
  · exact (makeAlone_spec hcalm).mono (fun _ _ h => h) fun _ _ h => Shut.gone h
  · have hprepared : ∀ (ranksValid : Bool) (made : Except Raised Unit) (w' : Runtime campaign),
        Made made w' → Yields setup (do
          let w ← Meth.self
          let gathered ← (Lockstep.collective (C := gathers) setup.lost .preparations
            (preparationOf setup w ranksValid made)).tryCatch fun error =>
              locally (abandonGather world made error)
          let failures := preparationFailures gathered
          if failures.isEmpty then bindAndStart setup world
          else locally (abandonEnablement world made failures)) (fun _ => Good)
          (fun _ => Gone) w' := by
      intro ranksValid made w' hmade
      refine .bind (.self (.bind ?_))
      refine .tryCatch (ensures_collective (fun gathered hown => ?_) ?_)
      · dsimp only
        split
        · rename_i hempty
          have hok := made_of_prepared (List.isEmpty_iff.mp hempty) hown
          exact (bindAndStart_spec (hmade.calm hok)).mono (fun _ _ h => h) fun _ _ h => Shut.gone h
        · refine .act (Act.ensures_bind.mpr ?_)
          exact (closeMade_spec hmade).mono (fun _ _ h => h) fun _ _ h => h
      · refine .act (Act.ensures_bind.mpr ?_)
        exact (closeMade_spec hmade).mono (fun _ _ h => h) fun _ _ h => h
    have hranks : ∀ (ranks : Except Raised Unit), Yields setup (do
        let made ← locally (attempt (makeDeferred setup world ranks))
        let w ← Meth.self
        let gathered ← (Lockstep.collective (C := gathers) setup.lost .preparations
          (preparationOf setup w ranks.isOk made)).tryCatch fun error =>
            locally (abandonGather world made error)
        let failures := preparationFailures gathered
        if failures.isEmpty then bindAndStart setup world
        else locally (abandonEnablement world made failures)) (fun _ => Good)
        (fun _ => Gone) w := by
      intro ranks
      refine .bind (.act (Act.ensures_attempt.mpr ?_))
      refine (makeDeferred_spec hcalm hnone ranks).mono (fun _ w' h => ?_) fun error w' h => ?_
      · exact hprepared ranks.isOk (.ok ()) w' ⟨h.toGood, fun _ => h, fun hne => absurd rfl hne⟩
      · exact hprepared ranks.isOk (.error error) w' ⟨h.1, nofun, fun _ => h.2⟩
    refine .bind (.act (Act.ensures_attempt.mpr ?_))
    unfold validateTargetRanks
    dsimp only
    split
    · exact hranks (.ok ())
    · exact hranks (.error _)

end Methods

/-! ## Runs -/

/-- A session that is about to be enabled. -/
def Runtime.initial (session : Session campaign) (journalBase : CampaignJournal)
    (completed : Int) : Runtime campaign where
  session := session
  expirations := ScheduleCursor.make campaign.incidents true
  journalBase := journalBase
  completedIterations := completed
  currentIteration := completed + 1
  expirations_valid := ScheduleCursor.valid_make _ _
  expirations_incidents := rfl
  expirations_expire := rfl

/-- What is called of a session, by the training loop or by a hook. -/
inductive Event where
  | stepCompleted (optimizerError : Option Raised)
  | recovered
  | replaced
  | stateReplaced (family : StateFamily) (identities : List Nat)
  | verified (number : Nat) (evidence : Evidence)
  | matched (number : Nat)
  | failed (number : Nat) (error : String) (propagate preserve : Bool)
  | closing
  | left (error : Option Raised)

variable (setup world) in
/-- The method that is called. -/
def Event.method : Event → Method campaign Unit
  | stepCompleted optimizerError => onStepComplete setup world optimizerError
  | recovered => locally (notifyRecovery world)
  | replaced => locally (notifyReplacement world)
  | stateReplaced family identities => locally (markStateReplaced world family identities)
  | verified number evidence => locally (verify number evidence)
  | matched number => locally (Effects.matched world number)
  | failed number error propagate preserve =>
      locally (failLocal world number error propagate preserve)
  | closing => locally (close world)
  | left error => locally (exit world error)

theorem method_spec (hgood : Good w) (event : Event) :
    Yields setup (event.method setup world) (fun _ => Good) (fun _ => Good) w := by
  cases event with
  | stepCompleted optimizerError => exact onStepComplete_spec hgood optimizerError
  | recovered => exact .act (completeUntil_good hgood .recovery)
  | replaced => exact .act (completeUntil_good hgood .replacement)
  | stateReplaced family identities => exact .act (markStateReplaced_good hgood family identities)
  | verified number evidence => exact .act (verify_good hgood number evidence)
  | matched number => exact .act (matched_good hgood number)
  | failed number error propagate preserve =>
      exact .act (failLocal_good hgood number error propagate preserve)
  | closing => exact .act ((close_spec hgood).mono (fun _ _ h => h.1) fun _ _ h => h.1)
  | left error => exact .act ((exit_spec hgood error).mono (fun _ _ h => h.1) fun _ _ h => h.1)

variable (setup world) in
/-- What a session reaches: it is enabled, and then anything is called of it in any order.
The flag says whether there is a session, or its enablement has raised. -/
inductive Reached : Bool → Runtime campaign → Prop where
  | enabled (session : Session campaign) (journalBase : CampaignJournal) (completed : Int)
      {w : Runtime campaign} (h : Prog.Finishes (Answers setup)
        (enable setup world (.initial session journalBase completed)) (.ok ((), w))) :
      Reached true w
  | refused (session : Session campaign) (journalBase : CampaignJournal) (completed : Int)
      {error : Raised} {w : Runtime campaign} (h : Prog.Finishes (Answers setup)
        (enable setup world (.initial session journalBase completed)) (.error (error, w))) :
      Reached false w
  | returned {w w' : Runtime campaign} (h : Reached true w) (event : Event)
      (hcall : Prog.Finishes (Answers setup) (event.method setup world w) (.ok ((), w'))) :
      Reached true w'
  | raised {w w' : Runtime campaign} (h : Reached true w) (event : Event) {error : Raised}
      (hcall : Prog.Finishes (Answers setup) (event.method setup world w) (.error (error, w'))) :
      Reached true w'

theorem calm_initial (session : Session campaign) (journalBase : CampaignJournal)
    (completed : Int) : Calm (Runtime.initial session journalBase completed) where
  sound := ⟨.nil, List.nodup_nil, fun _ h => (List.not_mem_nil h).elim, fun _ h => Bool.noConfusion h,
    fun _ h => (List.not_mem_nil h).elim, fun _ h => absurd h (Nat.not_lt_zero _),
    fun _ h => (List.not_mem_nil h).elim⟩
  closed _ := rfl
  undone _ h := (List.not_mem_nil h).elim

/-- **A run keeps what its steps keep.** -/
theorem Reached.good {there : Bool} (h : Reached setup world there w) :
    Good w ∧ (there = false → w.active = []) := by
  induction h with
  | enabled session journalBase completed h =>
      have hcalm := calm_initial session journalBase completed
      exact ⟨(Prog.Ensures.finishes (enable_spec hcalm rfl) h).1 _ rfl,
        fun hgone => Bool.noConfusion hgone⟩
  | refused session journalBase completed h =>
      have hcalm := calm_initial session journalBase completed
      have hgone := (Prog.Ensures.finishes (enable_spec hcalm rfl) h).2 _ rfl
      exact ⟨hgone.1, fun _ => hgone.2⟩
  | returned _ event hcall ih =>
      exact ⟨(Prog.Ensures.finishes (method_spec ih.1 event) hcall).1 _ rfl,
        fun hgone => Bool.noConfusion hgone⟩
  | raised _ event hcall ih =>
      exact ⟨(Prog.Ensures.finishes (method_spec ih.1 event) hcall).2 _ rfl,
        fun hgone => Bool.noConfusion hgone⟩

/-- A session that is closed, or was not enabled, has nothing active. -/
theorem Reached.over {there : Bool} (h : Reached setup world there w)
    (hover : w.closed = true ∨ there = false) : w.active = [] :=
  hover.elim h.good.1.closed h.good.2

/-! ### A worker's fault

One rank runs the campaign of a worker that dies at its seventh iteration, with an executor that
keeps the fault active until it is deactivated. -/

/-- Surroundings in which everything works, but for what the executor verifies. -/
def workingWorld (verified : Bool) : World := fun _ c =>
  match c with
  | .validateTargets => .ok ()
  | .validateSchedule => .ok ()
  | .validateActivations _ _ => .ok ()
  | .syncHistory _ => .ok ()
  | .arm _ _ => .armed none none
  | .cleanUp _ _ _ => .ok ()
  | .validate _ _ => .ok ()
  | .activate _ _ => .ok (some { verified := verified })
  | .deactivate _ _ _ => .ok none
  | .load _ => .ok freshSession.journal
  | .compareAndSwap _ _ => .ok true
  | .closeLocal => .ok ()
  | .closeContext => .ok ()

/-- An executor of process faults. -/
def processExecutor : CallbackFaultExecutor where
  identity := 0
  name := "process"
  supportedTypes := [.processTermination]
  deactivate := true
  maxSafety := .isolatedDestructive
  name_named := by decide
  deactivates := Or.inl rfl

/-- The second of two ranks, on its own. -/
def workerSetup : Setup where
  rank := 1
  worldSize := 1
  framework := "custom"
  executors := [processExecutor.executor]
  draw := fun _ _ _ => 0
  faultSeed := fun _ _ _ _ => 0
  campaignIdentity := "worker"
  attemptsIdentity := fun _ => ""
  lost := ⟨"RuntimeError", "", true, []⟩

/-- The state after a call that has returned. -/
def stateReturned : Except (Raised × Runtime campaign) (Unit × Runtime campaign) →
    Option (Runtime campaign)
  | .ok x => some x.2
  | .error _ => none

/-- The state after a call that has raised. -/
def stateRaised : Except (Raised × Runtime campaign) (Unit × Runtime campaign) →
    Option (Runtime campaign)
  | .ok _ => none
  | .error x => some x.2

theorem eq_of_stateReturned {x : Except (Raised × Runtime campaign) (Unit × Runtime campaign)}
    (h : stateReturned x = some w) : x = .ok ((), w) := by
  cases x with
  | ok x => exact congrArg _ (Prod.ext rfl (Option.some.inj h))
  | error x => cases h

theorem eq_of_stateRaised {x : Except (Raised × Runtime campaign) (Unit × Runtime campaign)}
    (h : stateRaised x = some w) : ∃ error, x = .error (error, w) := by
  cases x with
  | ok x => cases h
  | error x => exact ⟨x.1, congrArg _ (Prod.ext rfl (Option.some.inj h))⟩

theorem finishes_of_severed {α : Type} {p : Prog gathers.fallible.iface (Raised × Runtime campaign) α}
    {x : Except (Raised × Runtime campaign) α} (h : Lockstep.severed p = some x) :
    Prog.Finishes (Answers setup) p x := by
  induction p with
  | ret a => exact Option.some.inj h ▸ .ret a
  | raise e => exact Option.some.inj h ▸ .raise e
  | halt => cases h
  | call o k ih => exact .call none nofun (ih none h)

variable (setup world) in
/-- The state after calls that have all returned. -/
def stateAfter : List Event → Runtime campaign → Option (Runtime campaign)
  | [], w => some w
  | event :: events, w =>
      ((Lockstep.severed (event.method setup world w)).bind stateReturned).bind
        (stateAfter events)

theorem Reached.after {events : List Event} (h : Reached setup world true w)
    (hafter : stateAfter setup world events w = some w') : Reached setup world true w' := by
  induction events generalizing w with
  | nil => exact Option.some.inj hafter ▸ h
  | cons event events ih =>
      obtain ⟨w₁, hcall, hrest⟩ := Option.bind_eq_some_iff.mp hafter
      obtain ⟨x, hx, hreturned⟩ := Option.bind_eq_some_iff.mp hcall
      rw [eq_of_stateReturned hreturned] at hx
      exact ih (h.returned event (finishes_of_severed hx)) hrest

/-- How the session of the worker is enabled. -/
def workerEnabled (verified : Bool) (completed : Int) :
    Option (Except (Raised × Runtime workerCampaign) (Unit × Runtime workerCampaign)) :=
  Lockstep.severed (enable workerSetup (workingWorld verified)
    (.initial freshSession freshSession.journal completed))

/-- The session of the worker: six steps are completed, the fault is activated, it ends with the
recovery, and the session is closed. -/
def workerRecovered : Option (Runtime workerCampaign) :=
  ((workerEnabled true 0).bind stateReturned).bind
    (stateAfter workerSetup (workingWorld true)
      (List.replicate 6 (.stepCompleted none) ++ [.recovered, .closing]))

/-- The worker is started again after six iterations, and its fault is not verified. -/
def workerRefused : Option (Runtime workerCampaign) :=
  (workerEnabled false 6).bind stateRaised

/-- One fault, whose effect was activated and then deactivated. -/
def OneFault (status : InjectionStatus) (w : Runtime workerCampaign) : Prop :=
  w.records.map (·.status) = [status] ∧ (entries w.log).map Entry.acquires = [true, false]

instance (status : InjectionStatus) (w : Runtime workerCampaign) : Decidable (OneFault status w) :=
  inferInstanceAs (Decidable (_ ∧ _))

theorem workerRecovered_reached : ∃ w, Reached workerSetup (workingWorld true) true w ∧
    w.closed = true ∧ OneFault .completed w := by
  have hrun : workerRecovered.any (fun w => w.closed && decide (OneFault .completed w)) = true := by
    decide +kernel
  obtain ⟨w, hw, hend⟩ := (Option.any_eq_true _ _).mp hrun
  obtain ⟨w₁, henabled, hafter⟩ := Option.bind_eq_some_iff.mp hw
  obtain ⟨x, hx, hreturned⟩ := Option.bind_eq_some_iff.mp henabled
  rw [eq_of_stateReturned hreturned] at hx
  have hreached : Reached workerSetup (workingWorld true) true w₁ :=
    .enabled freshSession freshSession.journal 0 (finishes_of_severed hx)
  rw [Bool.and_eq_true, decide_eq_true_iff] at hend
  exact ⟨w, hreached.after hafter, hend⟩

theorem workerRefused_reached : ∃ w, Reached workerSetup (workingWorld false) false w ∧
    OneFault .failed w := by
  have hrun : workerRefused.any (fun w => decide (OneFault .failed w)) = true := by decide +kernel
  obtain ⟨w, hw, hend⟩ := (Option.any_eq_true _ _).mp hrun
  obtain ⟨x, hx, hraised⟩ := Option.bind_eq_some_iff.mp hw
  obtain ⟨error, rfl⟩ := eq_of_stateRaised hraised
  have hreached : Reached workerSetup (workingWorld false) false w :=
    .refused freshSession freshSession.journal 6 (finishes_of_severed hx)
  exact ⟨w, hreached, of_decide_eq_true hend⟩

/-- **Every effect is taken back**: nothing is deactivated that is not active, and once the session
is closed, or its enablement has raised, there was an attempt to deactivate every effect. -/
theorem effects_released {there : Bool} (h : Reached setup world there w) :
    Orderly (entries w.log) ∧
      (w.closed = true ∨ there = false → ∀ effect, Tried (entries w.log) effect) := by
  have hheld := h.good.1.sound.held
  refine ⟨hheld.orderly, fun hover effect => ?_⟩
  have hhand : hand w = 0 := by
    rw [hand, h.over hover]
    rfl
  rw [hhand] at hheld
  exact hheld.settled effect

/-- The effect of the worker's fault is taken back with the recovery, and where the enablement
raises. -/
theorem effects_released_worker :
    (∃ w, w.closed = true ∧ OneFault .completed w ∧
      Orderly (entries w.log) ∧ ∀ effect, Tried (entries w.log) effect) ∧
    ∃ w, OneFault .failed w ∧
      Orderly (entries w.log) ∧ ∀ effect, Tried (entries w.log) effect := by
  obtain ⟨w, hreached, hclosed, hone⟩ := workerRecovered_reached
  obtain ⟨w', hrefused, hone'⟩ := workerRefused_reached
  exact ⟨⟨w, hclosed, hone, (effects_released hreached).1,
      (effects_released hreached).2 (Or.inl hclosed)⟩,
    ⟨w', hone', (effects_released hrefused).1, (effects_released hrefused).2 (Or.inr rfl)⟩⟩

/-- **Every record is settled**: a fault counts as injected if and only if its record says that it
is active or completed, and once the session is closed, or its enablement has raised, no record
is left pending or active. -/
theorem records_settled {there : Bool} (h : Reached setup world there w) :
    (∀ record ∈ w.records, record.injectionSucceeded = true ↔
      record.status = .active ∨ record.status = .completed) ∧
      (w.closed = true ∨ there = false → ∀ record ∈ w.records,
        record.status ≠ .pending ∧ record.status ≠ .active) := by
  have hsound := h.good.1.sound
  constructor
  · intro record hmem
    have hhonest := hsound.honest record hmem
    unfold FaultInjection.FaultInjectionRecord.injectionSucceeded
    rw [Bool.and_eq_true, decide_eq_true_iff]
    exact ⟨fun hboth => hboth.2, fun hstatus => ⟨hhonest hstatus, hstatus⟩⟩
  · intro hover record hmem
    obtain ⟨n, hn⟩ := List.mem_iff_getElem?.mp hmem
    have hsettled : ¬ Unsettled record := by
      intro hunsettled
      obtain ⟨active, hactive, -⟩ :=
        hsound.settled n (List.getElem?_eq_some_iff.mp hn).1 record hn hunsettled
      rw [h.over hover] at hactive
      exact List.not_mem_nil hactive
    exact ⟨fun hpending => hsettled (Or.inl hpending), fun hactive => hsettled (Or.inr hactive)⟩

/-- The record of the worker's fault is completed with the recovery, and failed where the
enablement raises. -/
theorem records_settled_worker :
    (∃ w, w.closed = true ∧ OneFault .completed w ∧
      (∀ record ∈ w.records, record.injectionSucceeded = true ↔
        record.status = .active ∨ record.status = .completed) ∧
      ∀ record ∈ w.records, record.status ≠ .pending ∧ record.status ≠ .active) ∧
    ∃ w, OneFault .failed w ∧
      ∀ record ∈ w.records, record.status ≠ .pending ∧ record.status ≠ .active := by
  obtain ⟨w, hreached, hclosed, hone⟩ := workerRecovered_reached
  obtain ⟨w', hrefused, hone'⟩ := workerRefused_reached
  exact ⟨⟨w, hclosed, hone, (records_settled hreached).1,
      (records_settled hreached).2 (Or.inl hclosed)⟩,
    ⟨w', hone', (records_settled hrefused).2 (Or.inr rfl)⟩⟩

end LmResiliency.FaultInjection.Effects
