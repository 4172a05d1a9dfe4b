/-
# SharedStore — sessions that claim occurrences in one store

Any number of sessions of one campaign share a store, one after another or at once.
A session loads the journal, binds it to the manifest, and at each iteration claims the
occurrences that begin there, waits for the other ranks, and activates what it claimed
or takes the claims back.  It may die between any two of these steps, and every step of
its store may fail.

Claiming is drawing numbered tickets from the counts of the store.

The main result is `activations_limited`.  Load-bearing is that the store swaps
counts in one step, so that no two sessions draw one ticket.
-/
import LmResiliency.FaultInjection.AttemptRollback
import LmResiliency.Lib.Tickets
import Mathlib.Order.Interval.Finset.Defs
import Mathlib.Data.Int.Interval

namespace LmResiliency.FaultInjection

open Tickets (bump)

/-! ## The system -/

def CampaignJournal.bindManifest (journal : CampaignJournal) (identity : String)
    (hidentity : identity ≠ "") : Option CampaignJournal :=
  match journal.manifestIdentity with
  | none =>
      if journal.attempts ≠ [] then none
      else some
        { campaign := journal.campaign
          manifestIdentity := some identity
          attempts := journal.attempts
          campaign_ne := journal.campaign_ne
          identity_ne := fun h => hidentity (Option.some.inj h)
          keys_nodup := journal.keys_nodup
          keys_valid := journal.keys_valid
          counts_pos := journal.counts_pos }
  | some bound => if bound = identity then some journal else none

variable {campaign : FaultCampaign}

/-- A session with a journal, and nothing looked up in its schedule yet. -/
def newSession (campaign : FaultCampaign) (journal : CampaignJournal) : Session campaign where
  schedule := ScheduleCursor.make campaign.incidents false
  journal := journal
  file := none
  schedule_valid := ScheduleCursor.valid_make _ _
  schedule_incidents := rfl
  schedule_begins := rfl

/-- The session, reading the store. -/
def Session.reading (session : Session campaign) (file : Option CampaignJournal) :
    Session campaign :=
  { session with file := file }

/-- Where a session stands: its journal is not yet bound in the store, or was refused there; it
is between iterations; it has claimed occurrences, or failed to, and waits for the other ranks;
or it activates what it claimed. -/
inductive Phase (campaign : FaultCampaign) where
  | prepared (base : CampaignJournal) (session : Session campaign)
  | contested (session : Session campaign)
  | idle (session : Session campaign)
  | staged (previous : CampaignJournal) (session : Session campaign) (iteration : Int)
      (items : List StagedIncident)
  | failed (previous : CampaignJournal) (session : Session campaign)
  | activating (previous : CampaignJournal) (session : Session campaign) (iteration : Int)
      (items : List StagedIncident)

/-- An incident that was activated, and the count its store held at that moment. -/
structure Activation where
  incident : FaultIncident
  iteration : Int
  attempt : Int
  occurrenceId : String
  stored : Int

/-- How often an occurrence was attempted, by the journal. -/
def CampaignJournal.count (journal : CampaignJournal) (key : String) : Int :=
  (journal.attempts.lookup key).getD 0

/-- How often an occurrence was attempted, by the store. -/
def storedCount (file : Option CampaignJournal) (key : String) : Int :=
  ((storedAttempts file).lookup key).getD 0

/-- The store, the sessions, and what was activated so far. -/
structure System (campaign : FaultCampaign) where
  file : Option CampaignJournal
  phases : Nat → Option (Phase campaign)
  activations : List Activation

/-- One session moves on, or is gone. -/
def System.put (s : System campaign) (i : Nat) (phase : Option (Phase campaign)) :
    System campaign :=
  { s with phases := Function.update s.phases i phase }

/-- `_commit_journal_binding` after the swap. -/
def committedPhase (session : Session campaign) : Except StoreError Bool → Option (Phase campaign)
  | .ok true => some (.idle session)
  | .ok false => some (.contested session)
  | .error _ => none

/-- `_enter_iteration_consistently` after the attempts of the rank. -/
def stagedPhase (previous : CampaignJournal) (session : Session campaign) (iteration : Int) :
    Except AttemptError (List StagedIncident) → Phase campaign
  | .ok items => .staged previous session iteration items
  | .error _ => .failed previous session

/-- What `_restore_journal_attempts` leaves in the store, with the step that fails. -/
def restoredFile (raises : Option StorePoint) (file : Option CampaignJournal)
    (session : Session campaign) (previous : CampaignJournal) : Option CampaignJournal :=
  (compareAndSwap raises file session.journal.copy
    (session.journal.copy.withAttempts previous)).2

/-- The activation of a staged incident, when it was selected. -/
def activationsOf (file : Option CampaignJournal) (iteration : Int) (item : StagedIncident) :
    List Activation :=
  if item.selected then
    [{ incident := item.incident
       iteration := iteration
       attempt := item.attempt
       occurrenceId := item.occurrenceId
       stored := storedCount file (candidateKey item.incident.incidentId iteration) }]
  else []

theorem campaign_name_ne (campaign : FaultCampaign) : campaign.name ≠ "" := by
  intro h
  have hnamed := campaign.name_named
  rw [h] at hnamed
  revert hnamed
  decide

/-- One step of one session. -/
inductive Step (draw : Int → String → Int → ℚ) (identity : String) (hidentity : identity ≠ "") :
    System campaign → System campaign → Prop where
  | create (s : System campaign) (i : Nat) (loaded journal : CampaignJournal) :
      s.phases i = none →
      loadUnlocked s.file campaign.name (campaign_name_ne campaign) = .ok loaded →
      loaded.copy.bindManifest identity hidentity = some journal →
      Step draw identity hidentity s
        (s.put i (some (.prepared loaded.copy (newSession campaign journal))))
  | commit (s : System campaign) (i : Nat) (base : CampaignJournal) (session : Session campaign)
      (raises : Option StorePoint) : s.phases i = some (.prepared base session) →
      Step draw identity hidentity s
        { file := (compareAndSwap raises s.file base session.journal).2
          phases := Function.update s.phases i
            (committedPhase session (compareAndSwap raises s.file base session.journal).1)
          activations := s.activations }
  | recheck (s : System campaign) (i : Nat) (session : Session campaign)
      (current : CampaignJournal) : s.phases i = some (.contested session) →
      loadUnlocked s.file campaign.name (campaign_name_ne campaign) = .ok current →
      Step draw identity hidentity s
        (s.put i (if current.sameDict session.journal then some (.idle session) else none))
  | stage (s : System campaign) (i : Nat) (session : Session campaign) (iteration : Int)
      (raises : Option StorePoint) : s.phases i = some (.idle session) → 0 < iteration →
      Step draw identity hidentity s
        { file := (stageIterationAttempts draw iteration
            ⟨session.reading s.file, raises⟩).2.file
          phases := Function.update s.phases i (some (stagedPhase session.journal
            (stageIterationAttempts draw iteration ⟨session.reading s.file, raises⟩).2 iteration
            (stageIterationAttempts draw iteration ⟨session.reading s.file, raises⟩).1))
          activations := s.activations }
  | persisted (s : System campaign) (i : Nat) (previous : CampaignJournal)
      (session : Session campaign) (iteration : Int) (items : List StagedIncident) :
      s.phases i = some (.staged previous session iteration items) →
      Step draw identity hidentity s
        (s.put i (some (.activating previous session iteration items)))
  | takeBack (s : System campaign) (i : Nat) (previous : CampaignJournal)
      (session : Session campaign) (raises : Option StorePoint) :
      (s.phases i = some (.failed previous session) ∨
        ∃ iteration items, s.phases i = some (.staged previous session iteration items)) →
      Step draw identity hidentity s
        { file := restoredFile raises s.file session previous
          phases := Function.update s.phases i none
          activations := s.activations }
  | activate (s : System campaign) (i : Nat) (previous : CampaignJournal)
      (session : Session campaign) (iteration : Int) (item : StagedIncident)
      (rest : List StagedIncident) :
      s.phases i = some (.activating previous session iteration (item :: rest)) →
      Step draw identity hidentity s
        { file := s.file
          phases := Function.update s.phases i
            (some (.activating previous session iteration rest))
          activations := s.activations ++ activationsOf s.file iteration item }
  | finish (s : System campaign) (i : Nat) (previous : CampaignJournal)
      (session : Session campaign) (iteration : Int) :
      s.phases i = some (.activating previous session iteration []) →
      Step draw identity hidentity s (s.put i (some (.idle session)))
  | leave (s : System campaign) (i : Nat) : Step draw identity hidentity s (s.put i none)

/-! ## What the steps of the store do to the counts -/

open CampaignJournal (sameDict_iff sameDict_symm)

theorem Holds.storedCount_eq {file : Option CampaignJournal} {journal : CampaignJournal}
    (h : Holds file journal) : storedCount file = journal.count := by
  funext key
  rw [storedCount, h.lookup_eq, CampaignJournal.count]

theorem storedCount_copy (journal : CampaignJournal) :
    storedCount (some journal.copy) = journal.count := (holds_some journal).storedCount_eq

theorem count_eq_of_sameDict {left right : CampaignJournal} (h : left.sameDict right = true) :
    left.count = right.count := by
  funext key
  rw [CampaignJournal.count, CampaignJournal.count,
    CampaignJournal.lookup_eq_of_sameDict h]

theorem error_ne_ok {e : StoreError} {swapped : Bool} :
    (Except.error e : Except StoreError Bool) ≠ .ok swapped := by
  intro h
  cases h

/-- A swap leaves the file, and is not accepted, or replaces what was expected. -/
theorem compareAndSwap_cases (raises : Option StorePoint) (file : Option CampaignJournal)
    (expected updated : CampaignJournal) :
    ((compareAndSwap raises file expected updated).2 = file ∧
      (compareAndSwap raises file expected updated).1 ≠ .ok true) ∨
    (Holds file expected ∧
      (compareAndSwap raises file expected updated).2 = some updated.copy) := by
  by_cases hcampaign : expected.campaign = updated.campaign
  · by_cases hholds : Holds file expected
    · have hswap := compareAndSwap_holds raises hholds hcampaign
      cases hraises : raises with
      | none =>
          rw [hraises] at hswap
          exact Or.inr ⟨hholds, by rw [hswap]⟩
      | some point =>
          rw [hraises] at hswap
          rw [hswap]
          dsimp only
          split
          · exact Or.inr ⟨hholds, rfl⟩
          · exact Or.inl ⟨rfl, error_ne_ok⟩
    · left
      unfold compareAndSwap
      rw [if_neg (not_not.mpr hcampaign)]
      split
      · exact ⟨rfl, error_ne_ok⟩
      · split
        · exact ⟨rfl, error_ne_ok⟩
        · split
          · exact ⟨rfl, error_ne_ok⟩
          · rename_i current hload
            split
            · rename_i hsame
              exact absurd ⟨current, hload, hsame⟩ hholds
            · dsimp only
              refine ⟨rfl, fun h => ?_⟩
              split at h <;> cases h
  · left
    unfold compareAndSwap
    rw [if_pos hcampaign]
    exact ⟨rfl, error_ne_ok⟩

theorem bindManifest_count {journal bound : CampaignJournal} {identity : String}
    {hidentity : identity ≠ ""} (h : journal.bindManifest identity hidentity = some bound) :
    bound.count = journal.count := by
  unfold CampaignJournal.bindManifest at h
  split at h
  · split at h
    · cases h
    · rw [← Option.some.inj h]
      rfl
  · split at h
    · rw [← Option.some.inj h]
    · cases h

/-! ## What staging claims -/

/-- The keys of the occurrences that were selected. -/
def claimedKeys (iteration : Int) (items : List StagedIncident) : List String :=
  (items.filter (·.selected)).map fun item => candidateKey item.incident.incidentId iteration

/-- What staging makes of the candidates. -/
def stagedOf (iteration : Int) (items : List (FaultIncident × Int × Bool)) :
    List StagedIncident :=
  items.map fun item =>
    ⟨item.1, item.2.1, occurrenceIdOf item.1 iteration item.2.1, item.2.2⟩

theorem claimedKeys_cons (iteration : Int) (item : StagedIncident) (items : List StagedIncident) :
    claimedKeys iteration (item :: items) = if item.selected then
      candidateKey item.incident.incidentId iteration :: claimedKeys iteration items
    else claimedKeys iteration items := by
  rw [claimedKeys, List.filter_cons]
  split <;> rfl

theorem recordAttempt_count {journal updated : CampaignJournal} {incidentId : String}
    {iteration attempt : Int}
    (h : journal.recordAttempt incidentId iteration = some (updated, attempt)) :
    attempt = journal.count (candidateKey incidentId iteration) + 1 ∧
      updated.count = bump journal.count [candidateKey incidentId iteration] := by
  unfold CampaignJournal.recordAttempt at h
  dsimp only at h
  split at h
  · obtain ⟨rfl, rfl⟩ := Prod.mk.inj (Option.some.inj h)
    refine ⟨rfl, funext fun key => ?_⟩
    rw [CampaignJournal.count, CampaignJournal.setCount, Dict.lookup_put, bump]
    simp only [List.mem_singleton]
    split
    · rename_i hkey
      rw [Option.getD_some, hkey]
      rfl
    · rfl
  · cases h

/-- Staging draws one number of each selected occurrence. -/
theorem stageSelections_count {iteration : Int} {items : List (FaultIncident × Int × Bool)}
    {journal updated : CampaignJournal} {staged : List StagedIncident}
    (hnodup : (items.map (·.1.incidentId)).Nodup)
    (h : stageSelections iteration items journal = .ok (updated, staged)) :
    staged = stagedOf iteration items ∧
      updated.count = bump journal.count (claimedKeys iteration staged) := by
  induction items generalizing journal staged with
  | nil =>
      obtain ⟨rfl, rfl⟩ := Prod.mk.inj (Except.ok.inj h)
      exact ⟨rfl, funext fun key => (if_neg List.not_mem_nil).symm⟩
  | cons item rest ih =>
      obtain ⟨incident, expected, selected⟩ := item
      rw [List.map_cons, List.nodup_cons] at hnodup
      rw [stageSelections] at h
      cases selected with
      | false =>
          rw [if_neg Bool.false_ne_true] at h
          cases hrest : stageSelections iteration rest journal with
          | error e =>
              rw [hrest] at h
              cases h
          | ok result =>
              rw [hrest] at h
              obtain ⟨rfl, rfl⟩ := Prod.mk.inj (Except.ok.inj h)
              obtain ⟨hstaged, hcount⟩ := ih hnodup.2 hrest
              refine ⟨by rw [hstaged]; rfl, ?_⟩
              rw [claimedKeys_cons, if_neg Bool.false_ne_true]
              exact hcount
      | true =>
          rw [if_pos rfl] at h
          cases hrecord : journal.recordAttempt incident.incidentId iteration with
          | none =>
              rw [hrecord] at h
              cases h
          | some recorded =>
              obtain ⟨next, attempt⟩ := recorded
              obtain ⟨hattempt, hnext⟩ := recordAttempt_count hrecord
              rw [hrecord] at h
              dsimp only at h
              split at h
              · cases h
              · rename_i hexpected
                rw [not_not] at hexpected
                cases hrest : stageSelections iteration rest next with
                | error e =>
                    rw [hrest] at h
                    cases h
                | ok result =>
                    rw [hrest] at h
                    obtain ⟨rfl, rfl⟩ := Prod.mk.inj (Except.ok.inj h)
                    obtain ⟨hstaged, hcount⟩ := ih hnodup.2 hrest
                    refine ⟨by rw [hstaged, hexpected]; rfl, ?_⟩
                    have hnew : candidateKey incident.incidentId iteration ∉
                        claimedKeys iteration result.2 := by
                      intro hmem
                      obtain ⟨other, hother, hkey⟩ := List.mem_map.mp hmem
                      rw [hstaged] at hother
                      obtain ⟨entry, hentry, rfl⟩ :=
                        List.mem_map.mp (List.mem_of_mem_filter hother)
                      exact hnodup.1 (List.mem_map.mpr ⟨entry, hentry, candidateKey_inj hkey⟩)
                    rw [claimedKeys_cons, if_pos rfl, hcount, hnext]
                    exact Tickets.bump_cons hnew

/-- What the retrigger policy of an incident allows. -/
structure WithinLimit (incident : FaultIncident) (attempt : Int) : Prop where
  pos : 1 ≤ attempt
  once : incident.retrigger = .once → attempt ≤ 1
  maxOccurrences : incident.retrigger = .maxOccurrences →
    attempt ≤ incident.maxOccurrences.getD 0

/-- A candidate is an incident of the campaign, within its limit. -/
theorem candidateIncidents_spec {session : Session campaign} {iteration : Int}
    {item : FaultIncident × Int} (h : item ∈ candidateIncidents iteration session) :
    item.1 ∈ campaign.incidents ∧ WithinLimit item.1 item.2 := by
  have hanswer := (ScheduleCursor.valid_atIteration session.schedule_valid iteration).1
  rw [session.schedule_incidents, session.schedule_begins, scheduledAt_false] at hanswer
  obtain ⟨incident, hincident, hitem⟩ := List.mem_filterMap.mp h
  rw [hanswer] at hincident
  obtain ⟨begun, hbegun, rfl⟩ := List.mem_map.mp hincident
  obtain ⟨scheduled, hscheduled, rfl⟩ := List.mem_map.mp hbegun
  have hnonneg : 0 ≤ session.journal.attemptCount scheduled.incidentId iteration :=
    session.journal.lookup_nonneg _
  dsimp only at hitem
  split at hitem
  · cases hitem
  · rename_i honce
    split at hitem
    · cases hitem
    · rename_i hmax
      obtain rfl := Option.some.inj hitem
      refine ⟨List.mem_of_mem_filter hscheduled, by dsimp only; omega, fun hpolicy => ?_,
        fun hpolicy => ?_⟩
      · have := not_and.mp honce hpolicy
        dsimp only
        omega
      · have := not_and.mp hmax hpolicy
        dsimp only
        omega

/-- What is staged, is staged with the next number of its occurrence. -/
structure Staged (campaign : FaultCampaign) (previous : CampaignJournal) (iteration : Int)
    (item : StagedIncident) : Prop where
  incident : item.incident ∈ campaign.incidents
  attempt : item.attempt =
    previous.count (candidateKey item.incident.incidentId iteration) + 1
  occurrenceId : item.occurrenceId = occurrenceIdOf item.incident iteration item.attempt
  limit : WithinLimit item.incident item.attempt

theorem staged_selections {draw : Int → String → Int → ℚ} {iteration : Int}
    {session : Session campaign} {item : StagedIncident}
    (h : item ∈ stagedOf iteration (selections draw iteration session)) :
    Staged campaign session.journal iteration item := by
  obtain ⟨selection, hselection, rfl⟩ := List.mem_map.mp h
  obtain ⟨candidate, hcandidate, rfl⟩ := List.mem_map.mp hselection
  obtain ⟨hincident, hlimit⟩ := candidateIncidents_spec hcandidate
  exact ⟨hincident, mem_candidateIncidents hcandidate, rfl, hlimit⟩

theorem nodup_claimedKeys (draw : Int → String → Int → ℚ) (iteration : Int)
    (session : Session campaign) :
    (claimedKeys iteration (stagedOf iteration (selections draw iteration session))).Nodup := by
  have hids : ((stagedOf iteration (selections draw iteration session)).map
      (·.incident.incidentId)).Nodup := by
    rw [stagedOf, selections, List.map_map, List.map_map]
    exact nodup_candidateIncidents session
  have hselected := hids.sublist
    ((List.filter_sublist (p := fun item : StagedIncident => item.selected)).map _)
  have hkeys : claimedKeys iteration (stagedOf iteration (selections draw iteration session)) =
      (((stagedOf iteration (selections draw iteration session)).filter (·.selected)).map
        (·.incident.incidentId)).map (candidateKey · iteration) := by
    rw [claimedKeys, List.map_map]
    rfl
  rw [hkeys]
  exact hselected.map fun _ _ h => candidateKey_inj h

/-- What an attempt at staging does: it draws the numbers it stages, or stages nothing that
was selected, or fails with the counts of the store no lower than they were. -/
theorem stageIterationAttempts_draws (draw : Int → String → Int → ℚ) (iteration : Int)
    (rank : Rank campaign) :
    (∃ items, (stageIterationAttempts draw iteration rank).1 = .ok items ∧
      items = stagedOf iteration (selections draw iteration rank.session) ∧
      claimedKeys iteration items ≠ [] ∧
      storedCount rank.session.file = rank.session.journal.count ∧
      (stageIterationAttempts draw iteration rank).2.journal.count =
        bump rank.session.journal.count (claimedKeys iteration items) ∧
      storedCount (stageIterationAttempts draw iteration rank).2.file =
        bump rank.session.journal.count (claimedKeys iteration items)) ∨
    (∃ items, (stageIterationAttempts draw iteration rank).1 = .ok items ∧
      items = stagedOf iteration (selections draw iteration rank.session) ∧
      claimedKeys iteration items = [] ∧
      (stageIterationAttempts draw iteration rank).2.journal = rank.session.journal ∧
      (stageIterationAttempts draw iteration rank).2.file = rank.session.file) ∨
    (∃ e, (stageIterationAttempts draw iteration rank).1 = .error e ∧
      (stageIterationAttempts draw iteration rank).2.journal = rank.session.journal ∧
      ∀ key, storedCount rank.session.file key ≤
        storedCount (stageIterationAttempts draw iteration rank).2.file key) := by
  have hnodup : ((selections draw iteration rank.session).map (·.1.incidentId)).Nodup := by
    rw [selections, List.map_map]
    exact nodup_candidateIncidents rank.session
  unfold stageIterationAttempts
  dsimp only [Session.lookedUp]
  split
  · -- no candidate was selected
    rename_i hnone
    rw [List.any_eq_false] at hnone
    refine Or.inr (Or.inl ⟨_, rfl, ?_, ?_, rfl, rfl⟩)
    · refine List.map_congr_left fun selection hselection => ?_
      rw [Bool.eq_false_iff.mpr (hnone selection hselection)]
    · rw [claimedKeys, List.map_eq_nil_iff, List.filter_eq_nil_iff]
      intro item hitem
      obtain ⟨selection, -, rfl⟩ := List.mem_map.mp hitem
      exact Bool.false_ne_true
  · rename_i hany
    rw [Bool.not_eq_false] at hany
    split
    · exact Or.inr (Or.inr ⟨_, rfl, rfl, fun key => le_rfl⟩)
    · rename_i updated staged hstage
      obtain ⟨hstaged, hcount⟩ := stageSelections_count hnodup hstage
      rw [count_eq_of_sameDict rank.session.journal.copy_sameDict] at hcount
      have hcases := compareAndSwap_cases rank.raises rank.session.file
        rank.session.journal.copy updated
      have hgrows : ∀ key, storedCount rank.session.file key ≤ storedCount
          (compareAndSwap rank.raises rank.session.file rank.session.journal.copy
            updated).2 key := by
        intro key
        rcases hcases with ⟨hfile, -⟩ | ⟨hholds, hfile⟩
        · rw [hfile]
        · rw [hfile, storedCount_copy, hcount, hholds.storedCount_eq,
            count_eq_of_sameDict rank.session.journal.copy_sameDict]
          exact Tickets.le_bump _ _ _
      split <;> rename_i hswap <;> rw [hswap] at hcases hgrows
      · exact Or.inr (Or.inr ⟨_, rfl, rfl, hgrows⟩)
      · exact Or.inr (Or.inr ⟨_, rfl, rfl, hgrows⟩)
      · refine Or.inl ⟨staged, rfl, hstaged, ?_, ?_, hcount, ?_⟩
        · obtain ⟨selection, hselection, hselected⟩ := List.any_eq_true.mp hany
          refine List.ne_nil_of_mem (a := candidateKey selection.1.incidentId iteration)
            (List.mem_map.mpr ⟨⟨selection.1, selection.2.1,
              occurrenceIdOf selection.1 iteration selection.2.1, selection.2.2⟩, ?_, rfl⟩)
          rw [hstaged, List.mem_filter]
          exact ⟨List.mem_map.mpr ⟨selection, hselection, rfl⟩, hselected⟩
        all_goals
          rcases hcases with ⟨-, hrefused⟩ | ⟨hholds, hfile⟩
          · exact absurd rfl hrefused
        · rw [hholds.storedCount_eq, count_eq_of_sameDict rank.session.journal.copy_sameDict]
        · dsimp only at hfile ⊢
          rw [hfile, storedCount_copy, hcount]

/-! ## The tickets of the system -/

/-- What a session has claimed and not activated. -/
def drawOf (previous : CampaignJournal) (iteration : Int) (items : List StagedIncident)
    (fresh : Bool) : Option (Tickets.Draw String) :=
  if claimedKeys iteration items = [] then none
  else some ⟨previous.count, claimedKeys iteration items, fresh⟩

def heldBy : Option (Phase campaign) → Option (Tickets.Draw String)
  | some (.staged previous _ iteration items) => drawOf previous iteration items true
  | some (.activating previous _ iteration items) => drawOf previous iteration items false
  | _ => none

/-- The ticket of an activation. -/
def Activation.number (a : Activation) : String × Int :=
  (candidateKey a.incident.incidentId a.iteration, a.attempt)

/-- The system as a table of tickets. -/
def System.table (s : System campaign) : Tickets.Table Nat String where
  counts := storedCount s.file
  holds i := heldBy (s.phases i)
  used := s.activations.map Activation.number

/-- What a phase says of the journals it keeps. -/
def PhaseSound : Phase campaign → Prop
  | .prepared base session => session.journal.count = base.count
  | .contested _ => True
  | .idle _ => True
  | .staged previous session iteration items =>
      session.journal.count = bump previous.count (claimedKeys iteration items) ∧
        (claimedKeys iteration items).Nodup ∧ 0 < iteration ∧
        ∀ item ∈ items, Staged campaign previous iteration item
  | .failed previous session => session.journal = previous
  | .activating previous _ iteration items =>
      0 < iteration ∧ ∀ item ∈ items, Staged campaign previous iteration item

/-- An activation is of a staged incident, and its number was in the store. -/
structure ActivationSound (campaign : FaultCampaign) (a : Activation) : Prop where
  incident : a.incident ∈ campaign.incidents
  iteration : 0 < a.iteration
  occurrenceId : a.occurrenceId = occurrenceIdOf a.incident a.iteration a.attempt
  limit : WithinLimit a.incident a.attempt
  stored : a.attempt ≤ a.stored

/-- Every session's journals fit, and every activation does. -/
structure Sound (s : System campaign) : Prop where
  phases : ∀ i phase, s.phases i = some phase → PhaseSound phase
  activations : ∀ a ∈ s.activations, ActivationSound campaign a

theorem Sound.update {s : System campaign} (h : Sound s) (i : Nat)
    (file : Option CampaignJournal) (phase : Option (Phase campaign))
    (hphase : ∀ p, phase = some p → PhaseSound p) {activations : List Activation}
    (hactivations : ∀ a ∈ activations, ActivationSound campaign a) :
    Sound ⟨file, Function.update s.phases i phase, activations⟩ := by
  refine ⟨fun j p hp => ?_, hactivations⟩
  dsimp only at hp
  by_cases hj : j = i
  · rw [hj, Function.update_self] at hp
    exact hphase p hp
  · rw [Function.update_of_ne hj] at hp
    exact h.phases j p hp

/-- What is held after one session's phase changed. -/
theorem table_update (s : System campaign) (file : Option CampaignJournal) (i : Nat)
    (phase : Option (Phase campaign)) (activations : List Activation) :
    System.table ⟨file, Function.update s.phases i phase, activations⟩ =
      ⟨storedCount file, Function.update s.table.holds i (heldBy phase),
        activations.map Activation.number⟩ := by
  have hholds : (fun j => heldBy (Function.update s.phases i phase j)) =
      Function.update s.table.holds i (heldBy phase) := by
    funext j
    by_cases hj : j = i
    · rw [hj, Function.update_self, Function.update_self]
    · rw [Function.update_of_ne hj, Function.update_of_ne hj]
      rfl
  rw [System.table]
  dsimp only
  rw [hholds]

/-- The table after a step in which a session that holds nothing goes on holding nothing, and
no count goes down. -/
theorem table_grows {s : System campaign} {i : Nat} (hheld : heldBy (s.phases i) = none)
    {file : Option CampaignJournal} {phase : Option (Phase campaign)}
    (hphase : heldBy phase = none) (hle : ∀ key, storedCount s.file key ≤ storedCount file key) :
    Relation.ReflTransGen Tickets.Step s.table
      (System.table ⟨file, Function.update s.phases i phase, s.activations⟩) := by
  have hsame : Function.update s.table.holds i none = s.table.holds := by
    funext j
    by_cases hj : j = i
    · rw [hj, Function.update_self]
      exact hheld.symm
    · rw [Function.update_of_ne hj]
  rw [table_update, hphase, hsame]
  exact .single (Tickets.Step.grow s.table _ hle)

theorem table_forgets (s : System campaign) (i : Nat) {phase : Option (Phase campaign)}
    (hphase : heldBy phase = none) :
    Relation.ReflTransGen Tickets.Step s.table (s.put i phase).table := by
  rw [System.put, table_update, hphase]
  exact .single (Tickets.Step.forget s.table i)

/-- A session that goes on to activate what it holds. -/
theorem table_keeps {s : System campaign} {i : Nat} (previous : CampaignJournal)
    (iteration : Int) (items : List StagedIncident) (fresh : Bool)
    (hheld : heldBy (s.phases i) = drawOf previous iteration items fresh)
    {phase : Option (Phase campaign)}
    (hphase : heldBy phase = drawOf previous iteration items false) :
    Relation.ReflTransGen Tickets.Step s.table (s.put i phase).table := by
  by_cases hkeys : claimedKeys iteration items = []
  · rw [drawOf, if_pos hkeys] at hphase
    exact table_forgets s i hphase
  · rw [drawOf, if_neg hkeys] at hheld hphase
    rw [System.put, table_update, hphase]
    exact .single (Tickets.Step.keep s.table i _ hheld)

/-- Taking back puts the counts of before back, or leaves the store. -/
theorem restoredFile_cases (raises : Option StorePoint) (file : Option CampaignJournal)
    (session : Session campaign) (previous : CampaignJournal) :
    restoredFile raises file session previous = file ∨
      (storedCount file = session.journal.count ∧
        storedCount (restoredFile raises file session previous) = previous.count) := by
  rcases compareAndSwap_cases raises file session.journal.copy
    (session.journal.copy.withAttempts previous) with ⟨hsame, -⟩ | ⟨hholds, hfile⟩
  · exact Or.inl hsame
  · right
    rw [restoredFile, hfile, storedCount_copy, hholds.storedCount_eq,
      count_eq_of_sameDict session.journal.copy_sameDict]
    exact ⟨rfl, rfl⟩

/-- A session of which the journal has the counts of before takes nothing back. -/
theorem table_restored {s : System campaign} {i : Nat} {previous : CampaignJournal}
    {session : Session campaign} (raises : Option StorePoint)
    (hheld : heldBy (s.phases i) = none) (hsame : session.journal.count = previous.count) :
    Relation.ReflTransGen Tickets.Step s.table (System.table
      ⟨restoredFile raises s.file session previous, Function.update s.phases i none,
        s.activations⟩) := by
  refine table_grows hheld rfl fun key => ?_
  rcases restoredFile_cases raises s.file session previous with hfile | ⟨hfile, hrestored⟩
  · rw [hfile]
  · rw [hfile, hrestored, hsame]

/-! ## One step -/

variable {draw : Int → String → Int → ℚ} {identity : String} {hidentity : identity ≠ ""}

theorem heldBy_committedPhase (session : Session campaign) (result : Except StoreError Bool) :
    heldBy (committedPhase session result) = none := by
  cases result with
  | error e => rfl
  | ok swapped => cases swapped <;> rfl

theorem phaseSound_committedPhase (session : Session campaign) (result : Except StoreError Bool) :
    ∀ phase, committedPhase session result = some phase → PhaseSound phase := by
  intro phase hphase
  cases result with
  | error e => cases hphase
  | ok swapped =>
      cases swapped <;> obtain rfl := Option.some.inj hphase <;> trivial

/-- A step of the system is a run of its tickets. -/
theorem Sound.simulates {s s' : System campaign} (h : Sound s)
    (hstep : Step draw identity hidentity s s') :
    Relation.ReflTransGen Tickets.Step s.table s'.table := by
  cases hstep with
  | create i loaded journal hfree hload hbind => exact table_forgets s i rfl
  | commit i base session raises hphase =>
      have hcount : session.journal.count = base.count := h.phases i _ hphase
      refine table_grows (by rw [hphase]; rfl) (heldBy_committedPhase _ _) fun key => ?_
      rcases compareAndSwap_cases raises s.file base session.journal with
        ⟨hfile, -⟩ | ⟨hholds, hfile⟩
      · rw [hfile]
      · rw [hfile, storedCount_copy, hholds.storedCount_eq, hcount]
  | recheck i session current hphase hload =>
      refine table_forgets s i ?_
      split <;> rfl
  | stage i session iteration raises hphase hpos =>
      have hheld : heldBy (s.phases i) = none := by rw [hphase]; rfl
      rcases stageIterationAttempts_draws draw iteration ⟨session.reading s.file, raises⟩ with
        ⟨items, hok, hitems, hkeys, hcounts, -, hfile⟩ | ⟨items, hok, -, hkeys, -, hfile⟩ |
        ⟨e, herror, -, hle⟩
      · have hnodup := nodup_claimedKeys draw iteration (session.reading s.file)
        rw [← hitems] at hnodup
        have hnew : heldBy (some (stagedPhase session.journal (stageIterationAttempts draw
            iteration ⟨session.reading s.file, raises⟩).2 iteration
            (stageIterationAttempts draw iteration ⟨session.reading s.file, raises⟩).1)) =
            some ⟨session.journal.count, claimedKeys iteration items, true⟩ := by
          rw [hok]
          exact if_neg hkeys
        have hcounts' : s.table.counts = session.journal.count := hcounts
        rw [table_update, hnew, hfile]
        change Relation.ReflTransGen _ _ (Tickets.Table.mk (bump session.journal.count _) _ _)
        rw [← hcounts']
        exact .single (Tickets.Step.draw s.table i _ hheld hnodup)
      · refine table_grows hheld ?_ fun key => ?_
        · rw [hok]
          exact if_pos hkeys
        · rw [hfile]
          exact le_rfl
      · refine table_grows hheld ?_ hle
        rw [herror]
        rfl
  | persisted i previous session iteration items hphase =>
      exact table_keeps previous iteration items true (by rw [hphase]; rfl) rfl
  | takeBack i previous session raises hphase =>
      rcases hphase with hphase | ⟨iteration, items, hphase⟩
      · have hsame : session.journal = previous := h.phases i _ hphase
        exact table_restored raises (by rw [hphase]; rfl) (congrArg CampaignJournal.count hsame)
      · obtain ⟨hcount, -, -, -⟩ := h.phases i _ hphase
        by_cases hkeys : claimedKeys iteration items = []
        · refine table_restored raises (by rw [hphase]; exact if_pos hkeys) ?_
          rw [hcount, hkeys]
          exact funext fun key => if_neg List.not_mem_nil
        · have hheld : s.table.holds i =
              some ⟨previous.count, claimedKeys iteration items, true⟩ := by
            change heldBy (s.phases i) = _
            rw [hphase]
            exact if_neg hkeys
          rw [table_update]
          rcases restoredFile_cases raises s.file session previous with hfile | ⟨hfile, hrestored⟩
          · rw [hfile]
            exact .single (Tickets.Step.forget s.table i)
          · rw [hrestored]
            exact .single (Tickets.Step.giveBack s.table i _ hheld rfl (hfile.trans hcount))
  | activate i previous session iteration item rest hphase =>
      obtain ⟨-, hstaged⟩ := h.phases i _ hphase
      have hattempt := (hstaged item List.mem_cons_self).attempt
      cases hselected : item.selected with
      | false =>
          have hkeys : claimedKeys iteration (item :: rest) = claimedKeys iteration rest := by
            rw [claimedKeys_cons, hselected, if_neg Bool.false_ne_true]
          have hnone : activationsOf s.file iteration item = [] := by
            rw [activationsOf, hselected, if_neg Bool.false_ne_true]
          rw [hnone, List.append_nil]
          refine table_keeps previous iteration rest false ?_ rfl
          rw [hphase]
          change drawOf previous iteration (item :: rest) false = _
          rw [drawOf, drawOf, hkeys]
      | true =>
          have hkeys : claimedKeys iteration (item :: rest) =
              candidateKey item.incident.incidentId iteration :: claimedKeys iteration rest := by
            rw [claimedKeys_cons, hselected, if_pos rfl]
          have hheld : s.table.holds i = some ⟨previous.count,
              candidateKey item.incident.incidentId iteration :: claimedKeys iteration rest,
              false⟩ := by
            change heldBy (s.phases i) = _
            rw [hphase]
            change drawOf previous iteration (item :: rest) false = _
            rw [drawOf, hkeys, if_neg (List.cons_ne_nil _ _)]
          have hused : (s.activations ++ activationsOf s.file iteration item).map
              Activation.number = s.table.used ++
                [(candidateKey item.incident.incidentId iteration,
                  previous.count (candidateKey item.incident.incidentId iteration) + 1)] := by
            rw [activationsOf, hselected, if_pos rfl, List.map_append, ← hattempt]
            rfl
          have huse := Tickets.Step.use s.table i _ _ _ hheld rfl
          rw [table_update, hused]
          by_cases hrest : claimedKeys iteration rest = []
          · have hnew : heldBy (some (.activating previous session iteration rest)) = none :=
              if_pos hrest
            rw [hnew]
            refine .tail (.single huse) ?_
            have hforget := Tickets.Step.forget ⟨s.table.counts,
              Function.update s.table.holds i (some ⟨previous.count,
                claimedKeys iteration rest, false⟩), s.table.used ++
                  [(candidateKey item.incident.incidentId iteration,
                    previous.count (candidateKey item.incident.incidentId iteration) + 1)]⟩ i
            rw [Function.update_idem] at hforget
            exact hforget
          · have hnew : heldBy (some (.activating previous session iteration rest)) =
                some ⟨previous.count, claimedKeys iteration rest, false⟩ := if_neg hrest
            rw [hnew]
            exact .single huse
  | finish i previous session iteration hphase => exact table_forgets s i rfl
  | leave i => exact table_forgets s i rfl

/-- What was claimed is staged, and its number is in the store. -/
theorem Sound.step {s s' : System campaign} (h : Sound s) (htickets : Tickets.Inv s.table)
    (hstep : Step draw identity hidentity s s') : Sound s' := by
  have hnone : ∀ p : Phase campaign, none = some p → PhaseSound p := by
    intro p hp
    cases hp
  have hsome : ∀ p : Phase campaign, PhaseSound p → ∀ q, some p = some q → PhaseSound q := by
    intro p hp q hq
    exact Option.some.inj hq ▸ hp
  cases hstep with
  | create i loaded journal hfree hload hbind =>
      refine h.update i _ _ (hsome _ ?_) h.activations
      exact bindManifest_count hbind
  | commit i base session raises hphase =>
      exact h.update i _ _ (phaseSound_committedPhase session _) h.activations
  | recheck i session current hphase hload =>
      refine h.update i _ _ ?_ h.activations
      split
      · exact hsome _ trivial
      · exact hnone
  | stage i session iteration raises hphase hpos =>
      refine h.update i _ _ (hsome _ ?_) h.activations
      rcases stageIterationAttempts_draws draw iteration ⟨session.reading s.file, raises⟩ with
        ⟨items, hok, hitems, -, -, hcount, -⟩ | ⟨items, hok, hitems, hkeys, hjournal, -⟩ |
        ⟨e, herror, hjournal, -⟩
      · rw [hok]
        refine ⟨hcount, hitems ▸ nodup_claimedKeys draw iteration (session.reading s.file), hpos,
          fun item hitem => ?_⟩
        rw [hitems] at hitem
        exact staged_selections hitem
      · rw [hok]
        refine ⟨?_, hitems ▸ nodup_claimedKeys draw iteration (session.reading s.file), hpos,
          fun item hitem => ?_⟩
        · rw [hjournal, hkeys]
          exact funext fun key => (if_neg List.not_mem_nil).symm
        · rw [hitems] at hitem
          exact staged_selections hitem
      · rw [herror]
        exact hjournal
  | persisted i previous session iteration items hphase =>
      obtain ⟨-, -, hpos, hstaged⟩ := h.phases i _ hphase
      refine h.update i _ _ (hsome _ ?_) h.activations
      exact ⟨hpos, hstaged⟩
  | takeBack i previous session raises hphase => exact h.update i _ _ hnone h.activations
  | activate i previous session iteration item rest hphase =>
      obtain ⟨hpos, hstaged⟩ := h.phases i _ hphase
      refine h.update i _ _ (hsome _ ?_) fun a ha => ?_
      · exact ⟨hpos, fun x hx => hstaged x (List.mem_cons_of_mem _ hx)⟩
      rcases List.mem_append.mp ha with ha | ha
      · exact h.activations a ha
      · rw [activationsOf] at ha
        split at ha
        · rename_i hselected
          rw [List.mem_singleton] at ha
          have hitem := hstaged item List.mem_cons_self
          have hkeys : claimedKeys iteration (item :: rest) =
              candidateKey item.incident.incidentId iteration :: claimedKeys iteration rest := by
            rw [claimedKeys_cons, hselected, if_pos rfl]
          have hheld : s.table.holds i = some ⟨previous.count,
              candidateKey item.incident.incidentId iteration :: claimedKeys iteration rest,
              false⟩ := by
            change heldBy (s.phases i) = _
            rw [hphase]
            change drawOf previous iteration (item :: rest) false = _
            rw [drawOf, hkeys, if_neg (List.cons_ne_nil _ _)]
          have hstored := (htickets.held i _ hheld _ List.mem_cons_self).1
          rw [ha]
          exact ⟨hitem.incident, hpos, hitem.occurrenceId, hitem.limit,
            hitem.attempt.trans_le hstored⟩
        · exact absurd ha List.not_mem_nil
  | finish i previous session iteration hphase =>
      refine h.update i _ _ (hsome _ ?_) h.activations
      trivial
  | leave i => exact h.update i _ _ hnone h.activations

/-- A system in which no session runs and nothing was activated; the store may hold anything. -/
structure Starts (s : System campaign) : Prop where
  phases : ∀ i, s.phases i = none
  activations : s.activations = []

/-- Over any run the tickets are in order and every activation was staged. -/
theorem sound_of_run {s s' : System campaign} (hstarts : Starts s)
    (hrun : Relation.ReflTransGen (Step draw identity hidentity) s s') :
    Sound s' ∧ Tickets.Inv s'.table := by
  induction hrun with
  | refl =>
      refine ⟨⟨fun i p hp => ?_, fun a ha => ?_⟩, Tickets.inv_of_unheld ?_ fun i => ?_⟩
      · rw [hstarts.phases] at hp
        cases hp
      · rw [hstarts.activations] at ha
        exact absurd ha List.not_mem_nil
      · change s.activations.map _ = []
        rw [hstarts.activations]
        rfl
      · change heldBy (s.phases i) = none
        rw [hstarts.phases]
        rfl
  | tail _ hstep ih => exact ⟨ih.1.step ih.2 hstep, ih.2.run (ih.1.simulates hstep)⟩

/-! ## Occurrence ids -/

theorem candidateKey_eq (incidentId : String) (iteration : Int) :
    candidateKey incidentId iteration =
      String.ofList (incidentId.toList ++ '@' :: (Text.str iteration).toList) := by
  rw [candidateKey, ← String.toList_inj]
  simp

theorem split_at_mark {before before' after after' : List Char} (hbefore : '#' ∉ before)
    (hbefore' : '#' ∉ before') (h : before ++ '#' :: after = before' ++ '#' :: after') :
    before = before' ∧ after = after' := by
  have htake : ∀ xs ys : List Char, '#' ∉ xs →
      (xs ++ '#' :: ys).takeWhile (· ≠ '#') = xs := by
    intro xs ys hxs
    have hall : ∀ c ∈ xs, decide (c ≠ '#') = true := by
      intro c hc
      refine decide_eq_true fun heq => hxs ?_
      rw [← heq]
      exact hc
    rw [List.takeWhile_append_of_pos hall]
    simp
  have hfirst := congrArg (List.takeWhile (· ≠ '#')) h
  rw [htake _ _ hbefore, htake _ _ hbefore'] at hfirst
  rw [hfirst] at h
  exact ⟨hfirst, (List.cons.inj (List.append_cancel_left h)).2⟩

/-- **An occurrence id names one occurrence and one attempt.** -/
theorem occurrenceIdOf_inj {left right : FaultIncident}
    {iteration iteration' attempt attempt' : Int}
    (h : occurrenceIdOf left iteration attempt = occurrenceIdOf right iteration' attempt') :
    candidateKey left.incidentId iteration = candidateKey right.incidentId iteration' ∧
      attempt = attempt' := by
  have hat : ∀ n : Int, '@' ∉ (Text.str n).toList := fun n =>
    Text.notMem_str (by decide) (by decide)
  have hmark : ∀ n : Int, '#' ∉ (Text.str n).toList := fun n =>
    Text.notMem_str (by decide) (by decide)
  have hnumbered : ∀ (incident : FaultIncident) (iteration attempt : Int), attempt ≠ 1 →
      rpartitionAt (occurrenceIdOf incident iteration attempt) = some (incident.incidentId.toList,
        (Text.str iteration).toList ++ '#' :: (Text.str attempt).toList) := by
    intro incident iteration attempt hne
    have htext : occurrenceIdOf incident iteration attempt = String.ofList
        (incident.incidentId.toList ++ '@' ::
          ((Text.str iteration).toList ++ '#' :: (Text.str attempt).toList)) := by
      rw [occurrenceIdOf, if_neg hne, ← String.toList_inj]
      simp
    rw [htext, rpartitionAt_append]
    simp only [List.mem_append, List.mem_cons, not_or]
    exact ⟨hat _, by decide, hat _⟩
  have hfirst : ∀ (incident : FaultIncident) (iteration : Int),
      rpartitionAt (occurrenceIdOf incident iteration 1) =
        some (incident.incidentId.toList, (Text.str iteration).toList) := by
    intro incident iteration
    have htext : occurrenceIdOf incident iteration 1 =
        candidateKey incident.incidentId iteration := by
      rw [occurrenceIdOf, if_pos rfl, candidateKey]
    rw [htext, candidateKey_eq, rpartitionAt_append _ _ (hat _)]
  have hmixed : ∀ (left right : FaultIncident) (iteration iteration' attempt : Int), attempt ≠ 1 →
      occurrenceIdOf left iteration 1 ≠ occurrenceIdOf right iteration' attempt := by
    intro left right iteration iteration' attempt hne heq
    have hparts := congrArg rpartitionAt heq
    rw [hfirst, hnumbered _ _ _ hne] at hparts
    have htexts := (Prod.mk.inj (Option.some.inj hparts)).2
    refine hmark iteration ?_
    rw [htexts]
    exact List.mem_append_right _ List.mem_cons_self
  by_cases hleft : attempt = 1
  · by_cases hright : attempt' = 1
    · rw [hleft, hright] at h ⊢
      exact ⟨h, rfl⟩
    · rw [hleft] at h
      exact absurd h (hmixed _ _ _ _ _ hright)
  · by_cases hright : attempt' = 1
    · rw [hright] at h
      exact absurd h.symm (hmixed _ _ _ _ _ hleft)
    · have hparts := congrArg rpartitionAt h
      rw [hnumbered _ _ _ hleft, hnumbered _ _ _ hright] at hparts
      obtain ⟨hid, hrest⟩ := Prod.mk.inj (Option.some.inj hparts)
      obtain ⟨hiteration, hattempt⟩ := split_at_mark (hmark _) (hmark _) hrest
      refine ⟨?_, Text.str_injective (String.toList_inj.mp hattempt)⟩
      rw [candidateKey_eq, candidateKey_eq, hid, hiteration]

/-! ## How often an occurrence is activated -/

/-- The activations of an incident at an iteration. -/
def System.activationsAt (s : System campaign) (incident : FaultIncident) (iteration : Int) :
    List Activation :=
  s.activations.filter fun a =>
    a.incident.incidentId = incident.incidentId ∧ a.iteration = iteration

/-- Distinct numbers from one to a limit are no more than the limit. -/
theorem length_le_of_numbers {numbers : List Int} (hnodup : numbers.Nodup) (limit : Int)
    (h : ∀ n ∈ numbers, 1 ≤ n ∧ n ≤ limit) : (numbers.length : Int) ≤ max limit 0 := by
  have hsubset : numbers.toFinset ⊆ Finset.Icc 1 limit := fun n hn =>
    Finset.mem_Icc.mpr (h n (List.mem_toFinset.mp hn))
  have hcard := Finset.card_le_card hsubset
  rw [List.toFinset_card_of_nodup hnodup, Int.card_Icc] at hcard
  omega

theorem incident_unique {left right : FaultIncident} (hleft : left ∈ campaign.incidents)
    (hright : right ∈ campaign.incidents) (h : left.incidentId = right.incidentId) :
    left = right := List.inj_on_of_nodup_map campaign.incidentIds hleft hright h

/-- **Faults fire as often as allowed, across restarts.**  However many sessions share the
store, and wherever they die, an incident that fires once is activated at most once at an
iteration, and one with a limit at most that often; no two activations have one id; and
each was counted in the store before it happened. -/
theorem activations_limited {s s' : System campaign} (hstarts : Starts s)
    (hrun : Relation.ReflTransGen (Step draw identity hidentity) s s') :
    (∀ incident ∈ campaign.incidents, ∀ iteration,
      (incident.retrigger = .once → (s'.activationsAt incident iteration).length ≤ 1) ∧
      ∀ limit, incident.retrigger = .maxOccurrences → incident.maxOccurrences = some limit →
        ((s'.activationsAt incident iteration).length : Int) ≤ limit) ∧
    (s'.activations.map Activation.occurrenceId).Nodup ∧
    ∀ a ∈ s'.activations, 1 ≤ a.attempt ∧ a.attempt ≤ a.stored := by
  obtain ⟨hsound, htickets⟩ := sound_of_run hstarts hrun
  have hnumbers : (s'.activations.map Activation.number).Nodup := htickets.used_nodup
  have hpairwise := List.pairwise_map.mp hnumbers
  refine ⟨fun incident hincident iteration => ?_, ?_, fun a ha =>
    ⟨(hsound.activations a ha).limit.pos, (hsound.activations a ha).stored⟩⟩
  · -- the attempts of one incident at one iteration are distinct
    have hspec : ∀ a ∈ s'.activationsAt incident iteration,
        a.incident = incident ∧ a.iteration = iteration ∧ WithinLimit incident a.attempt := by
      intro a ha
      obtain ⟨ha, hat⟩ := List.mem_filter.mp ha
      obtain ⟨hid, hiteration⟩ := of_decide_eq_true hat
      have ha := hsound.activations a ha
      have heq := incident_unique ha.incident hincident hid
      exact ⟨heq, hiteration, heq ▸ ha.limit⟩
    have hattempts : ((s'.activationsAt incident iteration).map Activation.attempt).Nodup := by
      refine List.pairwise_map.mpr (List.Pairwise.imp_of_mem ?_
        (hpairwise.sublist List.filter_sublist))
      intro a b ha hb hne heq
      obtain ⟨ha, hiter, -⟩ := hspec a ha
      obtain ⟨hb, hiter', -⟩ := hspec b hb
      exact hne (by rw [Activation.number, Activation.number, ha, hb, hiter, hiter', heq])
    have hbound : ∀ limit, (∀ attempt, WithinLimit incident attempt → attempt ≤ limit) →
        ((s'.activationsAt incident iteration).length : Int) ≤ max limit 0 := by
      intro limit hlimit
      have hle := length_le_of_numbers hattempts limit fun n hn => by
        obtain ⟨a, ha, rfl⟩ := List.mem_map.mp hn
        have hwithin := (hspec a ha).2.2
        exact ⟨hwithin.pos, hlimit _ hwithin⟩
      rwa [List.length_map] at hle
    refine ⟨fun honce => ?_, fun limit hpolicy hmax => ?_⟩
    · have hle := hbound 1 fun attempt hwithin => hwithin.once honce
      omega
    · obtain ⟨n, hn, hpos⟩ := incident.occurrences_some hpolicy
      rw [hmax] at hn
      obtain rfl := Option.some.inj hn
      have hle := hbound limit fun attempt hwithin => by
        have := hwithin.maxOccurrences hpolicy
        rwa [hmax] at this
      omega
  · refine List.pairwise_map.mpr (List.Pairwise.imp_of_mem ?_ hpairwise)
    intro a b ha hb hne heq
    rw [(hsound.activations a ha).occurrenceId, (hsound.activations b hb).occurrenceId] at heq
    obtain ⟨hkey, hattempt⟩ := occurrenceIdOf_inj heq
    exact hne (Prod.ext hkey hattempt)

/-! ## Runs that are computed -/

/-- What a session does next, where the relation leaves a choice. -/
inductive SessionEvent where
  | create (i : Nat)
  | commit (i : Nat) (raises : Option StorePoint)
  | recheck (i : Nat)
  | stage (i : Nat) (iteration : Int) (raises : Option StorePoint)
  | persisted (i : Nat)
  | takeBack (i : Nat) (raises : Option StorePoint)
  | activate (i : Nat)
  | finish (i : Nat)
  | leave (i : Nat)

section Computed

variable (draw : Int → String → Int → ℚ) (identity : String) (hidentity : identity ≠ "")

/-- The step of a session, when it is where the event expects it. -/
def System.next (s : System campaign) : SessionEvent → Option (System campaign)
  | .create i =>
      match s.phases i, loadUnlocked s.file campaign.name (campaign_name_ne campaign) with
      | none, .ok loaded => (loaded.copy.bindManifest identity hidentity).map fun journal =>
          s.put i (some (.prepared loaded.copy (newSession campaign journal)))
      | _, _ => none
  | .commit i raises =>
      match s.phases i with
      | some (.prepared base session) => some
          { file := (compareAndSwap raises s.file base session.journal).2
            phases := Function.update s.phases i
              (committedPhase session (compareAndSwap raises s.file base session.journal).1)
            activations := s.activations }
      | _ => none
  | .recheck i =>
      match s.phases i, loadUnlocked s.file campaign.name (campaign_name_ne campaign) with
      | some (.contested session), .ok current => some
          (s.put i (if current.sameDict session.journal then some (.idle session) else none))
      | _, _ => none
  | .stage i iteration raises =>
      match s.phases i with
      | some (.idle session) =>
          if 0 < iteration then some
            { file := (stageIterationAttempts draw iteration
                ⟨session.reading s.file, raises⟩).2.file
              phases := Function.update s.phases i (some (stagedPhase session.journal
                (stageIterationAttempts draw iteration ⟨session.reading s.file, raises⟩).2
                iteration
                (stageIterationAttempts draw iteration ⟨session.reading s.file, raises⟩).1))
              activations := s.activations }
          else none
      | _ => none
  | .persisted i =>
      match s.phases i with
      | some (.staged previous session iteration items) =>
          some (s.put i (some (.activating previous session iteration items)))
      | _ => none
  | .takeBack i raises =>
      match s.phases i with
      | some (.failed previous session) | some (.staged previous session _ _) => some
          { file := restoredFile raises s.file session previous
            phases := Function.update s.phases i none
            activations := s.activations }
      | _ => none
  | .activate i =>
      match s.phases i with
      | some (.activating previous session iteration (item :: rest)) => some
          { file := s.file
            phases := Function.update s.phases i
              (some (.activating previous session iteration rest))
            activations := s.activations ++ activationsOf s.file iteration item }
      | _ => none
  | .finish i =>
      match s.phases i with
      | some (.activating _ session _ []) => some (s.put i (some (.idle session)))
      | _ => none
  | .leave i => some (s.put i none)

theorem step_of_next {s s' : System campaign} {event : SessionEvent}
    (h : s.next draw identity hidentity event = some s') : Step draw identity hidentity s s' := by
  cases event with
  | create i =>
      simp only [System.next] at h
      split at h
      · rename_i loaded hphase hload
        obtain ⟨journal, hbind, rfl⟩ := Option.map_eq_some_iff.mp h
        exact .create s i loaded journal hphase hload hbind
      · cases h
  | commit i raises =>
      simp only [System.next] at h
      split at h
      · cases h
        exact .commit s i _ _ raises ‹_›
      · cases h
  | recheck i =>
      simp only [System.next] at h
      split at h
      · cases h
        exact .recheck s i _ _ ‹_› ‹_›
      · cases h
  | stage i iteration raises =>
      simp only [System.next] at h
      split at h
      · split at h
        · cases h
          exact .stage s i _ iteration raises ‹_› ‹_›
        · cases h
      · cases h
  | persisted i =>
      simp only [System.next] at h
      split at h
      · cases h
        exact .persisted s i _ _ _ _ ‹_›
      · cases h
  | takeBack i raises =>
      simp only [System.next] at h
      split at h
      · cases h
        exact .takeBack s i _ _ raises (.inl ‹_›)
      · cases h
        exact .takeBack s i _ _ raises (.inr ⟨_, _, ‹_›⟩)
      · cases h
  | activate i =>
      simp only [System.next] at h
      split at h
      · cases h
        exact .activate s i _ _ _ _ _ ‹_›
      · cases h
  | finish i =>
      simp only [System.next] at h
      split at h
      · cases h
        exact .finish s i _ _ _ ‹_›
      · cases h
  | leave i =>
      cases h
      exact .leave s i

/-- **What is computed is a run.** -/
theorem run_of_events {s s' : System campaign} (events : List SessionEvent)
    (h : events.foldlM (System.next draw identity hidentity) s = some s') :
    Relation.ReflTransGen (Step draw identity hidentity) s s' := by
  induction events generalizing s with
  | nil =>
      cases h
      exact .refl
  | cons event events ih =>
      rw [List.foldlM_cons] at h
      obtain ⟨next, hnext, hrest⟩ := Option.bind_eq_some_iff.mp h
      exact .head (step_of_next draw identity hidentity hnext) (ih hrest)

end Computed

/-- Nobody runs, and nothing is stored. -/
def quietSystem : System workerCampaign := ⟨none, fun _ => none, []⟩

theorem starts_quietSystem : Starts quietSystem := ⟨fun _ => rfl, rfl⟩

theorem manifest_ne : "manifest" ≠ "" := by decide

/-- Two sessions bind the journal.  The first one claims the occurrence at iteration 7,
activates it and dies; the second one, whose journal is behind, fails to claim it and is
closed.  A restarted session finds it claimed. -/
def sessionEvents : List SessionEvent :=
  [.create 0, .create 1, .commit 0 none, .commit 1 none, .recheck 1,
   .stage 0 7 none, .persisted 0, .activate 0, .leave 0, .stage 1 7 none, .takeBack 1 none,
   .create 2, .commit 2 none, .stage 2 7 none, .persisted 2, .finish 2]

theorem run_sessionEvents : ∃ s : System workerCampaign,
    sessionEvents.foldlM (System.next (fun _ _ _ => 0) "manifest" manifest_ne) quietSystem =
      some s ∧ s.activations.map Activation.occurrenceId = ["worker-dies@7"] := by
  have hids : (sessionEvents.foldlM (System.next (fun _ _ _ => 0) "manifest" manifest_ne)
      quietSystem).map (fun s => s.activations.map Activation.occurrenceId) =
      some ["worker-dies@7"] := by decide +kernel
  exact Option.map_eq_some_iff.mp hids

theorem activations_limited_quietSystem : ∃ s : System workerCampaign,
    s.activations.map Activation.occurrenceId = ["worker-dies@7"] ∧
    (∀ incident ∈ workerCampaign.incidents, ∀ iteration,
      (incident.retrigger = .once → (s.activationsAt incident iteration).length ≤ 1) ∧
      ∀ limit, incident.retrigger = .maxOccurrences → incident.maxOccurrences = some limit →
        ((s.activationsAt incident iteration).length : Int) ≤ limit) ∧
    (s.activations.map Activation.occurrenceId).Nodup ∧
    ∀ a ∈ s.activations, 1 ≤ a.attempt ∧ a.attempt ≤ a.stored := by
  obtain ⟨s, hrun, hids⟩ := run_sessionEvents
  exact ⟨s, hids, activations_limited starts_quietSystem
    (run_of_events _ _ _ sessionEvents hrun)⟩

end LmResiliency.FaultInjection
