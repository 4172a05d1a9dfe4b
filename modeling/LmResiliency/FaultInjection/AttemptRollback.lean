/-
# AttemptRollback — attempts that were not persisted everywhere

On entering an iteration every rank records the attempts of the occurrences that
begin there, first in its store and then in its memory.  When that fails on some
rank, every rank puts the counts of before back, with a swap that expects the store
to hold what the rank has in memory.

A store that fails behind its replacement holds the new counts while the memory has
the old ones, so there the swap is refused and the new counts stay.

The main result is `persistAttempts_restores`, in both directions.  What a rank
does after it raised is in `EffectRelease`.
-/
import LmResiliency.FaultInjection.Journal
import LmResiliency.FaultInjection.Schedule

namespace LmResiliency.FaultInjection

/-! ## Sessions -/

/-- `_probability_selected`, with the number that the seeded generator draws. -/
def probabilitySelected (draw : Int → String → Int → ℚ) (campaignSeed : Int) (incidentId : String)
    (iteration : Int) (probability : ℚ) : Bool :=
  if 1 ≤ probability then true
  else if probability ≤ 0 then false
  else draw campaignSeed incidentId iteration < probability

/-- `_occurrence_id` -/
def occurrenceIdOf (incident : FaultIncident) (iteration attempt : Int) : String :=
  let base := incident.incidentId ++ "@" ++ Text.str iteration
  if attempt = 1 then base else base ++ "#" ++ Text.str attempt

/-- `_StagedIncident` -/
structure StagedIncident where
  incident : FaultIncident
  attempt : Int
  occurrenceId : String
  selected : Bool

/-- `FaultInjectionSession`: the schedule, the journal in memory and the file of the store. -/
structure Session (campaign : FaultCampaign) where
  schedule : ScheduleCursor
  journal : CampaignJournal
  file : Option CampaignJournal
  schedule_valid : schedule.Valid
  schedule_incidents : schedule.incidents = campaign.incidents
  schedule_begins : schedule.expiration = false

/-- Why an attempt is not persisted, or not taken back. -/
inductive AttemptError where
  | invalidKey (incidentId : String)
  | attemptChanged (incidentId : String) (expected attempt : Int)
  | changedConcurrently
  | changedDuringRollback
  | store (error : StoreError)
deriving DecidableEq

/-- What happens on a rank when it enters an iteration: the step of its store that fails. -/
structure Rank (campaign : FaultCampaign) where
  session : Session campaign
  raises : Option StorePoint

variable {campaign : FaultCampaign} (draw : Int → String → Int → ℚ) (iteration : Int)

/-- `_candidate_incidents_for_iteration` -/
def candidateIncidents (session : Session campaign) : List (FaultIncident × Int) :=
  ((session.schedule.atIteration iteration).2.map Prod.fst).filterMap fun incident =>
    let attemptCount := session.journal.attemptCount incident.incidentId iteration
    if incident.retrigger = .once ∧ 1 ≤ attemptCount then none
    else if incident.retrigger = .maxOccurrences ∧
        incident.maxOccurrences.getD 0 ≤ attemptCount then none
    else some (incident, attemptCount + 1)

/-- The session after its schedule was asked. -/
def Session.lookedUp (session : Session campaign) : Session campaign where
  schedule := (session.schedule.atIteration iteration).1
  journal := session.journal
  file := session.file
  schedule_valid := (ScheduleCursor.valid_atIteration session.schedule_valid iteration).2.2.2
  schedule_incidents := by
    rw [(ScheduleCursor.valid_atIteration session.schedule_valid iteration).2.1,
      session.schedule_incidents]
  schedule_begins := by
    rw [(ScheduleCursor.valid_atIteration session.schedule_valid iteration).2.2.1,
      session.schedule_begins]

/-- The loop of `_stage_iteration_attempts` over incidents, expected attempts and selections. -/
def stageSelections : List (FaultIncident × Int × Bool) → CampaignJournal →
    Except AttemptError (CampaignJournal × List StagedIncident)
  | [], updated => .ok (updated, [])
  | (incident, expectedAttempt, selected) :: rest, updated =>
      if selected then
        match updated.recordAttempt incident.incidentId iteration with
        | none => .error (.invalidKey incident.incidentId)
        | some (updated, attempt) =>
            if attempt ≠ expectedAttempt then
              .error (.attemptChanged incident.incidentId expectedAttempt attempt)
            else
              (stageSelections rest updated).map fun (updated, staged) => (updated,
                ⟨incident, attempt, occurrenceIdOf incident iteration attempt, true⟩ :: staged)
      else
        (stageSelections rest updated).map fun (updated, staged) => (updated,
          ⟨incident, expectedAttempt, occurrenceIdOf incident iteration expectedAttempt, false⟩ ::
            staged)

/-- The candidates and whether their probability selects them. -/
def selections (session : Session campaign) : List (FaultIncident × Int × Bool) :=
  (candidateIncidents iteration session).map fun (incident, expectedAttempt) =>
    (incident, expectedAttempt, probabilitySelected draw campaign.seed incident.incidentId
      iteration incident.trigger.probability)

/-- `_stage_iteration_attempts` on one rank. -/
def stageIterationAttempts (rank : Rank campaign) :
    Except AttemptError (List StagedIncident) × Session campaign :=
  let session := rank.session.lookedUp iteration
  let selections := selections draw iteration rank.session
  if selections.any (·.2.2) = false then
    (.ok (selections.map fun (incident, expectedAttempt, _) =>
      ⟨incident, expectedAttempt, occurrenceIdOf incident iteration expectedAttempt, false⟩),
      session)
  else
    let previous := session.journal.copy
    match stageSelections iteration selections session.journal.copy with
    | .error e => (.error e, session)
    | .ok (updated, staged) =>
        match compareAndSwap rank.raises session.file previous updated with
        | (.error e, file) => (.error (.store e), { session with file := file })
        | (.ok false, file) => (.error .changedConcurrently, { session with file := file })
        | (.ok true, file) => (.ok staged, { session with journal := updated, file := file })

/-- A journal with the attempts of another. -/
def CampaignJournal.withAttempts (journal previous : CampaignJournal) : CampaignJournal where
  campaign := journal.campaign
  manifestIdentity := journal.manifestIdentity
  attempts := previous.attempts
  campaign_ne := journal.campaign_ne
  identity_ne := journal.identity_ne
  keys_nodup := previous.keys_nodup
  keys_valid := previous.keys_valid
  counts_pos := previous.counts_pos

/-- `_restore_journal_attempts`, with a store that works. -/
def restoreJournalAttempts (session : Session campaign) (previous : CampaignJournal) :
    Except AttemptError Unit × Session campaign :=
  let current := session.journal.copy
  let restored := session.journal.copy.withAttempts previous
  match compareAndSwap none session.file current restored with
  | (.error e, file) => (.error (.store e), { session with file := file })
  | (.ok false, file) => (.error .changedDuringRollback, { session with file := file })
  | (.ok true, file) => (.ok (), { session with journal := restored, file := file })

/-- The attempt persistence of `_enter_iteration_consistently` on all ranks: one rank alone has
nobody to agree with and takes nothing back. -/
def persistAttempts (ranks : List (Rank campaign)) : List (Session campaign) :=
  let staged := ranks.map (stageIterationAttempts draw iteration)
  if ranks.length ≤ 1 then staged.map Prod.snd
  else if staged.any (fun result => !result.1.isOk) then
    (ranks.zip staged).map fun (rank, _, session) =>
      (restoreJournalAttempts session rank.session.journal).2
  else staged.map Prod.snd

/-! ## Staging -/

variable {draw : Int → String → Int → ℚ} {iteration : Int}

theorem recordAttempt_spec {journal : CampaignJournal} {incidentId : String}
    (hid : Text.nonBlank incidentId = true) (hpos : 0 < iteration) :
    ∃ updated, journal.recordAttempt incidentId iteration =
        some (updated, journal.attemptCount incidentId iteration + 1) ∧
      updated.campaign = journal.campaign ∧
      ∀ key, updated.attempts.lookup key =
        if key = candidateKey incidentId iteration then
          some (journal.attemptCount incidentId iteration + 1)
        else journal.attempts.lookup key := by
  unfold CampaignJournal.recordAttempt
  dsimp only
  rw [dif_pos (validCandidateKey_candidateKey hid hpos)]
  refine ⟨_, rfl, rfl, fun key => ?_⟩
  exact Dict.lookup_put _ _ _

/-- Staging succeeds when every expected attempt is the next one, and changes exactly the
counts that are selected. -/
theorem stageSelections_spec (hpos : 0 < iteration)
    (items : List (FaultIncident × Int × Bool)) :
    ∀ journal : CampaignJournal,
      (items.map (·.1.incidentId)).Nodup →
      (∀ item ∈ items, item.2.1 = journal.attemptCount item.1.incidentId iteration + 1) →
      ∃ updated staged, stageSelections iteration items journal = .ok (updated, staged) ∧
        updated.campaign = journal.campaign ∧
        (∀ key, (∀ item ∈ items, key ≠ candidateKey item.1.incidentId iteration) →
          updated.attempts.lookup key = journal.attempts.lookup key) ∧
        ∀ item ∈ items, item.2.2 = true →
          updated.attempts.lookup (candidateKey item.1.incidentId iteration) = some item.2.1 := by
  induction items with
  | nil =>
      intro journal _ _
      exact ⟨journal, [], rfl, rfl, fun _ _ => rfl, fun _ h => (List.not_mem_nil h).elim⟩
  | cons item rest ih =>
      intro journal hnodup hexpected
      obtain ⟨incident, expectedAttempt, selected⟩ := item
      rw [List.map_cons, List.nodup_cons] at hnodup
      obtain ⟨hnew, hnodup⟩ := hnodup
      have hother : ∀ item ∈ rest, candidateKey item.1.incidentId iteration ≠
          candidateKey incident.incidentId iteration := by
        intro item hitem heq
        exact hnew (List.mem_map.mpr ⟨item, hitem, candidateKey_inj heq⟩)
      have hfirst := hexpected _ List.mem_cons_self
      cases selected with
      | false =>
          obtain ⟨updated, staged, hstage, hcampaign, hsame, hset⟩ := ih journal hnodup
            fun item hitem => hexpected item (List.mem_cons_of_mem _ hitem)
          refine ⟨updated, _, by rw [stageSelections, hstage]; rfl, hcampaign, ?_, ?_⟩
          · exact fun key hkey => hsame key fun item hitem =>
              hkey item (List.mem_cons_of_mem _ hitem)
          · intro item hitem hselected
            rcases List.mem_cons.mp hitem with rfl | hitem
            · cases hselected
            · exact hset item hitem hselected
      | true =>
          obtain ⟨recorded, hrecord, hrecorded, hlookup⟩ :=
            @recordAttempt_spec iteration journal _ incident.id_named hpos
          dsimp only at hfirst
          obtain ⟨updated, staged, hstage, hcampaign, hsame, hset⟩ := ih recorded hnodup (by
            intro item hitem
            rw [hexpected item (List.mem_cons_of_mem _ hitem), CampaignJournal.attemptCount,
              CampaignJournal.attemptCount, hlookup, if_neg (hother item hitem)])
          set attempt := journal.attemptCount incident.incidentId iteration + 1
          refine ⟨updated,
            ⟨incident, attempt, occurrenceIdOf incident iteration attempt, true⟩ :: staged,
            ?_, hcampaign.trans hrecorded, ?_, ?_⟩
          · rw [stageSelections, if_pos rfl, hrecord]
            dsimp only
            rw [if_neg (not_not.mpr hfirst.symm), hstage]
            rfl
          · intro key hkey
            rw [hsame key fun item hitem => hkey item (List.mem_cons_of_mem _ hitem), hlookup,
              if_neg (hkey _ List.mem_cons_self)]
          · intro item hitem hselected
            rcases List.mem_cons.mp hitem with rfl | hitem
            · rw [hsame _ fun item hitem => (hother item hitem).symm, hlookup, if_pos rfl, hfirst]
            · exact hset item hitem hselected

/-- The candidates are incidents of the campaign with their next attempt. -/
theorem mem_candidateIncidents {session : Session campaign} {item : FaultIncident × Int}
    (h : item ∈ candidateIncidents iteration session) :
    item.2 = session.journal.attemptCount item.1.incidentId iteration + 1 := by
  obtain ⟨incident, -, hitem⟩ := List.mem_filterMap.mp h
  dsimp only at hitem
  split at hitem
  · cases hitem
  · split at hitem
    · cases hitem
    · rw [← Option.some.inj hitem]

theorem filterMap_fst_sublist {α β : Type} {f : α → Option (α × β)}
    (h : ∀ x y, f x = some y → y.1 = x) (xs : List α) :
    ((xs.filterMap f).map Prod.fst).Sublist xs := by
  induction xs with
  | nil => exact List.Sublist.refl []
  | cons x xs ih =>
      rw [List.filterMap_cons]
      split
      · exact ih.cons x
      · rename_i y hy
        rw [List.map_cons, h x y hy]
        exact ih.cons_cons x

theorem nodup_candidateIncidents (session : Session campaign) :
    ((candidateIncidents iteration session).map (·.1.incidentId)).Nodup := by
  have hsublist : ((candidateIncidents iteration session).map Prod.fst).Sublist
      campaign.incidents := by
    have hanswer := (ScheduleCursor.valid_atIteration session.schedule_valid iteration).1
    rw [session.schedule_incidents, session.schedule_begins, scheduledAt_false] at hanswer
    have hbegins : (beginningAt campaign.incidents iteration).map Prod.fst =
        campaign.incidents.filter (·.trigger.matchesAt iteration) := by
      rw [beginningAt, List.map_map]
      exact List.map_id _
    rw [candidateIncidents, hanswer, hbegins]
    refine (filterMap_fst_sublist ?_ _).trans List.filter_sublist
    intro incident item hitem
    dsimp only at hitem
    split at hitem
    · cases hitem
    · split at hitem
      · cases hitem
      · rw [← Option.some.inj hitem]
  have hids := hsublist.map FaultIncident.incidentId
  rw [List.map_map] at hids
  exact campaign.incidentIds.sublist hids

/-! ## One rank -/

theorem Holds.congr {file : Option CampaignJournal} {left right : CampaignJournal}
    (h : Holds file left) (hsame : left.sameDict right = true) : Holds file right := by
  obtain ⟨current, hload, hcurrent⟩ := h
  have hcampaign := (CampaignJournal.sameDict_iff.mp hsame).1
  refine ⟨current, ?_, CampaignJournal.sameDict_trans hcurrent hsame⟩
  rw [← hload]
  congr 1
  exact hcampaign.symm

/-- Some candidate is selected. -/
def AnySelected (draw : Int → String → Int → ℚ) (iteration : Int) (session : Session campaign) :
    Prop :=
  (selections draw iteration session).any (·.2.2) = true

/-- The journal with the staged attempts: some count is not the one of before. -/
theorem staged_spec {session : Session campaign} (hpos : 0 < iteration)
    (h : AnySelected draw iteration session) :
    ∃ updated staged, stageSelections iteration (selections draw iteration session)
        session.journal.copy = .ok (updated, staged) ∧
      updated.campaign = session.journal.campaign ∧
      ∃ key, updated.attempts.lookup key ≠ session.journal.attempts.lookup key := by
  have hsame := session.journal.copy_sameDict
  have hnodup : ((selections draw iteration session).map (·.1.incidentId)).Nodup := by
    rw [selections, List.map_map]
    exact nodup_candidateIncidents session
  obtain ⟨updated, staged, hstage, hcampaign, -, hset⟩ :=
    stageSelections_spec hpos (selections draw iteration session) session.journal.copy hnodup (by
      intro item hitem
      obtain ⟨candidate, hcandidate, rfl⟩ := List.mem_map.mp hitem
      rw [CampaignJournal.attemptCount_eq_of_sameDict hsame]
      exact mem_candidateIncidents hcandidate)
  refine ⟨updated, staged, hstage, hcampaign, ?_⟩
  obtain ⟨item, hitem, hselected⟩ := List.any_eq_true.mp h
  refine ⟨candidateKey item.1.incidentId iteration, ?_⟩
  rw [hset item hitem hselected]
  obtain ⟨candidate, hcandidate, rfl⟩ := List.mem_map.mp hitem
  have hexpected := mem_candidateIncidents hcandidate
  intro heq
  dsimp only at heq
  rw [CampaignJournal.attemptCount, ← heq, Option.getD_some] at hexpected
  omega

/-- **What staging leaves**: nothing, the new counts in memory and file, or a failure with the
file as it was or replaced. -/
theorem stageIterationAttempts_cases (draw : Int → String → Int → ℚ) {rank : Rank campaign}
    (hpos : 0 < iteration)
    (hfile : Holds rank.session.file rank.session.journal) :
    (¬ AnySelected draw iteration rank.session ∧
      (stageIterationAttempts draw iteration rank).1.isOk = true ∧
      (stageIterationAttempts draw iteration rank).2.journal = rank.session.journal ∧
      (stageIterationAttempts draw iteration rank).2.file = rank.session.file) ∨
    (AnySelected draw iteration rank.session ∧ ∃ updated : CampaignJournal,
      updated.campaign = rank.session.journal.campaign ∧
      (∃ key, updated.attempts.lookup key ≠ rank.session.journal.attempts.lookup key) ∧
      match rank.raises with
      | none => (stageIterationAttempts draw iteration rank).1.isOk = true ∧
          (stageIterationAttempts draw iteration rank).2.journal = updated ∧
          (stageIterationAttempts draw iteration rank).2.file = some updated.copy
      | some point => (stageIterationAttempts draw iteration rank).1.isOk = false ∧
          (stageIterationAttempts draw iteration rank).2.journal = rank.session.journal ∧
          (stageIterationAttempts draw iteration rank).2.file =
            if point.afterReplace then some updated.copy else rank.session.file) := by
  by_cases hany : AnySelected draw iteration rank.session
  · obtain ⟨updated, staged, hstage, hcampaign, hdiffers⟩ := staged_spec hpos hany
    refine Or.inr ⟨hany, updated, hcampaign, hdiffers, ?_⟩
    have hfile := hfile.congr (CampaignJournal.sameDict_symm rank.session.journal.copy_sameDict)
    have hswap := compareAndSwap_holds rank.raises hfile hcampaign.symm
    unfold stageIterationAttempts
    dsimp only [Session.lookedUp]
    rw [if_neg (by rw [hany]; decide), hstage]
    dsimp only
    rw [hswap]
    cases rank.raises with
    | none => exact ⟨rfl, rfl, rfl⟩
    | some point => exact ⟨rfl, rfl, rfl⟩
  · refine Or.inl ⟨hany, ?_⟩
    unfold stageIterationAttempts
    dsimp only
    rw [if_pos (Bool.eq_false_iff.mpr hany)]
    exact ⟨rfl, rfl, rfl⟩

/-! ## The rollback -/

/-- The same counts. -/
def SameCounts (left right : Option CampaignJournal) : Prop :=
  ∀ key, (storedAttempts left).lookup key = (storedAttempts right).lookup key

/-- A swap that is accepted puts the previous counts back. -/
theorem restoreJournalAttempts_holds {session : Session campaign} {previous : CampaignJournal}
    (h : Holds session.file session.journal) (key : String) :
    (storedAttempts (restoreJournalAttempts session previous).2.file).lookup key =
      previous.attempts.lookup key := by
  have hfile := h.congr (CampaignJournal.sameDict_symm session.journal.copy_sameDict)
  have hswap := compareAndSwap_holds none hfile
    (show session.journal.copy.campaign = (session.journal.copy.withAttempts previous).campaign
      from rfl)
  unfold restoreJournalAttempts
  dsimp only
  rw [hswap]
  exact (holds_some (session.journal.copy.withAttempts previous)).lookup_eq key

theorem restoreJournalAttempts_differs {session : Session campaign} {previous : CampaignJournal}
    (h : ¬ Holds session.file session.journal) :
    (restoreJournalAttempts session previous).2.file = session.file := by
  have hfile : ¬ Holds session.file session.journal.copy := fun hcopy =>
    h (hcopy.congr session.journal.copy_sameDict)
  have hswap : (compareAndSwap none session.file session.journal.copy
      (session.journal.copy.withAttempts previous)).2 = session.file :=
    compareAndSwap_differs hfile
  unfold restoreJournalAttempts
  dsimp only
  split <;> rename_i hresult <;> rw [hresult] at hswap <;> exact hswap

/-- **One rank**: the rollback brings the counts back unless the store failed behind its
replacement. -/
theorem rollback_iff {rank : Rank campaign} (hpos : 0 < iteration)
    (hfile : Holds rank.session.file rank.session.journal)
    (hany : AnySelected draw iteration rank.session) :
    SameCounts (restoreJournalAttempts (stageIterationAttempts draw iteration rank).2
        rank.session.journal).2.file rank.session.file ↔
      ∀ point, rank.raises = some point → point.afterReplace = false := by
  obtain ⟨hnone, -⟩ | ⟨-, updated, hcampaign, ⟨key, hkey⟩, hresult⟩ :=
    stageIterationAttempts_cases draw hpos hfile
  · exact absurd hany hnone
  · have hbefore := hfile.lookup_eq
    cases hraises : rank.raises with
    | none =>
        rw [hraises] at hresult
        obtain ⟨-, hjournal, hnew⟩ := hresult
        refine ⟨fun _ point h => (by cases h), fun _ key => ?_⟩
        rw [hbefore, restoreJournalAttempts_holds]
        rw [hjournal, hnew]
        exact holds_some updated
    | some point =>
        rw [hraises] at hresult
        obtain ⟨-, hjournal, hnew⟩ := hresult
        cases hafter : point.afterReplace with
        | false =>
            rw [hafter, if_neg Bool.false_ne_true] at hnew
            refine ⟨fun _ point' h => Option.some.inj h ▸ hafter, fun _ key => ?_⟩
            rw [hbefore, restoreJournalAttempts_holds]
            rw [hjournal, hnew]
            exact hfile
        | true =>
            rw [hafter, if_pos rfl] at hnew
            have hdiffers : ¬ Holds (stageIterationAttempts draw iteration rank).2.file
                (stageIterationAttempts draw iteration rank).2.journal := by
              rw [hjournal, hnew]
              intro h
              exact hkey (((holds_some updated).lookup_eq key).symm.trans (h.lookup_eq key))
            constructor
            · intro h
              have hsame := h key
              rw [restoreJournalAttempts_differs hdiffers, hnew, (holds_some updated).lookup_eq,
                hbefore] at hsame
              exact absurd hsame hkey
            · intro h
              rw [h point rfl] at hafter
              cases hafter

theorem alone_iff {rank : Rank campaign} (hpos : 0 < iteration)
    (hfile : Holds rank.session.file rank.session.journal)
    (hfail : (stageIterationAttempts draw iteration rank).1.isOk = false) :
    SameCounts (stageIterationAttempts draw iteration rank).2.file rank.session.file ↔
      ∀ point, rank.raises = some point → point.afterReplace = false := by
  obtain ⟨-, hok, -⟩ | ⟨-, updated, -, ⟨key, hkey⟩, hresult⟩ :=
    stageIterationAttempts_cases draw hpos hfile
  · rw [hok] at hfail
    cases hfail
  · cases hraises : rank.raises with
    | none =>
        rw [hraises] at hresult
        rw [hresult.1] at hfail
        cases hfail
    | some point =>
        rw [hraises] at hresult
        obtain ⟨-, -, hnew⟩ := hresult
        cases hafter : point.afterReplace with
        | false =>
            rw [hafter, if_neg Bool.false_ne_true] at hnew
            rw [hnew]
            exact ⟨fun _ point' h => Option.some.inj h ▸ hafter, fun _ key => rfl⟩
        | true =>
            rw [hafter, if_pos rfl] at hnew
            rw [hnew]
            constructor
            · intro h
              have hsame := h key
              rw [(holds_some updated).lookup_eq, hfile.lookup_eq] at hsame
              exact absurd hsame hkey
            · intro h
              rw [h point rfl] at hafter
              cases hafter

/-- Equal journals have the same candidates selected. -/
theorem anySelected_congr {left right : Session campaign}
    (hsame : left.journal.sameDict right.journal = true) :
    AnySelected draw iteration left ↔ AnySelected draw iteration right := by
  have hcandidates : candidateIncidents iteration left = candidateIncidents iteration right := by
    have hleft := (ScheduleCursor.valid_atIteration left.schedule_valid iteration).1
    have hright := (ScheduleCursor.valid_atIteration right.schedule_valid iteration).1
    rw [left.schedule_incidents, left.schedule_begins] at hleft
    rw [right.schedule_incidents, right.schedule_begins] at hright
    rw [candidateIncidents, candidateIncidents, hleft, hright]
    refine List.filterMap_congr fun incident _ => ?_
    rw [CampaignJournal.attemptCount_eq_of_sameDict hsame]
  rw [AnySelected, AnySelected, selections, selections, hcandidates]

/-- A worker that dies at iteration 7. -/
def workerDies : FaultIncident where
  incidentId := "worker-dies"
  trigger := .seventh
  lifetime := .permanent .recovery
  faults := [⟨"worker", .processTermination, ⟨.process, some 1, none, none, none,
    by decide, named_none, named_none, named_none, process_located⟩⟩]
  id_named := by decide
  faults_ne := by simp
  faultIds := by simp
  occurrences_some := once_some
  occurrences_none := once_none
  permanent_once := seventh_once
  separate := seventh_separate
  calls_surface := fun h => nomatch h

/-- A campaign of that incident alone. -/
def workerCampaign : FaultCampaign where
  name := "worker"
  incidents := [workerDies]
  name_named := by decide
  incidents_ne := by simp
  seed_low := by decide
  seed_high := by decide
  incidentIds := by simp

/-- A session of the campaign that has not attempted anything. -/
def freshSession : Session workerCampaign where
  schedule := ScheduleCursor.make [workerDies] false
  journal := emptyJournal "worker" (by decide)
  file := none
  schedule_valid := ScheduleCursor.valid_make _ _
  schedule_incidents := rfl
  schedule_begins := rfl

/-- Two ranks; the directory of the second one's file cannot be synchronised. -/
def twoRanks (raises : StorePoint) : List (Rank workerCampaign) :=
  [⟨freshSession, none⟩, ⟨freshSession, some raises⟩]

theorem twoRanks_hold (raises : StorePoint) :
    ∀ rank ∈ twoRanks raises, Holds rank.session.file rank.session.journal := by
  intro rank hrank
  have hfresh : Holds freshSession.file freshSession.journal :=
    ⟨freshSession.journal, rfl, CampaignJournal.sameDict_refl _⟩
  simp only [twoRanks, List.mem_cons, List.not_mem_nil, or_false] at hrank
  rcases hrank with rfl | rfl <;> exact hfresh

/-- The new count stays in the second rank's file. -/
theorem sync_failure_keeps_attempt :
    (∀ rank ∈ twoRanks .syncDirectory, Holds rank.session.file rank.session.journal) ∧
      (∀ left ∈ twoRanks .syncDirectory, ∀ right ∈ twoRanks .syncDirectory,
        left.session.journal.sameDict right.session.journal = true) ∧
      (∃ rank ∈ twoRanks .syncDirectory,
        (stageIterationAttempts (fun _ _ _ => 0) 7 rank).1.isOk = false) ∧
      ¬ List.Forall₂
        (fun (rank : Rank workerCampaign) session => SameCounts session.file rank.session.file)
        (twoRanks .syncDirectory) (persistAttempts (fun _ _ _ => 0) 7 (twoRanks .syncDirectory)) := by
  refine ⟨twoRanks_hold .syncDirectory, by decide +kernel, by decide +kernel, fun h => ?_⟩
  have hcounts : List.Forall₂
      (fun (rank : Rank workerCampaign) counts =>
        counts.lookup "worker-dies@7" =
          (storedAttempts rank.session.file).lookup "worker-dies@7")
      (twoRanks .syncDirectory)
      ((persistAttempts (fun _ _ _ => 0) 7 (twoRanks .syncDirectory)).map
        fun session => storedAttempts session.file) :=
    List.forall₂_map_right_iff.mpr (h.imp fun _ _ hsame => hsame "worker-dies@7")
  have hstored : (persistAttempts (fun _ _ _ => 0) 7 (twoRanks .syncDirectory)).map
      (fun session => storedAttempts session.file) = [[], [("worker-dies@7", 1)]] := by
    decide +kernel
  rw [hstored] at hcounts
  revert hcounts
  decide +kernel

/-- **Persistence that fails on some rank** leaves every rank's counts as they were, if and only
if no rank's store fails behind its replacement. -/
theorem persistAttempts_restores (draw : Int → String → Int → ℚ) {iteration : Int}
    (ranks : List (Rank campaign)) (hpos : 0 < iteration)
    (hfiles : ∀ rank ∈ ranks, Holds rank.session.file rank.session.journal)
    (hequal : ∀ left ∈ ranks, ∀ right ∈ ranks,
      left.session.journal.sameDict right.session.journal = true)
    (hfail : ∃ rank ∈ ranks, (stageIterationAttempts draw iteration rank).1.isOk = false) :
    List.Forall₂ (fun (rank : Rank campaign) session => SameCounts session.file rank.session.file)
        ranks (persistAttempts draw iteration ranks) ↔
      ∀ rank ∈ ranks, ∀ point, rank.raises = some point → point.afterReplace = false := by
  obtain ⟨failed, hfailed, hfail⟩ := hfail
  unfold persistAttempts
  dsimp only
  split
  · rename_i halone
    obtain ⟨rank, rfl⟩ := List.length_eq_one_iff.mp
      (le_antisymm halone (List.length_pos_of_mem hfailed))
    obtain rfl := List.mem_singleton.mp hfailed
    rw [List.map_map, List.forall₂_map_right_iff, List.forall₂_same]
    refine forall₂_congr fun rank hrank => ?_
    obtain rfl := List.mem_singleton.mp hrank
    exact alone_iff hpos (hfiles _ hrank) hfail
  · have hany : (ranks.map (stageIterationAttempts draw iteration)).any
        (fun result => !result.1.isOk) = true := by
      refine List.any_eq_true.mpr ⟨_, List.mem_map.mpr ⟨failed, hfailed, rfl⟩, ?_⟩
      rw [hfail]
      rfl
    have hzip : ranks.zip (ranks.map (stageIterationAttempts draw iteration)) =
        ranks.map fun rank => (rank, stageIterationAttempts draw iteration rank) := by
      conv_lhs => rw [← List.map_id ranks, List.map_map, List.zip_map']
      rfl
    rw [if_pos hany, hzip, List.map_map, List.forall₂_map_right_iff, List.forall₂_same]
    refine forall₂_congr fun rank hrank => ?_
    have hselected : AnySelected draw iteration rank.session := by
      obtain ⟨-, hok, -⟩ | ⟨hselected, -⟩ :=
        stageIterationAttempts_cases draw hpos (hfiles failed hfailed)
      · rw [hok] at hfail
        cases hfail
      · exact (anySelected_congr (hequal failed hfailed rank hrank)).mp hselected
    exact rollback_iff hpos (hfiles rank hrank) hselected

/-- A temporary file that cannot be written on the second rank leaves both files as they were. -/
theorem write_failure_restores :
    List.Forall₂
      (fun (rank : Rank workerCampaign) session => SameCounts session.file rank.session.file)
      (twoRanks .writeTemporary) (persistAttempts (fun _ _ _ => 0) 7 (twoRanks .writeTemporary)) :=
  (persistAttempts_restores (fun _ _ _ => 0) (twoRanks .writeTemporary) (by decide)
    (twoRanks_hold .writeTemporary) (by decide +kernel) (by decide +kernel)).mpr
      (by simp [twoRanks, StorePoint.afterReplace])

end LmResiliency.FaultInjection
