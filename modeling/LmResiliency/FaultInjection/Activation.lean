/-
# Activation — faults that are activated, or taken back

An incident is activated fault by fault.  Where a fault fails, the effects of its incident
are rolled back, then those of the whole iteration; what was active before is not touched.
Between two activations every record is settled or has an effect that is active.
-/
import LmResiliency.FaultInjection.EffectLedger

namespace LmResiliency.FaultInjection.Effects

open Release (Entry Held Tried)
open Act (self assign raise attempt ofExcept forEach firstError)

variable {campaign : FaultCampaign} {setup : Setup} {world : World} {start number : Nat}
  {w w' : Runtime campaign}

/-! ## One record

While a fault is activated only its own record and its own effect change. -/

/-- What is done for one record leaves the others apart. -/
structure Apart (number : Nat) (w w' : Runtime campaign) : Prop where
  active : w'.active = w.active
  activated : w'.activated = w.activated
  closed : w'.closed = w.closed
  length : w'.records.length = w.records.length
  locals : ∀ n, n ≠ number → w'.locals n = w.locals n
  externals : ∀ n, n ≠ number → w'.externals n = w.externals n

/-- The frame of what is done for one record; an external effect that is done stays done. -/
structure Framed (number : Nat) (w w' : Runtime campaign) : Prop
    extends Apart number w w' where
  done : (w.externals number).done = true → (w'.externals number).done = true

theorem Framed.refl (number : Nat) (w : Runtime campaign) : Framed number w w :=
  ⟨⟨rfl, rfl, rfl, rfl, fun _ _ => rfl, fun _ _ => rfl⟩, id⟩

theorem Apart.trans {w'' : Runtime campaign} (h : Apart number w w')
    (h' : Apart number w' w'') : Apart number w w'' where
  active := h'.active.trans h.active
  activated := h'.activated.trans h.activated
  closed := h'.closed.trans h.closed
  length := h'.length.trans h.length
  locals n hn := (h'.locals n hn).trans (h.locals n hn)
  externals n hn := (h'.externals n hn).trans (h.externals n hn)

theorem Framed.trans {w'' : Runtime campaign} (h : Framed number w w')
    (h' : Framed number w' w'') : Framed number w w'' :=
  ⟨h.toApart.trans h'.toApart, fun hdone => h'.done (h.done hdone)⟩

theorem Framed.change {f : FaultInjectionRecord → FaultInjectionRecord}
    (hactive : w'.active = w.active) (hactivated : w'.activated = w.activated)
    (hclosed : w'.closed = w.closed) (hrecords : w'.records = w.records.modify number f)
    (hlocals : ∀ n, n ≠ number → w'.locals n = w.locals n)
    (hexternals : ∀ n, n ≠ number → w'.externals n = w.externals n)
    (hdone : (w.externals number).done = true → (w'.externals number).done = true) :
    Framed number w w' where
  active := hactive
  activated := hactivated
  closed := hclosed
  length := by rw [hrecords, List.length_modify]
  locals := hlocals
  externals := hexternals
  done := hdone

/-- A record changes that need not be settled, after calls that leave the account right. -/
theorem Inv.noteHeld (h : Inv start w) (hn : start ≤ number)
    {f : FaultInjectionRecord → FaultInjectionRecord}
    (hf : ∀ r, w.records[number]? = some r → Honest (f r)) (hactive : w'.active = w.active)
    (hactivated : w'.activated = w.activated) (hclosed : w'.closed = w.closed)
    (hrecords : w'.records = w.records.modify number f) (hlocals : w'.locals = w.locals)
    (hexternals : w'.externals = w.externals) (hheld : Held (entries w'.log) (hand w)) :
    Inv start w' ∧ Framed number w w' := by
  refine ⟨h.change number (fun r hr => ⟨hf r hr, fun hlt => absurd hlt hn.not_gt⟩) hactive hrecords
      (fun _ _ => by rw [hlocals]) (fun _ _ => by rw [hexternals]) (fun h => by rwa [hlocals] at h)
      (fun h => by rwa [hexternals] at h) ?_,
    .change hactive hactivated hclosed hrecords (fun _ _ => by rw [hlocals])
      (fun _ _ => by rw [hexternals]) fun hdone => by rwa [hexternals]⟩
  rw [hand_congr hactive hexternals]
  exact hheld

theorem Inv.note (h : Inv start w) (hn : start ≤ number)
    {f : FaultInjectionRecord → FaultInjectionRecord}
    (hf : ∀ r, w.records[number]? = some r → Honest (f r)) (hactive : w'.active = w.active)
    (hactivated : w'.activated = w.activated) (hclosed : w'.closed = w.closed)
    (hrecords : w'.records = w.records.modify number f) (hlocals : w'.locals = w.locals)
    (hexternals : w'.externals = w.externals) (hlog : entries w'.log = entries w.log) :
    Inv start w' ∧ Framed number w w' :=
  h.noteHeld hn hf hactive hactivated hclosed hrecords hlocals hexternals (hlog ▸ h.held)

/-- An attempt to deactivate an effect whose record need not be settled. -/
theorem Inv.noteRelease (h : Inv start w) {active : ActiveFault} (hmem : active ∈ w.active)
    {effect : ExternalEffect} (heffect : active.effect = .external effect)
    (hopen : w.done active = false) (hn : start ≤ active.number)
    {outcome : Except Raised (Option Evidence)} {f : FaultInjectionRecord → FaultInjectionRecord}
    (hf : ∀ r, w.records[active.number]? = some r → Honest (f r)) {state : ExternalState}
    (hstate : state.done = true ∨ outcome.isOk = false) (hactive : w'.active = w.active)
    (hactivated : w'.activated = w.activated) (hclosed : w'.closed = w.closed)
    (hlog : w'.log =
      w.log ++ [⟨.deactivate effect.executor effect.request effect.result, outcome⟩])
    (hrecords : w'.records = w.records.modify active.number f) (hlocals : w'.locals = w.locals)
    (hexternals : w'.externals = Function.update w.externals active.number state) :
    Inv start w' ∧ Framed active.number w w' := by
  refine ⟨h.tryRelease hmem heffect hopen
      (fun r hr => ⟨hf r hr, fun hlt => absurd hlt hn.not_gt⟩) hstate hactive hlog hrecords
      hlocals hexternals,
    .change hactive hactivated hclosed hrecords (fun _ _ => by rw [hlocals]) (fun n hn => ?_)
      fun hdone => ?_⟩
  · rw [hexternals, Function.update_of_ne hn]
  · rw [← done_external heffect, hopen] at hdone
    cases hdone

/-- The last record is settled, or has an effect that is active. -/
theorem Inv.settle (h : Inv number w) (hlast : w.records.length = number + 1)
    (hrecord : ∀ record, w.records[number]? = some record → Unsettled record →
      ∃ active ∈ w.active, active.number = number ∧ w.done active = false) : Sound w where
  held := h.held
  nodup := h.nodup
  bound := h.bound
  known := h.known
  lasting := h.lasting
  settled n hn record hn' hunsettled := by
    rw [hlast] at hn
    rcases Nat.lt_succ_iff_lt_or_eq.mp hn with hlt | rfl
    · exact h.settled n hlt record hn' hunsettled
    · exact hrecord record hn' hunsettled
  honest := h.honest

/-! ## An executor's effect -/

/-- An effect that was returned by an executor, and is not settled yet. -/
structure Returned (number : Nat) (effect : ExternalEffect) (w : Runtime campaign) : Prop where
  inv : Inv number w
  last : w.records.length = number + 1
  pending : ∀ r, w.records[number]? = some r → r.status = .pending
  active : effect.result.active = true → ∃ active ∈ w.active,
    active.number = number ∧ active.effect = .external effect ∧ w.done active = false

theorem ensures_deactivateOnce {effect : ExternalEffect}
    {R : Option Raised → Runtime campaign → Prop} {E : Raised → Runtime campaign → Prop}
    (h : ∀ outcome : Except Raised (Option Evidence),
      let w' : Runtime campaign := { w with log := w.log ++
        [⟨.deactivate effect.executor effect.request effect.result, outcome⟩] }
      (∀ error, R error w') ∧ (outcome.isOk = false → ∀ error, E error w')) :
    (deactivateOnce world effect).Ensures R E w := by
  unfold deactivateOnce
  refine ensures_asked fun outcome => ?_
  cases outcome with
  | ok _ => exact (h _).1 none
  | error error =>
      cases hkind : error.isException <;> simp only [hkind]
      · exact (h (.error error)).2 rfl error
      · exact (h (.error error)).1 (some error)

theorem honest_fail (record : FaultInjectionRecord) (error : String) :
    Honest (record.fail error) := (fail_settled record error).2

theorem refuseEvidence_spec {effect : ExternalEffect} (h : Returned number effect w)
    (error : Raised) : (refuseEvidence world number effect error).Ensures (fun _ _ => False)
      (fun _ w' => Inv number w' ∧ Framed number w w') w := by
  unfold refuseEvidence
  cases hactive : effect.result.active with
  | true =>
      obtain ⟨active, hmem, rfl, heffect, hopen⟩ := h.active hactive
      simp only [↓reduceIte]
      refine ensures_asked fun outcome => ?_
      cases outcome with
      | error caught =>
          cases hkind : caught.isException <;> simp only [hkind] <;>
          · refine h.inv.noteRelease hmem heffect hopen le_rfl (fun r _ => honest_fail r _)
              (Or.inr ?_) rfl rfl rfl rfl rfl rfl rfl
            rfl
      | ok _ =>
          exact h.inv.noteRelease hmem heffect hopen le_rfl (fun r _ => honest_fail r _)
            (Or.inl rfl) rfl rfl rfl rfl rfl rfl rfl
  | false =>
      simp only [Bool.false_eq_true, ↓reduceIte]
      exact h.inv.note le_rfl (fun r _ => honest_fail r _) rfl rfl rfl rfl rfl rfl rfl

/-- A record of a fault that is pending is open to every status. -/
theorem Returned.honest {effect : ExternalEffect} (h : Returned number effect w)
    {f : FaultInjectionRecord → FaultInjectionRecord} (hf : ∀ r, (f r).status = r.status) :
    ∀ r, w.records[number]? = some r → Honest (f r) := by
  rintro r hr (hstatus | hstatus) <;>
  · rw [hf, h.pending r hr] at hstatus
    cases hstatus

theorem refuseUnverified_spec {effect : ExternalEffect} (h : Returned number effect w) :
    (refuseUnverified world number effect).Ensures (fun _ _ => False)
      (fun _ w' => Inv number w' ∧ Framed number w w') w := by
  unfold refuseUnverified
  rw [Act.ensures_bind, Act.ensures_attempt]
  cases hactive : effect.result.active with
  | true =>
      obtain ⟨active, hmem, rfl, heffect, hopen⟩ := h.active hactive
      simp only [↓reduceIte]
      refine ensures_deactivateOnce fun outcome => ⟨fun deactivationError => ?_, fun _ error => ?_⟩
      · exact h.inv.noteRelease hmem heffect hopen le_rfl (fun r _ => honest_fail r _)
          (Or.inl rfl) rfl rfl rfl rfl rfl rfl rfl
      · -- what the deactivation raises leaves the record as it is
        refine h.inv.noteRelease (f := id) hmem heffect hopen le_rfl
          (h.honest fun _ => rfl) (Or.inl rfl) rfl rfl rfl rfl ?_ rfl rfl
        exact (List.modify_id _ _).symm
  | false =>
      simp only [Bool.false_eq_true, ↓reduceIte]
      exact h.inv.note le_rfl (fun r _ => honest_fail r _) rfl rfl rfl rfl rfl rfl rfl

theorem refuseMatchingCalls_spec {effect : ExternalEffect} (h : Returned number effect w)
    (hactive : effect.result.active = true) :
    (refuseMatchingCalls world number effect).Ensures (fun _ _ => False)
      (fun _ w' => Inv number w' ∧ Framed number w w') w := by
  unfold refuseMatchingCalls
  rw [Act.ensures_bind]
  obtain ⟨active, hmem, rfl, heffect, hopen⟩ := h.active hactive
  refine ensures_deactivateOnce fun outcome => ⟨fun deactivationError => ?_, fun hfailed _ => ?_⟩
  · cases deactivationError with
    | some caught =>
        exact h.inv.noteRelease hmem heffect hopen le_rfl (fun r _ => honest_fail r _)
          (Or.inl rfl) rfl rfl rfl rfl rfl rfl rfl
    | none =>
        exact h.inv.noteRelease hmem heffect hopen le_rfl (fun r _ => honest_fail r _)
          (Or.inl rfl) rfl rfl rfl rfl rfl rfl rfl
  · -- the effect is not done, and is rolled back with its incident
    refine h.inv.noteRelease (f := id) hmem heffect hopen le_rfl (h.honest fun _ => rfl)
      (Or.inr hfailed) rfl rfl rfl rfl ?_ rfl (Function.update_eq_self active.number _).symm
    exact (List.modify_id _ _).symm

/-- The record of a fault says whether it was verified, and with what. -/
theorem Returned.verified {effect : ExternalEffect} (h : Returned number effect w)
    (verified : Bool) (evidence : Evidence) :
    let f (record : FaultInjectionRecord) : FaultInjectionRecord :=
      { record with verified := verified, evidence := evidence }
    Returned number effect { w with records := w.records.modify number f } ∧
      Framed number w { w with records := w.records.modify number f } := by
  intro f
  have hnote : Inv number { w with records := w.records.modify number f } ∧
      Framed number w { w with records := w.records.modify number f } :=
    h.inv.note le_rfl (h.honest (f := f) fun _ => rfl) rfl rfl rfl rfl rfl rfl rfl
  refine ⟨⟨hnote.1, ?_, fun r hr => ?_, h.active⟩, hnote.2⟩
  · exact (List.length_modify _ _ _).trans h.last
  · obtain ⟨r', hr', rfl⟩ := of_modify hr
    rw [if_pos rfl]
    exact h.pending r' hr'

/-- A fault that was verified is active or completed. -/
theorem Returned.complete {effect : ExternalEffect} (h : Returned number effect w)
    (hverified : ∀ r, w.records[number]? = some r → r.verified = true) :
    let f (record : FaultInjectionRecord) : FaultInjectionRecord :=
      { record with status := if effect.result.active then .active else .completed }
    Sound { w with records := w.records.modify number f } ∧
      Framed number w { w with records := w.records.modify number f } := by
  intro f
  have hnote : Inv number { w with records := w.records.modify number f } ∧
      Framed number w { w with records := w.records.modify number f } :=
    h.inv.note (f := f) le_rfl (fun r hr _ => hverified r hr) rfl rfl rfl rfl rfl rfl rfl
  refine ⟨hnote.1.settle ((List.length_modify _ _ _).trans h.last) fun record hrecord hopen => ?_,
    hnote.2⟩
  obtain ⟨r, -, rfl⟩ := of_modify hrecord
  rw [if_pos rfl] at hopen
  cases hactive : effect.result.active with
  | true =>
      obtain ⟨active, hmem, hnumber, -, hopen⟩ := h.active hactive
      exact ⟨active, hmem, hnumber, hopen⟩
  | false => simp [Unsettled, f, hactive] at hopen

/-- An effect is settled: its fault is active or completed, or its record says what failed. -/
theorem settleExternal_spec {effect : ExternalEffect} (h : Returned number effect w) :
    (settleExternal world number effect).Ensures (fun _ w' => Sound w' ∧ Framed number w w')
      (fun _ w' => Inv number w' ∧ Framed number w w') w := by
  unfold settleExternal
  split
  · exact (refuseEvidence_spec h _).mono (fun _ _ => False.elim) fun _ _ hw => hw
  · rename_i evidence _
    rw [Act.ensures_bind]
    obtain ⟨hreturned, hframed⟩ := h.verified effect.result.verified evidence
    have hraised : ∀ w', Inv number w' ∧ Framed number
        { w with records := w.records.modify number fun record =>
          { record with verified := effect.result.verified, evidence := evidence } } w' →
        Inv number w' ∧ Framed number w w' := fun _ hw => ⟨hw.1, hframed.trans hw.2⟩
    show Act.Ensures (ite _ _ _) _ _ { w with records := w.records.modify number fun record =>
      { record with verified := effect.result.verified, evidence := evidence } }
    split
    · exact (refuseUnverified_spec hreturned).mono (fun _ _ => False.elim) fun _ => hraised
    · rename_i hverified
      split
      · exact hraised _ (hreturned.inv.note le_rfl (fun r _ => honest_fail r _) rfl rfl rfl rfl
          rfl rfl rfl)
      · split
        · rename_i hcalls
          refine (refuseMatchingCalls_spec hreturned ?_).mono (fun _ _ => False.elim) fun _ => hraised
          exact (Bool.and_eq_true_iff.mp hcalls).2
        · have hverified : effect.result.verified = true := by simpa using hverified
          have hcomplete := hreturned.complete fun r hr => by
            obtain ⟨r, -, rfl⟩ := of_modify hr
            rw [if_pos rfl]
            exact hverified
          exact ⟨hcomplete.1, hframed.trans hcomplete.2⟩

/-! ## A fault that is registered -/

/-- A record that was made for a fault, which has no effect yet. -/
structure Fresh (number : Nat) (w : Runtime campaign) : Prop where
  inv : Inv number w
  last : w.records.length = number + 1
  below : ∀ active ∈ w.active, active.number < number
  pending : ∀ r, w.records[number]? = some r → r.status = .pending

/-- A record that is made between two activations. -/
theorem Inv.append (h : Sound w) {record : FaultInjectionRecord} (hhonest : Honest record) :
    Inv w.records.length { w with records := w.records ++ [record] } where
  held := h.held
  nodup := h.nodup
  bound active hmem := by
    rw [List.length_append]
    exact Nat.lt_add_right _ (h.bound active hmem)
  known := h.known
  lasting := h.lasting
  settled n hn r hr := h.settled n hn r (by rwa [List.getElem?_append_left hn] at hr)
  honest r hr := by
    rcases List.mem_append.mp hr with hr | hr
    · exact h.honest r hr
    · rw [List.mem_singleton.mp hr]
      exact hhonest

theorem Fresh.of_sound (h : Sound w) {record : FaultInjectionRecord}
    (hpending : record.status = .pending) :
    Fresh w.records.length { w with records := w.records ++ [record] } where
  inv := h.append fun hstatus => by rw [hpending] at hstatus; rcases hstatus with h | h <;> cases h
  last := by rw [List.length_append]; rfl
  below := h.bound
  pending r hr := by
    rw [List.getElem?_append_right le_rfl, Nat.sub_self] at hr
    rw [← Option.some.inj hr]
    exact hpending

theorem hand_append {active : ActiveFault} (hactive : w'.active = w.active ++ [active])
    (hexternals : ∀ a ∈ w.active, w'.externals a.number = w.externals a.number) :
    hand w' = (inHand w' active).elim (hand w) (· ::ₘ hand w) := by
  have hsame : w.active.filterMap (inHand w') = w.active.filterMap (inHand w) :=
    List.filterMap_congr fun a hmem => inHand_congr (hexternals a hmem)
  rw [hand, hactive, List.filterMap_append, hsame, ← Multiset.coe_add, List.filterMap_cons]
  cases inHand w' active with
  | none => exact add_zero _
  | some effect => exact add_comm _ _

/-- One more fault is active, that of the last record. -/
theorem Inv.push (h : Inv number w) (hlast : w.records.length = number + 1)
    (hbelow : ∀ active ∈ w.active, active.number < number) {active : ActiveFault}
    (hnumber : active.number = number) (hactive : w'.active = w.active ++ [active])
    (hlength : w'.records.length = w.records.length)
    (hrecords : ∀ n, n ≠ number → w'.records[n]? = w.records[n]?)
    (hhonest : ∀ r ∈ w'.records, Honest r) (hlocals : ∀ n, n ≠ number → w'.locals n = w.locals n)
    (hexternals : ∀ n, n ≠ number → w'.externals n = w.externals n)
    (hknown : (w'.locals number).done = false → ∃ identity, active.effect = .local identity)
    (hlasting : ∀ effect, active.effect = .external effect → w'.done active = false →
      effect.result.active = true)
    (hheld : Held (entries w'.log) ((inHand w' active).elim (hand w) (· ::ₘ hand w))) :
    Inv number w' := by
  have hothers : ∀ a ∈ w.active, w'.done a = w.done a := fun a hmem => by
    have hne := (hbelow a hmem).ne
    rw [Runtime.done, Runtime.done, hlocals _ hne, hexternals _ hne]
  have hmem : ∀ a ∈ w.active, a ∈ w'.active := fun a ha => by
    rw [hactive]
    exact List.mem_append_left _ ha
  have hself : active ∈ w'.active := by
    rw [hactive]
    exact List.mem_append_right _ List.mem_cons_self
  refine ⟨?_, ?_, fun a ha => ?_, fun n hn => ?_, fun a ha effect heffect hopen => ?_,
    fun n hn record hrecord hunsettled => ?_, hhonest⟩
  · rw [hand_append hactive fun a ha => hexternals _ (hbelow a ha).ne]
    exact hheld
  · rw [hactive, List.map_append, List.nodup_append]
    refine ⟨h.nodup, List.nodup_singleton _, fun n hn m hm => ?_⟩
    obtain ⟨a, ha, rfl⟩ := List.mem_map.mp hn
    rw [List.mem_singleton.mp hm, hnumber]
    exact (hbelow a ha).ne
  · rw [hlength]
    rw [hactive] at ha
    rcases List.mem_append.mp ha with ha | ha
    · exact h.bound a ha
    · rw [List.mem_singleton.mp ha, hnumber, hlast]
      exact Nat.lt_succ_self number
  · by_cases heq : n = number
    · subst heq
      exact ⟨active, hself, hnumber, hknown hn⟩
    · rw [hlocals n heq] at hn
      obtain ⟨a, ha, hmore⟩ := h.known n hn
      exact ⟨a, hmem a ha, hmore⟩
  · rw [hactive] at ha
    rcases List.mem_append.mp ha with ha | ha
    · exact h.lasting a ha effect heffect ((hothers a ha).symm.trans hopen)
    · rw [List.mem_singleton.mp ha] at heffect hopen
      exact hlasting effect heffect hopen
  · rw [hrecords n hn.ne] at hrecord
    obtain ⟨a, ha, hn, hopen⟩ := h.settled n hn record hrecord hunsettled
    exact ⟨a, hmem a ha, hn, (hothers a ha).trans hopen⟩

/-! ## Local effects that are armed -/

/-- What arming a local effect changes: its own record and state. -/
structure ArmedFrame (number : Nat) (w w' : Runtime campaign) : Prop where
  framed : Framed number w w'
  ledger : entries w'.log = entries w.log
  allExternals : w'.externals = w.externals
  records : ∀ n, n ≠ number → w'.records[n]? = w.records[n]?
  honest : (∀ r ∈ w.records, Honest r) → ∀ r ∈ w'.records, Honest r

theorem ArmedFrame.of_change {f : FaultInjectionRecord → FaultInjectionRecord}
    {state : LocalState} (hf : ∀ r, Honest r → Honest (f r)) (hactive : w'.active = w.active)
    (hactivated : w'.activated = w.activated) (hclosed : w'.closed = w.closed)
    (hentries : entries w'.log = entries w.log)
    (hrecords : w'.records = w.records.modify number f)
    (hlocals : w'.locals = Function.update w.locals number state)
    (hexternals : w'.externals = w.externals) : ArmedFrame number w w' where
  framed := .change hactive hactivated hclosed hrecords
    (fun n hn => by rw [hlocals, Function.update_of_ne hn]) (fun _ _ => by rw [hexternals])
    fun hdone => by rwa [hexternals]
  ledger := hentries
  allExternals := hexternals
  records n hn := by simp [hrecords, Ne.symm hn]
  honest hall r hr := by
    rw [hrecords] at hr
    obtain ⟨n, hn⟩ := List.mem_iff_getElem?.mp hr
    obtain ⟨r', hr', rfl⟩ := of_modify hn
    split
    · exact hf r' (hall r' (List.mem_of_getElem? hr'))
    · exact hall r' (List.mem_of_getElem? hr')

theorem ArmedFrame.trans {w'' : Runtime campaign} (h : ArmedFrame number w w')
    (h' : ArmedFrame number w' w'') : ArmedFrame number w w'' where
  framed := h.framed.trans h'.framed
  ledger := h'.ledger.trans h.ledger
  allExternals := h'.allExternals.trans h.allExternals
  records n hn := (h'.records n hn).trans (h.records n hn)
  honest hall := h'.honest (h.honest hall)

theorem failLocal_frame (number : Nat) (error : String) (preserve : Bool)
    (hopen : (w.locals number).done = false) :
    (failLocal world number error false preserve).Ensures
      (fun _ w' => ArmedFrame number w w' ∧ (w'.locals number).done = true ∧ SettledAt w' number)
      (fun _ _ => False) w := by
  unfold failLocal
  rw [Act.ensures_bind, Act.ensures_self, if_neg (Bool.eq_false_iff.mp hopen)]
  have hend : ∀ {w' : Runtime campaign} {error : String} {state : LocalState},
      w'.records = w.records.modify number (·.fail error) →
      w'.locals = Function.update w.locals number state → state.done = true →
      ArmedFrame number w w' →
      ArmedFrame number w w' ∧ (w'.locals number).done = true ∧ SettledAt w' number := by
    intro w' error state hrecords hlocals hdone hframe
    refine ⟨hframe, by rw [hlocals, Function.update_self]; exact hdone, fun record hrecord => ?_⟩
    rw [hrecords] at hrecord
    obtain ⟨r, -, rfl⟩ := of_modify hrecord
    rw [if_pos rfl]
    exact (fail_settled r error).1
  refine ensures_asked fun outcome => ?_
  cases outcome with
  | error cleanupError =>
      exact hend rfl rfl rfl (.of_change (fun r _ => honest_fail r _) rfl rfl rfl
        (entries_other rfl) rfl rfl rfl)
  | ok _ =>
      exact hend rfl rfl rfl (.of_change (fun r _ => honest_fail r _) rfl rfl rfl
        (entries_other rfl) rfl rfl rfl)

theorem verify_frame (number : Nat) (evidence : Evidence)
    (hopen : (w.locals number).done = false) :
    (verify number evidence).Ensures
      (fun _ w' => ArmedFrame number w w' ∧ (w'.locals number).done = false)
      (fun _ _ => False) w := by
  unfold verify
  rw [Act.ensures_bind, Act.ensures_self, if_neg (Bool.eq_false_iff.mp hopen)]
  refine ⟨.of_change (fun r hr => ?_) rfl rfl rfl rfl rfl (Function.update_eq_self number _).symm
    rfl, hopen⟩
  split
  · exact hr
  · exact fun _ => rfl

/-- Arming a local fault: it is active, or its record is settled. -/
theorem activateLocal_spec (request : FaultExecutionRequest)
    (hdone : (w.locals number).done = true) :
    (activateLocal world request number).Ensures
      (fun _ w' => ArmedFrame number w w' ∧
        ((w'.locals number).done = true → SettledAt w' number))
      (fun _ w' => ArmedFrame number w w' ∧ (w'.locals number).done = true) w := by
  unfold activateLocal
  refine ensures_asked fun answer => ?_
  let state : LocalState := { done := false, remainingCalls := request.lifetime.callCount }
  let armed : Runtime campaign := { w with
    log := w.log ++ [⟨.arm request number, answer⟩]
    locals := Function.update w.locals number state }
  have hframe : ArmedFrame number w armed :=
    .of_change (f := id) (fun _ => id) rfl rfl rfl (entries_other rfl) (List.modify_id _ _).symm
      rfl rfl
  have hopen : (armed.locals number).done = false := by
    show (Function.update w.locals number state number).done = false
    rw [Function.update_self]
  cases answer with
  | refused error =>
      exact ⟨.of_change (f := id) (fun _ => id) rfl rfl rfl (entries_other rfl)
        (List.modify_id _ _).symm (Function.update_eq_self number _).symm rfl, hdone⟩
  | armed identity evidence =>
      cases evidence with
      | none =>
          refine ⟨hframe, fun hover => ?_⟩
          rw [show (armed.locals number).done = true from hover] at hopen
          cases hopen
      | some evidence =>
          show (verify number evidence >>= fun _ => pure identity).Ensures _ _ armed
          rw [Act.ensures_bind]
          refine (verify_frame number evidence hopen).mono (fun _ w' hw => ?_) fun _ _ => False.elim
          refine ⟨hframe.trans hw.1, fun hover => ?_⟩
          rw [hw.2] at hover
          cases hover
  | unavailable identity error =>
      show (failLocal world number error.text false false >>= fun _ => pure identity).Ensures _ _
        armed
      rw [Act.ensures_bind]
      exact (failLocal_frame number error.text false hopen).mono
        (fun _ w' hw => ⟨hframe.trans hw.1, fun _ => hw.2.2⟩) fun _ _ => False.elim
  | failed identity error =>
      show (failLocal world number error.text false false >>= fun _ => raise error).Ensures _ _
        armed
      rw [Act.ensures_bind]
      exact (failLocal_frame number error.text false hopen).mono
        (fun _ w' hw => ⟨hframe.trans hw.1, hw.2.1⟩) fun _ _ => False.elim

/-! ## What activation adds -/

/-- What was active stays as it was while an iteration is activated: effects are added
behind it. -/
structure Grown (w₀ w : Runtime campaign) : Prop where
  closed : w.closed = w₀.closed
  length : w₀.records.length ≤ w.records.length
  locals : ∀ n < w₀.records.length, w.locals n = w₀.locals n
  externals : ∀ n < w₀.records.length, w.externals n = w₀.externals n
  active : ∃ new, w.active = w₀.active ++ new ∧ ∀ a ∈ new, w₀.records.length ≤ a.number

/-- What an incident has activated is active, or done. -/
def Tracked (w₀ w : Runtime campaign) : Prop :=
  ∀ a ∈ w.activated, w₀.records.length ≤ a.number ∧ a.number < w.records.length ∧
    (w.done a = false → a ∈ w.active)

variable {w₀ : Runtime campaign}

theorem Grown.refl (w : Runtime campaign) : Grown w w :=
  ⟨rfl, le_rfl, fun _ _ => rfl, fun _ _ => rfl, [], (List.append_nil _).symm,
    fun _ h => (List.not_mem_nil h).elim⟩

theorem Grown.step (h : Grown w₀ w) (hn : w₀.records.length ≤ number)
    (hclosed : w'.closed = w.closed) (hlength : w.records.length ≤ w'.records.length)
    (hlocals : ∀ n, n ≠ number → w'.locals n = w.locals n)
    (hexternals : ∀ n, n ≠ number → w'.externals n = w.externals n)
    (hactive : w'.active = w.active ∨
      ∃ a : ActiveFault, w'.active = w.active ++ [a] ∧ w₀.records.length ≤ a.number) :
    Grown w₀ w' where
  closed := hclosed.trans h.closed
  length := h.length.trans hlength
  locals n hlt := (hlocals n (hlt.trans_le hn).ne).trans (h.locals n hlt)
  externals n hlt := (hexternals n (hlt.trans_le hn).ne).trans (h.externals n hlt)
  active := by
    obtain ⟨new, hnew, hbound⟩ := h.active
    rcases hactive with hsame | ⟨a, hadded, ha⟩
    · exact ⟨new, hsame.trans hnew, hbound⟩
    · refine ⟨new ++ [a], by rw [hadded, hnew, List.append_assoc], fun b hb => ?_⟩
      rcases List.mem_append.mp hb with hb | hb
      · exact hbound b hb
      · rw [List.mem_singleton.mp hb]
        exact ha

theorem Grown.framed (h : Grown w₀ w) (hn : w₀.records.length ≤ number)
    (hframed : Apart number w w') : Grown w₀ w' :=
  h.step hn hframed.closed hframed.length.ge hframed.locals hframed.externals
    (Or.inl hframed.active)

theorem Runtime.done_congr {a : ActiveFault} (hlocals : w'.locals a.number = w.locals a.number)
    (hexternals : w'.externals a.number = w.externals a.number) : w'.done a = w.done a := by
  rw [Runtime.done, Runtime.done, hlocals, hexternals]

/-- `register` -/
def Runtime.registered (w : Runtime campaign) (a : ActiveFault) : Runtime campaign :=
  { w with
    activated := w.activated ++ [a]
    active := if w.done a then w.active else w.active ++ [a] }

theorem Runtime.registered_active (w : Runtime campaign) (a : ActiveFault) :
    (w.registered a).active = w.active ∨ (w.registered a).active = w.active ++ [a] := by
  unfold Runtime.registered
  dsimp only
  split
  · exact Or.inl rfl
  · exact Or.inr rfl

theorem Grown.registered (h : Grown w₀ w) {a : ActiveFault}
    (hn : w₀.records.length ≤ a.number) : Grown w₀ (w.registered a) :=
  h.step hn rfl le_rfl (fun _ _ => rfl) (fun _ _ => rfl)
    ((w.registered_active a).imp id fun hactive => ⟨a, hactive, hn⟩)

theorem Tracked.registered (h : Tracked w₀ w) {a : ActiveFault}
    (hn : w₀.records.length ≤ a.number) (hlt : a.number < w.records.length) :
    Tracked w₀ (w.registered a) := by
  intro b hb
  rcases List.mem_append.mp hb with hb | hb
  · obtain ⟨hlow, hhigh, hmem⟩ := h b hb
    refine ⟨hlow, hhigh, fun hopen => ?_⟩
    rcases w.registered_active a with hactive | hactive <;> rw [hactive]
    · exact hmem hopen
    · exact List.mem_append_left _ (hmem hopen)
  · rw [List.mem_singleton.mp hb]
    refine ⟨hn, hlt, fun hopen => ?_⟩
    have hopen : w.done a = false := hopen
    show a ∈ if w.done a then w.active else w.active ++ [a]
    rw [if_neg (Bool.eq_false_iff.mp hopen)]
    exact List.mem_append_right _ List.mem_cons_self

/-- What was activated before is not touched by a new record. -/
theorem Tracked.step (h : Tracked w₀ w) (hactivated : w'.activated = w.activated)
    (hactive : w'.active = w.active) (hlength : w.records.length ≤ w'.records.length)
    (hsame : ∀ a ∈ w.activated, w'.done a = false → w.done a = false) : Tracked w₀ w' := by
  intro a ha
  rw [hactivated] at ha
  obtain ⟨hlow, hhigh, hmem⟩ := h a ha
  refine ⟨hlow, hhigh.trans_le hlength, fun hopen => ?_⟩
  rw [hactive]
  exact hmem (hsame a ha hopen)

/-! ## One fault -/

theorem Fresh.armed (h : Fresh number w) (hframe : ArmedFrame number w w')
    (hdone : (w'.locals number).done = true) : Inv number w' := by
  have hothers : ∀ a ∈ w.active, w'.done a = w.done a := fun a hmem =>
    Runtime.done_congr (hframe.framed.locals _ (h.below a hmem).ne) (by rw [hframe.allExternals])
  have hactive := hframe.framed.active
  refine ⟨?_, ?_, fun a ha => ?_, fun n hn => ?_, fun a ha effect heffect hopen => ?_,
    fun n hn record hrecord hunsettled => ?_, hframe.honest h.inv.honest⟩
  · rw [hframe.ledger, hand_congr hactive hframe.allExternals]
    exact h.inv.held
  · rw [hactive]
    exact h.inv.nodup
  · rw [hframe.framed.length]
    exact h.inv.bound a (hactive ▸ ha)
  · rw [hactive]
    by_cases heq : n = number
    · rw [heq, hdone] at hn
      cases hn
    · rw [hframe.framed.locals n heq] at hn
      exact h.inv.known n hn
  · rw [hactive] at ha
    exact h.inv.lasting a ha effect heffect ((hothers a ha).symm.trans hopen)
  · rw [hframe.records n hn.ne] at hrecord
    obtain ⟨a, ha, hnumber, hopen⟩ := h.inv.settled n hn record hrecord hunsettled
    exact ⟨a, hactive ▸ ha, hnumber, (hothers a ha).trans hopen⟩

/-- A local fault that was armed is active or settled. -/
theorem Fresh.registered (h : Fresh number w) (hframe : ArmedFrame number w w')
    (hsettled : (w'.locals number).done = true → SettledAt w' number) {a : ActiveFault}
    (hnumber : a.number = number) {identity : Option Nat} (heffect : a.effect = .local identity) :
    Sound (w'.registered a) := by
  subst hnumber
  have hlast : (w'.registered a).records.length = a.number + 1 :=
    hframe.framed.length.trans h.last
  cases hdone : w'.done a with
  | true =>
      rw [done_local heffect] at hdone
      have hactive : (w'.registered a).active = w'.active := by
        show (if w'.done a then w'.active else w'.active ++ [a]) = _
        rw [done_local heffect, if_pos hdone]
      have hinv := h.armed hframe hdone
      have hinv : Inv a.number (w'.registered a) := by
        have hperm : w'.active.Perm (w'.active ++ []) := by rw [List.append_nil]
        exact hinv.drop hperm (fun _ h => (List.not_mem_nil h).elim) hactive rfl rfl rfl rfl
      exact hinv.settle hlast fun record hrecord hunsettled =>
        absurd hunsettled (hsettled hdone record hrecord)
  | false =>
      have hactive : (w'.registered a).active = w'.active ++ [a] := by
        show (if w'.done a then w'.active else w'.active ++ [a]) = _
        rw [if_neg (Bool.eq_false_iff.mp hdone)]
      have hinv : Inv a.number (w'.registered a) := by
        refine h.inv.push h.last h.below rfl (hactive.trans (by rw [hframe.framed.active]))
          hframe.framed.length hframe.records (hframe.honest h.inv.honest) hframe.framed.locals
          hframe.framed.externals (fun _ => ⟨identity, heffect⟩) (fun effect hexternal _ => ?_) ?_
        · cases heffect.symm.trans hexternal
        · have hnone : inHand (w'.registered a) a = none := by rw [inHand, heffect]
          rw [hnone]
          exact hframe.ledger ▸ h.inv.held
      refine hinv.settle hlast fun record _ _ => ⟨a, ?_, rfl, hdone⟩
      rw [hactive]
      exact List.mem_append_right _ List.mem_cons_self

/-- The ledger of an activation that is not to be deactivated. -/
theorem entries_activate_none (log : List Answered) (executor : FaultExecutor)
    (request : FaultExecutionRequest) (result : FaultExecutionResult)
    (h : (result.active && executor.canDeactivate) = false) :
    entries (log ++ [⟨.activate executor request, .ok (some result)⟩]) = entries log :=
  entries_other (if_neg (Bool.eq_false_iff.mp h))

theorem entries_activate_some (log : List Answered) (executor : FaultExecutor)
    (request : FaultExecutionRequest) (result : FaultExecutionResult)
    (h : (result.active && executor.canDeactivate) = true) :
    entries (log ++ [⟨.activate executor request, .ok (some result)⟩]) =
      entries log ++ [.acquire ⟨request, executor, result⟩] := by
  rw [entries_concat]
  show _ ++ (if result.active && executor.canDeactivate then
    some (Entry.acquire (⟨request, executor, result⟩ : ExternalEffect)) else none).toList = _
  rw [if_pos h]
  rfl

/-- What an executor's activation changes: its own record and effect, which may be registered
between. -/
def Placed (number : Nat) (w w' : Runtime campaign) : Prop :=
  Framed number w w' ∨ ∃ a w₂, a.number = number ∧ (∃ effect, a.effect = .external effect) ∧
    Apart number w w₂ ∧ Framed number (w₂.registered a) w'

theorem Placed.after {w₁ : Runtime campaign} (hframed : Framed number w w₁)
    (h : Placed number w₁ w') : Placed number w w' := by
  rcases h with h | ⟨a, w₂, hnumber, heffect, h₂, h⟩
  · exact Or.inl (hframed.trans h)
  · exact Or.inr ⟨a, w₂, hnumber, heffect, hframed.toApart.trans h₂, h⟩

theorem Fresh.named (h : Fresh number w) (name : String) :
    let f (record : FaultInjectionRecord) : FaultInjectionRecord := { record with executor := name }
    Fresh number { w with records := w.records.modify number f } ∧
      Framed number w { w with records := w.records.modify number f } := by
  intro f
  have hf : ∀ r, w.records[number]? = some r → Honest (f r) := by
    rintro r hr (hstatus | hstatus) <;>
    · rw [show (f r).status = r.status from rfl, h.pending r hr] at hstatus
      cases hstatus
  have hnote : Inv number { w with records := w.records.modify number f } ∧
      Framed number w { w with records := w.records.modify number f } :=
    h.inv.note le_rfl hf rfl rfl rfl rfl rfl rfl rfl
  refine ⟨⟨hnote.1, (List.length_modify _ _ _).trans h.last, h.below, fun r hr => ?_⟩, hnote.2⟩
  obtain ⟨r', hr', rfl⟩ := of_modify hr
  rw [if_pos rfl]
  exact h.pending r' hr'

section Executor

variable {effect : ExternalEffect}

/-- The state once an executor has returned. -/
def Runtime.returned (w : Runtime campaign) (effect : ExternalEffect) : Runtime campaign :=
  { w with log := w.log ++ [⟨.activate effect.executor effect.request, .ok (some effect.result)⟩] }

theorem refuseOneShot_spec (h : Inv number w) (hactive : effect.result.active = true) :
    (refuseOneShot world number effect).Ensures (fun _ _ => False)
      (fun _ w' => Inv number w' ∧ Framed number w w') (w.returned effect) := by
  unfold refuseOneShot
  dsimp only
  have hfail : ∀ (r : FaultInjectionRecord) error,
      Honest { r.fail error with verified := effect.result.verified } := by
    rintro r error (hstatus | hstatus) <;> cases hstatus
  cases hcan : effect.executor.canDeactivate with
  | true =>
      rw [if_pos rfl, Act.ensures_bind]
      have hheld : ∀ outcome : Except Raised (Option Evidence), Held (entries
          (w.log ++ [⟨.activate effect.executor effect.request, .ok (some effect.result)⟩] ++
            [⟨.deactivate effect.executor effect.request effect.result, outcome⟩])) (hand w) := by
        intro outcome
        rw [entries_deactivate, entries_activate_some _ _ _ _ (by rw [hactive, hcan]; rfl)]
        exact (h.held.acquire effect).release _
      refine ensures_deactivateOnce fun outcome => ⟨fun deactivationError => ?_, fun _ error => ?_⟩
      · exact h.noteHeld le_rfl (fun r _ => hfail r _) rfl rfl rfl rfl rfl rfl (hheld outcome)
      · exact h.noteHeld (f := id) le_rfl (fun r hr => h.honest r (List.mem_of_getElem? hr)) rfl rfl
          rfl (List.modify_id _ _).symm rfl rfl (hheld outcome)
  | false =>
      rw [if_neg Bool.false_ne_true]
      refine h.note le_rfl (fun r _ => hfail r _) rfl rfl rfl rfl rfl rfl ?_
      exact entries_activate_none _ _ _ _ (by rw [hactive, hcan]; rfl)

theorem refuseActive_spec (h : Inv number w) (hcan : effect.executor.canDeactivate = false) :
    (refuseActive number effect).Ensures (fun _ _ => False)
      (fun _ w' => Inv number w' ∧ Framed number w w') (w.returned effect) := by
  have hfail : ∀ (r : FaultInjectionRecord) error,
      Honest { r.fail error with verified := effect.result.verified } := by
    rintro r error (hstatus | hstatus) <;> cases hstatus
  exact h.note le_rfl (fun r _ => hfail r _) rfl rfl rfl rfl rfl rfl
    (entries_activate_none _ _ _ _ (by rw [hcan, Bool.and_false]))

end Executor

/-- An effect that the session keeps: its fault is registered. -/
theorem Fresh.keep (h : Fresh number w) {a : ActiveFault} (hnumber : a.number = number)
    {effect : ExternalEffect} (heffect : a.effect = .external effect)
    (hcan : effect.result.active = true → effect.executor.canDeactivate = true) :
    let w₂ : Runtime campaign := { w.returned effect with
      externals := Function.update w.externals number { done := !effect.result.active } }
    Returned number effect (w₂.registered a) ∧ Apart number w w₂ := by
  intro w₂
  subst hnumber
  have hothers : ∀ n, n ≠ a.number → w₂.externals n = w.externals n := fun n hn =>
    Function.update_of_ne hn _ _
  have hself : w₂.done a = !effect.result.active := by
    rw [done_external heffect]
    show (Function.update w.externals a.number { done := !effect.result.active } a.number).done = _
    rw [Function.update_self]
  refine ⟨?_, rfl, rfl, rfl, rfl, fun _ _ => rfl, hothers⟩
  cases hactive : effect.result.active with
  | true =>
      rw [hactive] at hself
      have hpush : (w₂.registered a).active = w.active ++ [a] := by
        show (if w₂.done a then w.active else w.active ++ [a]) = _
        rw [hself]
        rfl
      have hmem : a ∈ (w₂.registered a).active := by
        rw [hpush]
        exact List.mem_append_right _ List.mem_cons_self
      refine ⟨?_, h.last, h.pending, fun _ => ⟨a, hmem, rfl, heffect, hself⟩⟩
      refine h.inv.push h.last h.below rfl hpush rfl (fun _ _ => rfl) h.inv.honest (fun _ _ => rfl)
        hothers (fun hopen => ?_) (fun e he _ => ?_) ?_
      · obtain ⟨b, hb, hnumber, -⟩ := h.inv.known _ hopen
        exact absurd hnumber (h.below b hb).ne
      · rw [heffect] at he
        exact Effect.external.inj he ▸ hactive
      · rw [inHand_of_not_done heffect (show (w₂.registered a).done a = false from hself)]
        show Held (entries (w.log ++
          [⟨.activate effect.executor effect.request, .ok (some effect.result)⟩])) _
        rw [entries_activate_some _ _ _ _ (by rw [hactive, hcan hactive]; rfl)]
        exact h.inv.held.acquire effect
  | false =>
      rw [hactive] at hself
      have hsame : (w₂.registered a).active = w.active := by
        show (if w₂.done a then w.active else w.active ++ [a]) = _
        rw [hself]
        rfl
      refine ⟨?_, h.last, h.pending, fun htrue => by rw [hactive] at htrue; cases htrue⟩
      refine h.inv.change (f := id) a.number (fun r hr => ?_) hsame (List.modify_id _ _).symm
        (fun _ _ => rfl) hothers id (fun hopen => ?_) ?_
      · exact ⟨h.inv.honest r (List.mem_of_getElem? hr), fun hlt => absurd hlt (lt_irrefl _)⟩
      · rw [← done_external heffect, show (w₂.registered a).done a = true from hself] at hopen
        cases hopen
      · have hhand : hand (w₂.registered a) = hand w := by
          rw [hand, hand, hsame]
          congr 1
          exact List.filterMap_congr fun b hb => inHand_congr (hothers _ (h.below b hb).ne)
        rw [hhand]
        show Held (entries (w.log ++
          [⟨.activate effect.executor effect.request, .ok (some effect.result)⟩])) _
        rw [entries_activate_none _ _ _ _ (by rw [hactive]; rfl)]
        exact h.inv.held

theorem activateExternal_spec (h : Fresh number w) (request : FaultExecutionRequest)
    (incident : FaultIncident) (iteration : Int) :
    (activateExternal setup world request number incident iteration).Ensures
      (fun _ w' => Sound w' ∧ Placed number w w')
      (fun _ w' => Inv number w' ∧ Placed number w w') w := by
  unfold activateExternal
  rw [Act.ensures_bind]
  unfold executorFor
  split
  · rename_i executor _
    rw [Act.ensures_pure, Act.ensures_bind]
    obtain ⟨hnamed, hframed⟩ := h.named executor.name
    show Act.Ensures _ _ _ { w with records := w.records.modify number fun record =>
      { record with executor := executor.name } }
    generalize ({ w with records := w.records.modify number fun record =>
      { record with executor := executor.name } } : Runtime campaign) = w₁ at hnamed hframed ⊢
    have hraised : ∀ w', Inv number w' ∧ Framed number w₁ w' → Inv number w' ∧ Placed number w w' :=
      fun w' hw => ⟨hw.1, Or.inl (hframed.trans hw.2)⟩
    rw [Act.ensures_bind]
    unfold validateExecutorLifecycle
    split
    · exact hraised _ ⟨hnamed.inv, .refl number w₁⟩
    · rw [Act.ensures_pure]
      refine ensures_asked fun outcome => ?_
      rcases outcome with error | result
      · have hentries : entries (w₁.log ++ [⟨.activate executor request, .error error⟩]) =
            entries w₁.log := entries_other rfl
        dsimp only
        split
        · exact hraised _ (hnamed.inv.note le_rfl (fun r _ => honest_fail r _) rfl rfl rfl rfl rfl
            rfl hentries)
        · exact hraised _ (hnamed.inv.note (f := id) le_rfl (fun r hr => hnamed.inv.honest r
            (List.mem_of_getElem? hr)) rfl rfl rfl (List.modify_id _ _).symm rfl rfl hentries)
      · rcases result with _ | result
        · have hentries : entries (w₁.log ++ [⟨.activate executor request, .ok none⟩]) =
              entries w₁.log := entries_other rfl
          exact hraised _ (hnamed.inv.note le_rfl (fun r _ => honest_fail r _) rfl rfl rfl rfl rfl
            rfl hentries)
        · dsimp only
          split
          · rename_i hshot
            exact (refuseOneShot_spec hnamed.inv (Bool.and_eq_true_iff.mp hshot).1).mono
              (fun _ _ => False.elim) fun _ => hraised
          · split
            · rename_i hstuck
              have hcan := (Bool.and_eq_true_iff.mp hstuck).2
              rw [Bool.not_eq_true'] at hcan
              exact (refuseActive_spec hnamed.inv hcan).mono (fun _ _ => False.elim) fun _ => hraised
            · rename_i hkept
              let effect : ExternalEffect := ⟨request, executor, result⟩
              let a : ActiveFault := ⟨number, incident, iteration, .external effect⟩
              have hcan : result.active = true → executor.canDeactivate = true := by
                intro hactive
                rw [hactive] at hkept
                simpa using hkept
              obtain ⟨hreturned, hapart⟩ := hnamed.keep (a := a) rfl rfl hcan
              have hplaced : ∀ {w₂ w' : Runtime campaign}, Apart number w₁ w₂ →
                  Framed number (w₂.registered a) w' → Placed number w w' := fun h₂ h' =>
                .after hframed (Or.inr ⟨a, _, rfl, ⟨effect, rfl⟩, h₂, h'⟩)
              refine (settleExternal_spec hreturned).mono (fun _ w' hw => ?_) fun _ w' hw => ?_
              · exact ⟨hw.1, hplaced hapart hw.2⟩
              · exact ⟨hw.1, hplaced hapart hw.2⟩
  · exact ⟨h.inv, Or.inl (.refl number w)⟩

/-- What an activation adds, once its record was made. -/
theorem Grown.placed (h : Grown w₀ w) (hn : w₀.records.length ≤ number)
    (hplaced : Placed number w w') : Grown w₀ w' := by
  rcases hplaced with hframed | ⟨a, w₂, rfl, -, h₂, h'⟩
  · exact h.framed hn hframed.toApart
  · exact ((h.framed hn h₂).registered hn).framed hn h'.toApart

theorem Tracked.placed (h : Tracked w₀ w) (hn : w₀.records.length ≤ number)
    (hbelow : ∀ a ∈ w.activated, a.number < number) (hlast : w.records.length = number + 1)
    (hplaced : Placed number w w') : Tracked w₀ w' := by
  have hapart : ∀ {w₁ : Runtime campaign}, Apart number w w₁ → Tracked w₀ w₁ := fun h₁ =>
    h.step h₁.activated h₁.active h₁.length.ge fun a ha hopen => by
      have hne := (hbelow a ha).ne
      rwa [Runtime.done_congr (h₁.locals _ hne) (h₁.externals _ hne)] at hopen
  rcases hplaced with hframed | ⟨a, w₂, rfl, ⟨effect, heffect⟩, h₂, h'⟩
  · exact hapart hframed.toApart
  · have hlt : a.number < w₂.records.length := by
      rw [h₂.length, hlast]
      exact Nat.lt_succ_self _
    refine ((hapart h₂).registered hn hlt).step h'.activated h'.active h'.length.ge
      fun b hb hopen => ?_
    by_cases heq : b = a
    · subst heq
      refine Bool.eq_false_iff.mpr fun hdone => Bool.eq_false_iff.mp hopen ?_
      rw [done_external heffect] at hdone ⊢
      exact h'.done hdone
    · have hne : b.number ≠ a.number := by
        rcases List.mem_append.mp hb with hb | hb
        · exact (hbelow b (h₂.activated ▸ hb)).ne
        · exact absurd (List.mem_singleton.mp hb) heq
      rwa [Runtime.done_congr (h'.locals _ hne) (h'.externals _ hne)] at hopen

/-- What holds while an iteration is activated, between two faults. -/
structure Between (w₀ w : Runtime campaign) : Prop where
  sound : Sound w
  grown : Grown w₀ w
  tracked : Tracked w₀ w

/-- What holds where an activation has failed. -/
structure Failed (w₀ w : Runtime campaign) : Prop where
  inv : Inv w₀.records.length w
  grown : Grown w₀ w
  tracked : Tracked w₀ w

/-- One fault is activated. -/
theorem activateFault_spec (h : Between w₀ w) (item : StagedIncident) (iteration : Int)
    (fault : FaultSpec) : (activateFault setup world item iteration fault).Ensures
      (fun _ => Between w₀) (fun _ => Failed w₀) w := by
  unfold activateFault
  split
  · exact h
  · dsimp only
    rw [Act.ensures_bind, Act.ensures_self, Act.ensures_bind, Act.ensures_assign]
    generalize buildRequest campaign setup item.incident fault item.occurrenceId iteration
      item.attempt = request
    have hfresh : Fresh w.records.length
        { w with records := w.records ++ [newRecord setup request] } := .of_sound h.sound rfl
    have hlength : w.records.length ≤ (w.records ++ [newRecord setup request]).length := by
      rw [List.length_append]
      exact Nat.le_add_right _ _
    have hgrown : Grown w₀ { w with records := w.records ++ [newRecord setup request] } :=
      h.grown.step h.grown.length rfl hlength (fun _ _ => rfl) (fun _ _ => rfl) (Or.inl rfl)
    have htracked : Tracked w₀ { w with records := w.records ++ [newRecord setup request] } :=
      h.tracked.step rfl rfl hlength fun _ _ hopen => hopen
    have hbelow : ∀ a ∈ w.activated, a.number < w.records.length := fun a ha => (h.tracked a ha).2.1
    have hlow := h.grown.length
    have hfirst : (w.locals w.records.length).done = true := by
      by_contra hopen
      obtain ⟨a, ha, hnumber, -⟩ := h.sound.known _ (Bool.eq_false_iff.mpr hopen)
      exact absurd hnumber (h.sound.bound a ha).ne
    generalize hw₁ : ({ w with records := w.records ++ [newRecord setup request] } :
      Runtime campaign) = w₁ at hfresh hgrown htracked
    have hactivated : ∀ a ∈ w₁.activated, a.number < w.records.length := by
      rw [← hw₁]
      exact hbelow
    split
    · rw [Act.ensures_bind]
      have harmed : ∀ {w' : Runtime campaign}, ArmedFrame w.records.length w₁ w' →
          Grown w₀ w' ∧ Tracked w₀ w' := fun hframe =>
        ⟨hgrown.placed hlow (Or.inl hframe.framed),
          htracked.placed hlow hactivated hfresh.last (Or.inl hframe.framed)⟩
      refine (activateLocal_spec request (by rw [← hw₁]; exact hfirst)).mono (fun identity w' hw => ?_)
        fun _ w' hw => ?_
      · obtain ⟨hgrown', htracked'⟩ := harmed hw.1
        have hlt : w.records.length < w'.records.length := by
          rw [hw.1.framed.length, hfresh.last]
          exact Nat.lt_succ_self _
        exact ⟨hfresh.registered hw.1 hw.2 rfl rfl, hgrown'.registered hlow,
          htracked'.registered hlow hlt⟩
      · exact ⟨(hfresh.armed hw.1 hw.2).antitone hlow, (harmed hw.1).1, (harmed hw.1).2⟩
    · refine (activateExternal_spec hfresh request item.incident iteration).mono
        (fun _ w' hw => ?_) fun _ w' hw => ?_
      · exact ⟨hw.1, hgrown.placed hlow hw.2, htracked.placed hlow hactivated hfresh.last hw.2⟩
      · exact ⟨hw.1.antitone hlow, hgrown.placed hlow hw.2,
          htracked.placed hlow hactivated hfresh.last hw.2⟩

/-! ## An incident -/

/-- A session that is about to activate an iteration: nothing that is active is done. -/
structure Ready (w₀ : Runtime campaign) : Prop where
  sound : Sound w₀
  undone : ∀ a ∈ w₀.active, w₀.done a = false

theorem Grown.swept (h : Grown w₀ w) {xs : List ActiveFault}
    {Q : ActiveFault → Runtime campaign → Prop} (hswept : Swept start xs Q w w')
    (hxs : ∀ a ∈ xs, w₀.records.length ≤ a.number) : Grown w₀ w' where
  closed := hswept.ending.closed.trans h.closed
  length := hswept.ending.length ▸ h.length
  locals n hn := (hswept.others n fun a ha => (hn.trans_le (hxs a ha)).ne').1.trans (h.locals n hn)
  externals n hn :=
    (hswept.others n fun a ha => (hn.trans_le (hxs a ha)).ne').2.trans (h.externals n hn)
  active := hswept.ending.active ▸ h.active

theorem Grown.discarded (h : Grown w₀ w) (hready : Ready w₀) : Grown w₀ w.discarded where
  closed := h.closed
  length := h.length
  locals := h.locals
  externals := h.externals
  active := by
    obtain ⟨new, hnew, hbound⟩ := h.active
    refine ⟨new.filter fun a => !w.done a, ?_, fun a ha => hbound a (List.mem_of_mem_filter ha)⟩
    show w.active.filter (fun a => !w.done a) = _
    rw [hnew, List.filter_append, List.filter_eq_self.mpr fun a ha => ?_]
    have hlt := hready.sound.bound a ha
    rw [Runtime.done_congr (h.locals _ hlt) (h.externals _ hlt), hready.undone a ha]
    rfl

/-- One incident is activated, or rolled back. -/
theorem activateIncident_spec (hready : Ready w₀) (hsound : Sound w) (hgrown : Grown w₀ w)
    (item : StagedIncident) (iteration : Int) :
    (activateIncident setup world item iteration).Ensures (fun _ w' => Sound w' ∧ Grown w₀ w')
      (fun _ w' => Inv w₀.records.length w' ∧ Grown w₀ w') w := by
  unfold activateIncident
  rw [Act.ensures_bind, Act.ensures_assign, Act.ensures_tryCatch]
  have hstart : Between w₀ { w with activated := [] } :=
    ⟨⟨hsound.held, hsound.nodup, hsound.bound, hsound.known, hsound.lasting, hsound.settled,
        hsound.honest⟩,
      ⟨hgrown.closed, hgrown.length, hgrown.locals, hgrown.externals, hgrown.active⟩,
      fun _ h => (List.not_mem_nil h).elim⟩
  have hloop : (forEach (activateFault setup world item iteration) item.incident.faults).Ensures
      (fun _ => Between w₀) (fun _ => Failed w₀) { w with activated := [] } :=
    Act.ensures_forEach (fun fault _ w h => activateFault_spec h item iteration fault) hstart
  refine hloop.mono (fun _ w' h => ⟨h.sound, h.grown⟩) fun error w' h => ?_
  rw [Act.ensures_bind, Act.ensures_self, Act.ensures_bind]
  have hsweep : (firstError (unlessDone (rollbackFault world error)) w'.activated.reverse).Ensures
      (fun _ => Swept w₀.records.length w'.activated.reverse (fun _ _ => True) w')
      (fun _ w' => Inv w₀.records.length w' ∧ Grown w₀ w') w' := firstError_spec h.inv
    (fun a ha hopen => (h.tracked a (List.mem_reverse.mp ha)).2.2 hopen)
    (fun _ _ _ => trivial) (fun _ _ _ _ _ => trivial)
    (fun a w hinv hmem => (rollbackFault_spec hinv hmem error).mono
      (fun _ _ hw => ⟨hw.1, trivial⟩) fun _ _ hw => ⟨hw.1, trivial⟩)
  refine hsweep.mono (fun cleanupError w'' hswept => ?_) fun _ _ hw => hw
  have hgrown' := h.grown.swept hswept fun a ha => (h.tracked a (List.mem_reverse.mp ha)).1
  exact ⟨hswept.inv.discarded, hgrown'.discarded hready⟩

/-- Records that are made settled between two activations. -/
theorem recordProbabilitySkip_spec (hsound : Sound w) (hgrown : Grown w₀ w)
    (item : StagedIncident) (iteration : Int) :
    (recordProbabilitySkip setup item iteration).Ensures (fun _ w' => Sound w' ∧ Grown w₀ w')
      (fun _ w' => Inv w₀.records.length w' ∧ Grown w₀ w') w := by
  unfold recordProbabilitySkip
  refine Act.ensures_forEach (fun fault _ w hw => ?_) ⟨hsound, hgrown⟩
  obtain ⟨hsound, hgrown⟩ := hw
  split
  · exact ⟨hsound, hgrown⟩
  · rw [Act.ensures_assign]
    refine ⟨(hsound.append fun hstatus => ?_).settle (by rw [List.length_append]; rfl)
      fun record hrecord hunsettled => ?_, hgrown.step hgrown.length rfl ?_ (fun _ _ => rfl)
        (fun _ _ => rfl) (Or.inl rfl)⟩
    · rcases hstatus with hstatus | hstatus <;> cases hstatus
    · rw [List.getElem?_append_right le_rfl, Nat.sub_self] at hrecord
      rw [← Option.some.inj hrecord] at hunsettled
      rcases hunsettled with hstatus | hstatus <;> cases hstatus
    · rw [List.length_append]
      exact Nat.le_add_right _ _

/-! ## An iteration -/

theorem rolledBack_settled (error : Raised) {record : FaultInjectionRecord} (h : Honest record) :
    ¬ Unsettled (rolledBack error record) ∧ Honest (rolledBack error record) := by
  unfold rolledBack
  split
  · rename_i hstatus
    refine ⟨fun hunsettled => ?_, h⟩
    rcases hstatus with hstatus | hstatus <;> rw [Unsettled, hstatus] at hunsettled <;>
      rcases hunsettled with hunsettled | hunsettled <;> cases hunsettled
  · exact fail_settled _ _

/-- **The records of an iteration that is rolled back are settled.** -/
theorem Inv.rolledBack (h : Inv start w) (hstart : start ≤ w.records.length) (error : Raised)
    (hrecords : w'.records = w.records.take start ++
      (w.records.drop start).map (Effects.rolledBack error))
    (hactive : w'.active = w.active) (hlocals : w'.locals = w.locals)
    (hexternals : w'.externals = w.externals) (hlog : w'.log = w.log) : Sound w' := by
  have hlength : (w.records.take start).length = start := List.length_take_of_le hstart
  have hdone : ∀ a, w'.done a = w.done a := fun a =>
    Runtime.done_congr (by rw [hlocals]) (by rw [hexternals])
  have hsettled : ∀ record ∈ (w.records.drop start).map (Effects.rolledBack error),
      ¬ Unsettled record ∧ Honest record := by
    intro record hmem
    obtain ⟨r, hr, rfl⟩ := List.mem_map.mp hmem
    exact rolledBack_settled error (h.honest r (List.mem_of_mem_drop hr))
  refine ⟨?_, hactive ▸ h.nodup, fun a ha => ?_, fun n hn => ?_, fun a ha effect heffect hopen => ?_,
    fun n _ record hrecord hunsettled => ?_, fun record hmem => ?_⟩
  · rw [hlog, hand_congr hactive hexternals]
    exact h.held
  · rw [hrecords, List.length_append, List.length_map, hlength, List.length_drop,
      Nat.add_sub_cancel' hstart]
    exact h.bound a (hactive ▸ ha)
  · rw [hlocals] at hn
    rw [hactive]
    exact h.known n hn
  · exact h.lasting a (hactive ▸ ha) effect heffect ((hdone a).symm.trans hopen)
  · rw [hrecords] at hrecord
    by_cases hlt : n < start
    · rw [List.getElem?_append_left (hlength.symm ▸ hlt), List.getElem?_take_of_lt hlt] at hrecord
      obtain ⟨a, ha, hnumber, hopen⟩ := h.settled n hlt record hrecord hunsettled
      exact ⟨a, hactive ▸ ha, hnumber, (hdone a).trans hopen⟩
    · rw [List.getElem?_append_right (by rw [hlength]; exact not_lt.mp hlt)] at hrecord
      exact absurd hunsettled (hsettled record (List.mem_of_getElem? hrecord)).1
  · rw [hrecords] at hmem
    rcases List.mem_append.mp hmem with hmem | hmem
    · exact h.honest record (List.mem_of_mem_take hmem)
    · exact (hsettled record hmem).2

/-- What a rollback to the state before an iteration leaves. -/
structure Restored (w₀ w : Runtime campaign) : Prop where
  sound : Sound w
  grown : Grown w₀ w
  active : w.active = w₀.active

/-- **An iteration is rolled back**: what was active before it stays. -/
theorem rollbackNewActivations_spec (h : Inv w₀.records.length w) (hgrown : Grown w₀ w)
    (error : Raised) {E : Raised → Runtime campaign → Prop} :
    (rollbackNewActivations world w₀.active.length w₀.records.length error).Ensures
      (fun _ => Restored w₀) E w := by
  unfold rollbackNewActivations
  rw [Act.ensures_bind, Act.ensures_self, Act.ensures_bind]
  obtain ⟨new, hnew, hbound⟩ := hgrown.active
  have hdrop : w.active.drop w₀.active.length = new := by rw [hnew, List.drop_left]
  have hsweep : (firstError (unlessDone (rollbackFault world error)) new.reverse).Ensures
      (fun _ => Swept w₀.records.length new.reverse (fun a w => Over w a) w) E w := firstError_spec h
    (fun a ha _ => by
      rw [hnew]
      exact List.mem_append_right _ (List.mem_reverse.mp ha))
    (fun _ _ => .of_done) (fun _ _ _ hending => hending.over)
    (fun a w hinv hmem => rollbackFault_spec hinv hmem error)
  rw [hdrop]
  refine hsweep.mono (fun cleanupError w₁ hswept => ?_) fun _ _ hw => hw
  rw [Act.ensures_bind, Act.ensures_assign]
  have hactive : w₁.active = w₀.active ++ new := hswept.ending.active.trans hnew
  have hkept : Inv w₀.records.length { w₁ with active := w₀.active } :=
    hswept.inv.drop (by rw [hactive])
      (fun a ha => hswept.each a (List.mem_reverse.mpr ha)) rfl rfl rfl rfl rfl
  have htake : w₁.active.take w₀.active.length = w₀.active := by rw [hactive, List.take_left]
  have hswept' := hgrown.swept hswept fun a ha => hbound a (List.mem_reverse.mp ha)
  refine ⟨hkept.rolledBack hswept'.length error rfl htake rfl rfl rfl,
    ⟨hswept'.closed, ?_, hswept'.locals, hswept'.externals, [], ?_, ?_⟩, htake⟩
  · show w₀.records.length ≤ (w₁.records.take w₀.records.length ++
      (w₁.records.drop w₀.records.length).map (rolledBack error)).length
    rw [List.length_append, List.length_take_of_le hswept'.length]
    exact Nat.le_add_right _ _
  · exact htake.trans (List.append_nil _).symm
  · exact fun _ h => (List.not_mem_nil h).elim

/-- **An iteration is activated**, or everything that it had activated is rolled back. -/
theorem activateStagedIteration_spec (hready : Ready w₀) (iteration : Int)
    (staged : List StagedIncident) :
    (activateStagedIteration setup world iteration staged).Ensures
      (fun _ w' => Sound w' ∧ Grown w₀ w') (fun _ => Restored w₀) w₀ := by
  unfold activateStagedIteration
  rw [Act.ensures_bind, Act.ensures_self, Act.ensures_tryCatch]
  have hloop : (forEach (fun item => if item.selected then activateIncident setup world item iteration
      else recordProbabilitySkip setup item iteration) staged).Ensures
      (fun _ w' => Sound w' ∧ Grown w₀ w')
      (fun _ w' => Inv w₀.records.length w' ∧ Grown w₀ w') w₀ := by
    refine Act.ensures_forEach (fun item _ w hw => ?_) ⟨hready.sound, .refl w₀⟩
    split
    · exact activateIncident_spec hready hw.1 hw.2 item iteration
    · exact recordProbabilitySkip_spec hw.1 hw.2 item iteration
  refine hloop.mono (fun _ _ hw => hw) fun error w hw => ?_
  rw [Act.ensures_bind]
  exact (rollbackNewActivations_spec hw.1 hw.2 error).mono (fun _ _ hrestored => hrestored)
    fun _ _ hrestored => hrestored

end LmResiliency.FaultInjection.Effects
