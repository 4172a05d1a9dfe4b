/-
# EffectLedger — what a session keeps of its effects

The calls of a session make a ledger of the effects that its executors have reported as
active, and of the attempts to deactivate them.  `Inv` connects the ledger with the active
faults and with the records, and every piece of the code that ends an effect keeps it.
-/
import LmResiliency.FaultInjection.Boundary
import LmResiliency.Lib.Release

namespace LmResiliency.FaultInjection.Effects

open Release (Entry Held Tried)
open Act (self assign raise attempt ofExcept forEach firstError)

variable {campaign : FaultCampaign} {setup : Setup} {world : World}

theorem ensures_asked {α : Type} {c : Call} {f : c.Res → Code campaign α}
    {R : α → Runtime campaign → Prop} {E : Raised → Runtime campaign → Prop}
    {w : Runtime campaign}
    (h : ∀ r, (f r).Ensures R E { w with log := w.log ++ [⟨c, r⟩] }) :
    (ask world c >>= f).Ensures R E w := h _

/-! ## The ledger of the external effects -/

/-- The entry of a call: an effect that is active and can be deactivated, or a deactivation. -/
def entryOf : Answered → Option (Entry ExternalEffect)
  | ⟨.activate executor request, outcome⟩ =>
      match (outcome : Except Raised (Option FaultExecutionResult)) with
      | .ok (some result) =>
          if result.active && executor.canDeactivate then some (.acquire ⟨request, executor, result⟩)
          else none
      | _ => none
  | ⟨.deactivate executor request result, outcome⟩ =>
      some (.release ⟨request, executor, result⟩
        (Except.isOk (outcome : Except Raised (Option Evidence))))
  | _ => none

/-- The ledger of a session. -/
def entries (log : List Answered) : List (Entry ExternalEffect) := log.filterMap entryOf

theorem entries_concat (log : List Answered) (call : Answered) :
    entries (log ++ [call]) = entries log ++ (entryOf call).toList := by
  rw [entries, List.filterMap_append]
  cases h : entryOf call <;> simp [entries, h]

/-- The effect of an active fault that is to be deactivated. -/
def inHand (w : Runtime campaign) (active : ActiveFault) : Option ExternalEffect :=
  match active.effect with
  | .local _ => none
  | .external effect => if (w.externals active.number).done then none else some effect

/-- What is to be deactivated. -/
def hand (w : Runtime campaign) : Multiset ExternalEffect :=
  (w.active.filterMap (inHand w) : List ExternalEffect)

/-! ## What a session keeps -/

/-- A record whose fault has not come to an end. -/
def Unsettled (record : FaultInjectionRecord) : Prop :=
  record.status = .pending ∨ record.status = .active

/-- A record says that its fault is active, or was completed, only when that was verified. -/
def Honest (record : FaultInjectionRecord) : Prop :=
  record.status = .active ∨ record.status = .completed → record.verified = true

/-- What a session keeps while it activates faults; the records from `start` on may be
unsettled without an effect. -/
structure Inv (start : Nat) (w : Runtime campaign) : Prop where
  held : Held (entries w.log) (hand w)
  nodup : (w.active.map ActiveFault.number).Nodup
  bound : ∀ active ∈ w.active, active.number < w.records.length
  known : ∀ n, (w.locals n).done = false →
    ∃ active ∈ w.active, active.number = n ∧ ∃ identity, active.effect = .local identity
  lasting : ∀ active ∈ w.active, ∀ effect, active.effect = .external effect →
    w.done active = false → effect.result.active = true
  settled : ∀ n < start, ∀ record, w.records[n]? = some record → Unsettled record →
    ∃ active ∈ w.active, active.number = n ∧ w.done active = false
  honest : ∀ record ∈ w.records, Honest record

/-- What a session keeps between its activations. -/
abbrev Sound (w : Runtime campaign) : Prop := Inv w.records.length w

variable {start : Nat} {w w' : Runtime campaign}

theorem Inv.antitone (h : Inv start w) {start' : Nat} (hle : start' ≤ start) : Inv start' w where
  held := h.held
  nodup := h.nodup
  bound := h.bound
  known := h.known
  lasting := h.lasting
  settled n hn := h.settled n (hn.trans_le hle)
  honest := h.honest

theorem Inv.of_sound (h : Sound w) (start : Nat) : Inv start w where
  held := h.held
  nodup := h.nodup
  bound := h.bound
  known := h.known
  lasting := h.lasting
  settled n _ record hrecord :=
    h.settled n (List.getElem?_eq_some_iff.mp hrecord).1 record hrecord
  honest := h.honest

/-- The records of a session have not become more. -/
theorem Inv.of_length (h : Inv w.records.length w')
    (hlength : w'.records.length = w.records.length) : Sound w' := by
  rw [Sound, hlength]
  exact h

theorem of_modify {records : List FaultInjectionRecord} {number n : Nat}
    {f : FaultInjectionRecord → FaultInjectionRecord} {record : FaultInjectionRecord}
    (h : (records.modify number f)[n]? = some record) :
    ∃ r, records[n]? = some r ∧ record = if number = n then f r else r := by
  rw [List.getElem?_modify, Option.map_eq_map, Option.map_eq_some_iff] at h
  obtain ⟨r, hr, rfl⟩ := h
  exact ⟨r, hr, rfl⟩

/-- One record and one effect change: what is done stays done, and the record is settled
unless it need not be. -/
theorem Inv.change (h : Inv start w) (number : Nat)
    {f : FaultInjectionRecord → FaultInjectionRecord}
    (hf : ∀ r, w.records[number]? = some r →
      Honest (f r) ∧ (number < start → ¬ Unsettled (f r)))
    (hactive : w'.active = w.active)
    (hrecords : w'.records = w.records.modify number f)
    (hlocals : ∀ n, n ≠ number → w'.locals n = w.locals n)
    (hexternals : ∀ n, n ≠ number → w'.externals n = w.externals n)
    (hlocal : (w'.locals number).done = false → (w.locals number).done = false)
    (hexternal : (w'.externals number).done = false → (w.externals number).done = false)
    (hheld : Held (entries w'.log) (hand w')) : Inv start w' where
  held := hheld
  nodup := by rw [hactive]; exact h.nodup
  bound := by rw [hactive, hrecords, List.length_modify]; exact h.bound
  known n hn := by
    rw [hactive]
    by_cases heq : n = number
    · subst heq
      exact h.known n (hlocal hn)
    · rw [hlocals n heq] at hn
      exact h.known n hn
  lasting active hmem effect heffect hdone := by
    rw [hactive] at hmem
    refine h.lasting active hmem effect heffect ?_
    unfold Runtime.done at hdone ⊢
    rw [heffect] at hdone ⊢
    dsimp only at hdone ⊢
    by_cases heq : active.number = number
    · rw [heq] at hdone ⊢
      exact hexternal hdone
    · rwa [hexternals _ heq] at hdone
  settled n hn record hrecord hunsettled := by
    rw [hactive]
    rw [hrecords] at hrecord
    obtain ⟨r, hr, rfl⟩ := of_modify hrecord
    split at hunsettled
    · rename_i heq
      subst heq
      exact absurd hunsettled ((hf r hr).2 hn)
    · rename_i hne
      obtain ⟨active, hmem, hnumber, hdone⟩ := h.settled n hn r hr hunsettled
      refine ⟨active, hmem, hnumber, ?_⟩
      have hother : active.number ≠ number := fun heq => hne (heq.symm.trans hnumber)
      unfold Runtime.done at hdone ⊢
      rw [hlocals _ hother, hexternals _ hother]
      exact hdone
  honest record hmem := by
    rw [hrecords] at hmem
    obtain ⟨n, hn⟩ := List.mem_iff_getElem?.mp hmem
    obtain ⟨r, hr, rfl⟩ := of_modify hn
    split
    · rename_i heq
      subst heq
      exact (hf r hr).1
    · exact h.honest r (List.mem_of_getElem? hr)

/-! ## One effect -/

theorem done_external {active : ActiveFault} {effect : ExternalEffect}
    (heffect : active.effect = .external effect) :
    w.done active = (w.externals active.number).done := by
  rw [Runtime.done, heffect]

theorem done_local {active : ActiveFault} {identity : Option Nat}
    (heffect : active.effect = .local identity) :
    w.done active = (w.locals active.number).done := by
  rw [Runtime.done, heffect]

theorem inHand_of_done {active : ActiveFault} (h : w.done active = true) :
    inHand w active = none := by
  unfold inHand
  unfold Runtime.done at h
  split
  · rfl
  · rename_i heffect
    rw [heffect] at h
    exact if_pos h

theorem inHand_of_not_done {active : ActiveFault} {effect : ExternalEffect}
    (heffect : active.effect = .external effect) (h : w.done active = false) :
    inHand w active = some effect := by
  unfold inHand
  unfold Runtime.done at h
  rw [heffect] at h ⊢
  dsimp only at h ⊢
  rw [h]
  exact if_neg Bool.false_ne_true

theorem inHand_congr {active : ActiveFault}
    (h : w'.externals active.number = w.externals active.number) :
    inHand w' active = inHand w active := by
  unfold inHand
  rw [h]

/-- What is in hand of one active fault, and of the others. -/
theorem Inv.exists_rest (h : Inv start w) {active : ActiveFault} (hmem : active ∈ w.active) :
    ∃ rest : Multiset ExternalEffect, ∀ w' : Runtime campaign, w'.active = w.active →
      (∀ n, n ≠ active.number → w'.externals n = w.externals n) →
      hand w' = (inHand w' active).elim rest (· ::ₘ rest) := by
  obtain ⟨before, after, hcut⟩ := List.append_of_mem hmem
  refine ⟨((before ++ after).filterMap (inHand w) : List ExternalEffect), fun w' hactive hsame => ?_⟩
  have hnodup := h.nodup
  rw [hcut, List.map_append, List.map_cons, List.nodup_middle, List.nodup_cons,
    ← List.map_append] at hnodup
  have hothers : (before ++ after).filterMap (inHand w') =
      (before ++ after).filterMap (inHand w) := by
    refine List.filterMap_congr fun other hother => inHand_congr (hsame _ fun heq => ?_)
    exact hnodup.1 (List.mem_map.mpr ⟨other, hother, heq⟩)
  have hperm : (w'.active.filterMap (inHand w')).Perm
      ((active :: (before ++ after)).filterMap (inHand w')) := by
    rw [hactive, hcut]
    exact List.perm_middle.filterMap (inHand w')
  rw [hand, Multiset.coe_eq_coe.mpr hperm, List.filterMap_cons, ← hothers]
  cases inHand w' active with
  | none => rfl
  | some effect => rfl

theorem entries_deactivate (log : List Answered) (effect : ExternalEffect)
    (outcome : Except Raised (Option Evidence)) :
    entries (log ++ [⟨.deactivate effect.executor effect.request effect.result, outcome⟩]) =
      entries log ++ [.release effect outcome.isOk] := entries_concat _ _

theorem entries_other {log : List Answered} {call : Answered} (h : entryOf call = none) :
    entries (log ++ [call]) = entries log := by
  rw [entries_concat, h]
  exact List.append_nil _

theorem hand_congr (hactive : w'.active = w.active) (hexternals : w'.externals = w.externals) :
    hand w' = hand w := by
  rw [hand, hand, hactive]
  congr 1
  exact List.filterMap_congr fun active _ => inHand_congr (by rw [hexternals])

theorem fail_settled (record : FaultInjectionRecord) (error : String) :
    ¬ Unsettled (record.fail error) ∧ Honest (record.fail error) := by
  constructor
  · rintro (h | h) <;> cases h
  · rintro (h | h) <;> cases h

/-! ## What the end of an effect leaves -/

/-- The records with a number are settled. -/
def SettledAt (w : Runtime campaign) (n : Nat) : Prop :=
  ∀ record, w.records[n]? = some record → ¬ Unsettled record

/-- The frame of completing and rolling back: nothing is active that was not, what is done
or settled stays so, and no effect is forgotten. -/
structure Ending (w w' : Runtime campaign) : Prop where
  active : w'.active = w.active
  activated : w'.activated = w.activated
  closed : w'.closed = w.closed
  length : w'.records.length = w.records.length
  done : ∀ active, w.done active = true → w'.done active = true
  tried : ∀ effect, Tried (entries w.log) effect → Tried (entries w'.log) effect
  settled : ∀ n, SettledAt w n → SettledAt w' n

theorem Ending.refl (w : Runtime campaign) : Ending w w where
  active := rfl
  activated := rfl
  closed := rfl
  length := rfl
  done _ h := h
  tried _ h := h
  settled _ h := h

theorem Ending.trans {w'' : Runtime campaign} (h : Ending w w') (h' : Ending w' w'') :
    Ending w w'' where
  active := h'.active.trans h.active
  activated := h'.activated.trans h.activated
  closed := h'.closed.trans h.closed
  length := h'.length.trans h.length
  done active hdone := h'.done active (h.done active hdone)
  tried effect htried := h'.tried effect (h.tried effect htried)
  settled n hn := h'.settled n (h.settled n hn)

/-- One record and one effect change after a call. -/
theorem Ending.change (number : Nat) {f : FaultInjectionRecord → FaultInjectionRecord}
    (hf : ∀ r ∈ w.records, ¬ Unsettled (f r)) (hactive : w'.active = w.active)
    (hactivated : w'.activated = w.activated) (hclosed : w'.closed = w.closed)
    (hrecords : w'.records = w.records.modify number f)
    (hlocals : ∀ n, (w.locals n).done = true → (w'.locals n).done = true)
    (hexternals : ∀ n, (w.externals n).done = true → (w'.externals n).done = true)
    (htried : ∀ effect, Tried (entries w.log) effect → Tried (entries w'.log) effect) :
    Ending w w' where
  active := hactive
  activated := hactivated
  closed := hclosed
  length := by rw [hrecords, List.length_modify]
  done active h := by
    unfold Runtime.done at h ⊢
    split
    · rename_i heffect
      rw [heffect] at h
      exact hlocals _ h
    · rename_i heffect
      rw [heffect] at h
      exact hexternals _ h
  tried := htried
  settled n hn record hrecord := by
    rw [hrecords] at hrecord
    obtain ⟨r, hr, rfl⟩ := of_modify hrecord
    split
    · exact hf r (List.mem_of_getElem? hr)
    · exact hn r hr

/-! ## The end of one effect -/

/-- What the end of the effect of one record keeps: the effects of the others do not change. -/
structure Ended (start number : Nat) (w w' : Runtime campaign) : Prop where
  inv : Inv start w'
  ending : Ending w w'
  locals : ∀ n, n ≠ number → w'.locals n = w.locals n
  externals : ∀ n, n ≠ number → w'.externals n = w.externals n

theorem Ended.refl (h : Inv start w) (number : Nat) : Ended start number w w :=
  ⟨h, .refl w, fun _ _ => rfl, fun _ _ => rfl⟩

/-- An effect is over: it is done, or there was an attempt to deactivate it and its record is
settled. -/
def Over (w : Runtime campaign) (active : ActiveFault) : Prop :=
  w.done active = true ∨ SettledAt w active.number ∧
    ∃ effect, active.effect = .external effect ∧ Tried (entries w.log) effect

theorem Ending.over (h : Ending w w') {active : ActiveFault} (hover : Over w active) :
    Over w' active := by
  rcases hover with hdone | ⟨hsettled, effect, heffect, htried⟩
  · exact Or.inl (h.done active hdone)
  · exact Or.inr ⟨h.settled _ hsettled, effect, heffect, h.tried effect htried⟩

theorem settling {number : Nat} {f : FaultInjectionRecord → FaultInjectionRecord}
    (hf : ∀ r ∈ w.records, ¬ Unsettled (f r) ∧ Honest (f r)) :
    ∀ r, w.records[number]? = some r → Honest (f r) ∧ (number < start → ¬ Unsettled (f r)) :=
  fun r hr => ⟨(hf r (List.mem_of_getElem? hr)).2, fun _ => (hf r (List.mem_of_getElem? hr)).1⟩

/-- A local effect is over: its record is settled. -/
theorem Inv.endLocal (h : Inv start w) (number : Nat) {call : Answered}
    (hcall : entryOf call = none) {f : FaultInjectionRecord → FaultInjectionRecord}
    (hf : ∀ r ∈ w.records, ¬ Unsettled (f r) ∧ Honest (f r)) {state : LocalState}
    (hstate : state.done = true) (hactive : w'.active = w.active)
    (hactivated : w'.activated = w.activated) (hclosed : w'.closed = w.closed)
    (hlog : w'.log = w.log ++ [call]) (hrecords : w'.records = w.records.modify number f)
    (hlocals : w'.locals = Function.update w.locals number state)
    (hexternals : w'.externals = w.externals) :
    Ended start number w w' ∧ (w'.locals number).done = true := by
  have hentries : entries w'.log = entries w.log := by rw [hlog, entries_other hcall]
  have hself : (w'.locals number).done = true := by
    rw [hlocals, Function.update_self]
    exact hstate
  have hothers : ∀ n, n ≠ number → w'.locals n = w.locals n := fun n hn => by
    rw [hlocals, Function.update_of_ne hn]
  refine ⟨⟨?_, ?_, hothers, fun _ _ => by rw [hexternals]⟩, hself⟩
  · refine h.change number (settling hf) hactive hrecords hothers (fun _ _ => by rw [hexternals])
      (fun hdone => ?_) (fun hdone => by rwa [hexternals] at hdone) ?_
    · rw [hself] at hdone
      cases hdone
    · rw [hentries, hand_congr hactive hexternals]
      exact h.held
  · refine .change number (fun r hr => (hf r hr).1) hactive hactivated hclosed hrecords
      (fun n hn => ?_) (fun n hn => by rwa [hexternals]) fun effect htried => ?_
    · by_cases heq : n = number
      · rw [heq]
        exact hself
      · rw [hothers n heq]
        exact hn
    · rw [hentries]
      exact htried

/-- **An attempt to deactivate an external effect**, which may be tried again when it has
failed. -/
theorem Inv.tryRelease (h : Inv start w) {active : ActiveFault} (hmem : active ∈ w.active)
    {effect : ExternalEffect} (heffect : active.effect = .external effect)
    (hopen : w.done active = false) {outcome : Except Raised (Option Evidence)}
    {f : FaultInjectionRecord → FaultInjectionRecord}
    (hf : ∀ r, w.records[active.number]? = some r →
      Honest (f r) ∧ (active.number < start → ¬ Unsettled (f r)))
    {state : ExternalState} (hstate : state.done = true ∨ outcome.isOk = false)
    (hactive : w'.active = w.active)
    (hlog : w'.log =
      w.log ++ [⟨.deactivate effect.executor effect.request effect.result, outcome⟩])
    (hrecords : w'.records = w.records.modify active.number f) (hlocals : w'.locals = w.locals)
    (hexternals : w'.externals = Function.update w.externals active.number state) :
    Inv start w' := by
  have hothers : ∀ n, n ≠ active.number → w'.externals n = w.externals n := fun n hn => by
    rw [hexternals, Function.update_of_ne hn]
  have hdone : w'.done active = state.done := by
    rw [done_external heffect, hexternals, Function.update_self]
  obtain ⟨rest, hrest⟩ := h.exists_rest hmem
  refine h.change _ hf hactive hrecords (fun _ _ => by rw [hlocals]) hothers
    (fun h => by rwa [hlocals] at h) (fun _ => (done_external heffect).symm.trans hopen) ?_
  have hheld := h.held
  rw [hrest w rfl fun _ _ => rfl, inHand_of_not_done heffect hopen] at hheld
  rw [hlog, entries_deactivate, hrest w' hactive hothers]
  cases hcase : state.done with
  | true =>
      rw [inHand_of_done (hdone.trans hcase)]
      exact hheld.release _
  | false =>
      rw [inHand_of_not_done heffect (hdone.trans hcase)]
      rw [hcase] at hstate
      rw [hstate.resolve_left Bool.false_ne_true]
      exact hheld.retry

/-- An attempt to deactivate an external effect whose record is settled with it. -/
theorem Inv.endExternal (h : Inv start w) {active : ActiveFault} (hmem : active ∈ w.active)
    {effect : ExternalEffect} (heffect : active.effect = .external effect)
    (hopen : w.done active = false) {outcome : Except Raised (Option Evidence)}
    {f : FaultInjectionRecord → FaultInjectionRecord}
    (hf : ∀ r ∈ w.records, ¬ Unsettled (f r) ∧ Honest (f r)) {state : ExternalState}
    (hstate : state.done = true ∨ outcome.isOk = false) (hactive : w'.active = w.active)
    (hactivated : w'.activated = w.activated) (hclosed : w'.closed = w.closed)
    (hlog : w'.log =
      w.log ++ [⟨.deactivate effect.executor effect.request effect.result, outcome⟩])
    (hrecords : w'.records = w.records.modify active.number f) (hlocals : w'.locals = w.locals)
    (hexternals : w'.externals = Function.update w.externals active.number state) :
    Ended start active.number w w' ∧ Over w' active := by
  have hentries : entries w'.log = entries w.log ++ [.release effect outcome.isOk] := by
    rw [hlog, entries_deactivate]
  have hothers : ∀ n, n ≠ active.number → w'.externals n = w.externals n := fun n hn => by
    rw [hexternals, Function.update_of_ne hn]
  have hsettled : SettledAt w' active.number := by
    intro record hrecord
    rw [hrecords] at hrecord
    obtain ⟨r, hr, rfl⟩ := of_modify hrecord
    rw [if_pos rfl]
    exact (hf r (List.mem_of_getElem? hr)).1
  refine ⟨⟨?_, ?_, fun _ _ => by rw [hlocals], hothers⟩, Or.inr ⟨hsettled, effect, heffect, ?_⟩⟩
  · exact h.tryRelease hmem heffect hopen (settling hf) hstate hactive hlog hrecords hlocals
      hexternals
  · refine .change _ (fun r hr => (hf r hr).1) hactive hactivated hclosed hrecords
      (fun n hn => by rwa [hlocals]) (fun n hn => ?_) fun effect htried => ?_
    · by_cases heq : n = active.number
      · rw [heq, ← done_external heffect, hopen] at hn
        cases hn
      · rw [hothers n heq]
        exact hn
    · rw [hentries]
      exact htried.concat nofun
  · rw [hentries]
    exact .release _ _ _

/-! ## Local effects -/

theorem completedStatus_settled {cancelled : Bool} {record : FaultInjectionRecord}
    (h : Honest record) :
    ¬ Unsettled { record with status := completedStatus cancelled record } ∧
      Honest { record with status := completedStatus cancelled record } := by
  unfold Unsettled Honest completedStatus at *
  cases hstatus : record.status <;> cases hverified : record.verified <;> cases cancelled <;>
    simp [hstatus, hverified] at h ⊢

theorem completeLocal_spec (h : Inv start w) (number : Nat) (cancelled preserve : Bool) :
    (completeLocal world number cancelled preserve).Ensures
      (fun _ w' => Ended start number w w' ∧ (w'.locals number).done = true)
      (fun _ w' => Ended start number w w' ∧ (w'.locals number).done = true) w := by
  unfold completeLocal
  rw [Act.ensures_bind, Act.ensures_self]
  split
  · rename_i hdone
    exact ⟨.refl h number, hdone⟩
  · refine ensures_asked fun outcome => ?_
    cases outcome with
    | error error =>
        exact h.endLocal number rfl (fun r _ => fail_settled r _) rfl rfl rfl rfl rfl rfl rfl rfl
    | ok _ =>
        exact h.endLocal number rfl (fun r hr => completedStatus_settled (h.honest r hr)) rfl rfl
          rfl rfl rfl rfl rfl rfl

theorem failLocal_spec (h : Inv start w) (number : Nat) (error : String)
    (propagate preserve : Bool) :
    (failLocal world number error propagate preserve).Ensures
      (fun _ w' => Ended start number w w' ∧ (w'.locals number).done = true)
      (fun _ w' => Ended start number w w' ∧ (w'.locals number).done = true) w := by
  unfold failLocal
  rw [Act.ensures_bind, Act.ensures_self]
  split
  · rename_i hdone
    exact ⟨.refl h number, hdone⟩
  · refine ensures_asked fun outcome => ?_
    cases outcome with
    | error cleanupError =>
        cases propagate <;>
        exact h.endLocal number rfl (fun r _ => fail_settled r _) rfl rfl rfl rfl rfl rfl rfl rfl
    | ok _ =>
        exact h.endLocal number rfl (fun r _ => fail_settled r _) rfl rfl rfl rfl rfl rfl rfl rfl

/-! ## External effects -/

section External

variable {active : ActiveFault} {effect : ExternalEffect}

theorem Over.of_done (h : w.done active = true) : Over w active := Or.inl h

/-- The status of an external fault that is completed. -/
theorem completed_settled {cancelled : Bool} {evidence : Evidence}
    (record : FaultInjectionRecord) :
    ¬ Unsettled { record with
        evidence := evidence
        status := if record.verified && !cancelled then .completed else .cancelled } ∧
      Honest { record with
        evidence := evidence
        status := if record.verified && !cancelled then .completed else .cancelled } := by
  unfold Unsettled Honest
  cases record.verified <;> cases cancelled <;> simp

theorem completeExternal_spec (h : Inv start w) (hmem : active ∈ w.active)
    (heffect : active.effect = .external effect) (cancelled : Bool) :
    (completeExternal world active.number effect cancelled).Ensures
      (fun _ w' => Ended start active.number w w' ∧ Over w' active)
      (fun _ w' => Ended start active.number w w' ∧ Over w' active) w := by
  unfold completeExternal
  rw [Act.ensures_bind, Act.ensures_self]
  split
  · rename_i hdone
    exact ⟨.refl h _, .of_done ((done_external heffect).trans hdone)⟩
  · rename_i hopen
    have hopen := (done_external heffect).trans (Bool.eq_false_iff.mpr hopen)
    refine ensures_asked fun outcome => ?_
    split
    · exact h.endExternal hmem heffect hopen (fun r _ => fail_settled r _) (Or.inl rfl) rfl rfl
        rfl rfl rfl rfl rfl
    · exact h.endExternal hmem heffect hopen (fun r _ => completed_settled r) (Or.inl rfl) rfl rfl
        rfl rfl rfl rfl rfl

theorem rollbackExternal_spec (h : Inv start w) (hmem : active ∈ w.active)
    (heffect : active.effect = .external effect) (error : String) :
    (rollbackExternal world active.number effect error).Ensures
      (fun _ w' => Ended start active.number w w' ∧ Over w' active)
      (fun _ w' => Ended start active.number w w' ∧ Over w' active) w := by
  unfold rollbackExternal
  rw [Act.ensures_bind, Act.ensures_self]
  split
  · rename_i hdone
    exact ⟨.refl h _, .of_done ((done_external heffect).trans hdone)⟩
  · rename_i hopen
    have hopen := (done_external heffect).trans (Bool.eq_false_iff.mpr hopen)
    rw [if_pos (h.lasting active hmem effect heffect hopen)]
    refine ensures_asked fun outcome => ?_
    cases outcome with
    | error cleanupError =>
        cases hkind : cleanupError.isException <;> simp only [hkind] <;>
        · refine h.endExternal hmem heffect hopen (fun r _ => fail_settled r _) (Or.inr ?_) rfl rfl
            rfl rfl rfl rfl rfl
          rfl
    | ok _ =>
        exact h.endExternal hmem heffect hopen (fun r _ => fail_settled r _) (Or.inl rfl) rfl rfl
          rfl rfl rfl rfl rfl

end External

/-! ## Active faults -/

section Active

variable {active : ActiveFault}

theorem completeFault_spec (h : Inv start w) (hmem : active ∈ w.active)
    (cancelled preserve : Bool) : (completeFault world active cancelled preserve).Ensures
      (fun _ w' => Ended start active.number w w' ∧ Over w' active)
      (fun _ w' => Ended start active.number w w' ∧ Over w' active) w := by
  unfold completeFault
  split
  · rename_i heffect
    have hend : ∀ w', Ended start active.number w w' ∧ (w'.locals active.number).done = true →
        Ended start active.number w w' ∧ Over w' active := fun w' hw =>
      ⟨hw.1, .of_done ((done_local heffect).trans hw.2)⟩
    exact (completeLocal_spec h _ _ _).mono (fun _ => hend) fun _ => hend
  · rename_i heffect
    exact completeExternal_spec h hmem heffect cancelled

theorem rollbackFault_spec (h : Inv start w) (hmem : active ∈ w.active) (error : Raised) :
    (rollbackFault world error active).Ensures
      (fun _ w' => Ended start active.number w w' ∧ Over w' active)
      (fun _ w' => Ended start active.number w w' ∧ Over w' active) w := by
  unfold rollbackFault
  split
  · rename_i heffect
    have hend : ∀ w', Ended start active.number w w' ∧ (w'.locals active.number).done = true →
        Ended start active.number w w' ∧ Over w' active := fun w' hw =>
      ⟨hw.1, .of_done ((done_local heffect).trans hw.2)⟩
    exact (failLocal_spec h _ _ _ _).mono (fun _ => hend) fun _ => hend
  · rename_i heffect
    exact rollbackExternal_spec h hmem heffect error.text

end Active

/-! ## Passes over the active faults -/

/-- What a pass over some active faults leaves; `Q` holds of each of them then. -/
structure Swept (start : Nat) (xs : List ActiveFault) (Q : ActiveFault → Runtime campaign → Prop)
    (w w' : Runtime campaign) : Prop where
  inv : Inv start w'
  ending : Ending w w'
  each : ∀ active ∈ xs, Q active w'
  others : ∀ n, (∀ active ∈ xs, active.number ≠ n) →
    w'.locals n = w.locals n ∧ w'.externals n = w.externals n

/-- **A pass that goes on over what is raised** keeps what each turn keeps. -/
theorem firstError_spec (h : Inv start w) {f : ActiveFault → Code campaign Unit}
    {Q : ActiveFault → Runtime campaign → Prop} {E : Raised → Runtime campaign → Prop}
    {xs : List ActiveFault} (hxs : ∀ active ∈ xs, w.done active = false → active ∈ w.active)
    (hdone : ∀ active w, w.done active = true → Q active w)
    (hQ : ∀ active w w', Ending w w' → Q active w → Q active w')
    (hf : ∀ active w, Inv start w → active ∈ w.active → (f active).Ensures
      (fun _ w' => Ended start active.number w w' ∧ Q active w')
      (fun _ w' => Ended start active.number w w' ∧ Q active w') w) :
    (firstError (unlessDone f) xs).Ensures (fun _ => Swept start xs Q w) E w := by
  -- what is left to pass over, and what the pass has done so far
  let P (left : List ActiveFault) (w' : Runtime campaign) : Prop :=
    left ⊆ xs ∧ Inv start w' ∧ Ending w w' ∧ (∀ active ∈ xs, active ∈ left ∨ Q active w') ∧
      ∀ n, (∀ active ∈ xs, active.number ≠ n) →
        w'.locals n = w.locals n ∧ w'.externals n = w.externals n
  have hturn : ∀ active left w', P (active :: left) w' →
      (unlessDone f active).Ensures (fun _ => P left) (fun _ => P left) w' :=
    fun active left w' hP => by
      obtain ⟨hsub, hinv, hending, heach, hothers⟩ := hP
      have hmem := hsub List.mem_cons_self
      have hsub : left ⊆ xs := fun _ hleft => hsub (List.mem_cons_of_mem active hleft)
      have hnext : ∀ w'', Ended start active.number w' w'' ∧ Q active w'' → P left w'' := by
        rintro w'' ⟨hended, hactive⟩
        refine ⟨hsub, hended.inv, hending.trans hended.ending, fun other hother => ?_,
          fun n hn => ?_⟩
        · rcases heach other hother with hin | hq
          · rcases List.mem_cons.mp hin with rfl | hin
            · exact Or.inr hactive
            · exact Or.inl hin
          · exact Or.inr (hQ _ _ _ hended.ending hq)
        · have hne := (hn active hmem).symm
          rw [hended.locals n hne, hended.externals n hne]
          exact hothers n hn
      unfold unlessDone
      rw [Act.ensures_bind, Act.ensures_self]
      split
      · rename_i hover
        exact hnext w' ⟨.refl hinv _, hdone _ _ hover⟩
      · rename_i hopen
        have hopen : w.done active = false := Bool.eq_false_iff.mpr fun hover =>
          hopen (hending.done active hover)
        have hin : active ∈ w'.active := hending.active ▸ hxs active hmem hopen
        exact (hf active w' hinv hin).mono (fun _ => hnext) fun _ => hnext
  have hloop := Act.ensures_firstError (E := E) P hturn
    ⟨List.Subset.refl xs, h, .refl w, fun _ => Or.inl, fun _ _ => ⟨rfl, rfl⟩⟩
  refine hloop.mono (fun _ w' hP => ?_) fun _ _ hE => hE
  obtain ⟨-, hinv, hending, heach, hothers⟩ := hP
  exact ⟨hinv, hending, fun active hmem => (heach active hmem).resolve_left List.not_mem_nil,
    hothers⟩

/-- **Faults that are over are forgotten.** -/
theorem Inv.drop (h : Inv start w) {keep dropped : List ActiveFault}
    (hperm : w.active.Perm (keep ++ dropped)) (hover : ∀ active ∈ dropped, Over w active)
    (hactive : w'.active = keep) (hrecords : w'.records = w.records)
    (hlocals : w'.locals = w.locals) (hexternals : w'.externals = w.externals)
    (hlog : entries w'.log = entries w.log) : Inv start w' := by
  have hdone : ∀ active, w'.done active = w.done active := fun active => by
    rw [Runtime.done, Runtime.done, hlocals, hexternals]
  have hkept : ∀ active ∈ w.active, active ∈ keep ∨ Over w active := fun active hmem =>
    (List.mem_append.mp (hperm.subset hmem)).imp id (hover active)
  have hsub : ∀ active ∈ keep, active ∈ w.active := fun active hmem =>
    hperm.symm.subset (List.mem_append_left dropped hmem)
  subst hactive
  refine ⟨?_, ?_, fun active hmem => ?_, fun n hn => ?_, fun active hmem effect heffect hopen => ?_,
    fun n hn record hrecord hunsettled => ?_, by rw [hrecords]; exact h.honest⟩
  · rw [hlog]
    have hhand : hand w =
        (dropped.filterMap (inHand w) : List ExternalEffect) + hand w' := by
      have hsame : w'.active.filterMap (inHand w') = w'.active.filterMap (inHand w) :=
        List.filterMap_congr fun active _ => inHand_congr (by rw [hexternals])
      rw [hand, hand, hsame, Multiset.coe_eq_coe.mpr (hperm.filterMap (inHand w)),
        List.filterMap_append, ← Multiset.coe_add, add_comm]
    refine (hhand ▸ h.held).drop_all fun effect heffect => ?_
    obtain ⟨active, hmem, hin⟩ := List.mem_filterMap.mp (Multiset.mem_coe.mp heffect)
    rcases hover active hmem with hover | ⟨-, effect', heffect', htried⟩
    · rw [inHand_of_done hover] at hin
      cases hin
    · unfold inHand at hin
      rw [heffect'] at hin
      dsimp only at hin
      split at hin
      · cases hin
      · exact Option.some.inj hin ▸ htried
  · exact (List.nodup_append.mp ((List.map_append ▸
      (hperm.map ActiveFault.number).nodup_iff.mp h.nodup))).1
  · rw [hrecords]
    exact h.bound active (hsub active hmem)
  · rw [hlocals] at hn
    obtain ⟨active, hmem, rfl, identity, heffect⟩ := h.known n hn
    rcases hkept active hmem with hin | hover | ⟨-, effect, hexternal, -⟩
    · exact ⟨active, hin, rfl, identity, heffect⟩
    · rw [done_local heffect, hn] at hover
      cases hover
    · cases heffect.symm.trans hexternal
  · exact h.lasting active (hsub active hmem) effect heffect (hdone active ▸ hopen)
  · rw [hrecords] at hrecord
    obtain ⟨active, hmem, rfl, hopen⟩ := h.settled n hn record hrecord hunsettled
    rcases hkept active hmem with hin | hover | ⟨hsettled, -⟩
    · exact ⟨active, hin, rfl, (hdone active).trans hopen⟩
    · rw [hopen] at hover
      cases hover
    · exact absurd hunsettled (hsettled record hrecord)

/-- What `_discard_completed` leaves. -/
def Runtime.discarded (w : Runtime campaign) : Runtime campaign :=
  { w with active := w.active.filter fun active => !w.done active }

theorem Inv.discarded (h : Inv start w) : Inv start w.discarded := by
  refine h.drop (List.filter_append_perm (fun active => !w.done active) _).symm
    (fun active hmem => .of_done ?_) rfl rfl rfl rfl rfl
  rw [List.mem_filter, Bool.not_not] at hmem
  exact hmem.2

end LmResiliency.FaultInjection.Effects
