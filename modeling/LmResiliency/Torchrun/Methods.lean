/-
# Methods — one specification for each method of the plan store

Each method keeps the invariant of the store among other processes that do,
and what it returns says something of the store that stays true.
-/
import LmResiliency.Torchrun.StoreInv

namespace LmResiliency.Torchrun

open Interleave

namespace PlanStore

variable {R : Rules} {E : Raised → Store → Prop} {s : Store}

/-- The constructor finds the generation there, or starts it. -/
theorem safe_connect {Q : Unit → Store → Prop} (hs : StoreInv R s) (hQ : ∀ s', Q () s') :
    Safe (world R) Q E connect s := by
  refine safe_compareSet hs (fun s₁ hs₁ _ hk => ?_) fun _ s₂ _ _ hs₂ _ _ _ =>
    safe_ret fun s' _ => hQ s'
  obtain ⟨g, -, hg, -⟩ := hs₁.generation
  rcases hk with hk | ⟨hk, -⟩
  · exact absurd (Option.some.inj (hg.symm.trans hk)) (Text.str_ne_empty g)
  · exact absurd (hg.symm.trans hk) (Option.some_ne_none _)

theorem decode_generation (hs : StoreInv R s) {v : String} (hv : s .generation = some v) :
    ∃ g, decodeGeneration v = .ok g ∧ 0 ≤ g ∧ v = Text.str g := by
  obtain ⟨g, hg0, hg, -⟩ := hs.generation
  obtain rfl := Option.some.inj (hg.symm.trans hv)
  exact ⟨g, decodeGeneration_str hg0, hg0, rfl⟩

theorem safe_currentGeneration (hs : StoreInv R s) (hE : ∀ e s', E e s') :
    Safe (world R) (fun g s' => 0 ≤ g ∧ Reached g s') E currentGeneration s := by
  refine safe_get hs (fun s₁ v hs₁ _ hv => ?_) fun s₁ _ => hE _ s₁
  obtain ⟨g, hdec, hg0, rfl⟩ := decode_generation hs₁ hv
  rw [hdec]
  exact safe_ret fun s' hl => ⟨hg0, later_reached hl hs₁ ⟨g, le_refl g, hv⟩⟩

/-- What `read` returns is committed under the generation asked for. -/
theorem safe_read (self : PlanStore) {g : Int} (hs : StoreInv R s) (hE : ∀ e s', E e s') :
    Safe (world R)
      (fun r s' => ∀ p, r = some p → Committed p s' ∧ p.toGeneration = g) E
      (self.read g) s := by
  rw [read]
  by_cases hg : g < 1
  · rw [if_pos hg]
    exact safe_ret fun _ _ _ h => by cases h
  · rw [if_neg hg]
    refine safe_check hs fun s₁ hs₁ _ => ?_
    cases ([Key.plan g].all fun k => (s₁ k).isSome) with
    | false => exact safe_ret fun _ _ _ h => by cases h
    | true =>
        refine safe_get hs₁ (fun s₂ v hs₂ _ hv => ?_) fun s₂ _ => hE _ s₂
        refine safe_ofExcept (fun p hp => safe_ret fun s' hl q hq => ?_) fun e _ s' _ => hE e s'
        obtain ⟨rfl, -, rfl⟩ := decodePlan_eq_ok hp
        cases hq
        exact ⟨later_committed hl hs₂ hv, rfl⟩

/-- The last step of `publish`: the plan is committed and so is its generation. -/
theorem safe_advance {p : RestartPlan} (hs : StoreInv R s) (hc : Committed p s)
    (hE : ∀ e s', E e s') :
    Safe (world R) (fun _ s' => Committed p s' ∧ Reached p.toGeneration s') E (advance p) s := by
  have hto : p.toGeneration = p.fromGeneration + 1 := p.valid.successor
  refine safe_compareSet hs (fun s₁ hs₁ hl hk => ?_) fun s₁ s₂ v hs₁ hs₂ hl hl₂ hx => ?_
  · rcases hk with hk | ⟨-, hk⟩
    · refine ⟨p.fromGeneration, hk, by rw [hto], p.toJson, ?_⟩
      rw [← hto]
      exact later_committed hl hs hc
    · exact absurd hk (Text.str_ne_empty _)
  · refine safe_ofExcept (fun g hg => ?_) fun e _ s' _ => hE e s'
    by_cases hne : g ≠ p.toGeneration
    · rw [if_pos hne]
      exact safe_raise fun s' _ => hE _ s'
    · rw [if_neg hne]
      obtain rfl : g = p.toGeneration := not_not.mp hne
      have hreached : Reached p.toGeneration s₂ := by
        rcases compareSet_cases s₁ .generation (Text.str p.fromGeneration)
          (Text.str p.toGeneration) with ⟨heq, -⟩ | ⟨w, heq, hk⟩
        · obtain ⟨rfl, rfl⟩ := Prod.mk.inj (heq.symm.trans hx)
          exact ⟨p.toGeneration, le_refl _, Store.put_self ..⟩
        · obtain ⟨rfl, rfl⟩ := Prod.mk.inj (heq.symm.trans hx)
          rcases hk with ⟨hk, -⟩ | ⟨hk, -⟩
          · obtain ⟨g', hdec, -, rfl⟩ := decode_generation hs₁ hk
            obtain rfl : p.toGeneration = g' := Except.ok.inj (hg.symm.trans hdec)
            exact ⟨p.toGeneration, le_refl _, hk⟩
          · obtain ⟨g', -, hg', -⟩ := hs₁.generation
            exact absurd (hg'.symm.trans hk) (Option.some_ne_none _)
      exact safe_ret fun s' hl' =>
        ⟨later_committed (hl₂.trans hl') hs hc, later_reached hl' hs₂ hreached⟩

/-- A `publish` that returns has committed its plan and its generation. -/
theorem safe_publish (self : PlanStore) (hself : self.runId = R.runId) {p : RestartPlan}
    (hs : StoreInv R s) (hadm : R.admits s p) (hE : ∀ e s', E e s') :
    Safe (world R) (fun _ s' => Committed p s' ∧ Reached p.toGeneration s') E
      (self.publish p) s := by
  rw [publish]
  by_cases hrun : p.runId ≠ self.runId
  · rw [if_pos hrun]
    exact safe_raise fun s' _ => hE _ s'
  rw [if_neg hrun]
  have hrun : p.runId = R.runId := (not_not.mp hrun).trans hself
  refine Safe.bind hs (safe_currentGeneration hs hE) fun g s₁ hs₁ hl₁ ⟨hg0, hreached⟩ => ?_
  by_cases hto : g = p.toGeneration
  · rw [if_pos hto]
    refine Safe.bind hs₁ (safe_read self hs₁ hE) fun r s₂ hs₂ hl₂ hr => ?_
    by_cases hne : r ≠ some p
    · rw [if_pos hne]
      exact safe_raise fun s' _ => hE _ s'
    · rw [if_neg hne]
      obtain ⟨hc, -⟩ := hr p (not_not.mp hne)
      exact safe_ret fun s' hl => ⟨later_committed hl hs₂ hc,
        later_reached (hl₂.trans hl) hs₁ (hto ▸ hreached)⟩
  rw [if_neg hto]
  by_cases hfrom : g ≠ p.fromGeneration
  · rw [if_pos hfrom]
    exact safe_raise fun s' _ => hE _ s'
  rw [if_neg hfrom]
  obtain rfl : g = p.fromGeneration := not_not.mp hfrom
  have hback : p.toGeneration - 1 = p.fromGeneration := by rw [p.valid.successor]; omega
  refine safe_compareSet hs₁ (fun s₂ hs₂ hl₂ hk => ?_) fun s₂ s₃ v hs₂ hs₃ hl₂ hl₃ hx => ?_
  · have hnone : s₂ (.plan p.toGeneration) = none := by
      rcases hk with hk | ⟨hk, -⟩
      · obtain ⟨q, hq, -⟩ := hs₂.plans _ _ hk
        exact absurd hq.symm q.toJson_ne_empty
      · exact hk
    refine ⟨hnone, p, rfl, hrun, rfl, ?_, later_admits (hl₁.trans hl₂) hs hadm⟩
    rw [hback]
    exact later_reached hl₂ hs₁ hreached
  · -- the answer is what the key now holds
    have hv : s₃ (.plan p.toGeneration) = some v := by
      rcases compareSet_cases s₂ (.plan p.toGeneration) "" p.toJson with
        ⟨heq, -⟩ | ⟨w, heq, hk⟩
      · obtain ⟨rfl, rfl⟩ := Prod.mk.inj (heq.symm.trans hx)
        exact Store.put_self ..
      · obtain ⟨rfl, rfl⟩ := Prod.mk.inj (heq.symm.trans hx)
        rcases hk with ⟨hk, -⟩ | ⟨-, -, hk⟩
        · exact hk
        · exact absurd rfl hk
    split
    · rename_i hother
      refine safe_ofExcept (fun q hq => ?_) fun e _ s' _ => hE e s'
      by_cases hqp : q ≠ p
      · rw [if_pos hqp]
        exact safe_raise fun s' _ => hE _ s'
      · obtain rfl : q = p := not_not.mp hqp
        exact absurd (decodePlan_eq_ok hq).1 hother
    · rename_i hsame
      exact safe_advance hs₃ (hv.trans (congrArg some (not_not.mp hsame))) hE

/-! ## Registration and placement -/

theorem mayPut_maxNodes {k : String} : MayPut R s .maxNodes k := trivial

theorem safe_decodeRegistrations {maxNodes : Int} (hs : StoreInv R s)
    (hE : ∀ e s', (e = .storeTimeout ∨ ∃ v, registrationsOf v maxNodes = .error e) → E e s') :
    Safe (world R)
      (fun out s' => ∃ rs, logOf s' = logText rs ∧ out.map Prod.fst <+: distinctNodes rs) E
      (decodeRegistrations maxNodes) s := by
  refine safe_get hs (fun s₁ v hs₁ _ hv => ?_) fun s₁ _ => hE _ s₁ (.inl rfl)
  cases hdec : registrationsOf v maxNodes with
  | error e => exact Safe.raise fun s' _ => hE e s' (.inr ⟨v, hdec⟩)
  | ok out =>
      obtain ⟨rs, hrs⟩ := hs₁.log
      obtain rfl : v = logText rs := by rw [← hrs, logOf, hv]; rfl
      refine safe_ret fun s' hl => ?_
      obtain ⟨rs', hrs'⟩ := later_log hl hs₁ hrs
      refine ⟨rs ++ rs', hrs', ?_⟩
      rw [registrationsOf_logText hdec]
      exact distinctNodes_append rs rs'

/-! No decoder answers with a conflict of the placement. -/

theorem decodeRegistration_ne_conflict {line : String} :
    decodeRegistration line ≠ .error placementConflict := by
  rw [decodeRegistration, placementConflict]
  split
  · simp
  · split
    · simp
    · split
      · split <;> simp
      · simp

theorem scanRegistrations_ne_conflict {lines : List String} {acc : List (String × String)} :
    scanRegistrations lines acc ≠ .error placementConflict := by
  induction lines generalizing acc with
  | nil => simp [scanRegistrations]
  | cons line lines ih =>
      rw [scanRegistrations]
      cases hd : decodeRegistration line with
      | error e =>
          intro h
          cases h
          exact decodeRegistration_ne_conflict hd
      | ok r =>
          simp only [bind, Except.bind]
          split
          · simp [placementConflict]
          · split
            · simp [placementConflict]
            · split <;> exact ih

theorem registrationsOf_ne_conflict {v : String} {maxNodes : Int} :
    registrationsOf v maxNodes ≠ .error placementConflict := by
  rw [registrationsOf]
  split
  · simp [placementConflict]
  · cases hs : scanRegistrations (splitLines v) [] with
    | error e =>
        intro h
        cases h
        exact scanRegistrations_ne_conflict hs
    | ok out =>
        simp only [bind, Except.bind]
        split <;> simp [placementConflict]

theorem positiveInt_ne_conflict {n : Int} {name : String} :
    positiveInt n name ≠ .error placementConflict := by
  rw [positiveInt]
  split <;> simp [placementConflict]

theorem nonempty_eq_ok {value name out : String} (h : nonempty value name = .ok out) :
    Text.nonBlank out = true ∧ Text.strip out = out := by
  rw [nonempty] at h
  split at h
  · rename_i hb
    cases h
    exact ⟨by rw [Text.nonBlank_strip]; exact hb, Text.strip_idem value⟩
  · cases h

theorem nonempty_ne_conflict {value name : String} :
    nonempty value name ≠ .error placementConflict := by
  rw [nonempty]
  split <;> simp [placementConflict]

theorem safe_registerNode {nodeId agentId : String} {maxNodes : Int}
    {Q : Unit → Store → Prop} (hs : StoreInv R s)
    (hE : ∀ e s', e ≠ placementConflict → E e s') (hQ : ∀ s', Q () s') :
    Safe (world R) Q E (registerNode nodeId agentId maxNodes) s := by
  refine safe_ofExcept (fun node hnode => ?_) fun e he s' _ =>
    hE e s' fun hc => nonempty_ne_conflict (hc ▸ he)
  refine safe_ofExcept (fun agent hagent => ?_) fun e he s' _ =>
    hE e s' fun hc => nonempty_ne_conflict (hc ▸ he)
  refine safe_ofExcept (fun _ _ => ?_) fun e he s' _ =>
    hE e s' fun hc => positiveInt_ne_conflict (hc ▸ he)
  obtain ⟨hn, hn'⟩ := nonempty_eq_ok hnode
  obtain ⟨ha, ha'⟩ := nonempty_eq_ok hagent
  let r : Registration := ⟨node, agent, hn, hn', ha, ha'⟩
  refine safe_compareSet hs (fun s₁ hs₁ _ _ => mayPut_maxNodes) fun s₁ s₂ v hs₁ hs₂ _ _ _ => ?_
  by_cases hmax : v ≠ Text.str maxNodes
  · rw [if_pos hmax]
    exact safe_raise fun s' _ => hE _ s' (by simp [placementConflict])
  · rw [if_neg hmax]
    refine safe_append (r := r) hs₂ fun s₃ hs₃ _ => ?_
    refine Safe.bind hs₃ (safe_decodeRegistrations hs₃ fun e s' he => hE e s' fun hc => ?_)
      fun _ s₄ _ _ _ => safe_ret fun s' _ => hQ s'
    rcases he with rfl | ⟨v, hv⟩
    · exact absurd hc (by simp [placementConflict])
    · exact registrationsOf_ne_conflict (hc ▸ hv)

theorem placedNodes_of_prefix {rs : List Registration} {ids : List String} (hne : ids ≠ [])
    (hpre : ids <+: distinctNodes rs) : PlacedNodes ids := by
  have hmem : ∀ n ∈ ids, ∃ r ∈ rs, r.nodeId = n := fun n hn =>
    mem_distinctNodes.mp (hpre.subset hn)
  refine ⟨hne, (distinctNodes_nodup rs).sublist hpre.sublist, fun n hn => ?_, fun n hn => ?_⟩
  · obtain ⟨r, -, rfl⟩ := hmem n hn
    exact r.nodeId_nonBlank
  · obtain ⟨r, -, rfl⟩ := hmem n hn
    exact r.nodeId_strip

/-- **`ensure_initial_nodes`** returns the committed placement, which is the
first `minNodes` distinct nodes of the log, and never finds that the two
differ. -/
theorem safe_ensureInitialNodes {minNodes maxNodes : Int} (hs : StoreInv R s)
    (hE : ∀ e s', e ≠ placementConflict → E e s') :
    Safe (world R)
      (fun r s' => ∀ ids, r = some ids → Initial ids s' ∧ PlacedNodes ids ∧
        (ids.length : Int) = minNodes ∧
        ∃ rs, logOf s' = logText rs ∧ ids <+: distinctNodes rs) E
      (ensureInitialNodes minNodes maxNodes) s := by
  refine safe_ofExcept (fun _ hmin => ?_) fun e he s' _ => hE e s' fun hc => ?_
  swap
  · exact positiveInt_ne_conflict (hc ▸ he)
  refine safe_ofExcept (fun _ _ => ?_) fun e he s' _ => hE e s' fun hc => ?_
  swap
  · exact positiveInt_ne_conflict (hc ▸ he)
  have hpos : 1 ≤ minNodes := by
    rw [positiveInt] at hmin
    split at hmin
    · cases hmin
    · omega
  by_cases hlt : maxNodes < minNodes
  · rw [if_pos hlt]
    exact safe_raise fun s' _ => hE _ s' (by simp [placementConflict])
  rw [if_neg hlt]
  refine Safe.bind hs (safe_decodeRegistrations hs fun e s' he => hE e s' fun hc => ?_)
    fun out s₁ hs₁ hl₁ ⟨rs, hrs, hout⟩ => ?_
  · rcases he with rfl | ⟨v, hv⟩
    · exact absurd hc (by simp [placementConflict])
    · exact registrationsOf_ne_conflict (hc ▸ hv)
  by_cases hfew : (out.length : Int) < minNodes
  · rw [if_pos hfew]
    exact safe_ret fun _ _ _ h => by cases h
  rw [if_neg hfew]
  set expected := (out.take minNodes.toNat).map Prod.fst with hexp
  have hlen : (expected.length : Int) = minNodes := by
    rw [hexp, List.length_map, List.length_take]
    omega
  have hpre : expected <+: distinctNodes rs := by
    rw [hexp, List.map_take]
    exact (List.take_prefix _ _).trans hout
  have hplaced : PlacedNodes expected := placedNodes_of_prefix (by
    intro hnil
    rw [hnil] at hlen
    simp only [List.length_nil] at hlen
    omega) hpre
  refine safe_compareSet hs₁ (fun s₂ hs₂ hl₂ hk => ?_) fun s₂ s₃ v hs₂ hs₃ hl₂ hl₃ hx => ?_
  · obtain ⟨rs', hrs'⟩ := later_log hl₂ hs₁ hrs
    refine ⟨?_, expected, rs ++ rs', rfl, hplaced, hrs', hpre.trans (distinctNodes_append _ _)⟩
    rcases hk with hk | ⟨hk, -⟩
    · obtain ⟨ids, -, hids, -⟩ := hs₂.initialNodes _ hk
      exact absurd hids.symm (encodeInitialNodes_ne_empty ids)
    · exact hk
  · -- the placement that the key now holds is a prefix of the log, as is `expected`
    have hv : s₃ .initialNodes = some v := by
      rcases compareSet_cases s₂ .initialNodes "" (encodeInitialNodes expected) with
        ⟨heq, -⟩ | ⟨w, heq, hk⟩
      · obtain ⟨rfl, rfl⟩ := Prod.mk.inj (heq.symm.trans hx)
        exact Store.put_self ..
      · obtain ⟨rfl, rfl⟩ := Prod.mk.inj (heq.symm.trans hx)
        rcases hk with ⟨hk, -⟩ | ⟨-, -, hk⟩
        · exact hk
        · exact absurd rfl hk
    obtain ⟨ids, rs₃, rfl, hids, hrs₃, hpre₃⟩ := hs₃.initialNodes v hv
    refine safe_ofExcept (fun selected hsel => ?_) fun e he s' _ => hE e s' fun hc => ?_
    swap
    · rw [decodeInitialNodes_encode hids] at he
      split at he
      · cases he
        exact absurd hc (by simp [placementConflict])
      · cases he
    rw [decodeInitialNodes_encode hids] at hsel
    split at hsel
    · cases hsel
    · rename_i hcount
      cases hsel
      have hidslen : minNodes = (ids.length : Int) := by simpa using hcount
      have hsame : ids = expected := by
        obtain ⟨rs', hrs'⟩ := later_log hl₃ hs₁ hrs
        have hlogs : distinctNodes rs₃ = distinctNodes (rs ++ rs') := by
          rw [logText_injective (hrs₃.symm.trans hrs')]
        rw [hlogs] at hpre₃
        exact (List.prefix_of_prefix_length_le hpre₃ (hpre.trans (distinctNodes_append _ _))
          (by omega)).eq_of_length (by omega)
      rw [if_neg (not_not.mpr hsame)]
      refine safe_ret fun s' hl ids' h => ?_
      cases h
      obtain ⟨rs', hrs'⟩ := later_log hl hs₃ hrs₃
      exact ⟨later_initial hl hs₃ hv, hids, hidslen.symm, _, hrs',
        hpre₃.trans (distinctNodes_append _ _)⟩

theorem safe_readInitialNodes (hs : StoreInv R s) (hE : ∀ e s', E e s') :
    Safe (world R)
      (fun r s' => ∀ ids, r = some ids → Initial ids s' ∧ PlacedNodes ids) E
      readInitialNodes s := by
  refine safe_check hs fun s₁ hs₁ _ => ?_
  cases ([Key.initialNodes].all fun k => (s₁ k).isSome) with
  | false => exact safe_ret fun _ _ _ h => by cases h
  | true =>
      refine safe_get hs₁ (fun s₂ v hs₂ _ hv => ?_) fun s₂ _ => hE _ s₂
      obtain ⟨ids, rs, rfl, hids, -⟩ := hs₂.initialNodes v hv
      refine safe_ofExcept (fun selected hsel => ?_) fun e _ s' _ => hE e s'
      rw [decodeInitialNodes_encode hids, if_neg (by simp)] at hsel
      cases hsel
      exact safe_ret fun s' hl ids' h => by cases h; exact ⟨later_initial hl hs₂ hv, hids⟩

theorem safe_registeredNodes {maxNodes : Option Int} {Q : List String → Store → Prop}
    (hs : StoreInv R s) (hE : ∀ e s', E e s') (hQ : ∀ r s', Q r s') :
    Safe (world R) Q E (registeredNodes maxNodes) s := by
  have hcommitted : Safe (world R) (fun _ _ => True) E (committedMaxNodes maxNodes) s := by
    refine safe_check hs fun s₁ hs₁ _ => ?_
    cases ([Key.maxNodes].all fun k => (s₁ k).isSome) with
    | true =>
        refine safe_get hs₁ (fun s₂ v hs₂ _ _ => ?_) fun s₂ _ => hE _ s₂
        cases decodePositiveInteger v "registered max_nodes" with
        | error e => exact Safe.raise fun s' _ => hE e s'
        | ok n => exact safe_ret fun _ _ => trivial
    | false =>
        cases maxNodes with
        | none => exact safe_raise fun s' _ => hE _ s'
        | some n =>
            refine safe_ofExcept (fun n _ => ?_) fun e _ s' _ => hE e s'
            exact safe_compareSet hs₁ (fun _ _ _ _ => mayPut_maxNodes)
              fun _ _ _ _ _ _ _ _ => safe_ret fun _ _ => trivial
  refine Safe.bind hs hcommitted fun n s₁ hs₁ _ _ => ?_
  by_cases hne : maxNodes ≠ none ∧ maxNodes ≠ some n
  · rw [if_pos hne]
    exact safe_raise fun s' _ => hE _ s'
  · rw [if_neg hne]
    exact Safe.bind hs₁ (safe_decodeRegistrations hs₁ fun e s' _ => hE e s')
      fun _ _ _ _ _ => safe_ret fun s' _ => hQ _ s'

/-! ## Leases -/

theorem safe_renewPlanLease (self : PlanStore) {p : RestartPlan} {remainingMs : Int}
    {Q : Int → Store → Prop} (hs : StoreInv R s) (hE : ∀ e s', E e s')
    (hQ : ∀ r s', Q r s') :
    Safe (world R) Q E (self.renewPlanLease p remainingMs) s := by
  rw [renewPlanLease]
  split
  · exact safe_raise fun s' _ => hE _ s'
  split
  · exact safe_raise fun s' _ => hE _ s'
  refine Safe.bind hs (safe_read self hs hE) fun r s₁ hs₁ _ _ => ?_
  split
  · exact safe_raise fun s' _ => hE _ s'
  refine safe_add hs₁ trivial fun s₂ n hs₂ _ => ?_
  split
  · exact safe_raise fun s' _ => hE _ s'
  · exact safe_set hs₂ (fun _ _ _ => trivial) fun _ _ _ _ => safe_ret fun s' _ => hQ _ s'

theorem safe_readPlanLease (self : PlanStore) {p : RestartPlan}
    {Q : Option (Int × Int) → Store → Prop} (hs : StoreInv R s) (hE : ∀ e s', E e s')
    (hQ : ∀ r s', Q r s') : Safe (world R) Q E (self.readPlanLease p) s := by
  rw [readPlanLease]
  split
  · exact safe_raise fun s' _ => hE _ s'
  refine safe_check hs fun s₁ hs₁ _ => ?_
  split
  · refine safe_get hs₁ (fun s₂ v hs₂ _ _ => ?_) fun s₂ _ => hE _ s₂
    exact safe_ofExcept (fun _ _ => safe_ret fun s' _ => hQ _ s') fun e _ s' _ => hE e s'
  · exact safe_ret fun s' _ => hQ _ s'

end PlanStore

end LmResiliency.Torchrun
