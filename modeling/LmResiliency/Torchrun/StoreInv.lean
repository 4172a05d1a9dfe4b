/-
# StoreInv — what every operation keeps of the shared store

The invariant of the store of one run and the guarantee that each process
gives the others: plans and the initial placement are written once, the
generation moves on by one and only once the plan of the next generation is
there, the registration log is only appended to, and a ready record belongs
to the node it is named after.

`Rules` leaves open which plans may be committed, so that a group of
processes that publishes plans of one kind only (the coordinators) uses
the same lemmas.
-/
import LmResiliency.Torchrun.Records

namespace LmResiliency.Torchrun

open Interleave

/-- The registration log; a missing log is an empty one. -/
def logOf (s : Store) : String := (s .registrations).getD ""

/-- What one operation of a process may do to the keys that others rely on. -/
structure Grows (s s' : Store) : Prop where
  plan : ∀ k v, s (.plan k) = some v → s' (.plan k) = some v
  initialNodes : ∀ v, s .initialNodes = some v → s' .initialNodes = some v
  generation : s' .generation = s .generation ∨
    ∃ g, s .generation = some (Text.str g) ∧ s' .generation = some (Text.str (g + 1))
  log : ∃ rs, logOf s' = logOf s ++ logText rs
  ready : ∀ g d v, s (.ready g d) = some v → s' (.ready g d) = some v

/-- What the processes of one run have in common. -/
structure Rules where
  runId : String
  /-- the plans that may be committed to a store -/
  admits : Store → RestartPlan → Prop
  admits_grows : ∀ {s s' p}, Grows s s' → admits s p → admits s' p
  /-- the ready record of the node with this digest -/
  owner : String → String → Prop
  owner_unique : ∀ {d v v'}, owner d v → owner d v' → v = v'

variable {R : Rules}

/-- The plan of a generation is committed. -/
def Committed (p : RestartPlan) (s : Store) : Prop :=
  s (.plan p.toGeneration) = some p.toJson

/-- The initial placement is committed. -/
def Initial (ids : List String) (s : Store) : Prop :=
  s .initialNodes = some (encodeInitialNodes ids)

/-- The generation is the given one, or a later one. -/
def Reached (g : Int) (s : Store) : Prop :=
  ∃ g', g ≤ g' ∧ s .generation = some (Text.str g')

/-- The invariant of the store. -/
structure StoreInv (R : Rules) (s : Store) : Prop where
  /-- the generation is a number, with a plan for every generation up to it -/
  generation : ∃ g, 0 ≤ g ∧ s .generation = some (Text.str g) ∧
    ∀ k, 1 ≤ k → k ≤ g → ∃ v, s (.plan k) = some v
  /-- a plan key holds the text of an admitted plan of this run, of its own
  generation, at most the next one -/
  plans : ∀ k v, s (.plan k) = some v → ∃ p : RestartPlan, v = p.toJson ∧
    p.runId = R.runId ∧ p.toGeneration = k ∧ Reached (k - 1) s ∧ R.admits s p
  log : ∃ rs, logOf s = logText rs
  initialNodes : ∀ v, s .initialNodes = some v → ∃ ids rs, v = encodeInitialNodes ids ∧
    PlacedNodes ids ∧ logOf s = logText rs ∧ ids <+: distinctNodes rs
  ready : ∀ g d v, s (.ready g d) = some v → R.owner d v

/-- The world of the processes of one run. -/
def world (R : Rules) : World iface Store where
  exec := exec
  inv := StoreInv R
  guar := Grows

/-! ## Facts that stay -/

theorem Reached.grows {g : Int} {s s' : Store} (hg : Grows s s') (h : Reached g s) :
    Reached g s' := by
  obtain ⟨g', hle, hg'⟩ := h
  rcases hg.generation with heq | ⟨g'', hs, hs'⟩
  · exact ⟨g', hle, heq.trans hg'⟩
  · obtain rfl : g'' = g' := Text.str_injective (Option.some.inj (hs.symm.trans hg'))
    exact ⟨g'' + 1, by omega, hs'⟩

section Later

variable {s s' : Store} (hl : (world R).Later s s') (hs : StoreInv R s)
include hl hs

theorem later_plan {k : Int} {v : String} (h : s (.plan k) = some v) :
    s' (.plan k) = some v :=
  World.Later.keeps (P := fun s => s (.plan k) = some v) 
    (fun _ _ _ (hg : Grows _ _) => hg.plan k v) hl hs h

theorem later_committed {p : RestartPlan} (h : Committed p s) : Committed p s' :=
  later_plan hl hs h

theorem later_initial {ids : List String} (h : Initial ids s) : Initial ids s' :=
  World.Later.keeps (P := Initial ids)
    (fun _ _ _ (hg : Grows _ _) => hg.initialNodes _) hl hs h

theorem later_ready {g : Int} {d v : String} (h : s (.ready g d) = some v) :
    s' (.ready g d) = some v :=
  World.Later.keeps (P := fun s => s (.ready g d) = some v)
    (fun _ _ _ (hg : Grows _ _) => hg.ready g d v) hl hs h

theorem later_reached {g : Int} (h : Reached g s) : Reached g s' :=
  World.Later.keeps (P := Reached g) (fun _ _ _ hg => Reached.grows hg) hl hs h

theorem later_admits {p : RestartPlan} (h : R.admits s p) : R.admits s' p :=
  World.Later.keeps (P := fun s => R.admits s p) (fun _ _ _ hg => R.admits_grows hg) hl hs h

theorem later_log {rs : List Registration} (h : logOf s = logText rs) :
    ∃ rs', logOf s' = logText (rs ++ rs') := by
  refine World.Later.keeps (P := fun s => ∃ rs', logOf s = logText (rs ++ rs')) ?_ hl hs
    ⟨[], by rw [List.append_nil]; exact h⟩
  rintro t t' - hg ⟨rs', hrs'⟩
  obtain ⟨rs'', hrs''⟩ := hg.log
  refine ⟨rs' ++ rs'', ?_⟩
  rw [hrs'', hrs', ← logText_concat, List.append_assoc]

end Later

/-! ## Moves -/

/-- The keys that neither the invariant nor the guarantee speaks of. -/
def Free : Key → Prop
  | .generation | .registrations | .initialNodes | .plan _ | .ready _ _ => False
  | _ => True

theorem Grows.of_agree {s s' : Store} (h : ∀ k, ¬ Free k → s' k = s k) : Grows s s' where
  plan k v hv := (h (.plan k) id).trans hv
  initialNodes v hv := (h .initialNodes id).trans hv
  generation := .inl (h .generation id)
  log := ⟨[], by rw [logOf, logOf, h .registrations id, logText_nil, String.append_empty]⟩
  ready g d v hv := (h (.ready g d) id).trans hv

/-- The invariant of a store that has grown, key by key. -/
theorem StoreInv.grown {s s' : Store} (hs : StoreInv R s) (hg : Grows s s')
    (hgen : ∀ g, s' .generation = some (Text.str g) → s .generation ≠ s' .generation →
      ∃ v, s' (.plan g) = some v)
    (hplan : ∀ k v, s' (.plan k) = some v → s (.plan k) = none →
      ∃ p : RestartPlan, v = p.toJson ∧ p.runId = R.runId ∧ p.toGeneration = k ∧
        Reached (k - 1) s ∧ R.admits s p)
    (hinit : ∀ v, s' .initialNodes = some v → s .initialNodes = none →
      ∃ ids rs, v = encodeInitialNodes ids ∧ PlacedNodes ids ∧ logOf s = logText rs ∧
        ids <+: distinctNodes rs)
    (hready : ∀ g d v, s' (.ready g d) = some v → s (.ready g d) = none →
      R.owner d v) : StoreInv R s' := by
  obtain ⟨g, hg0, hgs, hup⟩ := hs.generation
  obtain ⟨rs, hrs⟩ := hs.log
  obtain ⟨rs', hrs'⟩ := hg.log
  have hlog : ∀ {rs₀}, logOf s = logText rs₀ → logOf s' = logText (rs₀ ++ rs') := fun h => by
    rw [hrs', h, logText_concat]
  refine ⟨?_, ?_, ⟨rs ++ rs', hlog hrs⟩, ?_, ?_⟩
  · rcases hg.generation with heq | ⟨g', hgs', hg's⟩
    · refine ⟨g, hg0, heq.trans hgs, fun k hk hkg => ?_⟩
      obtain ⟨v, hv⟩ := hup k hk hkg
      exact ⟨v, hg.plan k v hv⟩
    · obtain rfl : g' = g := Text.str_injective (Option.some.inj (hgs'.symm.trans hgs))
      refine ⟨g' + 1, by omega, hg's, fun k hk hkg => ?_⟩
      by_cases hlast : k = g' + 1
      · subst hlast
        refine hgen _ hg's fun heq => ?_
        have := Text.str_injective (Option.some.inj (hgs'.symm.trans (heq.trans hg's)))
        omega
      · obtain ⟨v, hv⟩ := hup k hk (by omega)
        exact ⟨v, hg.plan k v hv⟩
  · intro k v hv
    have hold : ∃ p : RestartPlan, v = p.toJson ∧ p.runId = R.runId ∧ p.toGeneration = k ∧
        Reached (k - 1) s ∧ R.admits s p := by
      cases hk : s (.plan k) with
      | none => exact hplan k v hv hk
      | some v₀ =>
          obtain rfl : v₀ = v := Option.some.inj ((hg.plan k v₀ hk).symm.trans hv)
          exact hs.plans k v₀ hk
    obtain ⟨p, hp, hr, hto, hreach, hadm⟩ := hold
    exact ⟨p, hp, hr, hto, hreach.grows hg, R.admits_grows hg hadm⟩
  · intro v hv
    have hold : ∃ ids rs, v = encodeInitialNodes ids ∧ PlacedNodes ids ∧
        logOf s = logText rs ∧ ids <+: distinctNodes rs := by
      cases hi : s .initialNodes with
      | none => exact hinit v hv hi
      | some v₀ =>
          obtain rfl : v₀ = v := Option.some.inj ((hg.initialNodes v₀ hi).symm.trans hv)
          exact hs.initialNodes v₀ hi
    obtain ⟨ids, rs₀, hids, hpl, hl, hpre⟩ := hold
    exact ⟨ids, rs₀ ++ rs', hids, hpl, hlog hl, hpre.trans (distinctNodes_append rs₀ rs')⟩
  · intro g d v hv
    cases hr : s (.ready g d) with
    | none => exact hready g d v hv hr
    | some v₀ =>
        obtain rfl : v₀ = v := Option.some.inj ((hg.ready g d v₀ hr).symm.trans hv)
        exact hs.ready g d v₀ hr

theorem moves_of_agree {s s' : Store} (hs : StoreInv R s) (h : ∀ k, ¬ Free k → s' k = s k) :
    (world R).Moves s s' := by
  refine .inr ⟨hs.grown (.of_agree h) ?_ ?_ ?_ ?_, .of_agree h⟩
  · exact fun g _ hne => absurd (h .generation id).symm hne
  · exact fun k v hv hn => by rw [h (.plan k) id, hn] at hv; cases hv
  · exact fun v hv hn => by rw [h .initialNodes id, hn] at hv; cases hv
  · exact fun g d v hv hn => by rw [h (.ready g d) id, hn] at hv; cases hv

/-- What may be written to each key: a new plan under the key of its
generation, the next generation once its plan is there, and so on. -/
def MayPut (R : Rules) (s : Store) (k : Key) (v : String) : Prop :=
  match k with
  | .plan g => s (.plan g) = none ∧ ∃ p : RestartPlan, v = p.toJson ∧ p.runId = R.runId ∧
      p.toGeneration = g ∧ Reached (g - 1) s ∧ R.admits s p
  | .initialNodes => s .initialNodes = none ∧ ∃ ids rs, v = encodeInitialNodes ids ∧
      PlacedNodes ids ∧ logOf s = logText rs ∧ ids <+: distinctNodes rs
  | .generation => ∃ g, s .generation = some (Text.str g) ∧ v = Text.str (g + 1) ∧
      ∃ w, s (.plan (g + 1)) = some w
  | .registrations => ∃ r : Registration, v = logOf s ++ (r.line ++ "\n")
  | .ready _ d => R.owner d v
  | _ => True

theorem Grows.put {s : Store} (hs : StoreInv R s) {k : Key} {v : String}
    (h : MayPut R s k v) : Grows s (s.put k v) where
  plan g w hw := by
    by_cases hk : Key.plan g = k
    · subst hk
      exact absurd (h.1.symm.trans hw) (Option.some_ne_none w).symm
    · exact (Store.put_of_ne hk s v).trans hw
  initialNodes w hw := by
    by_cases hk : Key.initialNodes = k
    · subst hk
      exact absurd (h.1.symm.trans hw) (Option.some_ne_none w).symm
    · exact (Store.put_of_ne hk s v).trans hw
  generation := by
    by_cases hk : Key.generation = k
    · subst hk
      obtain ⟨g, hg, rfl, -⟩ := h
      exact .inr ⟨g, hg, Store.put_self s _ _⟩
    · exact .inl (Store.put_of_ne hk s v)
  log := by
    by_cases hk : Key.registrations = k
    · subst hk
      obtain ⟨r, rfl⟩ := h
      exact ⟨[r], by rw [logText_singleton, logOf, Store.put_self]; rfl⟩
    · exact ⟨[], by rw [logOf, Store.put_of_ne hk, logText_nil, String.append_empty]; rfl⟩
  ready g d w hw := by
    by_cases hk : Key.ready g d = k
    · subst hk
      rw [Store.put_self, R.owner_unique (hs.ready g d w hw) h]
    · exact (Store.put_of_ne hk s v).trans hw

/-- **A permitted write keeps the invariant.** -/
theorem moves_put {s : Store} (hs : StoreInv R s) {k : Key} {v : String}
    (h : MayPut R s k v) : (world R).Moves s (s.put k v) := by
  refine .inr ⟨hs.grown (.put hs h) ?_ ?_ ?_ ?_, .put hs h⟩
  · intro g hg hne
    by_cases hk : Key.generation = k
    · subst hk
      obtain ⟨g', -, rfl, w, hw⟩ := h
      obtain rfl : g' + 1 = g :=
        Text.str_injective (Option.some.inj ((Store.put_self s _ _).symm.trans hg))
      exact ⟨w, (Store.put_of_ne (by simp) s _).trans hw⟩
    · exact absurd (Store.put_of_ne hk s v).symm hne
  · intro g w hw hn
    by_cases hk : Key.plan g = k
    · subst hk
      obtain rfl : v = w := Option.some.inj ((Store.put_self s _ _).symm.trans hw)
      exact h.2
    · rw [Store.put_of_ne hk, hn] at hw
      cases hw
  · intro w hw hn
    by_cases hk : Key.initialNodes = k
    · subst hk
      obtain rfl : v = w := Option.some.inj ((Store.put_self s _ _).symm.trans hw)
      exact h.2
    · rw [Store.put_of_ne hk, hn] at hw
      cases hw
  · intro g d w hw hn
    by_cases hk : Key.ready g d = k
    · subst hk
      obtain rfl : v = w := Option.some.inj ((Store.put_self s _ _).symm.trans hw)
      exact h
    · rw [Store.put_of_ne hk, hn] at hw
      cases hw

theorem mayPut_free {s : Store} {k : Key} (hk : Free k) (v : String) : MayPut R s k v := by
  cases k <;> first | exact hk.elim | trivial

/-- `compare_set`: the desired value is written, or nothing is. -/
theorem compareSet_cases (s : Store) (k : Key) (expected desired : String) :
    (s.compareSet k expected desired = (desired, s.put k desired) ∧
        (s k = some expected ∨ s k = none ∧ expected = "")) ∨
      (∃ v, s.compareSet k expected desired = (v, s) ∧
        (s k = some v ∧ v ≠ expected ∨ s k = none ∧ v = expected ∧ expected ≠ "")) := by
  rw [Store.compareSet]
  cases hk : s k with
  | none =>
      by_cases he : expected = ""
      · exact .inl ⟨if_pos he, .inr ⟨rfl, he⟩⟩
      · exact .inr ⟨expected, if_neg he, .inr ⟨rfl, rfl, he⟩⟩
  | some v =>
      by_cases he : v = expected
      · exact .inl ⟨if_pos he, .inl (by rw [he])⟩
      · exact .inr ⟨v, if_neg he, .inl ⟨rfl, he⟩⟩

/-- A `compare_set` whose write, if it happens, is permitted. -/
theorem moves_compareSet {s : Store} (hs : StoreInv R s) {k : Key} {expected desired : String}
    (h : s k = some expected ∨ s k = none ∧ expected = "" → MayPut R s k desired) :
    (world R).Moves s (s.compareSet k expected desired).2 := by
  rcases compareSet_cases s k expected desired with ⟨heq, hk⟩ | ⟨v, heq, -⟩
  · rw [heq]
    exact moves_put hs (h hk)
  · rw [heq]
    exact .inl rfl

/-! ## Operations of a program -/

section Operations

variable {α β : Type} {Q : β → Store → Prop} {E : Raised → Store → Prop} {s : Store}

theorem safe_ret {a : β} (h : ∀ s', (world R).Later s s' → Q a s') :
    Safe (world R) Q E (.ret a) s := Safe.ret h

theorem safe_raise {e : Raised} (h : ∀ s', (world R).Later s s' → E e s') :
    Safe (world R) Q E (raise e) s := Safe.raise h

theorem safe_ofExcept {x : Except Raised α} {f : α → StoreM β}
    (h : ∀ a, x = .ok a → Safe (world R) Q E (f a) s)
    (hE : ∀ e, x = .error e → ∀ s', (world R).Later s s' → E e s') :
    Safe (world R) Q E (ofExcept x >>= f) s := by
  cases x with
  | ok a => exact h a rfl
  | error e => exact Safe.raise (hE e rfl)

variable (hs : StoreInv R s)
include hs

/-- An operation on the process's own environment, or a read. -/
theorem safe_perform {o : Op} {f : o.Res → StoreM β}
    (hread : ∀ s₁ r s₂, exec s₁ o r s₂ → s₂ = s₁)
    (h : ∀ s₁ r, StoreInv R s₁ → (world R).Later s s₁ → Safe (world R) Q E (f r) s₁) :
    Safe (world R) Q E (perform o >>= f) s :=
  Safe.read hs hread fun s₁ r hs₁ hl _ => h s₁ r hs₁ hl

theorem safe_get {k : Key} {f : String → StoreM β}
    (h : ∀ s₁ v, StoreInv R s₁ → (world R).Later s s₁ → s₁ k = some v →
      Safe (world R) Q E (f v) s₁)
    (hE : ∀ s₁, (world R).Later s s₁ → E .storeTimeout s₁) :
    Safe (world R) Q E (get k >>= f) s := by
  refine Safe.read hs (fun _ _ _ hx => hx.1) fun s₁ r hs₁ hl hx => ?_
  obtain ⟨-, rfl⟩ := hx
  cases hk : s₁ k with
  | none => exact Safe.raise fun s' hl' => hE s' (hl.trans hl')
  | some v => exact h s₁ v hs₁ hl hk

theorem safe_check {ks : List Key} {f : Bool → StoreM β}
    (h : ∀ s₁, StoreInv R s₁ → (world R).Later s s₁ →
      Safe (world R) Q E (f (ks.all fun k => (s₁ k).isSome)) s₁) :
    Safe (world R) Q E (check ks >>= f) s := by
  refine Safe.read hs (fun _ _ _ hx => hx.1) fun s₁ r hs₁ hl hx => ?_
  obtain ⟨-, rfl⟩ := hx
  exact h s₁ hs₁ hl

theorem safe_compareSet {k : Key} {expected desired : String} {f : String → StoreM β}
    (hput : ∀ s₁, StoreInv R s₁ → (world R).Later s s₁ →
      (s₁ k = some expected ∨ s₁ k = none ∧ expected = "") → MayPut R s₁ k desired)
    (h : ∀ s₁ s₂ v, StoreInv R s₁ → StoreInv R s₂ → (world R).Later s s₁ →
      (world R).Later s s₂ → s₁.compareSet k expected desired = (v, s₂) →
      Safe (world R) Q E (f v) s₂) :
    Safe (world R) Q E (compareSet k expected desired >>= f) s := by
  refine Safe.write hs (fun s₁ r s₂ hs₁ hl hx => ?_) fun s₁ r s₂ hs₁ hs₂ hl hx hl₂ => ?_
  · obtain ⟨-, rfl⟩ := hx
    exact moves_compareSet hs₁ (hput s₁ hs₁ hl)
  · obtain ⟨rfl, rfl⟩ := hx
    exact h s₁ _ _ hs₁ hs₂ hl hl₂ rfl

theorem safe_set {k : Key} {v : String} {f : Unit → StoreM β}
    (hput : ∀ s₁, StoreInv R s₁ → (world R).Later s s₁ → MayPut R s₁ k v)
    (h : ∀ s₂, StoreInv R s₂ → (world R).Later s s₂ → s₂ k = some v →
      Safe (world R) Q E (f ()) s₂) :
    Safe (world R) Q E (set k v >>= f) s := by
  refine Safe.write hs (fun s₁ r s₂ hs₁ hl hx => ?_) fun s₁ r s₂ hs₁ hs₂ hl hx hl₂ => ?_
  · obtain rfl : s₂ = s₁.put k v := hx
    exact moves_put hs₁ (hput s₁ hs₁ hl)
  · obtain rfl : s₂ = s₁.put k v := hx
    exact h _ hs₂ hl₂ (Store.put_self ..)

theorem safe_append {r : Registration} {f : Unit → StoreM β}
    (h : ∀ s₂, StoreInv R s₂ → (world R).Later s s₂ → Safe (world R) Q E (f ()) s₂) :
    Safe (world R) Q E (append .registrations (r.line ++ "\n") >>= f) s := by
  refine Safe.write hs (fun s₁ x s₂ hs₁ hl hx => ?_) fun s₁ x s₂ hs₁ hs₂ hl hx hl₂ => ?_
  · obtain rfl : s₂ = s₁.put .registrations (logOf s₁ ++ (r.line ++ "\n")) := hx
    exact moves_put hs₁ ⟨r, rfl⟩
  · exact h s₂ hs₂ hl₂

theorem safe_add {k : Key} {n : Int} {f : Int → StoreM β} (hk : Free k)
    (h : ∀ s₂ m, StoreInv R s₂ → (world R).Later s s₂ → Safe (world R) Q E (f m) s₂) :
    Safe (world R) Q E (add k n >>= f) s := by
  refine Safe.write hs (fun s₁ x s₂ hs₁ hl hx => ?_) fun s₁ x s₂ hs₁ hs₂ hl hx hl₂ => ?_
  · obtain ⟨-, rfl⟩ := hx
    exact moves_put hs₁ (mayPut_free hk _)
  · exact h s₂ x hs₂ hl₂

end Operations

end LmResiliency.Torchrun
