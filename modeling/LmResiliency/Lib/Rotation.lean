/-
# Rotation — taking turns at regular steps, across saves and restores

A machine does something at every step of a run.  It can be saved, and restored
from any save: the steps since then are forgotten and taken again.  Where a save
gives the state back, such a run has done what a run without saves does.

Those who take turns at the due steps of a window as long as a full round each
have one turn in it.
-/
import Mathlib.Data.Int.CardIntervalMod
import Mathlib.Data.List.Rotate

namespace LmResiliency.Rotation

/-! ## Runs with saves and restores -/

section Runs

variable {ε σ γ ο : Type}

/-- What is done at a step, given the number of steps before it, and how the state is
saved and restored. -/
structure Machine (ε σ γ ο : Type) where
  step : Nat → σ → Except ε (ο × σ)
  save : σ → γ
  restore : γ → Except ε σ

inductive Event where
  | step
  | save
  /-- from one of the saves -/
  | restore (index : Nat)

/-- What the steps did, and the saves with what was done before them. -/
structure Tape (σ γ ο : Type) where
  done : List ο
  state : σ
  saved : List (List ο × γ)

/-- Before the first step. -/
def Tape.start (state : σ) : Tape σ γ ο := ⟨[], state, []⟩

namespace Machine

/-- One event.  There is nothing to restore where there is no such save. -/
def next (m : Machine ε σ γ ο) (t : Tape σ γ ο) : Event → Except ε (Tape σ γ ο)
  | .step => do
      let (output, state) ← m.step t.done.length t.state
      return { t with done := t.done ++ [output], state := state }
  | .save => .ok { t with saved := t.saved ++ [(t.done, m.save t.state)] }
  | .restore index =>
      match t.saved[index]? with
      | none => .ok t
      | some (done, value) => do
          let state ← m.restore value
          return { t with done := done, state := state }

/-- One event after another. -/
def run (m : Machine ε σ γ ο) (t : Tape σ γ ο) (events : List Event) : Except ε (Tape σ γ ο) :=
  events.foldlM m.next t

/-- The steps go through these states with these outputs, and a save gives each of the
states back. -/
structure Follows (m : Machine ε σ γ ο) (states : Nat → σ) (outputs : Nat → ο) : Prop where
  step : ∀ k, m.step k (states k) = .ok (outputs k, states (k + 1))
  restore : ∀ k, m.restore (m.save (states k)) = .ok (states k)

/-- The tape is that of a run without saves. -/
structure OnTrack (m : Machine ε σ γ ο) (states : Nat → σ) (outputs : Nat → ο)
    (t : Tape σ γ ο) : Prop where
  done : t.done = (List.range t.done.length).map outputs
  state : t.state = states t.done.length
  saved : ∀ s ∈ t.saved, s.1 = (List.range s.1.length).map outputs ∧
    s.2 = m.save (states s.1.length)

variable {m : Machine ε σ γ ο} {states : Nat → σ} {outputs : Nat → ο}

theorem OnTrack.next {t : Tape σ γ ο} (hm : m.Follows states outputs)
    (h : m.OnTrack states outputs t) (event : Event) :
    ∃ t', m.next t event = .ok t' ∧ m.OnTrack states outputs t' := by
  cases event with
  | step =>
      have hstep := hm.step t.done.length
      rw [← h.state] at hstep
      have hlength : (t.done ++ [outputs t.done.length]).length = t.done.length + 1 := by
        rw [List.length_append, List.length_singleton]
      refine ⟨{ t with done := t.done ++ [outputs t.done.length]
                       state := states (t.done.length + 1) },
        by rw [Machine.next, hstep]; rfl, ?_, congrArg states hlength.symm, h.saved⟩
      rw [hlength, List.range_succ, List.map_append, ← h.done, List.map_singleton]
  | save =>
      refine ⟨{ t with saved := t.saved ++ [(t.done, m.save t.state)] }, rfl, h.done, h.state,
        fun s hs => ?_⟩
      rcases List.mem_append.mp hs with hs | hs
      · exact h.saved s hs
      · rw [List.mem_singleton.mp hs]
        exact ⟨h.done, congrArg m.save h.state⟩
  | restore index =>
      cases hsave : t.saved[index]? with
      | none => exact ⟨t, by rw [Machine.next, hsave], h⟩
      | some s =>
          obtain ⟨hdone, hvalue⟩ := h.saved s (List.mem_of_getElem? hsave)
          have hrestore := hm.restore s.1.length
          rw [← hvalue] at hrestore
          refine ⟨{ t with done := s.1, state := states s.1.length }, ?_, hdone, rfl, h.saved⟩
          rw [Machine.next, hsave]
          dsimp only
          rw [hrestore]
          rfl

/-- A run with saves and restores fails nowhere, and has done what a run without
them does. -/
theorem run_onTrack (hm : m.Follows states outputs) (events : List Event) {t : Tape σ γ ο}
    (h : m.OnTrack states outputs t) :
    ∃ t', m.run t events = .ok t' ∧ m.OnTrack states outputs t' := by
  induction events generalizing t with
  | nil => exact ⟨t, rfl, h⟩
  | cons event events ih =>
      obtain ⟨t₁, hnext, h₁⟩ := h.next hm event
      obtain ⟨t', hrun, h'⟩ := ih h₁
      refine ⟨t', ?_, h'⟩
      rw [run, List.foldlM_cons, hnext]
      exact hrun

/-! How many steps a tape holds follows from the events alone. -/

/-- The numbers of steps done, and done before each save. -/
def extent (t : Tape σ γ ο) : Nat × List Nat := (t.done.length, t.saved.map fun s => s.1.length)

def extentAfter (x : Nat × List Nat) : Event → Nat × List Nat
  | .step => (x.1 + 1, x.2)
  | .save => (x.1, x.2 ++ [x.1])
  | .restore index => (x.2.getD index x.1, x.2)

theorem extent_next {t t' : Tape σ γ ο} {event : Event} (h : m.next t event = .ok t') :
    extent t' = extentAfter (extent t) event := by
  cases event with
  | step =>
      rw [next] at h
      cases hstep : m.step t.done.length t.state with
      | error e =>
          rw [hstep] at h
          cases h
      | ok result =>
          rw [hstep] at h
          rw [← Except.ok.inj h, extent, extentAfter, extent, List.length_append,
            List.length_singleton]
  | save =>
      rw [← Except.ok.inj h, extent, extentAfter, extent, List.map_append, List.map_singleton]
  | restore index =>
      have hget : (extent t).2[index]? = t.saved[index]?.map fun s => s.1.length :=
        List.getElem?_map
      rw [next] at h
      rw [extentAfter, List.getD_eq_getElem?_getD, hget]
      cases hsave : t.saved[index]? with
      | none =>
          rw [hsave] at h
          rw [← Except.ok.inj h]
          rfl
      | some s =>
          rw [hsave] at h
          dsimp only at h
          cases hrestore : m.restore s.2 with
          | error e =>
              rw [hrestore] at h
              cases h
          | ok state =>
              rw [hrestore] at h
              rw [← Except.ok.inj h]
              rfl

theorem extent_run {t t' : Tape σ γ ο} {events : List Event} (h : m.run t events = .ok t') :
    extent t' = events.foldl extentAfter (extent t) := by
  induction events generalizing t with
  | nil => rw [← Except.ok.inj h, List.foldl_nil]
  | cons event events ih =>
      rw [run, List.foldlM_cons] at h
      cases hnext : m.next t event with
      | error e =>
          rw [hnext] at h
          cases h
      | ok t₁ =>
          rw [hnext] at h
          rw [ih h, extent_next hnext, List.foldl_cons]

/-- Two machines that follow the same events have done as many steps. -/
theorem length_done_eq {ε' σ' γ' ο' : Type} {m' : Machine ε' σ' γ' ο'} {t : Tape σ γ ο}
    {t' : Tape σ' γ' ο'} {state : σ} {state' : σ'} {events : List Event}
    (h : m.run (.start state) events = .ok t) (h' : m'.run (.start state') events = .ok t') :
    t.done.length = t'.done.length :=
  congrArg Prod.fst ((extent_run h).trans (extent_run h').symm)

theorem onTrack_start : m.OnTrack states outputs (.start (states 0)) :=
  ⟨rfl, rfl, fun _ hs => absurd hs List.not_mem_nil⟩

end Machine

end Runs

/-! ## Turns -/

section Turns

variable {α : Type}

/-- A step at which there is a turn. -/
def IsDue (first interval : Int) (step : Int) : Prop :=
  first ≤ step ∧ (step - first) % interval = 0

instance (first interval step : Int) : Decidable (IsDue first interval step) :=
  inferInstanceAs (Decidable (_ ∧ _))

/-- The turns among the first steps of a run. -/
def turns (first interval start : Int) (k : Nat) : Nat :=
  Nat.count (fun i => IsDue first interval (start + i)) k

/-- Who has the turn at each step. -/
def turnOf (recipes : List α) (first interval start : Int) (position : Nat) (k : Nat) :
    Option α :=
  if IsDue first interval (start + k) then
    recipes[(position + turns first interval start k) % recipes.length]?
  else none

/-- The turns in the steps of a window. -/
def window (outputs : List (Option α)) (from_ length : Nat) : List α :=
  ((outputs.drop from_).take length).filterMap id

variable {recipes : List α} {first interval start : Int} {position : Nat}

theorem turnOf_succ (k : Nat) :
    turnOf recipes first interval start position (k + 1) =
      turnOf recipes first interval (start + 1)
        (position + if IsDue first interval start then 1 else 0) k := by
  have hshift : ∀ i : Nat, start + ((i + 1 : Nat) : Int) = start + 1 + i := by
    intro i
    push_cast
    omega
  have hzero : start + ((0 : Nat) : Int) = start := by
    rw [Nat.cast_zero, Int.add_zero]
  rw [turnOf, turnOf, turns, turns, Nat.count_succ']
  simp only [hshift, hzero]
  rw [Nat.add_comm (Nat.count _ k), Nat.add_assoc]

theorem turns_window (hinterval : 0 < interval) {k : Nat} (hk : first ≤ start + k) (rounds : Nat) :
    turns first interval start (k + rounds * interval.toNat) =
      turns first interval start k + rounds := by
  rw [turns, Nat.count_add, ← turns]
  congr 1
  obtain ⟨r, rfl⟩ := Int.eq_ofNat_of_zero_le hinterval.le
  obtain ⟨x, hx⟩ := Int.eq_ofNat_of_zero_le (sub_nonneg.mpr hk)
  rw [Int.toNat_natCast]
  have hr : 0 < r := by omega
  -- the steps that are due are those of one residue
  have hiff : ∀ i : Nat, IsDue first r (start + ((k + i : Nat) : Int)) ↔
      i ≡ r - x % r [MOD r] := by
    intro i
    have hshift : start + ((k + i : Nat) : Int) - first = ((x + i : Nat) : Int) := by
      push_cast
      omega
    have hdue : IsDue first r (start + ((k + i : Nat) : Int)) ↔ (x + i) % r = 0 := by
      rw [IsDue, hshift]
      constructor
      · intro h
        exact_mod_cast h.2
      · intro h
        exact ⟨by push_cast; omega, by exact_mod_cast h⟩
    have hlt := Nat.mod_lt x hr
    have hzero : x + (r - x % r) ≡ 0 [MOD r] := by
      have hsplit := Nat.div_add_mod x r
      have hsum : x + (r - x % r) = r * (x / r + 1) := by
        rw [Nat.mul_add, Nat.mul_one]
        omega
      rw [hsum]
      exact (Nat.modEq_zero_iff_dvd.mpr (Dvd.intro _ rfl))
    rw [hdue, ← Nat.dvd_iff_mod_eq_zero, ← Nat.modEq_zero_iff_dvd]
    constructor
    · intro h
      exact Nat.ModEq.add_left_cancel' x (h.trans hzero.symm)
    · intro h
      exact (Nat.ModEq.add_left x h).trans hzero
  simp only [hiff]
  rw [Nat.count_modEq_card (rounds * r) hr, Nat.mul_div_cancel _ hr, Nat.mul_mod_left,
    if_neg (Nat.not_lt_zero _), Nat.add_zero]

variable (recipes first interval start position) in
/-- The turns of some steps are taken one after another. -/
theorem filterMap_turnOf (k m : Nat) :
    (List.range' k m).filterMap (turnOf recipes first interval start position) =
      (List.range' (position + turns first interval start k)
        (turns first interval start (k + m) - turns first interval start k)).filterMap
          fun j => recipes[j % recipes.length]? := by
  induction m with
  | zero => simp
  | succ m ih =>
      rw [List.range'_1_concat, List.filterMap_append, ih, ← Nat.add_assoc, turns, turns, turns,
        Nat.count_succ]
      have hle := Nat.count_monotone (fun i : Nat => IsDue first interval (start + i))
        (Nat.le_add_right k m)
      split
      · rename_i hdue
        rw [Nat.sub_add_comm hle, List.range'_1_concat, List.filterMap_append]
        congr 1
        have hlast : position + Nat.count (fun i : Nat => IsDue first interval (start + i)) k +
            (Nat.count (fun i : Nat => IsDue first interval (start + i)) (k + m) -
              Nat.count (fun i : Nat => IsDue first interval (start + i)) k) =
            position + turns first interval start (k + m) := by
          rw [turns]
          omega
        rw [hlast, List.filterMap_cons, turnOf, if_pos hdue]
        rfl
      · rename_i hnot
        rw [Nat.add_zero, List.filterMap_cons, turnOf, if_neg hnot]
        exact List.append_nil _

/-- As many turns as there are recipes are a rotation of them. -/
theorem filterMap_round (q : Nat) :
    (List.range' q recipes.length).filterMap (fun j => recipes[j % recipes.length]?) =
      recipes.rotate q := by
  have hsome : (List.range' q recipes.length).map (fun j => recipes[j % recipes.length]?) =
      (recipes.rotate q).map some := by
    refine List.ext_getElem (by simp) fun i hi _ => ?_
    rw [List.getElem_map, List.getElem_map, List.getElem_range', List.getElem_rotate,
      Nat.one_mul, Nat.add_comm, List.getElem?_eq_getElem]
  have hid := congrArg (List.filterMap id) hsome
  simpa [List.filterMap_map] using hid

/-- **In a window of a full round each has one turn.** -/
theorem window_perm (hinterval : 0 < interval) {a L : Nat} (ha : first ≤ start + a)
    (hL : a + recipes.length * interval.toNat ≤ L) :
    (window ((List.range L).map (turnOf recipes first interval start position)) a
      (recipes.length * interval.toNat)).Perm recipes := by
  rw [window, List.range_eq_range', ← List.map_drop, ← List.map_take, List.drop_range',
    List.take_range'_of_length_ge (by omega), List.filterMap_map]
  have hround := filterMap_turnOf recipes first interval start position a
    (recipes.length * interval.toNat)
  rw [turns_window hinterval ha, Nat.add_sub_cancel_left, filterMap_round] at hround
  rw [Nat.zero_add, Nat.mul_one]
  exact hround ▸ List.rotate_perm recipes _

end Turns

end LmResiliency.Rotation
