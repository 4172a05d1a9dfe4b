/-
# Streak — a name counted while it is repeated

A monitor is asked round after round.  A round names something, names nothing,
or is not answered at all.  The count of the name goes up with every answered
round that names it again, and starts over with any other answer; a round that
is not answered leaves it alone.  So the count speaks of the answered rounds.
-/
import Mathlib.Data.List.Basic

namespace LmResiliency.Streak

variable {R F : Type}

/-- What is among the last `n` calls, by the calls after it. -/
theorem mem_take_iff {calls : List R} {n : Nat} {r : R} :
    r ∈ calls.take n ↔ ∃ later earlier, calls = later ++ r :: earlier ∧ later.length < n := by
  constructor
  · intro h
    obtain ⟨later, rest, hsplit⟩ := List.append_of_mem h
    refine ⟨later, rest ++ calls.drop n, ?_, ?_⟩
    · calc calls = calls.take n ++ calls.drop n := (List.take_append_drop n calls).symm
        _ = later ++ r :: (rest ++ calls.drop n) := by
            rw [hsplit, List.append_assoc, List.cons_append]
    · have hlen := congrArg List.length hsplit
      rw [List.length_take, List.length_append, List.length_cons] at hlen
      omega
  · rintro ⟨later, earlier, rfl, hlater⟩
    rw [List.take_append, List.mem_append]
    obtain ⟨m, hm⟩ := Nat.exists_eq_add_of_lt hlater
    exact Or.inr (by rw [hm, show later.length + m + 1 - later.length = m + 1 by omega]; simp)

/-! ## Answered rounds -/

section Answers

variable (judge : R → Option (Option F))

/-- The rounds that are answered. -/
def answers (calls : List R) : List R := calls.filter fun r => (judge r).isSome

/-- The last `n` answered rounds name `f`. -/
def Held (n : Nat) (calls : List R) (f : F) : Prop :=
  n ≤ (answers judge calls).length ∧
    ∀ r ∈ (answers judge calls).take n, judge r = some (some f)

variable {judge}

theorem answers_cons_of_answered {r : R} {a : Option F} (h : judge r = some a)
    (earlier : List R) : answers judge (r :: earlier) = r :: answers judge earlier :=
  List.filter_cons_of_pos (by rw [h]; rfl)

theorem answers_cons_of_not {r : R} (h : judge r = none) (earlier : List R) :
    answers judge (r :: earlier) = answers judge earlier :=
  List.filter_cons_of_neg (by rw [h]; exact Bool.false_ne_true)

theorem held_succ_cons {r : R} {a : Option F} (h : judge r = some a) {earlier : List R} {n : Nat}
    {f : F} : Held judge (n + 1) (r :: earlier) f ↔ a = some f ∧ Held judge n earlier f := by
  rw [Held, Held, answers_cons_of_answered h, List.length_cons, List.take_succ_cons,
    Nat.add_le_add_iff_right, List.forall_mem_cons, h, Option.some.injEq, and_left_comm]

/-- Where every call is answered, the answered rounds are the calls. -/
theorem take_answers {calls : List R} {n : Nat} (h : ∀ r ∈ calls.take n, judge r ≠ none) :
    (answers judge calls).take n = calls.take n := by
  induction calls generalizing n with
  | nil => rfl
  | cons r earlier ih =>
      cases n with
      | zero => rfl
      | succ n =>
          rw [List.take_succ_cons, List.forall_mem_cons] at h
          obtain ⟨a, ha⟩ := Option.ne_none_iff_exists'.mp h.1
          rw [answers_cons_of_answered ha, List.take_succ_cons, List.take_succ_cons, ih h.2]

/-- When the last `n` calls named `f`: the last answered ones did, and each call
before the last one was answered. -/
theorem take_named_iff {r : R} {earlier : List R} {n : Nat} (hn : 0 < n) {f : F}
    (hr : judge r = some (some f)) :
    (n ≤ (r :: earlier).length ∧ ∀ q ∈ (r :: earlier).take n, judge q = some (some f)) ↔
      Held judge n (r :: earlier) f ∧ ∀ q ∈ earlier.take (n - 1), judge q ≠ none := by
  obtain ⟨m, rfl⟩ := Nat.exists_eq_add_one.mpr hn
  rw [Nat.add_sub_cancel]
  constructor
  · rintro ⟨hlen, hall⟩
    have hanswered : ∀ q ∈ (r :: earlier).take (m + 1), judge q ≠ none := fun q hq => by
      rw [hall q hq]
      exact Option.some_ne_none _
    have htake := take_answers hanswered
    refine ⟨⟨?_, htake ▸ hall⟩, fun q hq => hanswered q ?_⟩
    · have hlength := congrArg List.length htake
      rw [List.length_take, List.length_take, Nat.min_eq_left hlen] at hlength
      omega
    · rw [List.take_succ_cons]
      exact List.mem_cons_of_mem r hq
  · rintro ⟨⟨hlen, hall⟩, hanswered⟩
    refine ⟨Nat.le_trans hlen (List.length_filter_le _ _), ?_⟩
    have htake : (answers judge (r :: earlier)).take (m + 1) = (r :: earlier).take (m + 1) := by
      refine take_answers ?_
      rw [List.take_succ_cons, List.forall_mem_cons, hr]
      exact ⟨Option.some_ne_none _, hanswered⟩
    rw [← htake]
    exact hall

end Answers

/-! ## The count -/

/-- The name that is counted, and how often it has been named in a row. -/
structure Count (F : Type) where
  last : Option F
  streak : Nat

/-- Nothing is counted. -/
def Count.reset : Count F := ⟨none, 0⟩

variable [DecidableEq F]

/-- A name is counted. -/
def Count.next (c : Count F) (f : F) : Count F :=
  ⟨some f, if c.last = some f then c.streak + 1 else 1⟩

/-- The count after a round: not answered, answered without a name, or with one. -/
def Count.after (c : Count F) : Option (Option F) → Count F
  | none => c
  | some none => .reset
  | some (some f) => c.next f

/-- The count after the rounds, the last one first. -/
def run (judge : R → Option (Option F)) : List R → Count F
  | [] => .reset
  | r :: earlier => (run judge earlier).after (judge r)

variable {judge : R → Option (Option F)}

/-- **The count is that of the last answered rounds that name `f`.** -/
theorem count_iff {calls : List R} {n : Nat} (hn : 0 < n) {f : F} :
    (run judge calls).last = some f ∧ n ≤ (run judge calls).streak ↔ Held judge n calls f := by
  induction calls generalizing n with
  | nil =>
      refine iff_of_false (fun h => ?_) fun h => ?_
      · cases h.1
      · exact absurd h.1 (Nat.not_le.mpr hn)
  | cons r earlier ih =>
      rw [run]
      obtain ⟨m, rfl⟩ := Nat.exists_eq_add_one.mpr hn
      match hr : judge r with
      | none =>
          rw [Count.after, ih hn, Held, Held, answers_cons_of_not hr]
      | some none =>
          rw [held_succ_cons hr]
          exact iff_of_false (fun h => by cases h.1) fun h => by cases h.1
      | some (some g) =>
          rw [held_succ_cons hr, Count.after, Count.next]
          refine and_congr_right fun hgf => ?_
          obtain rfl : g = f := Option.some.inj hgf
          rcases Nat.eq_zero_or_pos m with rfl | hm
          · refine iff_of_true ?_ ⟨Nat.zero_le _, fun _ h => by cases h⟩
            dsimp only
            split <;> omega
          · rw [← ih hm]
            dsimp only
            split
            · rename_i hlast
              rw [Nat.add_le_add_iff_right]
              exact ⟨fun h => ⟨hlast, h⟩, fun h => h.2⟩
            · rename_i hlast
              exact iff_of_false (by omega) fun h => hlast h.1

end LmResiliency.Streak
