/-
# PyFloat — measured values and their comparisons

A Python float as a measurement gives it: a finite value, one of the
infinities, or `nan`, which no comparison is true of.  Finite values are
rationals and are not rounded.
-/
import Mathlib.Algebra.Order.Field.Rat
import Mathlib.Order.WithBot

namespace LmResiliency

/-- A float. -/
inductive PyFloat where
  | nan
  | finite (q : ℚ)
  | inf (negative : Bool)
deriving DecidableEq

namespace PyFloat

/-- `x < y`. -/
def lt : PyFloat → PyFloat → Bool
  | finite a, finite b => a < b
  | finite _, inf negative => !negative
  | inf negative, finite _ => negative
  | inf true, inf false => true
  | _, _ => false

/-- `k * x`. -/
def scale (k : ℚ) : PyFloat → PyFloat
  | nan => nan
  | finite q => finite (k * q)
  | inf negative => if k = 0 then nan else inf (if k < 0 then !negative else negative)

/-- `-x`. -/
def neg : PyFloat → PyFloat
  | nan => nan
  | finite q => finite (-q)
  | inf negative => inf (!negative)

/-- `x + y`. -/
def add : PyFloat → PyFloat → PyFloat
  | finite a, finite b => finite (a + b)
  | finite _, inf negative => inf negative
  | inf negative, finite _ => inf negative
  | inf m, inf n => if m = n then inf m else nan
  | _, _ => nan

/-- `x - y`. -/
def sub (x y : PyFloat) : PyFloat := add x (neg y)

/-- `math.isfinite(x)`. -/
def isFinite : PyFloat → Bool
  | finite _ => true
  | _ => false

/-- `min(x, *xs)`: a later value takes the place of the first when it is less. -/
def minimum (x : PyFloat) (xs : List PyFloat) : PyFloat :=
  xs.foldl (fun least y => if lt y least then y else least) x

@[simp] theorem lt_nan (x : PyFloat) : lt x nan = false := by cases x <;> rfl

@[simp] theorem nan_lt (x : PyFloat) : lt nan x = false := by cases x <;> rfl

@[simp] theorem scale_finite (k q : ℚ) : scale k (finite q) = finite (k * q) := rfl

@[simp] theorem add_finite (a b : ℚ) : add (finite a) (finite b) = finite (a + b) := rfl

@[simp] theorem sub_finite (a b : ℚ) : sub (finite a) (finite b) = finite (a - b) := by
  rw [sub, neg, add, sub_eq_add_neg]

theorem finite_of_sub {x y : PyFloat} (h : (sub x y).isFinite = true) :
    ∃ a b, x = finite a ∧ y = finite b := by
  cases x with
  | nan => cases y <;> cases h
  | finite a =>
      cases y with
      | nan => cases h
      | finite b => exact ⟨a, b, rfl, rfl⟩
      | inf n => cases h
  | inf m =>
      cases y with
      | nan => cases h
      | finite b => cases h
      | inf n => cases m <;> cases n <;> cases h

/-- Where a number stands among the numbers; `nan` has no place of its own. -/
def place : PyFloat → WithBot (WithTop ℚ)
  | nan => ⊥
  | finite q => ((q : WithTop ℚ) : WithBot (WithTop ℚ))
  | inf true => ⊥
  | inf false => ((⊤ : WithTop ℚ) : WithBot (WithTop ℚ))

theorem lt_iff {x y : PyFloat} (hx : x ≠ nan) (hy : y ≠ nan) :
    lt x y = true ↔ place x < place y := by
  cases x with
  | nan => exact absurd rfl hx
  | finite a =>
      cases y with
      | nan => exact absurd rfl hy
      | finite b => simp [lt, place]
      | inf n =>
          cases n with
          | false => exact iff_of_true rfl (WithBot.coe_lt_coe.mpr (WithTop.coe_lt_top a))
          | true => exact iff_of_false Bool.false_ne_true not_lt_bot
  | inf m =>
      cases y with
      | nan => exact absurd rfl hy
      | finite b => cases m <;> simp [lt, place]
      | inf n => cases m <;> cases n <;> simp [lt, place]

theorem ne_nan_of_lt {x y : PyFloat} (h : lt x y = true) : x ≠ nan ∧ y ≠ nan := by
  constructor
  · rintro rfl
    rw [nan_lt] at h
    cases h
  · rintro rfl
    rw [lt_nan] at h
    cases h

/-! ## The minimum -/

theorem minimum_nan (xs : List PyFloat) : minimum nan xs = nan := by
  induction xs with
  | nil => rfl
  | cons y ys ih =>
      rw [minimum, List.foldl_cons, lt_nan]
      exact ih

/-- **The minimum stands lowest**, when the first value is a number. -/
theorem minimum_spec {x : PyFloat} (hx : x ≠ nan) (xs : List PyFloat) :
    minimum x xs ≠ nan ∧ minimum x xs ∈ x :: xs ∧
      ∀ y ∈ x :: xs, y ≠ nan → place (minimum x xs) ≤ place y := by
  induction xs generalizing x with
  | nil =>
      refine ⟨hx, List.mem_singleton.mpr rfl, fun y hy _ => ?_⟩
      rw [List.mem_singleton.mp hy]
      exact le_rfl
  | cons z zs ih =>
      rw [minimum, List.foldl_cons, ← minimum]
      by_cases hz : lt z x = true
      · obtain ⟨hnan, -⟩ := ne_nan_of_lt hz
        obtain ⟨hne, hmem, hle⟩ := ih hnan
        rw [if_pos hz]
        refine ⟨hne, List.mem_cons_of_mem x hmem, List.forall_mem_cons.mpr ⟨fun _ => ?_, hle⟩⟩
        exact (hle z List.mem_cons_self hnan).trans ((lt_iff hnan hx).mp hz).le
      · obtain ⟨hne, hmem, hle⟩ := ih hx
        rw [if_neg hz]
        refine ⟨hne, ?_, List.forall_mem_cons.mpr ⟨hle x List.mem_cons_self,
          List.forall_mem_cons.mpr ⟨fun hnan => ?_, fun y hy => hle y (List.mem_cons_of_mem x hy)⟩⟩⟩
        · rcases List.mem_cons.mp hmem with h | h
          · exact List.mem_cons.mpr (Or.inl h)
          · exact List.mem_cons_of_mem x (List.mem_cons_of_mem z h)
        · rw [lt_iff hnan hx, not_lt] at hz
          exact (hle x List.mem_cons_self hx).trans hz

end PyFloat

end LmResiliency
