/-
# Progression — finite arithmetic progressions

The first member of a progression from a number on, the inverse of a number
modulo another, and the numbers that two progressions share: without their ends
those are again a progression, whose step is the least common multiple.
-/
import Mathlib.Data.Int.GCD
import Mathlib.Tactic.LinearCombination
import Mathlib.Tactic.Ring

namespace LmResiliency.Progression

/-! ## Members -/

/-- The members of a progression: whole steps from the start, up to the end. -/
def Member (start stop step x : Int) : Prop := ∃ k, 0 ≤ k ∧ x = start + k * step ∧ x ≤ stop

section Members

variable {start stop step x : Int}

theorem member_iff (hstep : 0 < step) :
    Member start stop step x ↔ start ≤ x ∧ x ≤ stop ∧ step ∣ x - start := by
  constructor
  · rintro ⟨k, hk, rfl, hstop⟩
    have hmul := Int.mul_nonneg hk hstep.le
    exact ⟨by omega, hstop, ⟨k, by ring⟩⟩
  · rintro ⟨hstart, hstop, k, hk⟩
    have hx : x = start + k * step := by linear_combination hk
    refine ⟨k, ?_, hx, hstop⟩
    by_contra hneg
    have hmul := Int.mul_le_mul_of_nonneg_left (show k ≤ -1 by omega) hstep.le
    omega

/-- The least whole number of steps that reaches so far. -/
theorem steps_le_iff {e a k : Int} (he : 0 < e) : (a + e - 1) / e ≤ k ↔ a ≤ k * e := by
  rw [← Int.lt_add_one_iff, Int.ediv_lt_iff_lt_mul he, Int.add_mul]
  omega

/-- The first number from `low` on that is whole steps from `candidate`. -/
def alignUp (candidate step low : Int) : Int :=
  candidate + (low - candidate + step - 1) / step * step

theorem alignUp_spec (hstep : 0 < step) (candidate low : Int) :
    low ≤ alignUp candidate step low ∧ step ∣ alignUp candidate step low - candidate ∧
      ∀ y, low ≤ y → step ∣ y - candidate → alignUp candidate step low ≤ y := by
  set steps := (low - candidate + step - 1) / step with hsteps
  have hreach : low - candidate ≤ steps * step := (steps_le_iff hstep).mp (le_refl steps)
  have heq : alignUp candidate step low = candidate + steps * step := rfl
  refine ⟨by omega, ⟨steps, by rw [heq]; ring⟩, fun y hy hdvd => ?_⟩
  obtain ⟨k, hk⟩ := hdvd
  rw [Int.mul_comm] at hk
  have hle : steps ≤ k := (steps_le_iff hstep).mpr (by omega)
  have hmul := Int.mul_le_mul_of_nonneg_right hle hstep.le
  omega

/-- Whether there is one between two bounds, when `candidate` comes before all of them. -/
theorem align_le_iff (hstep : 0 < step) {candidate low high : Int}
    (hfirst : ∀ y, low ≤ y → step ∣ y - candidate → candidate ≤ y) :
    (if candidate < low then alignUp candidate step low else candidate) ≤ high ↔
      ∃ y, low ≤ y ∧ y ≤ high ∧ step ∣ y - candidate := by
  obtain ⟨hreach, hdvd, hleast⟩ := alignUp_spec hstep candidate low
  split
  · constructor
    · exact fun h => ⟨_, hreach, h, hdvd⟩
    · rintro ⟨y, hlow, hhigh, hy⟩
      exact (hleast y hlow hy).trans hhigh
  · rename_i hlow
    constructor
    · exact fun h => ⟨candidate, Int.not_lt.mp hlow, h, by rw [sub_self]; exact Int.dvd_zero _⟩
    · rintro ⟨y, hlow, hhigh, hy⟩
      exact (hfirst y hlow hy).trans hhigh

end Members

/-- `range(start, stop, step)` -/
def pyRange (start stop step : Int) : List Int :=
  (List.range ((stop - start + step - 1) / step).toNat).map fun k : Nat => start + k * step

theorem mem_pyRange {start stop step x : Int} (hstep : 0 < step) :
    x ∈ pyRange start (stop + 1) step ↔ Member start stop step x := by
  have hcount : ∀ k : Nat, k < ((stop + 1 - start + step - 1) / step).toNat ↔
      start + k * step ≤ stop := by
    intro k
    have h := steps_le_iff (a := stop + 1 - start) (k := k) hstep
    omega
  rw [pyRange, List.mem_map]
  constructor
  · rintro ⟨k, hk, rfl⟩
    exact ⟨k, Int.natCast_nonneg k, rfl, (hcount k).mp (List.mem_range.mp hk)⟩
  · rintro ⟨k, hk, rfl, hstop⟩
    have hk' := Int.toNat_of_nonneg hk
    refine ⟨k.toNat, List.mem_range.mpr ((hcount _).mpr ?_), ?_⟩
    · rwa [hk']
    · rw [hk']

/-! ## What two progressions share -/

/-- `pow(a, -1, m)`, for coprime numbers. -/
def modInverse (a m : Int) : Int := Int.gcdA a m % m

theorem modInverse_spec {a m : Int} (h : Int.gcd a m = 1) : m ∣ a * modInverse a m - 1 := by
  have hbezout := Int.gcd_eq_gcd_ab a m
  rw [h, Nat.cast_one] at hbezout
  refine ⟨- Int.gcdB a m - a * (Int.gcdA a m / m), ?_⟩
  have hmod := Int.mul_ediv_add_emod (Int.gcdA a m) m
  rw [modInverse]
  linear_combination a * hmod - hbezout

/-- Whole steps `a` from one number and whole steps `m` from another: the number of steps is
known modulo `m`, for coprime steps. -/
theorem dvd_mul_sub_iff {a m q k : Int} (h : Int.gcd a m = 1) :
    m ∣ a * k - q ↔ m ∣ k - q * modInverse a m % m := by
  obtain ⟨b, hinv⟩ := modInverse_spec h
  have hmod := Int.mul_ediv_add_emod (q * modInverse a m) m
  set e := q * modInverse a m / m
  constructor
  · rintro ⟨c, hc⟩
    refine ⟨c * modInverse a m - b * k + e, ?_⟩
    linear_combination (-k) * hinv + modInverse a m * hc - hmod
  · rintro ⟨f, hf⟩
    refine ⟨q * b + a * f - a * e, ?_⟩
    linear_combination q * hinv + a * hf + a * hmod

/-- The first number that two progressions without ends share, from the start of the left one
on, when there is one. -/
def firstShared (leftStart leftStep rightStart rightStep : Int) : Int :=
  let divisor : Int := Int.gcd leftStep rightStep
  leftStart + leftStep * ((rightStart - leftStart) / divisor *
    modInverse (leftStep / divisor) (rightStep / divisor) % (rightStep / divisor))

section Shared

variable {leftStart leftStep rightStart rightStep x : Int}

theorem gcd_reduced (hleft : 0 < leftStep) :
    Int.gcd (leftStep / Int.gcd leftStep rightStep) (rightStep / Int.gcd leftStep rightStep) = 1 :=
  Int.gcd_div_gcd_div_gcd (Int.gcd_pos_of_ne_zero_left _ hleft.ne')

theorem shared_iff (hleft : 0 < leftStep)
    (hdvd : (Int.gcd leftStep rightStep : Int) ∣ rightStart - leftStart) :
    (leftStep ∣ x - leftStart ∧ rightStep ∣ x - rightStart) ↔
      leftStep * (rightStep / Int.gcd leftStep rightStep) ∣
        x - firstShared leftStart leftStep rightStart rightStep := by
  have hcoprime : Int.gcd (leftStep / Int.gcd leftStep rightStep)
      (rightStep / Int.gcd leftStep rightStep) = 1 := gcd_reduced hleft
  have hpos : 0 < (Int.gcd leftStep rightStep : Int) :=
    Int.natCast_pos.mpr (Int.gcd_pos_of_ne_zero_left _ hleft.ne')
  have hl := Int.mul_ediv_cancel' (Int.gcd_dvd_left leftStep rightStep)
  have hr := Int.mul_ediv_cancel' (Int.gcd_dvd_right leftStep rightStep)
  have hd := Int.mul_ediv_cancel' hdvd
  rw [firstShared]
  set divisor := ((Int.gcd leftStep rightStep : Nat) : Int)
  set leftReduced := leftStep / divisor
  set rightReduced := rightStep / divisor
  set q := (rightStart - leftStart) / divisor
  set multiplier := q * modInverse leftReduced rightReduced % rightReduced
  have hstep : ∀ k, rightStep ∣ leftStart + leftStep * k - rightStart ↔
      rightReduced ∣ k - multiplier := by
    intro k
    have heq : leftStart + leftStep * k - rightStart = divisor * (leftReduced * k - q) := by
      linear_combination (-k) * hl + hd
    rw [← dvd_mul_sub_iff hcoprime, heq, ← hr]
    exact Int.mul_dvd_mul_iff_left hpos.ne'
  constructor
  · rintro ⟨⟨k, hk⟩, hright⟩
    have hx : x = leftStart + leftStep * k := by linear_combination hk
    rw [hx] at hright ⊢
    obtain ⟨c, hc⟩ := (hstep k).mp hright
    exact ⟨c, by linear_combination leftStep * hc⟩
  · rintro ⟨c, hc⟩
    have hx : x = leftStart + leftStep * (multiplier + rightReduced * c) := by
      linear_combination hc
    rw [hx]
    refine ⟨⟨_, add_sub_cancel_left _ _⟩, (hstep _).mpr ⟨c, by ring⟩⟩

/-- The first shared number comes before every other one from the left start on. -/
theorem firstShared_le (hleft : 0 < leftStep) (hright : 0 < rightStep)
    (hdvd : leftStep * (rightStep / Int.gcd leftStep rightStep) ∣
      x - firstShared leftStart leftStep rightStart rightStep) (hx : leftStart ≤ x) :
    firstShared leftStart leftStep rightStart rightStep ≤ x := by
  have hpos : 0 < (Int.gcd leftStep rightStep : Int) :=
    Int.natCast_pos.mpr (Int.gcd_pos_of_ne_zero_left _ hleft.ne')
  have hreduced : 0 < rightStep / Int.gcd leftStep rightStep :=
    Int.ediv_pos_of_pos_of_dvd hright hpos.le (Int.gcd_dvd_right leftStep rightStep)
  rw [firstShared] at hdvd ⊢
  set rightReduced := rightStep / Int.gcd leftStep rightStep
  set multiplier := (rightStart - leftStart) / ((Int.gcd leftStep rightStep : Nat) : Int) *
    modInverse (leftStep / ((Int.gcd leftStep rightStep : Nat) : Int)) rightReduced % rightReduced
  have hlt : multiplier < rightReduced := Int.emod_lt_of_pos _ hreduced
  obtain ⟨c, hc⟩ := hdvd
  have hx' : x - leftStart = leftStep * (multiplier + rightReduced * c) := by
    linear_combination hc
  have hsteps : 0 ≤ multiplier + rightReduced * c :=
    Int.nonneg_of_mul_nonneg_right (by rw [← hx']; omega) hleft
  have hc0 : 0 ≤ c := by
    by_contra hneg
    have hmul := Int.mul_le_mul_of_nonneg_left (show c ≤ -1 by omega) hreduced.le
    omega
  have hmul := Int.mul_nonneg (Int.mul_nonneg hleft.le hreduced.le) hc0
  omega

end Shared

end LmResiliency.Progression
