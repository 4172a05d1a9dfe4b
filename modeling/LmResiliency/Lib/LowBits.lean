/-
# LowBits — words that agree in their low bits

Words of `w` bits, of which two agree in the low `m` bits.  Exclusive or with
one word keeps what two words agree in, both ways; multiplication by an odd
number does too, and by an even number it shifts it up.
-/
import Mathlib.Data.Nat.Bitwise
import Mathlib.NumberTheory.Padics.PadicVal.Basic
import Mathlib.RingTheory.Coprime.Lemmas

namespace LmResiliency

variable {w m : Nat} {a b : BitVec w}

/-- The low `m` bits of two words are equal. -/
def LowEq (m : Nat) (a b : BitVec w) : Prop := a.toNat % 2 ^ m = b.toNat % 2 ^ m

instance : Decidable (LowEq m a b) := inferInstanceAs (Decidable (_ = _))

theorem lowEq_width : LowEq w a b ↔ a = b := by
  rw [LowEq, Nat.mod_eq_of_lt a.isLt, Nat.mod_eq_of_lt b.isLt]
  exact BitVec.toNat_inj

theorem LowEq.refl (m : Nat) (a : BitVec w) : LowEq m a a := rfl

@[simp] theorem lowEq_xor_right (c : BitVec w) : LowEq m (a ^^^ c) (b ^^^ c) ↔ LowEq m a b := by
  rw [LowEq, BitVec.toNat_xor, BitVec.toNat_xor, Nat.xor_mod_two_pow, Nat.xor_mod_two_pow]
  constructor
  · intro h
    have hcancel := congrArg (· ^^^ c.toNat % 2 ^ m) h
    simp only [Nat.xor_xor_cancel_right] at hcancel
    exact hcancel
  · intro h
    rw [show a.toNat % 2 ^ m = b.toNat % 2 ^ m from h]

@[simp] theorem lowEq_xor_left (c : BitVec w) : LowEq m (c ^^^ a) (c ^^^ b) ↔ LowEq m a b := by
  rw [BitVec.xor_comm c, BitVec.xor_comm c, lowEq_xor_right]

/-- Congruence of products modulo a power of two. -/
theorem two_pow_dvd_mul_iff {c : Nat} (hc : c ≠ 0) (m : Nat) (d : Int) :
    ((2 ^ m : Nat) : Int) ∣ d * c ↔ ((2 ^ (m - padicValNat 2 c) : Nat) : Int) ∣ d := by
  obtain ⟨v, q, hq, rfl⟩ := Nat.exists_eq_two_pow_mul_odd hc
  have hval : padicValNat 2 (2 ^ v * q) = v := by
    rw [padicValNat.mul (by positivity) hq.pos.ne', padicValNat.prime_pow,
      padicValNat.eq_zero_of_not_dvd hq.not_two_dvd_nat, Nat.add_zero]
  have hcop : IsCoprime ((2 ^ m : Nat) : Int) (q : Int) :=
    Nat.isCoprime_iff_coprime.mpr (Nat.Coprime.pow_left m hq.coprime_two_left)
  rw [hval, Nat.cast_mul, ← mul_assoc]
  have hodd : ((2 ^ m : Nat) : Int) ∣ d * (2 ^ v : Nat) * q ↔
      ((2 ^ m : Nat) : Int) ∣ d * (2 ^ v : Nat) :=
    ⟨hcop.dvd_of_dvd_mul_right, fun h => h.mul_right _⟩
  rw [hodd]
  rcases Nat.le_total v m with hle | hle
  · have hpow : ((2 ^ m : Nat) : Int) = (2 ^ (m - v) : Nat) * (2 ^ v : Nat) := by
      rw [← Nat.cast_mul, ← pow_add, Nat.sub_add_cancel hle]
    rw [hpow]
    exact Int.mul_dvd_mul_iff_right (by positivity)
  · have hpow : ((2 ^ v : Nat) : Int) = (2 ^ m : Nat) * (2 ^ (v - m) : Nat) := by
      rw [← Nat.cast_mul, ← pow_add, Nat.add_sub_cancel' hle]
    rw [Nat.sub_eq_zero_of_le hle, hpow]
    refine iff_of_true ?_ ?_
    · exact Dvd.dvd.mul_left (dvd_mul_right _ _) _
    · simp

/-- **Multiplication loses the high bits that it shifts out.** -/
theorem lowEq_mul (hm : m ≤ w) {c : Nat} (hc : c ≠ 0) :
    LowEq m (a * BitVec.ofNat w c) (b * BitVec.ofNat w c) ↔ LowEq (m - padicValNat 2 c) a b := by
  have hmod : ∀ x : BitVec w, (x * BitVec.ofNat w c).toNat % 2 ^ m = x.toNat * c % 2 ^ m := by
    intro x
    rw [BitVec.toNat_mul, Nat.mod_mod_of_dvd _ (pow_dvd_pow 2 hm), BitVec.toNat_ofNat,
      Nat.mul_mod, Nat.mod_mod_of_dvd _ (pow_dvd_pow 2 hm), ← Nat.mul_mod]
  have hdvd : ∀ (k x y : Nat), x % 2 ^ k = y % 2 ^ k ↔ ((2 ^ k : Nat) : Int) ∣ (y : Int) - x :=
    fun k x y => Nat.modEq_iff_dvd
  rw [LowEq, LowEq, hmod, hmod, hdvd, hdvd, ← two_pow_dvd_mul_iff hc]
  push_cast
  rw [sub_mul]

end LmResiliency
