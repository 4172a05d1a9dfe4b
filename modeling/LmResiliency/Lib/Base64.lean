/-
# Base64 — the standard alphabet, with padding

Three bytes make four letters; one or two bytes left at the end make a group
padded with `=`.  The reader is the validating one: letters of the alphabet
only, and padding only in the last group.  The low bits that a padded group
leaves over are not looked at, so several texts can denote the same bytes;
what `encode` writes is read back as it was.
-/
import Mathlib.Data.List.Basic

namespace LmResiliency.Base64

/-- The letter of a six-bit value. -/
def letter (n : Nat) : Char :=
  if n < 26 then Char.ofNat (n + 65)
  else if n < 52 then Char.ofNat (n + 71)
  else if n < 62 then Char.ofNat (n - 4)
  else if n = 62 then '+'
  else '/'

/-- The six-bit value of a letter. -/
def value? (c : Char) : Option Nat :=
  if 'A' ≤ c ∧ c ≤ 'Z' then some (c.toNat - 65)
  else if 'a' ≤ c ∧ c ≤ 'z' then some (c.toNat - 71)
  else if '0' ≤ c ∧ c ≤ '9' then some (c.toNat + 4)
  else if c = '+' then some 62
  else if c = '/' then some 63
  else none

/-- The first of three bytes, from the first two letters. -/
def byte₁ (p q : Nat) : UInt8 := UInt8.ofNat (p * 4 + q / 16)

/-- The second of three bytes, from the second and third letter. -/
def byte₂ (q r : Nat) : UInt8 := UInt8.ofNat (q % 16 * 16 + r / 4)

/-- The third of three bytes, from the last two letters. -/
def byte₃ (r s : Nat) : UInt8 := UInt8.ofNat (r % 4 * 64 + s)

/-- The letters of some bytes. -/
def encode : List UInt8 → List Char
  | [] => []
  | [a] => [letter (a.toNat / 4), letter (a.toNat % 4 * 16), '=', '=']
  | [a, b] =>
      [letter (a.toNat / 4), letter (a.toNat % 4 * 16 + b.toNat / 16),
        letter (b.toNat % 16 * 4), '=']
  | a :: b :: c :: data =>
      letter (a.toNat / 4) :: letter (a.toNat % 4 * 16 + b.toNat / 16) ::
        letter (b.toNat % 16 * 4 + c.toNat / 64) :: letter (c.toNat % 64) :: encode data

/-- The bytes of some letters, none when they are not a valid text. -/
def decode : List Char → Option (List UInt8)
  | [] => some []
  | c₁ :: c₂ :: c₃ :: c₄ :: text =>
      match value? c₁, value? c₂, value? c₃, value? c₄ with
      | some p, some q, some r, some s =>
          (decode text).map fun data => byte₁ p q :: byte₂ q r :: byte₃ r s :: data
      | some p, some q, some r, none =>
          if c₄ = '=' ∧ text = [] then some [byte₁ p q, byte₂ q r] else none
      | some p, some q, none, none =>
          if c₃ = '=' ∧ c₄ = '=' ∧ text = [] then some [byte₁ p q] else none
      | _, _, _, _ => none
  | _ => none

@[simp]
theorem value?_letter {n : Nat} (h : n < 64) : value? (letter n) = some n := by
  have hall : ∀ m < 64, value? (letter m) = some m := by decide
  exact hall n h

@[simp]
theorem value?_pad : value? '=' = none := rfl

/-! ## Bytes from six-bit values

The three bytes of a group, put together again from the values of its letters. -/

section Bytes

variable (a b c : UInt8)

theorem byte₁_split {q : Nat} (h : q / 16 = a.toNat % 4) : byte₁ (a.toNat / 4) q = a := by
  have hsum : a.toNat / 4 * 4 + q / 16 = a.toNat := by omega
  rw [byte₁, hsum, UInt8.ofNat_toNat]

theorem byte₂_split {q r : Nat} (hq : q % 16 = b.toNat / 16) (hr : r / 4 = b.toNat % 16) :
    byte₂ q r = b := by
  have hsum : q % 16 * 16 + r / 4 = b.toNat := by omega
  rw [byte₂, hsum, UInt8.ofNat_toNat]

theorem byte₃_split {r : Nat} (hr : r % 4 = c.toNat / 64) : byte₃ r (c.toNat % 64) = c := by
  have hsum : r % 4 * 64 + c.toNat % 64 = c.toNat := by omega
  rw [byte₃, hsum, UInt8.ofNat_toNat]

end Bytes

/-- **Round trip**: the bytes of the letters of some bytes are those bytes. -/
theorem decode_encode : ∀ data : List UInt8, decode (encode data) = some data
  | [] => rfl
  | [a] => by
      have ha := a.toNat_lt
      have h₁ : value? (letter (a.toNat / 4)) = some (a.toNat / 4) := value?_letter (by omega)
      have h₂ : value? (letter (a.toNat % 4 * 16)) = some (a.toNat % 4 * 16) :=
        value?_letter (by omega)
      have hbyte : byte₁ (a.toNat / 4) (a.toNat % 4 * 16) = a := byte₁_split a (by omega)
      simp only [encode, decode, h₁, h₂, value?_pad, and_self, if_true, hbyte]
  | [a, b] => by
      have ha := a.toNat_lt
      have hb := b.toNat_lt
      have h₁ : value? (letter (a.toNat / 4)) = some (a.toNat / 4) := value?_letter (by omega)
      have h₂ : value? (letter (a.toNat % 4 * 16 + b.toNat / 16)) =
          some (a.toNat % 4 * 16 + b.toNat / 16) := value?_letter (by omega)
      have h₃ : value? (letter (b.toNat % 16 * 4)) = some (b.toNat % 16 * 4) :=
        value?_letter (by omega)
      have hbyte₁ := byte₁_split a (q := a.toNat % 4 * 16 + b.toNat / 16) (by omega)
      have hbyte₂ := byte₂_split b (q := a.toNat % 4 * 16 + b.toNat / 16)
        (r := b.toNat % 16 * 4) (by omega) (by omega)
      simp only [encode, decode, h₁, h₂, h₃, value?_pad, and_self, if_true, hbyte₁, hbyte₂]
  | a :: b :: c :: data => by
      have ha := a.toNat_lt
      have hb := b.toNat_lt
      have hc := c.toNat_lt
      have h₁ : value? (letter (a.toNat / 4)) = some (a.toNat / 4) := value?_letter (by omega)
      have h₂ : value? (letter (a.toNat % 4 * 16 + b.toNat / 16)) =
          some (a.toNat % 4 * 16 + b.toNat / 16) := value?_letter (by omega)
      have h₃ : value? (letter (b.toNat % 16 * 4 + c.toNat / 64)) =
          some (b.toNat % 16 * 4 + c.toNat / 64) := value?_letter (by omega)
      have h₄ : value? (letter (c.toNat % 64)) = some (c.toNat % 64) := value?_letter (by omega)
      have hbyte₁ := byte₁_split a (q := a.toNat % 4 * 16 + b.toNat / 16) (by omega)
      have hbyte₂ := byte₂_split b (q := a.toNat % 4 * 16 + b.toNat / 16)
        (r := b.toNat % 16 * 4 + c.toNat / 64) (by omega) (by omega)
      have hbyte₃ := byte₃_split c (r := b.toNat % 16 * 4 + c.toNat / 64) (by omega)
      simp only [encode, decode, h₁, h₂, h₃, h₄, decode_encode data, Option.map_some, hbyte₁,
        hbyte₂, hbyte₃]

end LmResiliency.Base64
