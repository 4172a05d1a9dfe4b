/-
# Text — the handful of string operations the records are validated with

`str.strip`, `str(int)` and `int(str)` as the language reference describes
them, on `String` (a sequence of Unicode scalar values; a lone surrogate is
not a value of this type).  Three facts are what the rest uses: stripping
is idempotent, `str` is injective on integers, and `int` inverts it.
-/
import Mathlib.Data.List.DropRight
import Mathlib.Data.List.Sort

namespace LmResiliency.Text

/-- `str.isspace` of one character: the whitespace that `strip` removes. -/
def isSpace (c : Char) : Bool :=
  let n := c.toNat
  (9 ≤ n && n ≤ 13) || (28 ≤ n && n ≤ 32) || n == 0x85 || n == 0xa0 ||
    n == 0x1680 || (0x2000 ≤ n && n ≤ 0x200a) || n == 0x2028 || n == 0x2029 ||
    n == 0x202f || n == 0x205f || n == 0x3000

/-- `str.strip()` on the character list. -/
def stripChars (cs : List Char) : List Char :=
  (cs.dropWhile isSpace).rdropWhile isSpace

def strip (s : String) : String := String.ofList (stripChars s.toList)

/-- `bool(s.strip())`. -/
def nonBlank (s : String) : Bool := strip s != ""

theorem dropWhile_eq_self_of_head {p : Char → Bool} :
    ∀ {cs : List Char}, (∀ c ∈ cs.head?, p c = false) → cs.dropWhile p = cs
  | [], _ => rfl
  | c :: cs, h => by
      have hc : p c = false := h c rfl
      simp [hc]

theorem head?_dropWhile_false {p : Char → Bool} :
    ∀ (cs : List Char), ∀ c ∈ (cs.dropWhile p).head?, p c = false
  | [], _, h => by simp at h
  | d :: cs, c, h => by
      by_cases hd : p d = true
      · rw [List.dropWhile_cons_of_pos hd] at h
        exact head?_dropWhile_false cs c h
      · rw [List.dropWhile_cons_of_neg hd] at h
        simp only [List.head?_cons, Option.mem_def, Option.some.injEq] at h
        subst h
        simpa using hd

/-- Dropping from the right keeps the first character of what remains. -/
theorem head?_rdropWhile {p : Char → Bool} {cs : List Char} {c : Char}
    (h : c ∈ (cs.rdropWhile p).head?) : c ∈ cs.head? := by
  obtain ⟨t, ht⟩ := List.rdropWhile_prefix p cs
  cases hr : cs.rdropWhile p with
  | nil => rw [hr] at h; simp at h
  | cons d ds =>
      rw [hr] at h ht
      subst ht
      simpa using h

theorem stripChars_idem (cs : List Char) : stripChars (stripChars cs) = stripChars cs := by
  have hhead : (stripChars cs).dropWhile isSpace = stripChars cs :=
    dropWhile_eq_self_of_head fun c hc =>
      head?_dropWhile_false cs c (head?_rdropWhile hc)
  calc stripChars (stripChars cs)
      = (stripChars cs).rdropWhile isSpace := by rw [stripChars, hhead]
    _ = stripChars cs := List.rdropWhile_idempotent isSpace _

theorem strip_idem (s : String) : strip (strip s) = strip s := by
  simp only [strip, String.toList_ofList, stripChars_idem]

theorem nonBlank_strip (s : String) : nonBlank (strip s) = nonBlank s := by
  simp only [nonBlank, strip_idem]

/-- Text without whitespace is its own stripped form. -/
theorem stripChars_eq_self {cs : List Char} (h : ∀ c ∈ cs, isSpace c = false) :
    stripChars cs = cs := by
  have h1 : cs.dropWhile isSpace = cs :=
    dropWhile_eq_self_of_head fun c hc => h c (List.mem_of_mem_head? hc)
  have h2 : cs.rdropWhile isSpace = cs := by
    rw [List.rdropWhile, dropWhile_eq_self_of_head, List.reverse_reverse]
    exact fun c hc => h c (List.mem_reverse.mp (List.mem_of_mem_head? hc))
  rw [stripChars, h1, h2]

/-! ## Decimal integers -/

/-- `str(n)`. -/
def str (n : Int) : String :=
  String.ofList ((if n < 0 then ['-'] else []) ++ Nat.toDigits 10 n.natAbs)

/-- The digits after the first: single underscores between digits are allowed. -/
def readDigits (acc : Nat) : List Char → Option Nat
  | [] => some acc
  | '_' :: c :: cs =>
      if c.isDigit then readDigits (10 * acc + (c.toNat - '0'.toNat)) cs else none
  | c :: cs =>
      if c.isDigit then readDigits (10 * acc + (c.toNat - '0'.toNat)) cs else none

/-- An unsigned decimal: at least one digit. -/
def nat? : List Char → Option Nat
  | [] => none
  | c :: cs => if c.isDigit then readDigits (c.toNat - '0'.toNat) cs else none

/-- `int(s)`: surrounding whitespace, an optional sign, then digits. -/
def int? (s : String) : Option Int :=
  match stripChars s.toList with
  | '+' :: ds => (nat? ds).map Int.ofNat
  | '-' :: ds => (nat? ds).map fun (n : Nat) => -(n : Int)
  | ds => (nat? ds).map Int.ofNat

theorem isDigit_toNat {c : Char} (h : c.isDigit = true) : 48 ≤ c.toNat ∧ c.toNat ≤ 57 := by
  simpa [Char.isDigit, UInt32.le_iff_toNat_le] using h

theorem isSpace_eq_false_of_isDigit {c : Char} (h : c.isDigit = true) :
    isSpace c = false := by
  have hn := isDigit_toNat h
  simp only [isSpace, Bool.or_eq_false_iff, Bool.and_eq_false_iff,
    decide_eq_false_iff_not, beq_eq_false_iff_ne]
  omega

theorem readDigits_eq {acc : Nat} {cs : List Char} (h : ∀ c ∈ cs, c.isDigit = true) :
    readDigits acc cs = some (Nat.ofDigitChars 10 cs acc) := by
  induction cs generalizing acc with
  | nil => rfl
  | cons c cs ih =>
      have hc : c.isDigit = true := h c List.mem_cons_self
      have hne : c ≠ '_' := by rintro rfl; exact absurd hc (by decide)
      rw [readDigits]
      · rw [if_pos hc, ih fun d hd => h d (List.mem_cons_of_mem _ hd), Nat.ofDigitChars_cons]
      · exact fun d ds hcd _ => hne hcd

theorem nat?_toDigits (n : Nat) : nat? (Nat.toDigits 10 n) = some n := by
  have hall : ∀ c ∈ Nat.toDigits 10 n, c.isDigit = true := fun c hc =>
    Nat.isDigit_of_mem_toDigits (by decide) (by decide) hc
  have hval : Nat.ofDigitChars 10 (Nat.toDigits 10 n) 0 = n := Nat.ofDigitChars_ten_toDigits
  cases hd : Nat.toDigits 10 n with
  | nil => exact absurd hd Nat.toDigits_ne_nil
  | cons c cs =>
      rw [hd] at hall hval
      rw [nat?, if_pos (hall c List.mem_cons_self),
        readDigits_eq fun d hd => hall d (List.mem_cons_of_mem _ hd)]
      rw [Nat.ofDigitChars_cons, Nat.mul_zero, Nat.zero_add] at hval
      rw [hval]

theorem toList_str (n : Int) :
    (str n).toList = (if n < 0 then ['-'] else []) ++ Nat.toDigits 10 n.natAbs :=
  String.toList_ofList

theorem str_chars {n : Int} {c : Char} (h : c ∈ (str n).toList) :
    c = '-' ∨ c.isDigit = true := by
  rw [toList_str, List.mem_append] at h
  rcases h with h | h
  · left
    split at h
    · simpa using h
    · simp at h
  · exact Or.inr (Nat.isDigit_of_mem_toDigits (by decide) (by decide) h)

/-- **`int` inverts `str`.** -/
theorem int?_str (n : Int) : int? (str n) = some n := by
  have hsp : ∀ c ∈ (str n).toList, isSpace c = false := fun c hc => by
    rcases str_chars hc with rfl | hd
    · decide
    · exact isSpace_eq_false_of_isDigit hd
  rw [int?, stripChars_eq_self hsp, toList_str]
  have hnat := nat?_toDigits n.natAbs
  by_cases hn : n < 0
  · have hneg : -(n.natAbs : Int) = n := by omega
    simp only [if_pos hn, List.cons_append, List.nil_append, hnat, Option.map_some, hneg]
  · have hdig : ∀ c ∈ Nat.toDigits 10 n.natAbs, c.isDigit = true := fun c hc =>
      Nat.isDigit_of_mem_toDigits (by decide) (by decide) hc
    simp only [if_neg hn, List.nil_append]
    split
    · rename_i heq
      exact absurd (hdig '+' (by rw [heq]; exact List.mem_cons_self)) (by decide)
    · rename_i heq
      exact absurd (hdig '-' (by rw [heq]; exact List.mem_cons_self)) (by decide)
    · rw [hnat, Option.map_some, Option.some.injEq]
      exact Int.natAbs_of_nonneg (Int.not_lt.mp hn)

theorem str_injective {m n : Int} (h : str m = str n) : m = n := by
  have h0 : int? (str m) = int? (str n) := congrArg int? h
  rw [int?_str, int?_str] at h0
  exact Option.some.inj h0

theorem str_ne_empty (n : Int) : str n ≠ "" := by
  intro h
  have h0 : int? (str n) = int? "" := congrArg int? h
  rw [int?_str, show int? "" = none from by decide] at h0
  exact absurd h0 (Option.some_ne_none n)

/-- A text is cut in one way at the first occurrence of a character. -/
theorem cut_unique {c : Char} {l₁ l₂ r₁ r₂ : List Char} (h₁ : c ∉ l₁) (h₂ : c ∉ l₂)
    (h : l₁ ++ c :: r₁ = l₂ ++ c :: r₂) : l₁ = l₂ ∧ r₁ = r₂ := by
  induction l₁ generalizing l₂ with
  | nil =>
      cases l₂ with
      | nil => exact ⟨rfl, (List.cons.inj h).2⟩
      | cons d l₂ => exact absurd ((List.cons.inj h).1 ▸ List.mem_cons_self) h₂
  | cons d l₁ ih =>
      cases l₂ with
      | nil => exact absurd ((List.cons.inj h).1 ▸ List.mem_cons_self) h₁
      | cons d' l₂ =>
          obtain ⟨rfl, htail⟩ := List.cons.inj h
          obtain ⟨rfl, hr⟩ := ih (List.not_mem_of_not_mem_cons h₁)
            (List.not_mem_of_not_mem_cons h₂) htail
          exact ⟨rfl, hr⟩

theorem notMem_str {n : Int} {c : Char} (hminus : c ≠ '-') (hdigit : c.isDigit = false) :
    c ∉ (str n).toList := by
  intro h
  rcases str_chars h with rfl | hd
  · exact hminus rfl
  · rw [hdigit] at hd
    cases hd

theorem minus_notMem_str (n : Nat) : '-' ∉ (str n).toList := by
  intro h
  rw [toList_str, if_neg (Int.not_lt.mpr (Int.natCast_nonneg n)), List.nil_append] at h
  exact absurd (Nat.isDigit_of_mem_toDigits (by decide) (by decide) h) (by decide)

end LmResiliency.Text
