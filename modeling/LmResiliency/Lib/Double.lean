/-
# Double — the value of a number's text

`float(text)` and `float(n)`, as the language reference describes them: the exact
decimal, rounded to the nearest double, ties to the even one.  There is no value for
`nan`, for an infinity, and for a number that rounds to one.
-/
import LmResiliency.Lib.Json
import Mathlib.Data.Int.Log
import Mathlib.Data.Rat.Floor

namespace LmResiliency.Double

/-- The nearest integer, ties to the even one. -/
def roundHalfEven (q : ℚ) : Int :=
  let low := ⌊q⌋
  let rest := q - low
  if rest < 1 / 2 then low
  else if 1 / 2 < rest then low + 1
  else if low % 2 = 0 then low
  else low + 1

/-- How far the doubles around a number are from each other. -/
def spacing (q : ℚ) : ℚ := 2 ^ max (Int.log 2 |q| - 52) (-1074)

/-- The nearest double, if it is finite. -/
def nearest (q : ℚ) : Option ℚ :=
  let rounded := roundHalfEven (q / spacing q) * spacing q
  if |rounded| < 2 ^ 1024 then some rounded else none

/-- The exponent of a number, none when what follows the digits is no exponent. -/
def exponent : List Char → Option Int
  | [] => some 0
  | e :: r =>
      if e = 'e' ∨ e = 'E' then
        match Json.readSign r with
        | (sign, r) =>
            match Json.spanDigits r with
            | ([], _) => none
            | (ds, []) =>
                let n : Int := Nat.ofDigitChars 10 ds 0
                some (if sign = ['-'] then -n else n)
            | (_, _ :: _) => none
      else none

/-- The fraction digits after an integer part, and what follows them. -/
def fraction : List Char → List Char × List Char
  | '.' :: r => Json.spanDigits r
  | r => ([], r)

/-- The decimal that a number's text stands for. -/
def decimal (text : String) : Option ℚ :=
  let (negative, cs) := Json.readMinus text.toList
  let (whole, r) := Json.spanDigits cs
  let (frac, r) := fraction r
  if whole = [] then none
  else
    (exponent r).map fun (e : Int) =>
      let magnitude : ℚ := Nat.ofDigitChars 10 (whole ++ frac) 0 * 10 ^ (e - (frac.length : Int))
      if negative then -magnitude else magnitude

/-- `float(text)`, if it is finite. -/
def ofText (text : String) : Option ℚ := (decimal text).bind nearest

/-- `float(n)`; `OverflowError` when there is no value. -/
def ofInt (n : Int) : Option ℚ := nearest n

end LmResiliency.Double
