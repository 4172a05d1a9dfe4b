/-
# The reader inverts the writer

`loads (dumps v) = some (canon v)` for every value without floats whose
objects have no repeated field.  Three consequences are what record codecs
use: `dumps` determines `canon v`; the fields of `canon v` are those of
`v`; and looking a field up in `canon v` gives the `canon` of the field.

The induction follows the writer: one lemma for a character of a literal,
one for an integer, and a mutual induction for values, items and members
whose fuel is the length of the text.
-/
import Mathlib.Data.String.Basic
import LmResiliency.Lib.Json

namespace LmResiliency.Json

/-! ## Characters and literals -/

theorem hexVal_hexDigit : ∀ n < 16, hexVal (Nat.digitChar n) = some n := by
  decide

theorem readHex4_hex4 {n : Nat} (h : n < 65536) (r : List Char) :
    readHex4 (hex4 n ++ r) = some (n, r) := by
  have hd : ∀ m : Nat, hexVal (hexDigit m) = some (m % 16) := fun m =>
    hexVal_hexDigit (m % 16) (Nat.mod_lt _ (by decide))
  have hn : n / 4096 % 16 * 4096 + n / 256 % 16 * 256 + n / 16 % 16 * 16 + n % 16 = n := by
    omega
  simp only [hex4, List.cons_append, List.nil_append, readHex4, hd, hn]

theorem charOf_toNat (c : Char) : charOf c.toNat = some c := by
  have hv : c.toNat.isValidChar := c.valid
  rw [charOf, if_pos hv, Char.ofNat_toNat]

/-- A scalar below the surrogates or above them is not one of them. -/
theorem not_surrogate (c : Char) : ¬(0xd800 ≤ c.toNat ∧ c.toNat < 0xe000) := by
  have hv : c.toNat.isValidChar := c.valid
  simp only [Nat.isValidChar] at hv
  omega

theorem readUnicode_basic {c : Char} (h : c.toNat < 0x10000) (r : List Char) :
    readUnicode (hex4 c.toNat ++ r) = some (c, r) := by
  have hs := not_surrogate c
  rw [readUnicode, readHex4_hex4 h]
  simp only
  rw [if_neg (by omega), charOf_toNat]
  rfl

theorem readUnicode_pair {c : Char} (h : 0x10000 ≤ c.toNat) (r : List Char) :
    readUnicode (hex4 (0xd800 + (c.toNat - 0x10000) / 0x400) ++
      '\\' :: 'u' :: (hex4 (0xdc00 + (c.toNat - 0x10000) % 0x400) ++ r)) = some (c, r) := by
  have hv : c.toNat.isValidChar := c.valid
  simp only [Nat.isValidChar] at hv
  have hval : 0x10000 + (0xd800 + (c.toNat - 0x10000) / 0x400 - 0xd800) * 0x400 +
      (0xdc00 + (c.toNat - 0x10000) % 0x400 - 0xdc00) = c.toNat := by omega
  rw [readUnicode, readHex4_hex4 (by omega)]
  simp only
  rw [if_pos (by omega), readHex4_hex4 (by omega)]
  simp only
  rw [if_pos (by omega), hval, charOf_toNat]
  rfl

theorem readEscape_shortEscape {c e : Char} (h : shortEscapes.lookup c = some e)
    (r : List Char) : readEscape (e :: r) = some (c, r) := by
  have hmem : (c, e) ∈ shortEscapes := by
    obtain ⟨l₁, l₂, hl, -⟩ := List.lookup_eq_some_iff.mp h
    rw [hl]
    exact List.mem_append_right _ List.mem_cons_self
  simp only [shortEscapes, List.mem_cons, Prod.mk.injEq, List.not_mem_nil, or_false] at hmem
  rcases hmem with ⟨rfl, rfl⟩ | ⟨rfl, rfl⟩ | ⟨rfl, rfl⟩ | ⟨rfl, rfl⟩ | ⟨rfl, rfl⟩ |
    ⟨rfl, rfl⟩ | ⟨rfl, rfl⟩ <;> rfl

theorem readEscape_u (r : List Char) : readEscape ('u' :: r) = readUnicode r := rfl

theorem readStr_backslash {fuel : Nat} {cs r : List Char} {d : Char}
    (h : readEscape cs = some (d, r)) :
    readStr (fuel + 1) ('\\' :: cs) = (readStr fuel r).map fun (ds, r') => (d :: ds, r') := by
  rw [readStr, if_neg (by decide), if_pos rfl, h]

theorem readStr_plain {fuel : Nat} {c : Char} {r : List Char} (h : 32 ≤ c.toNat)
    (hq : c ≠ '"') (hb : c ≠ '\\') :
    readStr (fuel + 1) (c :: r) = (readStr fuel r).map fun (ds, r') => (c :: ds, r') := by
  rw [readStr, if_neg hq, if_neg hb, if_neg (Nat.not_lt.mpr h)]

/-- One written character is read back with one unit of fuel. -/
theorem readStr_escapeChar (fuel : Nat) (c : Char) (r : List Char) :
    readStr (fuel + 1) (escapeChar c ++ r) =
      (readStr fuel r).map fun (ds, r') => (c :: ds, r') := by
  rw [escapeChar]
  cases hl : shortEscapes.lookup c with
  | some e => exact readStr_backslash (readEscape_shortEscape hl r)
  | none =>
      have hq : c ≠ '"' := by rintro rfl; exact absurd hl (by decide)
      have hb : c ≠ '\\' := by rintro rfl; exact absurd hl (by decide)
      by_cases hp : 32 ≤ c.toNat ∧ c.toNat ≤ 126
      · simp only [if_pos hp]
        exact readStr_plain hp.1 hq hb
      by_cases hu : c.toNat < 0x10000
      · simp only [if_neg hp, if_pos hu]
        exact readStr_backslash ((readEscape_u _).trans (readUnicode_basic hu r))
      · simp only [if_neg hp, if_neg hu, List.append_assoc, List.cons_append]
        exact readStr_backslash ((readEscape_u _).trans (readUnicode_pair (Nat.not_lt.mp hu) r))

theorem readStr_flatMap (s : List Char) :
    ∀ {fuel : Nat} (r : List Char), s.length < fuel →
      readStr fuel (s.flatMap escapeChar ++ '"' :: r) = some (s, r) := by
  induction s with
  | nil =>
      intro fuel r hf
      obtain ⟨fuel, rfl⟩ := Nat.exists_eq_succ_of_ne_zero (Nat.ne_of_gt hf)
      simp [readStr]
  | cons c s ih =>
      intro fuel r hf
      obtain ⟨fuel, rfl⟩ := Nat.exists_eq_succ_of_ne_zero (Nat.ne_of_gt (Nat.zero_lt_of_lt hf))
      rw [List.flatMap_cons, List.append_assoc, readStr_escapeChar,
        ih r (by simpa using hf)]
      rfl

theorem length_escapeChar (c : Char) : 1 ≤ (escapeChar c).length := by
  rw [escapeChar]
  split
  · simp
  · simp only
    split
    · simp
    · split <;> simp

theorem length_flatMap_escapeChar (s : List Char) :
    s.length ≤ (s.flatMap escapeChar).length := by
  induction s with
  | nil => exact Nat.le_refl _
  | cons c s ih =>
      have hc := length_escapeChar c
      simp only [List.flatMap_cons, List.length_append, List.length_cons]
      omega

/-- A string literal is read back, with the fuel `read` gives it. -/
theorem readStr_writeStr (s : String) (r : List Char) :
    readStr ((s.toList.flatMap escapeChar ++ '"' :: r).length + 1)
      (s.toList.flatMap escapeChar ++ '"' :: r) = some (s.toList, r) := by
  have hl := length_flatMap_escapeChar s.toList
  exact readStr_flatMap _ r (by simp only [List.length_append]; omega)

/-! ## Integers -/

/-- What may follow a number without becoming part of it. -/
def Stops (r : List Char) : Prop :=
  ∀ c ∈ r.head?, c.isDigit = false ∧ c ≠ '.' ∧ c ≠ 'e' ∧ c ≠ 'E'

theorem stops_nil : Stops [] := fun _ h => by simp at h

theorem stops_cons {c : Char} {r : List Char}
    (h : c.isDigit = false ∧ c ≠ '.' ∧ c ≠ 'e' ∧ c ≠ 'E') : Stops (c :: r) := by
  intro d hd
  simp only [List.head?_cons, Option.mem_def, Option.some.injEq] at hd
  exact hd ▸ h

theorem spanDigits_append {ds r : List Char} (hd : ∀ c ∈ ds, c.isDigit = true)
    (hr : Stops r) : spanDigits (ds ++ r) = (ds, r) := by
  have hrw : r.takeWhile Char.isDigit = [] ∧ r.dropWhile Char.isDigit = r := by
    cases r with
    | nil => exact ⟨rfl, rfl⟩
    | cons c r => simp [(hr c rfl).1]
  rw [spanDigits, List.takeWhile_append_of_pos hd, List.dropWhile_append_of_pos hd, hrw.1,
    hrw.2, List.append_nil]

/-- A positive number is printed without a leading zero. -/
theorem head_toDigits_ne_zero {n : Nat} (h : n ≠ 0) : '0' ∉ (Nat.toDigits 10 n).head? := by
  induction n using Nat.strong_induction_on with
  | _ n ih =>
      by_cases hlt : n < 10
      · rw [Nat.toDigits_of_lt_base hlt]
        have hdig : ∀ m < 10, m ≠ 0 → '0' ≠ Nat.digitChar m := by decide
        simpa using (hdig n hlt h).symm
      · have hle : 10 ≤ n := Nat.not_lt.mp hlt
        rw [Nat.toDigits_of_base_le (by decide) hle]
        have hih := ih (n / 10) (by omega) (by omega)
        cases hd : Nat.toDigits 10 (n / 10) with
        | nil => exact absurd hd Nat.toDigits_ne_nil
        | cons d ds => rw [hd] at hih; simpa using hih

theorem readIntPart_toDigits (n : Nat) {r : List Char} (hr : Stops r) :
    readIntPart (Nat.toDigits 10 n ++ r) = some (Nat.toDigits 10 n, r) := by
  have hall : ∀ c ∈ Nat.toDigits 10 n, c.isDigit = true := fun c hc =>
    Nat.isDigit_of_mem_toDigits (by decide) (by decide) hc
  have hspan := spanDigits_append hall hr
  by_cases hn : n = 0
  · subst hn; rfl
  · have hz := head_toDigits_ne_zero hn
    cases hd : Nat.toDigits 10 n with
    | nil => exact absurd hd Nat.toDigits_ne_nil
    | cons d ds =>
        rw [hd] at hspan hz
        rw [readIntPart]
        · rw [hspan]
        · rintro q hq
          simp only [List.cons_append, List.cons.injEq] at hq
          exact hz (by simp [hq.1])

theorem readFraction_of_stops {r : List Char} (hr : Stops r) : readFraction r = ([], r) := by
  cases r with
  | nil => rfl
  | cons c r =>
      obtain ⟨-, hdot, he, hE⟩ := hr c rfl
      have hfrac : readFrac (c :: r) = ([], c :: r) := by
        rw [readFrac]
        exact fun q hq => hdot (List.cons.inj hq).1
      have hexp : readExponent (c :: r) = ([], c :: r) := by
        rw [readExponent, if_neg (by simp [he, hE])]
      simp only [readFraction, hfrac, hexp, List.append_nil]

theorem readMinus_str (n : Int) (r : List Char) :
    readMinus ((Text.str n).toList ++ r) =
      (decide (n < 0), Nat.toDigits 10 n.natAbs ++ r) := by
  rw [Text.toList_str]
  by_cases hn : n < 0
  · simp [hn, readMinus]
  · simp only [hn, if_false, List.nil_append, decide_false]
    rw [readMinus]
    intro q hq
    cases hd : Nat.toDigits 10 n.natAbs with
    | nil => exact absurd hd Nat.toDigits_ne_nil
    | cons d ds =>
        have hdig : d.isDigit = true :=
          Nat.isDigit_of_mem_toDigits (b := 10) (by decide) (by decide)
            (by rw [hd]; exact List.mem_cons_self)
        rw [hd, List.cons_append, List.cons.injEq] at hq
        rw [hq.1] at hdig
        exact absurd hdig (by decide)

theorem readNumber_str (n : Int) {r : List Char} (hr : Stops r) :
    readNumber ((Text.str n).toList ++ r) = some (int n, r) := by
  have hval : Nat.ofDigitChars 10 (Nat.toDigits 10 n.natAbs) 0 = n.natAbs :=
    Nat.ofDigitChars_ten_toDigits
  have hsign : (if decide (n < 0) = true then -(n.natAbs : Int) else n.natAbs) = n := by
    by_cases hn : n < 0
    · rw [if_pos (by simpa using hn)]; omega
    · rw [if_neg (by simpa using hn)]; omega
  simp only [readNumber, readMinus_str, readIntPart_toDigits n.natAbs hr,
    readFraction_of_stops hr, hval, hsign]

/-! ## Values -/

/-- The text of a float: read on its own, and as far as it goes whatever
follows it, it is a float kept as that text. -/
def FloatLiteral (l : String) : Prop :=
  ∀ hook fuel r, Stops r → read hook (fuel + 1) (l.toList ++ r) = some (float l, r)

mutual

/-- Every float is the text of one, and no object repeats a field. -/
def Readable : Json → Prop
  | float l => FloatLiteral l
  | arr vs => ReadableItems vs
  | obj ms => (keys ms).Nodup ∧ ReadableMembers ms
  | _ => True

/-- `Readable` of every item. -/
def ReadableItems : List Json → Prop
  | [] => True
  | v :: vs => Readable v ∧ ReadableItems vs

/-- `Readable` of every member's value. -/
def ReadableMembers : List (String × Json) → Prop
  | [] => True
  | (_, v) :: ms => Readable v ∧ ReadableMembers ms

end

mutual

/-- No float anywhere, and no repeated field in any object. -/
def Plain : Json → Prop
  | float _ => False
  | arr vs => PlainItems vs
  | obj ms => (keys ms).Nodup ∧ PlainMembers ms
  | _ => True

/-- `Plain` of every item. -/
def PlainItems : List Json → Prop
  | [] => True
  | v :: vs => Plain v ∧ PlainItems vs

/-- `Plain` of every member's value. -/
def PlainMembers : List (String × Json) → Prop
  | [] => True
  | (_, v) :: ms => Plain v ∧ PlainMembers ms

end

mutual

theorem Plain.readable : ∀ {v : Json}, Plain v → Readable v
  | .null, _ => trivial
  | .bool _, _ => trivial
  | .int _, _ => trivial
  | .float _, h => h.elim
  | .str _, _ => trivial
  | .arr _, h => readableItems_of_plain h
  | .obj _, h => ⟨h.1, readableMembers_of_plain h.2⟩

theorem readableItems_of_plain : ∀ {vs : List Json}, PlainItems vs → ReadableItems vs
  | [], _ => trivial
  | _ :: _, h => ⟨Plain.readable h.1, readableItems_of_plain h.2⟩

theorem readableMembers_of_plain : ∀ {ms : List (String × Json)},
    PlainMembers ms → ReadableMembers ms
  | [], _ => trivial
  | (_, _) :: _, h => ⟨Plain.readable h.1, readableMembers_of_plain h.2⟩

end

theorem skipWs_cons {c : Char} (h : isWs c = false) (r : List Char) :
    skipWs (c :: r) = c :: r := by
  rw [skipWs, List.dropWhile_cons_of_neg (by simp [h])]

theorem str_head (n : Int) : ∃ c cs, (Text.str n).toList = c :: cs ∧
    (c.isDigit = true ∨ (c = '-' ∧ ∃ d ds, cs = d :: ds ∧ d.isDigit = true)) := by
  have hdig : ∀ c ∈ Nat.toDigits 10 n.natAbs, c.isDigit = true := fun c hc =>
    Nat.isDigit_of_mem_toDigits (by decide) (by decide) hc
  rw [Text.toList_str]
  cases hd : Nat.toDigits 10 n.natAbs with
  | nil => exact absurd hd Nat.toDigits_ne_nil
  | cons d ds =>
      have hd' : d.isDigit = true := hdig d (by rw [hd]; exact List.mem_cons_self)
      by_cases hn : n < 0
      · exact ⟨'-', d :: ds, by simp [hn], Or.inr ⟨rfl, d, ds, rfl, hd'⟩⟩
      · exact ⟨d, ds, by simp [hn], Or.inl hd'⟩

/-- The text of a float starts with a character of its own. -/
theorem float_head {l : String} (h : FloatLiteral l) :
    ∃ c cs, l.toList = c :: cs ∧ isWs c = false ∧ c ≠ ']' ∧ c ≠ '}' := by
  have hread := h (fun _ => none) 0 [] stops_nil
  rw [List.append_nil] at hread
  cases hl : l.toList with
  | nil =>
      rw [hl] at hread
      exact absurd hread.symm (Option.some_ne_none _)
  | cons c cs =>
      rw [hl] at hread
      have hfail : ∀ d, d = ' ' ∨ d = '\t' ∨ d = '\n' ∨ d = '\r' ∨ d = ']' ∨ d = '}' →
          read (fun _ => none) 1 (d :: cs) = none := by
        rintro d (rfl | rfl | rfl | rfl | rfl | rfl) <;> rfl
      have hne : ¬(c = ' ' ∨ c = '\t' ∨ c = '\n' ∨ c = '\r' ∨ c = ']' ∨ c = '}') := by
        intro hc
        rw [hfail c hc] at hread
        exact absurd hread.symm (Option.some_ne_none _)
      simp only [not_or] at hne
      refine ⟨c, cs, rfl, ?_, hne.2.2.2.2.1, hne.2.2.2.2.2⟩
      simp [isWs, hne.1, hne.2.1, hne.2.2.1, hne.2.2.2.1]

/-- Written text never starts with whitespace or a closing bracket. -/
theorem write_head {v : Json} (hv : Readable v) :
    ∃ c cs, write v = c :: cs ∧ isWs c = false ∧ c ≠ ']' ∧ c ≠ '}' := by
  cases v with
  | null => exact ⟨_, _, rfl, by decide⟩
  | bool b => cases b <;> exact ⟨_, _, rfl, by decide⟩
  | float l => exact float_head hv
  | str s => exact ⟨_, _, rfl, by decide⟩
  | int n =>
      obtain ⟨c, cs, hcs, h⟩ := str_head n
      refine ⟨c, cs, hcs, ?_⟩
      rcases h with hd | ⟨rfl, -⟩
      · have hne : ∀ x : Char, x.isDigit = false → c ≠ x := by
          rintro x hx rfl
          rw [hd] at hx
          exact Bool.noConfusion hx
        refine ⟨?_, hne _ (by decide), hne _ (by decide)⟩
        simp [isWs, hne ' ' (by decide), hne '\t' (by decide), hne '\n' (by decide),
          hne '\r' (by decide)]
      · decide
  | arr vs => cases vs <;> exact ⟨_, _, rfl, by decide⟩
  | obj ms =>
      cases ms with
      | nil => exact ⟨_, _, rfl, by decide⟩
      | cons m ms => obtain ⟨k, v⟩ := m; exact ⟨_, _, rfl, by decide⟩

theorem stops_writeItems (vs : List Json) (r : List Char) : Stops (writeItems vs ++ r) := by
  cases vs <;> exact stops_cons (by decide)

theorem stops_writeMembers (ms : List (String × Json)) (r : List Char) :
    Stops (writeMembers ms ++ r) := by
  cases ms with
  | nil => exact stops_cons (by decide)
  | cons m ms => obtain ⟨k, v⟩ := m; exact stops_cons (by decide)

theorem readKeyword_str (n : Int) (r : List Char) :
    readKeyword ((Text.str n).toList ++ r) = none := by
  obtain ⟨c, cs, hcs, h⟩ := str_head n
  rw [hcs, List.cons_append]
  have hne : ∀ {x y : Char}, x.isDigit = true → y.isDigit = false → x ≠ y := by
    rintro x y hx hy rfl
    rw [hx] at hy
    exact Bool.noConfusion hy
  rcases h with hd | ⟨rfl, d, ds, rfl, hd⟩
  · unfold readKeyword
    split
    all_goals first
      | rfl
      | (rename_i heq
         exact absurd (List.cons.inj heq).1 (hne hd (by decide)))
  · unfold readKeyword
    split
    all_goals first
      | rfl
      | (rename_i heq
         simp only [List.cons_append, List.cons.injEq] at heq
         exact absurd heq.2.1 (hne hd (by decide)))

/-! ## Reading

The hook that makes an object of its members matters only in that it keeps
members with distinct fields as they are; both hooks do. -/

/-- The hook keeps an object whose fields are distinct. -/
def Keeps (hook : List (String × Json) → Option Json) : Prop :=
  ∀ ms, (keys ms).Nodup → hook ms = some (obj ms)

theorem keeps_rejectDuplicateFields : Keeps rejectDuplicateFields := fun _ hnd => if_pos hnd

theorem keeps_keepLast : Keeps keepLast := fun ms hnd => by
  rw [keepLast, Dict.ofItems_of_nodup hnd]

section Reading

variable {hook : List (String × Json) → Option Json}

theorem read_str (fuel : Nat) (n : Int) {r : List Char} (hr : Stops r) :
    read hook (fuel + 1) ((Text.str n).toList ++ r) = some (int n, r) := by
  have hk := readKeyword_str n r
  have hnum := readNumber_str n hr
  obtain ⟨c, cs, hcs, h⟩ := str_head n
  have hc : c ≠ '"' ∧ c ≠ '[' ∧ c ≠ '{' := by
    rcases h with hd | ⟨rfl, -⟩
    · refine ⟨?_, ?_, ?_⟩ <;> (rintro rfl; exact absurd hd (by decide))
    · decide
  rw [hcs, List.cons_append] at hk hnum ⊢
  rw [read]
  · rw [hk]; exact hnum
  · exact fun q hq => hc.1 (List.cons.inj hq).1
  · exact fun q hq => hc.2.1 (List.cons.inj hq).1
  · exact fun q hq => hc.2.2 (List.cons.inj hq).1

theorem read_items {fuel : Nat} {c : Char} {cs : List Char} (hws : isWs c = false)
    (hc : c ≠ ']') : read hook (fuel + 1) ('[' :: c :: cs) =
      (readItems hook fuel (c :: cs)).map fun (vs, r) => (arr vs, r) := by
  simp only [read, skipWs_cons hws]
  split
  · rename_i heq; exact absurd (List.cons.inj heq).1 hc
  · rfl

theorem read_members {fuel : Nat} {cs r : List Char} {ms : List (String × Json)}
    (h : readMembers hook fuel ('"' :: cs) = some (ms, r)) (hms : hook ms = some (obj ms)) :
    read hook (fuel + 1) ('{' :: '"' :: cs) = some (obj ms, r) := by
  simp only [read, skipWs_cons (c := '"') rfl]
  split
  · rename_i heq; exact absurd (List.cons.inj heq).1 (by decide)
  · simp only [h, hms, Option.map_some]

mutual

/-- The fuel the reader needs for a value. -/
def cost : Json → Nat
  | arr vs => 1 + costItems vs
  | obj ms => 1 + costMembers ms
  | _ => 1

/-- The fuel the reader needs for a list of items. -/
def costItems : List Json → Nat
  | [] => 0
  | v :: vs => 1 + cost v + costItems vs

/-- The fuel the reader needs for a list of members. -/
def costMembers : List (String × Json) → Nat
  | [] => 0
  | (_, v) :: ms => 1 + cost v + costMembers ms

end

mutual

/-- Reading back what was written, for a value, with anything that does
not continue it behind. -/
theorem read_write (hhook : Keeps hook) : ∀ (v : Json) (fuel : Nat) (r : List Char),
    Readable v → Stops r → cost v ≤ fuel → read hook fuel (write v ++ r) = some (v, r)
  | v, 0, r, _, _, hc => by cases v <;> simp [cost] at hc
  | .null, fuel + 1, r, _, _, _ => rfl
  | .bool true, fuel + 1, r, _, _, _ => rfl
  | .bool false, fuel + 1, r, _, _, _ => rfl
  | .float _, fuel + 1, r, hv, hr, _ => hv hook fuel r hr
  | .int n, fuel + 1, r, _, hr, _ => read_str fuel n hr
  | .str s, fuel + 1, r, _, _, _ => by
      simp only [write, writeStr, List.cons_append, List.append_assoc, List.nil_append, read,
        readStr_writeStr, Option.map_some, String.ofList_toList]
  | .arr [], fuel + 1, r, _, _, _ => by
      simp only [write, List.cons_append, List.nil_append, read, skipWs_cons (c := ']') rfl]
  | .arr (v :: vs), fuel + 1, r, hv, _, hc => by
      obtain ⟨c, cs, hcs, hws, hbr, -⟩ := write_head hv.1
      have hitems := readItems_write hhook v vs fuel r hv (by simp only [cost] at hc; omega)
      simp only [write, List.cons_append, List.append_assoc]
      rw [hcs, List.cons_append] at hitems ⊢
      rw [read_items hws hbr, hitems]
      rfl
  | .obj [], fuel + 1, r, _, _, _ => by
      simp only [write, List.cons_append, List.nil_append, read, skipWs_cons (c := '}') rfl,
        hhook [] List.nodup_nil, Option.map_some]
  | .obj ((k, v) :: ms), fuel + 1, r, hv, _, hc => by
      have hmem := readMembers_write hhook k v ms fuel r hv.2 (by simp only [cost] at hc; omega)
      simp only [write, writeStr, List.cons_append, List.append_assoc] at hmem ⊢
      exact read_members hmem (hhook _ hv.1)

theorem readItems_write (hhook : Keeps hook) : ∀ (v : Json) (vs : List Json) (fuel : Nat) (r : List Char),
    ReadableItems (v :: vs) → costItems (v :: vs) ≤ fuel →
    readItems hook fuel (write v ++ (writeItems vs ++ r)) = some (v :: vs, r)
  | v, vs, 0, r, _, hc => by simp [costItems] at hc
  | v, [], fuel + 1, r, hv, hc => by
      have h := read_write hhook v fuel (']' :: r) hv.1 (stops_cons (by decide))
        (by simp only [costItems] at hc; omega)
      simp only [writeItems, List.cons_append, List.nil_append, readItems, h,
        skipWs_cons (c := ']') rfl]
  | v, w :: vs, fuel + 1, r, hv, hc => by
      obtain ⟨c, cs, hcs, hws, -, -⟩ := write_head hv.2.1
      have h := read_write hhook v fuel (writeItems (w :: vs) ++ r) hv.1 (stops_writeItems _ _)
        (by simp only [costItems] at hc; omega)
      have hrest := readItems_write hhook w vs fuel r hv.2 (by simp only [costItems] at hc ⊢; omega)
      simp only [readItems, h]
      simp only [writeItems, List.cons_append, List.append_assoc, skipWs_cons (c := ',') rfl]
      rw [hcs, List.cons_append] at hrest ⊢
      rw [skipWs_cons hws, hrest]
      rfl

theorem readMembers_write (hhook : Keeps hook) : ∀ (k : String) (v : Json) (ms : List (String × Json))
    (fuel : Nat) (r : List Char),
    ReadableMembers ((k, v) :: ms) → costMembers ((k, v) :: ms) ≤ fuel →
    readMembers hook fuel (writeStr k ++ ':' :: (write v ++ (writeMembers ms ++ r))) =
      some ((k, v) :: ms, r)
  | k, v, ms, 0, r, _, hc => by simp [costMembers] at hc
  | k, v, [], fuel + 1, r, hv, hc => by
      obtain ⟨c, cs, hcs, hws, -, -⟩ := write_head hv.1
      have h := read_write hhook v fuel ('}' :: r) hv.1 (stops_cons (by decide))
        (by simp only [costMembers] at hc; omega)
      simp only [writeStr, writeMembers, List.cons_append, List.append_assoc, List.nil_append,
        readMembers, readStr_writeStr, skipWs_cons (c := ':') rfl]
      rw [hcs, List.cons_append] at h ⊢
      simp only [skipWs_cons hws, h, skipWs_cons (c := '}') rfl, String.ofList_toList]
  | k, v, (k', w) :: ms, fuel + 1, r, hv, hc => by
      obtain ⟨c, cs, hcs, hws, -, -⟩ := write_head hv.1
      have h := read_write hhook v fuel (writeMembers ((k', w) :: ms) ++ r) hv.1
        (stops_writeMembers _ _) (by simp only [costMembers] at hc; omega)
      have hrest := readMembers_write hhook k' w ms fuel r hv.2
        (by simp only [costMembers] at hc ⊢; omega)
      simp only [writeStr, List.cons_append, List.append_assoc, List.nil_append,
        readMembers, readStr_writeStr, skipWs_cons (c := ':') rfl]
      rw [hcs, List.cons_append] at h ⊢
      simp only [skipWs_cons hws, h]
      simp only [writeMembers, writeStr, List.cons_append, List.append_assoc,
        skipWs_cons (c := ',') rfl, skipWs_cons (c := '"') rfl] at hrest ⊢
      simp only [hrest, Option.map_some, String.ofList_toList]

end

end Reading

mutual

theorem cost_le_length : ∀ {v : Json}, Readable v → cost v ≤ (write v).length
  | .null, _ => by decide
  | .bool true, _ => by decide
  | .bool false, _ => by decide
  | .float l, hv => by
      obtain ⟨c, cs, hcs, -⟩ := float_head hv
      simp [cost, write, hcs]
  | .int n, _ => by
      obtain ⟨c, cs, hcs, -⟩ := str_head n
      simp [cost, write, hcs]
  | .str s, _ => by simp [cost, write, writeStr]
  | .arr [], _ => by simp [cost, costItems, write]
  | .arr (v :: vs), hv => by
      have h1 := cost_le_length hv.1
      have h2 := costItems_le_length hv.2
      simp only [cost, costItems, write, List.length_append, List.length_cons]
      omega
  | .obj [], _ => by simp [cost, costMembers, write]
  | .obj ((k, v) :: ms), hv => by
      have h1 := cost_le_length hv.2.1
      have h2 := costMembers_le_length hv.2.2
      simp only [cost, costMembers, write, List.length_append, List.length_cons]
      omega

theorem costItems_le_length : ∀ {vs : List Json}, ReadableItems vs →
    costItems vs + 1 ≤ (writeItems vs).length
  | [], _ => by simp [costItems, writeItems]
  | v :: vs, hv => by
      have h1 := cost_le_length hv.1
      have h2 := costItems_le_length hv.2
      simp only [costItems, writeItems, List.length_append, List.length_cons]
      omega

theorem costMembers_le_length : ∀ {ms : List (String × Json)}, ReadableMembers ms →
    costMembers ms + 1 ≤ (writeMembers ms).length
  | [], _ => by simp [costMembers, writeMembers]
  | (k, v) :: ms, hv => by
      have h1 := cost_le_length hv.1
      have h2 := costMembers_le_length hv.2
      simp only [costMembers, writeMembers, List.length_append, List.length_cons]
      omega

end

theorem loadsWith_write {hook : List (String × Json) → Option Json} (hhook : Keeps hook)
    {v : Json} (hv : Readable v) : loadsWith hook (String.ofList (write v)) = some v := by
  obtain ⟨c, cs, hcs, hws, -, -⟩ := write_head hv
  have hr := read_write hhook v ((write v).length + 1) [] hv stops_nil
    (Nat.le_succ_of_le (cost_le_length hv))
  rw [List.append_nil] at hr
  rw [loadsWith, String.toList_ofList]
  rw [hcs] at hr ⊢
  rw [skipWs_cons hws, hr]
  rfl

/-! ## Sorted values -/

theorem perm_sortMembers (ms : List (String × Json)) : (sortMembers ms).Perm ms :=
  List.perm_insertionSort _ ms

theorem keys_canonMembers : ∀ ms : List (String × Json), keys (canonMembers ms) = keys ms
  | [] => rfl
  | (k, v) :: ms => by
      have ih := keys_canonMembers ms
      simp only [keys, canonMembers, List.map_cons] at ih ⊢
      rw [ih]

theorem plainMembers_iff {ms : List (String × Json)} :
    PlainMembers ms ↔ ∀ m ∈ ms, Plain m.2 := by
  induction ms with
  | nil => simp [PlainMembers]
  | cons m ms ih => obtain ⟨k, v⟩ := m; simp [PlainMembers, ih]

theorem readableMembers_iff {ms : List (String × Json)} :
    ReadableMembers ms ↔ ∀ m ∈ ms, Readable m.2 := by
  induction ms with
  | nil => simp [ReadableMembers]
  | cons m ms ih => obtain ⟨k, v⟩ := m; simp [ReadableMembers, ih]

theorem plainItems_map {α : Type} {f : α → Json} (h : ∀ a, Plain (f a)) :
    ∀ as : List α, PlainItems (as.map f)
  | [] => trivial
  | a :: as => ⟨h a, plainItems_map h as⟩

mutual

theorem plain_canon : ∀ {v : Json}, Plain v → Plain (canon v)
  | .null, h => h
  | .bool _, h => h
  | .int _, h => h
  | .float _, h => h.elim
  | .str _, h => h
  | .arr _, h => plainItems_canon h
  | .obj ms, h => by
      have hp := perm_sortMembers (canonMembers ms)
      refine ⟨?_, plainMembers_iff.mpr fun m hm => ?_⟩
      · have hk : (keys (canonMembers ms)).Nodup := by rw [keys_canonMembers]; exact h.1
        exact (hp.map Prod.fst).nodup_iff.mpr hk
      · exact plainMembers_iff.mp (plainMembers_canon h.2) m (hp.mem_iff.mp hm)

theorem plainItems_canon : ∀ {vs : List Json}, PlainItems vs → PlainItems (canonItems vs)
  | [], h => h
  | _ :: _, h => ⟨plain_canon h.1, plainItems_canon h.2⟩

theorem plainMembers_canon : ∀ {ms : List (String × Json)},
    PlainMembers ms → PlainMembers (canonMembers ms)
  | [], h => h
  | (_, _) :: _, h => ⟨plain_canon h.1, plainMembers_canon h.2⟩

end

mutual

theorem readable_canon : ∀ {v : Json}, Readable v → Readable (canon v)
  | .null, h => h
  | .bool _, h => h
  | .int _, h => h
  | .float _, h => h
  | .str _, h => h
  | .arr _, h => readableItems_canon h
  | .obj ms, h => by
      have hp := perm_sortMembers (canonMembers ms)
      refine ⟨?_, readableMembers_iff.mpr fun m hm => ?_⟩
      · have hk : (keys (canonMembers ms)).Nodup := by rw [keys_canonMembers]; exact h.1
        exact (hp.map Prod.fst).nodup_iff.mpr hk
      · exact readableMembers_iff.mp (readableMembers_canon h.2) m (hp.mem_iff.mp hm)

theorem readableItems_canon : ∀ {vs : List Json},
    ReadableItems vs → ReadableItems (canonItems vs)
  | [], h => h
  | _ :: _, h => ⟨readable_canon h.1, readableItems_canon h.2⟩

theorem readableMembers_canon : ∀ {ms : List (String × Json)},
    ReadableMembers ms → ReadableMembers (canonMembers ms)
  | [], h => h
  | (_, _) :: _, h => ⟨readable_canon h.1, readableMembers_canon h.2⟩

end

/-- **Round trip** with either hook: what is dumped is loaded, with its members
sorted. -/
theorem loadsWith_dumps {hook : List (String × Json) → Option Json} (hhook : Keeps hook)
    {v : Json} (hv : Readable v) : loadsWith hook (dumps v) = some (canon v) :=
  loadsWith_write hhook (readable_canon hv)

theorem loads_dumps {v : Json} (hv : Plain v) : loads (dumps v) = some (canon v) :=
  loadsWith_dumps keeps_rejectDuplicateFields hv.readable

theorem canon_eq_of_dumps_eq {v w : Json} (hv : Readable v) (hw : Readable w)
    (h : dumps v = dumps w) : canon v = canon w := by
  have h0 : loadsLast (dumps v) = loadsLast (dumps w) := congrArg loadsLast h
  rw [loadsLast, loadsLast, loadsWith_dumps keeps_keepLast hv,
    loadsWith_dumps keeps_keepLast hw] at h0
  exact Option.some.inj h0

theorem dumps_ne_empty {v : Json} (hv : Plain v) : dumps v ≠ "" := by
  intro h
  have h0 : loads (dumps v) = loads "" := congrArg loads h
  rw [loads_dumps hv, show loads "" = none from by decide] at h0
  exact absurd h0 (Option.some_ne_none _)

/-! ## Fields of a sorted object -/

theorem get?_eq_some_iff {ms : List (String × Json)} (hnd : (keys ms).Nodup)
    {k : String} {v : Json} : get? k ms = some v ↔ (k, v) ∈ ms := by
  induction ms with
  | nil => simp [get?]
  | cons m ms ih =>
      obtain ⟨k', w⟩ := m
      simp only [keys, List.map_cons, List.nodup_cons] at hnd
      have ih := ih hnd.2
      simp only [get?, List.lookup_cons, List.mem_cons, Prod.mk.injEq] at ih ⊢
      by_cases hk : k = k'
      · subst hk
        have hnot : (k, v) ∉ ms := fun hm => hnd.1 (List.mem_map_of_mem hm)
        simp [hnot, eq_comm]
      · have hb : (k == k') = false := by simpa using hk
        simp [hb, hk, ih]

/-- Looking a field up does not depend on the order of the members. -/
theorem get?_perm {ms ms' : List (String × Json)} (hp : ms.Perm ms')
    (hnd : (keys ms).Nodup) (k : String) : get? k ms = get? k ms' := by
  have hnd' : (keys ms').Nodup := (hp.map Prod.fst).nodup_iff.mp hnd
  ext v
  rw [get?_eq_some_iff hnd, get?_eq_some_iff hnd', hp.mem_iff]

theorem get?_canonMembers (k : String) : ∀ ms : List (String × Json),
    get? k (canonMembers ms) = (get? k ms).map canon
  | [] => rfl
  | (k', v) :: ms => by
      have ih := get?_canonMembers k ms
      simp only [get?, canonMembers, List.lookup_cons] at ih ⊢
      cases k == k' with
      | true => rfl
      | false => exact ih

/-- **The fields of a sorted object**: the same names, the sorted values. -/
theorem canon_obj {ms : List (String × Json)} (hnd : (keys ms).Nodup) :
    ∃ ms', canon (obj ms) = obj ms' ∧ (∀ k, get? k ms' = (get? k ms).map canon) ∧
      ∀ k, k ∈ keys ms' ↔ k ∈ keys ms := by
  have hp := perm_sortMembers (canonMembers ms)
  have hk : (keys (canonMembers ms)).Nodup := by rw [keys_canonMembers]; exact hnd
  refine ⟨sortMembers (canonMembers ms), rfl, fun k => ?_, fun k => ?_⟩
  · rw [← get?_perm hp.symm hk, get?_canonMembers]
  · rw [keys, (hp.map Prod.fst).mem_iff, ← keys, keys_canonMembers]

/-- Objects of one canonical form have the same fields, with values of one canonical form. -/
theorem get?_of_canon_eq {ms ms' : List (String × Json)} (hnd : (keys ms).Nodup)
    (hnd' : (keys ms').Nodup) (h : canon (.obj ms) = canon (.obj ms')) (k : String) :
    (get? k ms).map canon = (get? k ms').map canon := by
  obtain ⟨_, hms, hget, -⟩ := canon_obj hnd
  obtain ⟨_, hms', hget', -⟩ := canon_obj hnd'
  rw [hms, hms'] at h
  cases h
  rw [← hget, hget']

/-! ## Reading back -/

theorem canonItems_eq_map : ∀ vs : List Json, canonItems vs = vs.map canon
  | [] => rfl
  | v :: vs => congrArg (canon v :: ·) (canonItems_eq_map vs)

theorem canonMembers_eq_map : ∀ ms : List (String × Json),
    canonMembers ms = ms.map fun m => (m.1, canon m.2)
  | [] => rfl
  | (k, v) :: ms => congrArg ((k, canon v) :: ·) (canonMembers_eq_map ms)

/-- What reading back a text may do to the value written: reorder the fields
of its objects. -/
structure Reading (f : Json → Json) : Prop where
  null : f .null = .null
  bool : ∀ b, f (.bool b) = .bool b
  int : ∀ n, f (.int n) = .int n
  float : ∀ l, f (.float l) = .float l
  str : ∀ s, f (.str s) = .str s
  arr : ∀ vs, f (.arr vs) = .arr (vs.map f)
  obj : ∀ ms, (keys ms).Nodup → ∃ ms', f (.obj ms) = .obj ms' ∧
    ms'.Perm (ms.map fun m => (m.1, f m.2))

theorem reading_id : Reading id where
  null := rfl
  bool _ := rfl
  int _ := rfl
  float _ := rfl
  str _ := rfl
  arr vs := congrArg Json.arr (List.map_id vs).symm
  obj ms _ := ⟨ms, rfl, .of_eq (List.map_id ms).symm⟩

theorem reading_canon : Reading canon where
  null := rfl
  bool _ := rfl
  int _ := rfl
  float _ := rfl
  str _ := rfl
  arr vs := congrArg Json.arr (canonItems_eq_map vs)
  obj ms _ := ⟨sortMembers (canonMembers ms), rfl, by
    rw [← canonMembers_eq_map]
    exact perm_sortMembers _⟩

/-- The fields of an object that was read: the same names, and the values as read. -/
theorem Reading.fields {f : Json → Json} (hf : Reading f) (ms : List (String × Json))
    (hnd : (keys ms).Nodup) : ∃ ms', f (.obj ms) = .obj ms' ∧
      (∀ k, get? k ms' = (get? k ms).map f) ∧ ∀ k, k ∈ keys ms' ↔ k ∈ keys ms := by
  obtain ⟨ms', hms, hperm⟩ := hf.obj ms hnd
  have hkeys : keys (ms.map fun m => (m.1, f m.2)) = keys ms := by
    rw [keys, List.map_map]
    rfl
  have hnd' : (keys ms').Nodup := by
    rw [keys, (hperm.map Prod.fst).nodup_iff, ← keys, hkeys]
    exact hnd
  refine ⟨ms', hms, fun k => ?_, fun k => ?_⟩
  · rw [get?_perm hperm hnd', get?, get?]
    clear hms hperm hkeys hnd hnd'
    induction ms with
    | nil => rfl
    | cons m ms ih =>
        rw [List.map_cons, List.lookup_cons, List.lookup_cons]
        cases k == m.1 with
        | true => rfl
        | false => exact ih
  · rw [keys, (hperm.map Prod.fst).mem_iff, ← keys, hkeys]

theorem sortMembers_eq_of_perm {ms ms' : List (String × Json)} (hp : ms.Perm ms')
    (hnd : (keys ms').Nodup) : sortMembers ms = sortMembers ms' := by
  have hsorted : ((sortMembers ms').map Prod.fst).Pairwise (· < ·) := by
    have hle : ((sortMembers ms').map Prod.fst).Pairwise (· ≤ ·) :=
      List.pairwise_map.mpr (Dict.pairwise_sortedItems ms')
    have hne : ((sortMembers ms').map Prod.fst).Nodup :=
      ((perm_sortMembers ms').map Prod.fst).nodup_iff.mpr hnd
    exact (hle.and hne).imp fun h => lt_of_le_of_ne h.1 h.2
  exact Dict.sortedItems_eq (hp.trans (perm_sortMembers ms').symm) hsorted

mutual

/-- No object repeats a field. -/
def Distinct : Json → Prop
  | arr vs => DistinctItems vs
  | obj ms => (keys ms).Nodup ∧ DistinctMembers ms
  | _ => True

/-- `Distinct` of every item. -/
def DistinctItems : List Json → Prop
  | [] => True
  | v :: vs => Distinct v ∧ DistinctItems vs

/-- `Distinct` of every member's value. -/
def DistinctMembers : List (String × Json) → Prop
  | [] => True
  | (_, v) :: ms => Distinct v ∧ DistinctMembers ms

end

mutual

theorem Readable.distinct : ∀ {v : Json}, Readable v → Distinct v
  | .null, _ => trivial
  | .bool _, _ => trivial
  | .int _, _ => trivial
  | .float _, _ => trivial
  | .str _, _ => trivial
  | .arr _, h => distinctItems_of_readable h
  | .obj _, h => ⟨h.1, distinctMembers_of_readable h.2⟩

theorem distinctItems_of_readable : ∀ {vs : List Json}, ReadableItems vs → DistinctItems vs
  | [], _ => trivial
  | _ :: _, h => ⟨Readable.distinct h.1, distinctItems_of_readable h.2⟩

theorem distinctMembers_of_readable : ∀ {ms : List (String × Json)},
    ReadableMembers ms → DistinctMembers ms
  | [], _ => trivial
  | (_, _) :: _, h => ⟨Readable.distinct h.1, distinctMembers_of_readable h.2⟩

end

mutual

/-- **A value that was read has the same canonical form.** -/
theorem canon_reading {r : Json → Json} (hr : Reading r) : ∀ {v : Json}, Distinct v →
    canon (r v) = canon v
  | .null, _ => by rw [hr.null]
  | .bool b, _ => by rw [hr.bool]
  | .int n, _ => by rw [hr.int]
  | .float l, _ => by rw [hr.float]
  | .str s, _ => by rw [hr.str]
  | .arr vs, h => by rw [hr.arr, canon, canon, canonItems_reading hr h]
  | .obj ms, h => by
      obtain ⟨ms', hms, hperm⟩ := hr.obj ms h.1
      have hcanon : (canonMembers ms').Perm (canonMembers ms) := by
        rw [canonMembers_eq_map, ← canonMembers_reading hr h.2]
        exact hperm.map _
      rw [hms, canon, canon, sortMembers_eq_of_perm hcanon (by rw [keys_canonMembers]; exact h.1)]

theorem canonItems_reading {r : Json → Json} (hr : Reading r) : ∀ {vs : List Json},
    DistinctItems vs → canonItems (vs.map r) = canonItems vs
  | [], _ => rfl
  | _ :: _, h => by
      rw [List.map_cons, canonItems, canonItems, canon_reading hr h.1, canonItems_reading hr h.2]

theorem canonMembers_reading {r : Json → Json} (hr : Reading r) : ∀ {ms : List (String × Json)},
    DistinctMembers ms →
      (ms.map fun m => (m.1, r m.2)).map (fun m => (m.1, canon m.2)) = canonMembers ms
  | [], _ => rfl
  | (k, v) :: ms, h => by
      rw [List.map_cons, List.map_cons, canonMembers, canon_reading hr h.1,
        canonMembers_reading hr h.2]

end

theorem canon_canon {v : Json} (h : Distinct v) : canon (canon v) = canon v :=
  canon_reading reading_canon h

end LmResiliency.Json
