/-
# Json — the canonical text form and its reader

`json.dumps(value, separators=(",", ":"), sort_keys=True)` and `json.loads`
with the hook that refuses a repeated object field.  A value is plain data;
an object is its list of members in insertion order, a float is kept as the
literal it was read from (nothing here computes with one).

Writing is split in two: `canon` sorts the members of every object, `write`
prints what it is given.  Reading returns the members in textual order, so
what a reader gets back from `dumps v` is `canon v`, and everything a
record decoder asks of it (which fields there are, and their values) is the
same as for `v`.
-/
import LmResiliency.Lib.Dict
import LmResiliency.Lib.Text

namespace LmResiliency

/-- Plain JSON data. -/
inductive Json where
  | null
  | bool (b : Bool)
  | int (n : Int)
  | float (literal : String)
  | str (s : String)
  | arr (items : List Json)
  | obj (members : List (String × Json))
  deriving Inhabited

namespace Json

/-! ## Fields -/

/-- `value.get(key)` on an object. -/
def get? (key : String) (ms : List (String × Json)) : Option Json := ms.lookup key

/-- `set(value)`: the field names. -/
def keys (ms : List (String × Json)) : List String := ms.map Prod.fst

/-! ## Writing -/

/-- One lowercase hexadecimal digit. -/
def hexDigit (n : Nat) : Char := (n % 16).digitChar

/-- The four digits after a `u` escape. -/
def hex4 (n : Nat) : List Char :=
  [hexDigit (n / 4096), hexDigit (n / 256), hexDigit (n / 16), hexDigit n]

/-- The characters with an escape of their own, and the letter it uses. -/
def shortEscapes : List (Char × Char) :=
  [('"', '"'), ('\\', '\\'), ('\n', 'n'), ('\r', 'r'), ('\t', 't'),
    (Char.ofNat 12, 'f'), (Char.ofNat 8, 'b')]

/-- One character of a string literal, `ensure_ascii` on: everything outside
the printable ASCII range is escaped, above the basic plane as a pair. -/
def escapeChar (c : Char) : List Char :=
  match shortEscapes.lookup c with
  | some e => ['\\', e]
  | none =>
      let n := c.toNat
      if 32 ≤ n ∧ n ≤ 126 then [c]
      else if n < 0x10000 then '\\' :: 'u' :: hex4 n
      else '\\' :: 'u' :: hex4 (0xd800 + (n - 0x10000) / 0x400) ++
        '\\' :: 'u' :: hex4 (0xdc00 + (n - 0x10000) % 0x400)

/-- A string literal. -/
def writeStr (s : String) : List Char :=
  '"' :: s.toList.flatMap escapeChar ++ ['"']

mutual

/-- Compact text of a value, members in the order given. -/
def write : Json → List Char
  | null => ['n', 'u', 'l', 'l']
  | bool true => ['t', 'r', 'u', 'e']
  | bool false => ['f', 'a', 'l', 's', 'e']
  | int n => (Text.str n).toList
  | float l => l.toList
  | str s => writeStr s
  | arr [] => ['[', ']']
  | arr (v :: vs) => '[' :: write v ++ writeItems vs
  | obj [] => ['{', '}']
  | obj ((k, v) :: ms) => '{' :: writeStr k ++ ':' :: write v ++ writeMembers ms

/-- The items after the first, and the closing bracket. -/
def writeItems : List Json → List Char
  | [] => [']']
  | v :: vs => ',' :: write v ++ writeItems vs

/-- The members after the first, and the closing brace. -/
def writeMembers : List (String × Json) → List Char
  | [] => ['}']
  | (k, v) :: ms => ',' :: writeStr k ++ ':' :: write v ++ writeMembers ms

end

/-- `sort_keys`: members by key, in code-point order. -/
def sortMembers (ms : List (String × Json)) : List (String × Json) :=
  ms.insertionSort fun a b => a.1 ≤ b.1

mutual

/-- The value with the members of every object sorted by key. -/
def canon : Json → Json
  | arr vs => arr (canonItems vs)
  | obj ms => obj (sortMembers (canonMembers ms))
  | v => v

/-- `canon` on every item. -/
def canonItems : List Json → List Json
  | [] => []
  | v :: vs => canon v :: canonItems vs

/-- `canon` on every member's value. -/
def canonMembers : List (String × Json) → List (String × Json)
  | [] => []
  | (k, v) :: ms => (k, canon v) :: canonMembers ms

end

/-- `json.dumps(v, separators=(",", ":"), sort_keys=True)`. -/
def dumps (v : Json) : String := String.ofList (write (canon v))

/-! ## Reading -/

/-- The value of one hexadecimal digit, either case. -/
def hexVal (c : Char) : Option Nat :=
  if '0' ≤ c ∧ c ≤ '9' then some (c.toNat - '0'.toNat)
  else if 'a' ≤ c ∧ c ≤ 'f' then some (c.toNat - 'a'.toNat + 10)
  else if 'A' ≤ c ∧ c ≤ 'F' then some (c.toNat - 'A'.toNat + 10)
  else none

/-- Four hexadecimal digits. -/
def readHex4 : List Char → Option (Nat × List Char)
  | a :: b :: c :: d :: r =>
      match hexVal a, hexVal b, hexVal c, hexVal d with
      | some a, some b, some c, some d => some (a * 4096 + b * 256 + c * 16 + d, r)
      | _, _, _, _ => none
  | _ => none

/-- A scalar value, none for a surrogate. -/
def charOf (n : Nat) : Option Char :=
  if n.isValidChar then some (Char.ofNat n) else none

/-- What follows `\u`: a scalar, or a high and a low surrogate.  A lone
surrogate is no character of a `String` and ends the reading. -/
def readUnicode (cs : List Char) : Option (Char × List Char) :=
  match readHex4 cs with
  | none => none
  | some (hi, r) =>
      if 0xd800 ≤ hi ∧ hi < 0xdc00 then
        match r with
        | '\\' :: 'u' :: r' =>
            match readHex4 r' with
            | some (lo, r'') =>
                if 0xdc00 ≤ lo ∧ lo < 0xe000 then
                  (charOf (0x10000 + (hi - 0xd800) * 0x400 + (lo - 0xdc00))).map (·, r'')
                else none
            | none => none
        | _ => none
      else (charOf hi).map (·, r)

/-- What follows a backslash. -/
def readEscape : List Char → Option (Char × List Char)
  | '"' :: r => some ('"', r)
  | '\\' :: r => some ('\\', r)
  | '/' :: r => some ('/', r)
  | 'b' :: r => some (Char.ofNat 8, r)
  | 'f' :: r => some (Char.ofNat 12, r)
  | 'n' :: r => some ('\n', r)
  | 'r' :: r => some ('\r', r)
  | 't' :: r => some ('\t', r)
  | 'u' :: r => readUnicode r
  | _ => none

/-- The rest of a string literal, after its opening quote.  A raw control
character is refused (`strict`). -/
def readStr : Nat → List Char → Option (List Char × List Char)
  | 0, _ => none
  | _ + 1, [] => none
  | fuel + 1, c :: r =>
      if c = '"' then some ([], r)
      else if c = '\\' then
        match readEscape r with
        | some (d, r') => (readStr fuel r').map fun (ds, r'') => (d :: ds, r'')
        | none => none
      else if c.toNat < 32 then none
      else (readStr fuel r).map fun (ds, r'') => (c :: ds, r'')

/-- JSON whitespace. -/
def isWs (c : Char) : Bool := c = ' ' || c = '\t' || c = '\n' || c = '\r'

def skipWs (cs : List Char) : List Char := cs.dropWhile isWs

/-- The longest run of digits, and what follows it. -/
def spanDigits (cs : List Char) : List Char × List Char :=
  (cs.takeWhile Char.isDigit, cs.dropWhile Char.isDigit)

/-- The fraction of a number, as the text it takes. -/
def readFrac : List Char → List Char × List Char
  | '.' :: r =>
      match spanDigits r with
      | ([], _) => ([], '.' :: r)
      | (ds, r') => ('.' :: ds, r')
  | cs => ([], cs)

/-- The sign of an exponent. -/
def readSign : List Char → List Char × List Char
  | '+' :: r => (['+'], r)
  | '-' :: r => (['-'], r)
  | cs => ([], cs)

/-- The exponent of a number, as the text it takes. -/
def readExponent : List Char → List Char × List Char
  | [] => ([], [])
  | e :: r =>
      if e = 'e' ∨ e = 'E' then
        match spanDigits (readSign r).2 with
        | ([], _) => ([], e :: r)
        | (ds, r') => (e :: (readSign r).1 ++ ds, r')
      else ([], e :: r)

/-- The fraction and exponent after an integer part. -/
def readFraction (cs : List Char) : List Char × List Char :=
  let (frac, r) := readFrac cs
  let (expo, r') := readExponent r
  (frac ++ expo, r')

/-- The digits of an integer part: `0` alone, or no leading zero. -/
def readIntPart : List Char → Option (List Char × List Char)
  | '0' :: r => some (['0'], r)
  | cs =>
      match spanDigits cs with
      | ([], _) => none
      | (ds, r) => some (ds, r)

/-- A leading minus sign. -/
def readMinus : List Char → Bool × List Char
  | '-' :: r => (true, r)
  | cs => (false, cs)

/-- A number: an integer, or a float when a fraction or exponent follows. -/
def readNumber (cs : List Char) : Option (Json × List Char) :=
  let (neg, cs') := readMinus cs
  match readIntPart cs' with
  | none => none
  | some (ds, r) =>
      match readFraction r with
      | ([], _) =>
          let n : Int := Nat.ofDigitChars 10 ds 0
          some (int (if neg then -n else n), r)
      | (tail, r') =>
          some (float (String.ofList ((if neg then ['-'] else []) ++ ds ++ tail)), r')

/-- The keyword values; `NaN` and the infinities are floats. -/
def readKeyword : List Char → Option (Json × List Char)
  | 'n' :: 'u' :: 'l' :: 'l' :: r => some (null, r)
  | 't' :: 'r' :: 'u' :: 'e' :: r => some (bool true, r)
  | 'f' :: 'a' :: 'l' :: 's' :: 'e' :: r => some (bool false, r)
  | 'N' :: 'a' :: 'N' :: r => some (float "NaN", r)
  | 'I' :: 'n' :: 'f' :: 'i' :: 'n' :: 'i' :: 't' :: 'y' :: r =>
      some (float "Infinity", r)
  | '-' :: 'I' :: 'n' :: 'f' :: 'i' :: 'n' :: 'i' :: 't' :: 'y' :: r =>
      some (float "-Infinity", r)
  | _ => none

/-- The hook that turns members into an object: a repeated field is refused. -/
def rejectDuplicateFields (ms : List (String × Json)) : Option Json :=
  if (keys ms).Nodup then some (obj ms) else none

/-- Without a hook, the last value of a repeated field stands. -/
def keepLast (ms : List (String × Json)) : Option Json := some (obj (Dict.ofItems ms))

section Read

variable (hook : List (String × Json) → Option Json)

mutual

/-- One value; `fuel` bounds the nesting and the number of members. -/
def read : Nat → List Char → Option (Json × List Char)
  | 0, _ => none
  | fuel + 1, cs =>
      match cs with
      | '"' :: r => (readStr (r.length + 1) r).map fun (s, r') => (str (String.ofList s), r')
      | '[' :: r =>
          match skipWs r with
          | ']' :: r' => some (arr [], r')
          | r' => (readItems fuel r').map fun (vs, r'') => (arr vs, r'')
      | '{' :: r =>
          match skipWs r with
          | '}' :: r' => (hook []).map (·, r')
          | r' =>
              match readMembers fuel r' with
              | some (ms, r'') => (hook ms).map (·, r'')
              | none => none
      | _ =>
          match readKeyword cs with
          | some p => some p
          | none => readNumber cs

/-- Items up to the closing bracket. -/
def readItems : Nat → List Char → Option (List Json × List Char)
  | 0, _ => none
  | fuel + 1, cs =>
      match read fuel cs with
      | none => none
      | some (v, r) =>
          match skipWs r with
          | ',' :: r' => (readItems fuel (skipWs r')).map fun (vs, r'') => (v :: vs, r'')
          | ']' :: r' => some ([v], r')
          | _ => none

/-- Members up to the closing brace. -/
def readMembers : Nat → List Char → Option (List (String × Json) × List Char)
  | 0, _ => none
  | fuel + 1, cs =>
      match cs with
      | '"' :: r =>
          match readStr (r.length + 1) r with
          | none => none
          | some (k, r') =>
              match skipWs r' with
              | ':' :: q =>
                  match read fuel (skipWs q) with
                  | none => none
                  | some (v, q') =>
                      match skipWs q' with
                      | ',' :: t =>
                          (readMembers fuel (skipWs t)).map fun (ms, t') =>
                            ((String.ofList k, v) :: ms, t')
                      | '}' :: t => some ([(String.ofList k, v)], t)
                      | _ => none
              | _ => none
      | _ => none

end

/-- `json.loads` of a text, with the hook that makes an object of its members. -/
def loadsWith (s : String) : Option Json :=
  let cs := s.toList
  match read hook (cs.length + 1) (skipWs cs) with
  | some (v, r) => if skipWs r = [] then some v else none
  | none => none

end Read

/-- `json.loads(s, object_pairs_hook=_reject_duplicate_fields)`. -/
def loads (s : String) : Option Json := loadsWith rejectDuplicateFields s

/-- `json.loads(s)`. -/
def loadsLast (s : String) : Option Json := loadsWith keepLast s

end Json

end LmResiliency
