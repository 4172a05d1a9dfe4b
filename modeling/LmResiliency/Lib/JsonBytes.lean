/-
# JsonBytes — a document that comes as bytes

`json.loads` of a byte string detects one of the Unicode encodings by the
first bytes, decodes the whole and reads the text.  A text of printable ASCII
in UTF-8, such as every dumped one, is detected and decoded as what it is.

A lone surrogate, which `surrogatepass` would let through, is not a character
here: such a document is not decoded.
-/
import LmResiliency.Lib.JsonText

namespace LmResiliency.Json

/-- The encodings `detect_encoding` tells apart. -/
inductive Encoding where
  | utf8
  | utf8Sig
  | utf16
  | utf16be
  | utf16le
  | utf32
  | utf32be
  | utf32le

/-- Without a mark, the null bytes of the first two characters tell. -/
def detectByNulls : List UInt8 → Encoding
  | b₀ :: b₁ :: b₂ :: b₃ :: _ =>
      if b₀ = 0 then if b₁ ≠ 0 then .utf16be else .utf32be
      else if b₁ = 0 then if b₂ ≠ 0 ∨ b₃ ≠ 0 then .utf16le else .utf32le
      else .utf8
  | [b₀, b₁] => if b₀ = 0 then .utf16be else if b₁ = 0 then .utf16le else .utf8
  | _ => .utf8

def detectEncoding (b : List UInt8) : Encoding :=
  if [0, 0, 0xfe, 0xff].isPrefixOf b ∨ [0xff, 0xfe, 0, 0].isPrefixOf b then .utf32
  else if [0xfe, 0xff].isPrefixOf b ∨ [0xff, 0xfe].isPrefixOf b then .utf16
  else if [0xef, 0xbb, 0xbf].isPrefixOf b then .utf8Sig
  else detectByNulls b

/-- The code units of a UTF-16 text. -/
def units16 (bigEndian : Bool) : List UInt8 → Option (List Nat)
  | [] => some []
  | [_] => none
  | p :: q :: bs =>
      (units16 bigEndian bs).map fun us =>
        (if bigEndian then p.toNat * 256 + q.toNat else q.toNat * 256 + p.toNat) :: us

/-- The characters of code units; a high surrogate takes the low one after it. -/
def chars16 : List Nat → Option (List Char)
  | [] => some []
  | [u] => (charOf u).map ([·])
  | u :: v :: us =>
      if 0xd800 ≤ u ∧ u < 0xdc00 ∧ 0xdc00 ≤ v ∧ v < 0xe000 then do
        let c ← charOf (0x10000 + (u - 0xd800) * 0x400 + (v - 0xdc00))
        return c :: (← chars16 us)
      else do
        let c ← charOf u
        return c :: (← chars16 (v :: us))

/-- The characters of a UTF-32 text. -/
def chars32 (bigEndian : Bool) : List UInt8 → Option (List Char)
  | [] => some []
  | p :: q :: r :: s :: bs => do
      let word := if bigEndian then [p, q, r, s] else [s, r, q, p]
      let c ← charOf (word.foldl (fun n b => n * 256 + b.toNat) 0)
      return c :: (← chars32 bigEndian bs)
  | _ => none

def decode16 (bigEndian : Bool) (b : List UInt8) : Option String := do
  return String.ofList (← chars16 (← units16 bigEndian b))

def decode32 (bigEndian : Bool) (b : List UInt8) : Option String := do
  return String.ofList (← chars32 bigEndian b)

/-- `b.decode(detect_encoding(b), "surrogatepass")`. -/
def decodeBytes (b : ByteArray) : Option String :=
  let bytes := b.data.toList
  match detectEncoding bytes with
  | .utf8 => String.fromUTF8? b
  | .utf8Sig => String.fromUTF8? ⟨(bytes.drop 3).toArray⟩
  | .utf16 => decode16 ([0xfe, 0xff].isPrefixOf bytes) (bytes.drop 2)
  | .utf16be => decode16 true bytes
  | .utf16le => decode16 false bytes
  | .utf32 => decode32 ([0, 0, 0xfe, 0xff].isPrefixOf bytes) (bytes.drop 4)
  | .utf32be => decode32 true bytes
  | .utf32le => decode32 false bytes

/-- `json.loads(b, object_pairs_hook=_reject_duplicate_fields)`. -/
def loadsBytes (b : ByteArray) : Option Json := (decodeBytes b).bind loads

/-! ## Printable text -/

theorem fromUTF8_toUTF8 (t : String) : String.fromUTF8? t.toUTF8 = some t := by
  rw [String.fromUTF8?, String.toUTF8_eq_toByteArray, dif_pos t.isValidUTF8]
  rfl

/-- A byte of printable ASCII. -/
def PrintableByte (b : UInt8) : Prop := 32 ≤ b.toNat ∧ b.toNat ≤ 126
deriving Decidable

theorem utf8EncodeChar_printable {c : Char} (h : Printable c) :
    ∀ b ∈ String.utf8EncodeChar c, PrintableByte b := by
  intro b hb
  have hc : c.val.toNat ≤ 126 := h.2
  have hone : String.utf8EncodeChar c = [UInt8.ofNat c.val.toNat] := by
    unfold String.utf8EncodeChar
    exact if_pos (hc.trans (by decide))
  rw [hone, List.mem_singleton] at hb
  subst hb
  rw [PrintableByte, UInt8.toNat_ofNat_of_lt' (Nat.lt_of_le_of_lt hc (by decide))]
  exact h

theorem printableBytes_toUTF8 {t : String} (h : ∀ c ∈ t.toList, Printable c) :
    ∀ b ∈ t.toUTF8.data.toList, PrintableByte b := by
  intro b hb
  rw [String.toUTF8_eq_toByteArray, ← String.utf8Encode_toList, List.utf8Encode,
    List.data_toByteArray] at hb
  obtain ⟨c, hc, hb⟩ := List.mem_flatMap.mp (show b ∈ t.toList.flatMap _ from hb)
  exact utf8EncodeChar_printable (h c hc) b hb

/-- Printable bytes do not start with a mark that is not printable. -/
theorem isPrefixOf_printable {p : UInt8} (hp : ¬PrintableByte p) (ps : List UInt8)
    {bs : List UInt8} (h : ∀ b ∈ bs, PrintableByte b) : (p :: ps).isPrefixOf bs = false := by
  cases bs with
  | nil => rfl
  | cons b bs =>
      have hne : p ≠ b := fun heq => hp (heq ▸ h b List.mem_cons_self)
      rw [List.isPrefixOf, beq_false_of_ne hne, Bool.false_and]

theorem detectByNulls_of_nonzero : ∀ {bs : List UInt8}, (∀ b ∈ bs, b ≠ 0) →
    detectByNulls bs = .utf8
  | [], _ => rfl
  | [_], _ => rfl
  | [b₀, b₁], h => by
      have h₀ : b₀ ≠ 0 := h b₀ List.mem_cons_self
      have h₁ : b₁ ≠ 0 := h b₁ (List.mem_cons_of_mem _ List.mem_cons_self)
      rw [detectByNulls, if_neg h₀, if_neg h₁]
  | [_, _, _], _ => rfl
  | b₀ :: b₁ :: _ :: _ :: _, h => by
      have h₀ : b₀ ≠ 0 := h b₀ List.mem_cons_self
      have h₁ : b₁ ≠ 0 := h b₁ (List.mem_cons_of_mem _ List.mem_cons_self)
      rw [detectByNulls, if_neg h₀, if_neg h₁]

theorem detectEncoding_printable {bs : List UInt8} (h : ∀ b ∈ bs, PrintableByte b) :
    detectEncoding bs = .utf8 := by
  have hne : ∀ b ∈ bs, b ≠ 0 := fun b hb heq => absurd (heq ▸ h b hb) (by decide)
  rw [detectEncoding, isPrefixOf_printable (by decide) _ h, isPrefixOf_printable (by decide) _ h,
    isPrefixOf_printable (by decide) _ h, isPrefixOf_printable (by decide) _ h,
    isPrefixOf_printable (by decide) _ h, detectByNulls_of_nonzero hne]
  rfl

/-- **Printable text in UTF-8 is decoded as what it is.** -/
theorem decodeBytes_toUTF8 {t : String} (h : ∀ c ∈ t.toList, Printable c) :
    decodeBytes t.toUTF8 = some t := by
  rw [decodeBytes, detectEncoding_printable (printableBytes_toUTF8 h)]
  exact fromUTF8_toUTF8 t

theorem loadsBytes_dumps {v : Json} (hv : Plain v) :
    loadsBytes (dumps v).toUTF8 = loads (dumps v) := by
  rw [loadsBytes, decodeBytes_toUTF8 (printable_dumps hv), Option.bind_some]

theorem size_utf8Encode_le (cs : List Char) : cs.utf8Encode.size ≤ 4 * cs.length := by
  induction cs with
  | nil => exact Nat.le_of_eq (by rw [List.utf8Encode_nil, List.length_nil]; rfl)
  | cons c cs ih =>
      have hsize : [c].utf8Encode.size = c.utf8Size := by
        rw [List.utf8Encode_singleton, List.size_toByteArray, String.length_utf8EncodeChar]
      have hfour := c.utf8Size_le_four
      rw [List.utf8Encode_cons, ByteArray.size_append, hsize, List.length_cons]
      omega

theorem size_dumps_le (v : Json) : (dumps v).toUTF8.size ≤ 4 * (write (canon v)).length := by
  rw [dumps, String.toUTF8_eq_toByteArray, String.toByteArray_ofList]
  exact size_utf8Encode_le _

end LmResiliency.Json
