/-
# FrozenJson — the immutable JSON values of a campaign

`freeze_json` takes a snapshot of a JSON value, `thaw_json` makes a value for the JSON
library of it again.  The keys of a mapping are strings, and a member of a string
enumeration is one: it compares by its characters, while `str`, which `thaw_json` applies
to every key, gives its qualified name.
-/
import LmResiliency.Lib.Double
import LmResiliency.Lib.JsonRoundTrip
import LmResiliency.Lib.Outcome

namespace LmResiliency.FaultInjection

open LmResiliency.Outcome
open LmResiliency.Json (Reading Distinct DistinctItems DistinctMembers)

/-- What a campaign that is refused raises. -/
inductive ConfigError where
  | keyError (field : String)
  | typeError (message : String)
  | valueError (message : String)
  | unknownFields (label : String) (fields : List String)
  | overflowError

/-! ## Frozen values -/

/-- A key of a mapping: its characters, and what `str` makes of it. -/
structure Key where
  text : String
  shown : String := text

/-- An immutable JSON value; a float is kept as its literal. -/
inductive Frozen where
  | null
  | bool (b : Bool)
  | int (n : Int)
  | float (literal : String)
  | str (s : String)
  | tuple (items : List Frozen)
  | mapping (items : List (Key × Frozen))

namespace Frozen

mutual

/-- The value as its `==` compares it: a key is its characters. -/
def plain : Frozen → Json
  | null => .null
  | bool b => .bool b
  | int n => .int n
  | float l => .float l
  | str s => .str s
  | tuple vs => .arr (plainItems vs)
  | mapping ms => .obj (plainMembers ms)

/-- `plain` of every item. -/
def plainItems : List Frozen → List Json
  | [] => []
  | v :: vs => plain v :: plainItems vs

/-- `plain` of every member's value. -/
def plainMembers : List (Key × Frozen) → List (String × Json)
  | [] => []
  | (k, v) :: ms => (k.text, plain v) :: plainMembers ms

end

mutual

def thawJson : Frozen → Json
  | null => .null
  | bool b => .bool b
  | int n => .int n
  | float l => .float l
  | str s => .str s
  | tuple vs => .arr (thawItems vs)
  | mapping ms => .obj (Dict.ofItems (thawMembers ms))

/-- `thaw_json` of every item. -/
def thawItems : List Frozen → List Json
  | [] => []
  | v :: vs => thawJson v :: thawItems vs

/-- `(str(key), thaw_json(item))` of every member. -/
def thawMembers : List (Key × Frozen) → List (String × Json)
  | [] => []
  | (k, v) :: ms => (k.shown, thawJson v) :: thawMembers ms

end

end Frozen

mutual

/-- `freeze_json`, of a value that the JSON library has read. -/
def freezeJson (label : String) : Json → Except ConfigError Frozen
  | .null => .ok .null
  | .bool b => .ok (.bool b)
  | .int n => .ok (.int n)
  | .float l =>
      if Double.ofText l = none then
        .error (.valueError (label ++ " must not contain non-finite numbers"))
      else .ok (.float l)
  | .str s => .ok (.str s)
  | .arr vs => (freezeItems label 0 vs).map .tuple
  | .obj ms =>
      (freezeMembers label ms).map fun frozen =>
        .mapping ((Dict.ofItems frozen).map fun m => (⟨m.1, m.1⟩, m.2))

/-- `freeze_json` of every item. -/
def freezeItems (label : String) (index : Nat) : List Json → Except ConfigError (List Frozen)
  | [] => .ok []
  | v :: vs => do
      let v ← freezeJson (label ++ "[" ++ Text.str index ++ "]") v
      let vs ← freezeItems label (index + 1) vs
      return v :: vs

/-- `freeze_json` of every member's value. -/
def freezeMembers (label : String) :
    List (String × Json) → Except ConfigError (List (String × Frozen))
  | [] => .ok []
  | (k, v) :: ms => do
      let v ← freezeJson (label ++ "." ++ k) v
      let ms ← freezeMembers label ms
      return (k, v) :: ms

end

/-! ## Strict values -/

mutual

/-- Every float is finite, and no object repeats a field. -/
def Strict : Json → Prop
  | .float l => Double.ofText l ≠ none
  | .arr vs => StrictItems vs
  | .obj ms => (Json.keys ms).Nodup ∧ StrictMembers ms
  | _ => True

/-- `Strict` of every item. -/
def StrictItems : List Json → Prop
  | [] => True
  | v :: vs => Strict v ∧ StrictItems vs

/-- `Strict` of every member's value. -/
def StrictMembers : List (String × Json) → Prop
  | [] => True
  | (_, v) :: ms => Strict v ∧ StrictMembers ms

end

theorem strictItems_iff {vs : List Json} : StrictItems vs ↔ ∀ v ∈ vs, Strict v := by
  induction vs with
  | nil => simp [StrictItems]
  | cons v vs ih => simp [StrictItems, ih]

theorem strictMembers_iff {ms : List (String × Json)} :
    StrictMembers ms ↔ ∀ m ∈ ms, Strict m.2 := by
  induction ms with
  | nil => simp [StrictMembers]
  | cons m ms ih => simp [StrictMembers, ih]

mutual

theorem Strict.distinct : ∀ {v : Json}, Strict v → Distinct v
  | .null, _ => trivial
  | .bool _, _ => trivial
  | .int _, _ => trivial
  | .float _, _ => trivial
  | .str _, _ => trivial
  | .arr _, h => distinctItems_of_strict h
  | .obj _, h => ⟨h.1, distinctMembers_of_strict h.2⟩

theorem distinctItems_of_strict : ∀ {vs : List Json}, StrictItems vs → DistinctItems vs
  | [], _ => trivial
  | _ :: _, h => ⟨Strict.distinct h.1, distinctItems_of_strict h.2⟩

theorem distinctMembers_of_strict : ∀ {ms : List (String × Json)},
    StrictMembers ms → DistinctMembers ms
  | [], _ => trivial
  | (_, _) :: _, h => ⟨Strict.distinct h.1, distinctMembers_of_strict h.2⟩

end

mutual

theorem strict_reading {r : Json → Json} (hr : Reading r) : ∀ {v : Json}, Strict v →
    Strict (r v)
  | .null, _ => by rw [hr.null]; trivial
  | .bool b, _ => by rw [hr.bool]; trivial
  | .int n, _ => by rw [hr.int]; trivial
  | .float l, h => by rw [hr.float]; exact h
  | .str s, _ => by rw [hr.str]; trivial
  | .arr vs, h => by
      rw [hr.arr]
      exact strictItems_iff.mpr (strictItems_reading hr h)
  | .obj ms, h => by
      obtain ⟨ms', hms, hperm⟩ := hr.obj ms h.1
      have hkeys : Json.keys (ms.map fun m => (m.1, r m.2)) = Json.keys ms := by
        rw [Json.keys, List.map_map]
        rfl
      have hnd : (Json.keys ms').Nodup := by
        rw [Json.keys, (hperm.map Prod.fst).nodup_iff, ← Json.keys, hkeys]
        exact h.1
      rw [hms]
      refine ⟨hnd, strictMembers_iff.mpr fun m hm => ?_⟩
      obtain ⟨n, hn, rfl⟩ := List.mem_map.mp (hperm.mem_iff.mp hm)
      exact strictMembers_reading hr h.2 n hn

theorem strictItems_reading {r : Json → Json} (hr : Reading r) : ∀ {vs : List Json},
    StrictItems vs → ∀ v ∈ vs.map r, Strict v
  | [], _, _, hv => (List.not_mem_nil hv).elim
  | _ :: _, h, v, hv => by
      rcases List.mem_cons.mp hv with rfl | hv
      · exact strict_reading hr h.1
      · exact strictItems_reading hr h.2 v hv

theorem strictMembers_reading {r : Json → Json} (hr : Reading r) :
    ∀ {ms : List (String × Json)}, StrictMembers ms → ∀ m ∈ ms, Strict (r m.2)
  | [], _, _, hm => (List.not_mem_nil hm).elim
  | (_, _) :: _, h, m, hm => by
      rcases List.mem_cons.mp hm with rfl | hm
      · exact strict_reading hr h.1
      · exact strictMembers_reading hr h.2 m hm

end

/-! ## Freezing and thawing -/

mutual

/-- What a strict value is frozen to. -/
def ofJson : Json → Frozen
  | .null => .null
  | .bool b => .bool b
  | .int n => .int n
  | .float l => .float l
  | .str s => .str s
  | .arr vs => .tuple (ofItems vs)
  | .obj ms => .mapping (ofMembers ms)

/-- `ofJson` of every item. -/
def ofItems : List Json → List Frozen
  | [] => []
  | v :: vs => ofJson v :: ofItems vs

/-- `ofJson` of every member's value. -/
def ofMembers : List (String × Json) → List (Key × Frozen)
  | [] => []
  | (k, v) :: ms => (⟨k, k⟩, ofJson v) :: ofMembers ms

end

theorem ofMembers_eq_map (ms : List (String × Json)) :
    ofMembers ms = (ms.map fun m => (m.1, ofJson m.2)).map fun m => (⟨m.1, m.1⟩, m.2) := by
  induction ms with
  | nil => rfl
  | cons m ms ih => rw [ofMembers, ih]; rfl

mutual

theorem plain_ofJson : ∀ v : Json, (ofJson v).plain = v
  | .null => rfl
  | .bool _ => rfl
  | .int _ => rfl
  | .float _ => rfl
  | .str _ => rfl
  | .arr vs => congrArg Json.arr (plainItems_ofItems vs)
  | .obj ms => congrArg Json.obj (plainMembers_ofMembers ms)

theorem plainItems_ofItems : ∀ vs : List Json, Frozen.plainItems (ofItems vs) = vs
  | [] => rfl
  | v :: vs => by rw [ofItems, Frozen.plainItems, plain_ofJson v, plainItems_ofItems vs]

theorem plainMembers_ofMembers : ∀ ms : List (String × Json),
    Frozen.plainMembers (ofMembers ms) = ms
  | [] => rfl
  | (k, v) :: ms => by
      rw [ofMembers, Frozen.plainMembers, plain_ofJson v, plainMembers_ofMembers ms]

end

mutual

theorem thawJson_ofJson : ∀ {v : Json}, Strict v → (ofJson v).thawJson = v
  | .null, _ => rfl
  | .bool _, _ => rfl
  | .int _, _ => rfl
  | .float _, _ => rfl
  | .str _, _ => rfl
  | .arr _, h => congrArg Json.arr (thawItems_ofItems h)
  | .obj ms, h => by
      rw [ofJson, Frozen.thawJson, thawMembers_ofMembers h.2, Dict.ofItems_of_nodup h.1]

theorem thawItems_ofItems : ∀ {vs : List Json}, StrictItems vs →
    Frozen.thawItems (ofItems vs) = vs
  | [], _ => rfl
  | _ :: _, h => by
      rw [ofItems, Frozen.thawItems, thawJson_ofJson h.1, thawItems_ofItems h.2]

theorem thawMembers_ofMembers : ∀ {ms : List (String × Json)}, StrictMembers ms →
    Frozen.thawMembers (ofMembers ms) = ms
  | [], _ => rfl
  | (_, _) :: _, h => by
      rw [ofMembers, Frozen.thawMembers, thawJson_ofJson h.1, thawMembers_ofMembers h.2]

end

mutual

/-- **A strict value is frozen.** -/
theorem freezeJson_ok : ∀ {v : Json} (label : String), Strict v →
    freezeJson label v = .ok (ofJson v)
  | .null, _, _ => rfl
  | .bool _, _, _ => rfl
  | .int _, _, _ => rfl
  | .float _, _, h => if_neg h
  | .str _, _, _ => rfl
  | .arr vs, label, h => by rw [freezeJson, freezeItems_ok label 0 h]; rfl
  | .obj ms, label, h => by
      have hnd : ((ms.map fun m => (m.1, ofJson m.2)).map Prod.fst).Nodup := by
        rw [List.map_map]
        exact h.1
      rw [freezeJson, freezeMembers_ok label h.2, Except.map, Dict.ofItems_of_nodup hnd, ofJson,
        ofMembers_eq_map]

theorem freezeItems_ok : ∀ {vs : List Json} (label : String) (index : Nat), StrictItems vs →
    freezeItems label index vs = .ok (ofItems vs)
  | [], _, _, _ => rfl
  | _ :: _, label, index, h => by
      rw [freezeItems, freezeJson_ok _ h.1, freezeItems_ok label (index + 1) h.2]
      rfl

theorem freezeMembers_ok : ∀ {ms : List (String × Json)} (label : String), StrictMembers ms →
    freezeMembers label ms = .ok (ms.map fun m => (m.1, ofJson m.2))
  | [], _, _ => rfl
  | (_, _) :: _, label, h => by
      rw [freezeMembers, freezeJson_ok _ h.1, freezeMembers_ok label h.2]
      rfl

end

theorem plainMembers_map (ms : List (String × Frozen)) :
    Frozen.plainMembers (ms.map fun m => (⟨m.1, m.1⟩, m.2)) =
      ms.map fun m => (m.1, m.2.plain) := by
  induction ms with
  | nil => rfl
  | cons m ms ih => rw [List.map_cons, Frozen.plainMembers, ih]; rfl

mutual

theorem freezeJson_strict : ∀ {v : Json} {label : String} {f : Frozen},
    freezeJson label v = .ok f → Strict f.plain
  | .null, _, _, h => by cases h; trivial
  | .bool _, _, _, h => by cases h; trivial
  | .int _, _, _, h => by cases h; trivial
  | .float l, _, _, h => by
      rw [freezeJson, check_ok_iff] at h
      cases h.2
      exact h.1
  | .str _, _, _, h => by cases h; trivial
  | .arr vs, label, f, h => by
      rw [freezeJson] at h
      cases hvs : freezeItems label 0 vs with
      | error e => rw [hvs] at h; cases h
      | ok items =>
          rw [hvs] at h
          cases h
          exact freezeItems_strict hvs
  | .obj ms, label, f, h => by
      rw [freezeJson] at h
      cases hms : freezeMembers label ms with
      | error e => rw [hms] at h; cases h
      | ok items =>
          rw [hms] at h
          cases h
          have hnd : ((Dict.ofItems items).map Prod.fst).Nodup :=
            Dict.nodup_keys_update List.nodup_nil
          rw [Frozen.plain, plainMembers_map]
          refine ⟨?_, strictMembers_iff.mpr fun m hm => ?_⟩
          · rw [Json.keys, List.map_map]
            exact hnd
          · obtain ⟨n, hn, rfl⟩ := List.mem_map.mp hm
            have hn := (Dict.mem_of_mem_update hn).resolve_right List.not_mem_nil
            exact freezeMembers_strict hms n hn

theorem freezeItems_strict : ∀ {vs : List Json} {label : String} {index : Nat}
    {items : List Frozen}, freezeItems label index vs = .ok items →
      StrictItems (Frozen.plainItems items)
  | [], _, _, _, h => by cases h; trivial
  | v :: vs, label, index, items, h => by
      rw [freezeItems] at h
      obtain ⟨f, hf, h⟩ := bind_ok_iff.mp h
      obtain ⟨rest, hrest, h⟩ := bind_ok_iff.mp h
      cases h
      exact ⟨freezeJson_strict hf, freezeItems_strict hrest⟩

theorem freezeMembers_strict : ∀ {ms : List (String × Json)} {label : String}
    {items : List (String × Frozen)}, freezeMembers label ms = .ok items →
      ∀ m ∈ items, Strict m.2.plain
  | [], _, _, h, _, hm => by cases h; exact (List.not_mem_nil hm).elim
  | (k, v) :: ms, label, items, h, m, hm => by
      rw [freezeMembers] at h
      obtain ⟨f, hf, h⟩ := bind_ok_iff.mp h
      obtain ⟨rest, hrest, h⟩ := bind_ok_iff.mp h
      cases h
      rcases List.mem_cons.mp hm with rfl | hm
      · exact freezeJson_strict hf
      · exact freezeMembers_strict hrest m hm

end

mutual

theorem strict_thawJson : ∀ {f : Frozen}, Strict f.plain → Strict f.thawJson
  | .null, _ => trivial
  | .bool _, _ => trivial
  | .int _, _ => trivial
  | .float _, h => h
  | .str _, _ => trivial
  | .tuple _, h => strict_thawItems h
  | .mapping ms, h => by
      refine ⟨Dict.nodup_keys_update List.nodup_nil, strictMembers_iff.mpr fun m hm => ?_⟩
      have hm := (Dict.mem_of_mem_update hm).resolve_right List.not_mem_nil
      exact strict_thawMembers h.2 m hm

theorem strict_thawItems : ∀ {fs : List Frozen}, StrictItems (Frozen.plainItems fs) →
    StrictItems (Frozen.thawItems fs)
  | [], _ => trivial
  | _ :: _, h => ⟨strict_thawJson h.1, strict_thawItems h.2⟩

theorem strict_thawMembers : ∀ {ms : List (Key × Frozen)},
    StrictMembers (Frozen.plainMembers ms) → ∀ m ∈ Frozen.thawMembers ms, Strict m.2
  | [], _, _, hm => (List.not_mem_nil hm).elim
  | (_, _) :: _, h, m, hm => by
      rcases List.mem_cons.mp hm with rfl | hm
      · exact strict_thawJson h.1
      · exact strict_thawMembers h.2 m hm

end

/-! ## Keys that are exact strings -/

namespace Frozen

mutual

/-- Every key, at any depth, is the text that `str` makes of it. -/
def Exact : Frozen → Prop
  | tuple vs => ExactItems vs
  | mapping ms => ExactMembers ms
  | _ => True

/-- `Exact` of every item. -/
def ExactItems : List Frozen → Prop
  | [] => True
  | v :: vs => Exact v ∧ ExactItems vs

/-- `Exact` of every member. -/
def ExactMembers : List (Key × Frozen) → Prop
  | [] => True
  | (k, v) :: ms => k.shown = k.text ∧ Exact v ∧ ExactMembers ms

end

mutual

theorem thawJson_eq_plain : ∀ {f : Frozen}, Exact f → Strict f.plain → f.thawJson = f.plain
  | .null, _, _ => rfl
  | .bool _, _, _ => rfl
  | .int _, _, _ => rfl
  | .float _, _, _ => rfl
  | .str _, _, _ => rfl
  | .tuple _, h, hstrict => congrArg Json.arr (thawItems_eq_plain h hstrict)
  | .mapping ms, h, hstrict => by
      rw [thawJson, plain, thawMembers_eq_plain h hstrict.2, Dict.ofItems_of_nodup hstrict.1]

theorem thawItems_eq_plain : ∀ {fs : List Frozen}, ExactItems fs →
    StrictItems (plainItems fs) → thawItems fs = plainItems fs
  | [], _, _ => rfl
  | _ :: _, h, hstrict => by
      rw [thawItems, plainItems, thawJson_eq_plain h.1 hstrict.1,
        thawItems_eq_plain h.2 hstrict.2]

theorem thawMembers_eq_plain : ∀ {ms : List (Key × Frozen)}, ExactMembers ms →
    StrictMembers (plainMembers ms) → thawMembers ms = plainMembers ms
  | [], _, _ => rfl
  | (_, _) :: _, h, hstrict => by
      rw [thawMembers, plainMembers, h.1, thawJson_eq_plain h.2.1 hstrict.1,
        thawMembers_eq_plain h.2.2 hstrict.2]

end

mutual

/-- A key that `str` renames is not renamed to another key of its mapping, at any depth. -/
def Apart : Frozen → Prop
  | tuple vs => ApartItems vs
  | mapping ms =>
      (∀ m ∈ ms, ∀ n ∈ ms, m.1.shown ≠ m.1.text → n.1.text ≠ m.1.shown) ∧ ApartMembers ms
  | _ => True

/-- `Apart` of every item. -/
def ApartItems : List Frozen → Prop
  | [] => True
  | v :: vs => Apart v ∧ ApartItems vs

/-- `Apart` of every member's value. -/
def ApartMembers : List (Key × Frozen) → Prop
  | [] => True
  | (_, v) :: ms => Apart v ∧ ApartMembers ms

end

theorem keys_plainMembers (ms : List (Key × Frozen)) :
    Json.keys (plainMembers ms) = ms.map fun m => m.1.text := by
  induction ms with
  | nil => rfl
  | cons m ms ih => exact congrArg (m.1.text :: ·) ih

theorem plainMembers_eq_map (ms : List (Key × Frozen)) :
    plainMembers ms = ms.map fun m => (m.1.text, m.2.plain) := by
  induction ms with
  | nil => rfl
  | cons m ms ih => exact congrArg ((m.1.text, m.2.plain) :: ·) ih

theorem thawMembers_eq_map (ms : List (Key × Frozen)) :
    thawMembers ms = ms.map fun m => (m.1.shown, m.2.thawJson) := by
  induction ms with
  | nil => rfl
  | cons m ms ih => exact congrArg ((m.1.shown, m.2.thawJson) :: ·) ih

/-- A mapping that is thawed to an equal one has exact keys at its own level, and values that
are thawed to equal ones. -/
theorem exact_of_thaw_eq {ms : List (Key × Frozen)} (hstrict : Strict (.obj (plainMembers ms)))
    (hapart : ∀ m ∈ ms, ∀ n ∈ ms, m.1.shown ≠ m.1.text → n.1.text ≠ m.1.shown)
    (h : Json.canon (.obj (Dict.ofItems (thawMembers ms))) = Json.canon (.obj (plainMembers ms))) :
    ∀ m ∈ ms, m.1.shown = m.1.text ∧ Json.canon m.2.thawJson = Json.canon m.2.plain := by
  have hthawed : (Json.keys (Dict.ofItems (thawMembers ms))).Nodup :=
    Dict.nodup_keys_update (d := []) List.nodup_nil
  have hget := Json.get?_of_canon_eq hthawed hstrict.1 h
  -- what a key is shown as is the text of a key, so of that key itself
  have hshown : ∀ m ∈ ms, m.1.shown = m.1.text := by
    intro m hm
    by_contra hne
    obtain ⟨item, hitem, hkey⟩ := Dict.mem_update_of_key (d := [])
      (show (m.1.shown, m.2.thawJson) ∈ thawMembers ms by
        rw [thawMembers_eq_map]
        exact List.mem_map_of_mem hm)
    have hsome := Dict.lookup_ne_none hitem
    rw [hkey] at hsome
    have hplain : m.1.shown ∈ Json.keys (plainMembers ms) := by
      by_contra hnot
      have hvalue := hget m.1.shown
      rw [Json.get?, Json.get?, Dict.lookup_eq_none_iff.mpr hnot, Option.map_none,
        Option.map_eq_none_iff] at hvalue
      exact hsome hvalue
    rw [keys_plainMembers] at hplain
    obtain ⟨n, hn, htext⟩ := List.mem_map.mp hplain
    exact hapart m hm n hn hne htext
  have hthaw : thawMembers ms = ms.map fun m => (m.1.text, m.2.thawJson) := by
    rw [thawMembers_eq_map]
    exact List.map_congr_left fun m hm => by rw [hshown m hm]
  have hnodup : (Json.keys (ms.map fun m => (m.1.text, m.2.thawJson))).Nodup := by
    have hkeys := hstrict.1
    rw [keys_plainMembers] at hkeys
    rw [Json.keys, List.map_map]
    exact hkeys
  rw [hthaw, Dict.ofItems_of_nodup hnodup] at hget
  refine fun m hm => ⟨hshown m hm, ?_⟩
  have hvalue := hget m.1.text
  rw [(Json.get?_eq_some_iff hnodup).mpr (List.mem_map_of_mem hm),
    (Json.get?_eq_some_iff hstrict.1).mpr (by
      rw [plainMembers_eq_map]
      exact List.mem_map_of_mem hm)] at hvalue
  exact Option.some.inj hvalue

mutual

/-- Where renamed keys are apart from the others, only exact keys are thawed to an equal
value. -/
theorem exact_of_canon_eq : ∀ {f : Frozen}, Apart f → Strict f.plain →
    Json.canon f.thawJson = Json.canon f.plain → Exact f
  | .null, _, _, _ => trivial
  | .bool _, _, _, _ => trivial
  | .int _, _, _, _ => trivial
  | .float _, _, _, _ => trivial
  | .str _, _, _, _ => trivial
  | .tuple _, hapart, hstrict, h => exactItems_of_canon_eq hapart hstrict (Json.arr.inj h)
  | .mapping _, hapart, hstrict, h =>
      exactMembers_of_canon_eq hapart.2 hstrict.2 (exact_of_thaw_eq hstrict hapart.1 h)

theorem exactItems_of_canon_eq : ∀ {fs : List Frozen}, ApartItems fs →
    StrictItems (plainItems fs) →
    Json.canonItems (thawItems fs) = Json.canonItems (plainItems fs) → ExactItems fs
  | [], _, _, _ => trivial
  | _ :: _, hapart, hstrict, h =>
      ⟨exact_of_canon_eq hapart.1 hstrict.1 (List.cons.inj h).1,
        exactItems_of_canon_eq hapart.2 hstrict.2 (List.cons.inj h).2⟩

theorem exactMembers_of_canon_eq : ∀ {ms : List (Key × Frozen)}, ApartMembers ms →
    StrictMembers (plainMembers ms) →
    (∀ m ∈ ms, m.1.shown = m.1.text ∧ Json.canon m.2.thawJson = Json.canon m.2.plain) →
      ExactMembers ms
  | [], _, _, _ => trivial
  | m :: _, hapart, hstrict, h =>
      ⟨(h m List.mem_cons_self).1,
        exact_of_canon_eq hapart.1 hstrict.1 (h m List.mem_cons_self).2,
        exactMembers_of_canon_eq hapart.2 hstrict.2 fun n hn =>
          h n (List.mem_cons_of_mem m hn)⟩

end

end Frozen

/-! ## Mappings -/

/-- `FrozenMapping` -/
structure FrozenMapping where
  items : List (Key × Frozen)
  strict : Strict (.obj (Frozen.plainMembers items))

/-- `{}` -/
def FrozenMapping.empty : FrozenMapping := ⟨[], List.nodup_nil, trivial⟩

namespace FrozenMapping

variable (m : FrozenMapping)

/-- The members, as `==` compares them. -/
def members : List (String × Json) := Frozen.plainMembers m.items

/-- `thaw_json` of the mapping. -/
def thaw : Json := (Frozen.mapping m.items).thawJson

/-- `==` of two mappings: the same keys with the same values, in any order. -/
def Same (m n : FrozenMapping) : Prop :=
  Json.canon (.obj m.members) = Json.canon (.obj n.members)

/-- `thaw_json` gives an equal mapping: `str` of its keys, at any depth, leaves it as it is. -/
def Unrenamed : Prop := Json.canon m.thaw = Json.canon (.obj m.members)

theorem unrenamed_of_exact (h : Frozen.ExactMembers m.items) : m.Unrenamed := by
  have hthaw : (Frozen.mapping m.items).thawJson = (Frozen.mapping m.items).plain :=
    Frozen.thawJson_eq_plain h m.strict
  exact congrArg Json.canon hthaw

/-- **On the keys**: where no key is renamed to another one, only exact strings stay as they
are. -/
theorem unrenamed_iff_exact (h : (Frozen.mapping m.items).Apart) :
    m.Unrenamed ↔ Frozen.ExactMembers m.items :=
  ⟨fun heq => Frozen.exact_of_canon_eq h m.strict heq, m.unrenamed_of_exact⟩

end FrozenMapping

/-- `freeze_json_mapping`, of a value that the JSON library has read. -/
def freezeJsonMapping (value : Json) (label : String) : Except ConfigError FrozenMapping :=
  match value with
  | .obj ms =>
      match h : freezeJson label (.obj ms) with
      | .ok (.mapping items) => .ok ⟨items, freezeJson_strict h⟩
      | .ok _ => .error (.typeError "mapping freeze did not produce FrozenMapping")
      | .error e => .error e
  | _ => .error (.typeError (label ++ " must be a mapping"))

/-- The mapping of a strict object. -/
def frozenObject (ms : List (String × Json)) (h : Strict (.obj ms)) : FrozenMapping where
  items := ofMembers ms
  strict := by rw [plainMembers_ofMembers]; exact h

theorem freezeJsonMapping_ok {ms : List (String × Json)} (label : String)
    (h : Strict (.obj ms)) : freezeJsonMapping (.obj ms) label = .ok (frozenObject ms h) := by
  unfold freezeJsonMapping
  dsimp only
  split
  · rename_i items hitems
    rw [freezeJson_ok label h] at hitems
    cases hitems
    rfl
  · rename_i hnone hitems
    rw [freezeJson_ok label h] at hitems
    cases hitems
    exact (hnone _ rfl).elim
  · rename_i e he
    rw [freezeJson_ok label h] at he
    cases he

theorem members_frozenObject {ms : List (String × Json)} (h : Strict (.obj ms)) :
    (frozenObject ms h).members = ms := plainMembers_ofMembers ms

theorem thaw_frozenObject {ms : List (String × Json)} (h : Strict (.obj ms)) :
    (frozenObject ms h).thaw = .obj ms := thawJson_ofJson h

/-- **A mapping comes back** from the text of its thawed value: as it is, but for the keys that
`str` has renamed. -/
theorem freezeJsonMapping_read {r : Json → Json} (hr : Reading r) (m : FrozenMapping)
    (label : String) : ∃ n, freezeJsonMapping (r m.thaw) label = .ok n ∧ n.thaw = r m.thaw ∧
      .obj n.members = r m.thaw := by
  have hstrict : Strict (r m.thaw) :=
    strict_reading hr (strict_thawJson (f := .mapping m.items) m.strict)
  obtain ⟨ms, hms, -⟩ := hr.obj (Dict.ofItems (Frozen.thawMembers m.items))
    (Dict.nodup_keys_update List.nodup_nil)
  have hread : r m.thaw = .obj ms := hms
  rw [hread] at hstrict ⊢
  refine ⟨frozenObject ms hstrict, freezeJsonMapping_ok label hstrict, ?_, ?_⟩
  · exact thaw_frozenObject hstrict
  · rw [members_frozenObject hstrict]

/-- The text of a thawed value has its canonical form. -/
theorem canon_thaw_read {r : Json → Json} (hr : Reading r) (m : FrozenMapping) :
    Json.canon (r m.thaw) = Json.canon m.thaw :=
  Json.canon_reading hr (strict_thawJson (f := .mapping m.items) m.strict).distinct

/-- What comes back is equal to what was written just when no key was renamed. -/
theorem same_read_iff {r : Json → Json} (hr : Reading r) {m n : FrozenMapping}
    (h : .obj n.members = r m.thaw) : n.Same m ↔ m.Unrenamed := by
  rw [FrozenMapping.Same, h, canon_thaw_read hr, FrozenMapping.Unrenamed]

end LmResiliency.FaultInjection
