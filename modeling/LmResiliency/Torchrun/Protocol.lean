/-
# Protocol — the manager-to-torchrun recovery records

`_protocol.py`: the field checks, `SlotAssignment`, `RestartPlan` and
`RestartContext`, each with its `__post_init__`, `to_dict` and `from_dict`.

A check returns what it established, so a constructor that runs its checks
in the order of the source ends with a record that carries them: a
`RestartPlan` that no validator accepted cannot be built.  An error is the
path it names and the problem found there, in the texts of the source; the
values that the source prints through `!r` are kept as data.
-/
import LmResiliency.Lib.JsonRoundTrip

namespace LmResiliency.Torchrun

/-- What a check found wrong at a path. -/
inductive Problem where
  /-- `unsupported value …; expected 1` -/
  | schemaVersion (found : Option Json)
  /-- `missing fields […]` -/
  | missingFields (names : List String)
  /-- `unknown fields […]` -/
  | unknownFields (names : List String)
  /-- `unsupported value …; expected one of […]` -/
  | choice (found : String) (choices : List String)
  /-- `quarantined nodes cannot be assigned: […]` -/
  | quarantinedAssigned (names : List String)
  /-- `node … is not assigned by the plan` -/
  | notAssigned (nodeId : String)
  /-- any other text -/
  | text (message : String)

/-- `ProtocolValidationError`. -/
structure ProtocolValidationError where
  path : String
  problem : Problem

/-- The result of reading or checking a value. -/
abbrev Checked (α : Type) := Except ProtocolValidationError α

/-- A fact, as what a check returns. -/
structure Fact (p : Prop) : Type where
  proof : p

theorem Checked.bind_eq_ok {α β : Type} {x : Checked α} {f : α → Checked β} {b : β} :
    x >>= f = .ok b ↔ ∃ a, x = .ok a ∧ f a = .ok b := by
  cases x with
  | error e => simp [bind, Except.bind]
  | ok a => simp [bind, Except.bind]

def invalid {α : Type} (path message : String) : Checked α :=
  .error ⟨path, .text message⟩

/-- `if not p: raise …`. -/
def require (p : Prop) [Decidable p] (path : String) (problem : Problem) : Checked (Fact p) :=
  if h : p then .ok ⟨h⟩ else .error ⟨path, problem⟩

theorem require_ok {p : Prop} [Decidable p] (h : p) (path : String) (problem : Problem) :
    require p path problem = .ok ⟨h⟩ := dif_pos h

/-! ## Checks of typed values -/

/-- `_string` on text. -/
def nonEmpty (path s : String) : Checked (Fact (Text.nonBlank s = true)) :=
  require _ path (.text "expected a non-empty string")

/-- `_optional_string` on text. -/
def optionalNonEmpty (path : String) : (s : Option String) →
    Checked (Fact (∀ t ∈ s, Text.nonBlank t = true))
  | none => .ok ⟨fun _ h => by simp at h⟩
  | some s => (nonEmpty path s).map fun ⟨h⟩ => ⟨fun t ht => by simp_all⟩

/-- `_integer` on an integer. -/
def atLeast (path : String) (minimum n : Int) : Checked (Fact (minimum ≤ n)) :=
  require _ path (.text s!"expected a value >= {minimum}")

/-- `_choice` on text. -/
def oneOf (path : String) (choices : List String) (s : String) :
    Checked (Fact (s ∈ choices)) := do
  let _ ← nonEmpty path s
  require _ path (.choice s (choices.insertionSort (· ≤ ·)))

theorem nonBlank_nil : ∀ s ∈ ([] : List String), Text.nonBlank s = true := by simp

/-- The items of `_strings`, from the given index on. -/
def nonEmptyItems (path : String) : Nat → (ss : List String) →
    Checked (Fact (∀ s ∈ ss, Text.nonBlank s = true))
  | _, [] => .ok ⟨nonBlank_nil⟩
  | index, s :: ss => do
      let ⟨h⟩ ← nonEmpty s!"{path}[{index}]" s
      let ⟨hs⟩ ← nonEmptyItems path (index + 1) ss
      .ok ⟨List.forall_mem_cons.mpr ⟨h, hs⟩⟩

/-- What `_strings(…, unique=True)` establishes. -/
structure Identifiers (ss : List String) : Prop where
  nonBlank : ∀ s ∈ ss, Text.nonBlank s = true
  nodup : ss.Nodup

/-- `_strings(…, unique=True)` on texts. -/
def uniqueStrings (path : String) (ss : List String) :
    Checked (Fact (Identifiers ss)) := do
  let ⟨h⟩ ← nonEmptyItems path 0 ss
  let ⟨hn⟩ ← require ss.Nodup path (.text "values must be unique")
  .ok ⟨⟨h, hn⟩⟩

/-! A check passes exactly on the values it describes: whatever a record
carries, its own constructor accepts again. -/

theorem nonEmpty_ok {s : String} (h : Text.nonBlank s = true) (path : String) :
    nonEmpty path s = .ok ⟨h⟩ := require_ok h _ _

theorem atLeast_ok {minimum n : Int} (h : minimum ≤ n) (path : String) :
    atLeast path minimum n = .ok ⟨h⟩ := require_ok h _ _

theorem oneOf_ok {choices : List String} {s : String} (h : s ∈ choices)
    (hs : Text.nonBlank s = true) (path : String) : oneOf path choices s = .ok ⟨h⟩ := by
  rw [oneOf, nonEmpty_ok hs]
  exact require_ok h _ _

theorem optionalNonEmpty_ok {s : Option String} (h : ∀ t ∈ s, Text.nonBlank t = true)
    (path : String) : optionalNonEmpty path s = .ok ⟨h⟩ := by
  cases s with
  | none => rfl
  | some s => rw [optionalNonEmpty, nonEmpty_ok (h s rfl)]; rfl

theorem nonEmptyItems_ok {ss : List String} (h : ∀ s ∈ ss, Text.nonBlank s = true)
    (path : String) (index : Nat) : nonEmptyItems path index ss = .ok ⟨h⟩ := by
  induction ss generalizing index with
  | nil => rfl
  | cons s ss ih =>
      have hs := List.forall_mem_cons.mp h
      rw [nonEmptyItems, nonEmpty_ok hs.1, ih hs.2]
      rfl

theorem uniqueStrings_ok {ss : List String} (h : Identifiers ss) (path : String) :
    uniqueStrings path ss = .ok ⟨h⟩ := by
  rw [uniqueStrings, nonEmptyItems_ok h.nonBlank, require_ok h.nodup]
  rfl

/-! ## Reading JSON fields -/

/-- `_mapping` (the keys of a JSON object are strings). -/
def mappingOf (value : Json) (path : String) : Checked (List (String × Json)) :=
  match value with
  | .obj ms => .ok ms
  | _ => invalid path "expected an object"

/-- `sorted(a - b)` on field names. -/
def namesWithout (a b : List String) : List String :=
  (a.filter (· ∉ b)).insertionSort (· ≤ ·)

/-- The check of the field names shared by every record. -/
def fieldNames (path : String) (required allowed present : List String) : Checked Unit := do
  let _ ← require (namesWithout required present = []) path
    (.missingFields (namesWithout required present))
  let _ ← require (namesWithout present allowed = []) path
    (.unknownFields (namesWithout present allowed))
  .ok ()

/-- `_record_fields`: the schema version first, then the field names. -/
def recordFields (value : List (String × Json)) (path : String)
    (required : List String) : Checked Unit :=
  match Json.get? "schema_version" value with
  | some (.int 1) =>
      fieldNames path required ("schema_version" :: required) (Json.keys value)
  | found => .error ⟨path ++ ".schema_version", .schemaVersion found⟩

/-- `_string`. -/
def stringOf (value : Json) (path : String) : Checked String :=
  match value with
  | .str s => (nonEmpty path s).map fun _ => s
  | _ => invalid path "expected a non-empty string"

/-- `_optional_string`. -/
def optionalStringOf (value : Json) (path : String) : Checked (Option String) :=
  match value with
  | .null => .ok none
  | v => (stringOf v path).map some

/-- `_integer`. -/
def integerOf (value : Json) (path : String) (minimum : Int) : Checked Int :=
  match value with
  | .int n => (atLeast path minimum n).map fun _ => n
  | _ => invalid path "expected an integer"

/-- `_choice`. -/
def choiceOf (value : Json) (path : String) (choices : List String) : Checked String := do
  let selected ← stringOf value path
  (oneOf path choices selected).map fun _ => selected

/-- `_sequence`. -/
def sequenceOf (value : Json) (path : String) : Checked (List Json) :=
  match value with
  | .arr items => .ok items
  | _ => invalid path "expected an array"

/-- The items of `_strings` read from JSON, from the given index on. -/
def stringItems (path : String) : Nat → List Json → Checked (List String)
  | _, [] => .ok []
  | index, v :: vs => do
      let s ← stringOf v s!"{path}[{index}]"
      let rest ← stringItems path (index + 1) vs
      .ok (s :: rest)

/-- `_strings(…, unique=True)`. -/
def uniqueStringsOf (value : Json) (path : String) : Checked (List String) := do
  let items ← sequenceOf value path
  let result ← stringItems path 0 items
  (require result.Nodup path (.text "values must be unique")).map fun _ => result

/-- `value[name]` of a record whose field names were checked. -/
def field (value : List (String × Json)) (name : String) : Json :=
  (Json.get? name value).getD .null

/-- `list(items)` of texts, as JSON. -/
def strs (items : List String) : Json := .arr (items.map .str)

/-- `str | None`, as JSON. -/
def optionalStr : Option String → Json
  | none => .null
  | some s => .str s

theorem stringOf_str {s : String} (h : Text.nonBlank s = true) (path : String) :
    stringOf (.str s) path = .ok s := by
  rw [stringOf, nonEmpty_ok h]
  rfl

theorem integerOf_int {minimum n : Int} (h : minimum ≤ n) (path : String) :
    integerOf (.int n) path minimum = .ok n := by
  rw [integerOf, atLeast_ok h]
  rfl

theorem choiceOf_str {choices : List String} {s : String} (h : s ∈ choices)
    (hs : Text.nonBlank s = true) (path : String) :
    choiceOf (.str s) path choices = .ok s := by
  rw [choiceOf, stringOf_str hs]
  simp only [bind, Except.bind, oneOf_ok h hs, Except.map]

theorem optionalStringOf_optionalStr {s : Option String}
    (h : ∀ t ∈ s, Text.nonBlank t = true) (path : String) :
    optionalStringOf (optionalStr s) path = .ok s := by
  cases s with
  | none => rfl
  | some s => simp only [optionalStringOf, optionalStr, stringOf_str (h s rfl), Except.map]

theorem stringItems_map {ss : List String} (h : ∀ s ∈ ss, Text.nonBlank s = true)
    (path : String) (index : Nat) : stringItems path index (ss.map .str) = .ok ss := by
  induction ss generalizing index with
  | nil => rfl
  | cons s ss ih =>
      have hs := List.forall_mem_cons.mp h
      rw [List.map_cons, stringItems, stringOf_str hs.1, ih hs.2]
      rfl

theorem uniqueStringsOf_strs {ss : List String} (h : Identifiers ss) (path : String) :
    uniqueStringsOf (strs ss) path = .ok ss := by
  simp only [uniqueStringsOf, strs, sequenceOf, bind, Except.bind, stringItems_map h.nonBlank,
    require_ok h.nodup, Except.map]

theorem namesWithout_eq_nil {a b : List String} (h : ∀ x ∈ a, x ∈ b) :
    namesWithout a b = [] := by
  have hf : a.filter (· ∉ b) = [] := by simpa using h
  rw [namesWithout, hf]
  rfl

theorem fieldNames_ok {required allowed present : List String}
    (hr : ∀ x ∈ required, x ∈ present) (ha : ∀ x ∈ present, x ∈ allowed) (path : String) :
    fieldNames path required allowed present = .ok () := by
  rw [fieldNames, require_ok (namesWithout_eq_nil hr), require_ok (namesWithout_eq_nil ha)]
  rfl

theorem recordFields_ok {value : List (String × Json)} {required : List String}
    (hv : Json.get? "schema_version" value = some (.int 1))
    (hk : ∀ k, k ∈ Json.keys value ↔ k ∈ "schema_version" :: required) (path : String) :
    recordFields value path required = .ok () := by
  rw [recordFields, hv]
  exact fieldNames_ok (fun x hx => (hk x).mpr (List.mem_cons_of_mem _ hx))
    (fun x hx => (hk x).mp hx) path

/-- A field of a record that was written and read back. -/
theorem field_canon {ms ms' : List (String × Json)} {k : String} {v : Json}
    (h : Json.get? k ms' = (Json.get? k ms).map Json.canon) (hv : Json.get? k ms = some v) :
    field ms' k = v.canon := by
  rw [field, h, hv]
  rfl

theorem canon_strs (items : List String) : (strs items).canon = strs items := by
  have h : ∀ ss : List String, Json.canonItems (ss.map .str) = ss.map .str := fun ss => by
    induction ss with
    | nil => rfl
    | cons s ss ih => rw [List.map_cons, Json.canonItems, ih]; rfl
  rw [strs, Json.canon, h]

theorem plain_strs (items : List String) : Json.Plain (strs items) :=
  Json.plainItems_map (f := .str) (fun _ => trivial) items

theorem canon_optionalStr (s : Option String) : (optionalStr s).canon = optionalStr s := by
  cases s <;> rfl

def recoveryModes : List String := ["latest", "recovery_verified"]

def checkpointSources : List String := ["gemini", "durable"]

/-! ## Slot assignments -/

/-- One stable logical node slot in a recovery plan. -/
structure SlotAssignment where
  logicalNodeSlot : Int
  nodeId : String
  firstGlobalRank : Int
  localWorldSize : Int
  slot_nonneg : 0 ≤ logicalNodeSlot
  nodeId_nonBlank : Text.nonBlank nodeId = true
  rank_nonneg : 0 ≤ firstGlobalRank
  size_pos : 1 ≤ localWorldSize
  deriving DecidableEq

namespace SlotAssignment

/-- `SlotAssignment(…)`, through `__post_init__`. -/
def init (logicalNodeSlot : Int) (nodeId : String) (firstGlobalRank localWorldSize : Int) :
    Checked SlotAssignment := do
  let ⟨hs⟩ ← atLeast "SlotAssignment.logical_node_slot" 0 logicalNodeSlot
  let ⟨hn⟩ ← nonEmpty "SlotAssignment.node_id" nodeId
  let ⟨hr⟩ ← atLeast "SlotAssignment.first_global_rank" 0 firstGlobalRank
  let ⟨hw⟩ ← atLeast "SlotAssignment.local_world_size" 1 localWorldSize
  .ok ⟨logicalNodeSlot, nodeId, firstGlobalRank, localWorldSize, hs, hn, hr, hw⟩

def toDict (a : SlotAssignment) : List (String × Json) :=
  [("logical_node_slot", .int a.logicalNodeSlot),
    ("node_id", .str a.nodeId),
    ("first_global_rank", .int a.firstGlobalRank),
    ("local_world_size", .int a.localWorldSize)]

def required : List String :=
  ["logical_node_slot", "node_id", "first_global_rank", "local_world_size"]

def fromDict (value : List (String × Json)) : Checked SlotAssignment := do
  fieldNames "SlotAssignment" required required (Json.keys value)
  let logicalNodeSlot ← integerOf (field value "logical_node_slot")
    "SlotAssignment.logical_node_slot" 0
  let nodeId ← stringOf (field value "node_id") "SlotAssignment.node_id"
  let firstGlobalRank ← integerOf (field value "first_global_rank")
    "SlotAssignment.first_global_rank" 0
  let localWorldSize ← integerOf (field value "local_world_size")
    "SlotAssignment.local_world_size" 1
  init logicalNodeSlot nodeId firstGlobalRank localWorldSize

theorem init_fields (a : SlotAssignment) :
    init a.logicalNodeSlot a.nodeId a.firstGlobalRank a.localWorldSize = .ok a := by
  rw [init, atLeast_ok a.slot_nonneg, nonEmpty_ok a.nodeId_nonBlank, atLeast_ok a.rank_nonneg,
    atLeast_ok a.size_pos]
  rfl

theorem keys_toDict (a : SlotAssignment) : Json.keys a.toDict = required := rfl

theorem plain_toDict (a : SlotAssignment) : Json.Plain (.obj a.toDict) := by
  refine ⟨?_, ?_⟩
  · rw [keys_toDict]; decide
  · simp only [toDict, Json.PlainMembers, Json.Plain, and_self]

/-- An assignment that was written and read back. -/
theorem fromDict_canon (a : SlotAssignment) :
    ∃ ms, (Json.obj a.toDict).canon = .obj ms ∧ fromDict ms = .ok a := by
  have hnd : (Json.keys a.toDict).Nodup := by rw [keys_toDict]; decide
  obtain ⟨ms, hms, hget, hkeys⟩ := Json.canon_obj hnd
  rw [keys_toDict] at hkeys
  refine ⟨ms, hms, ?_⟩
  have hf : ∀ {k v}, Json.get? k a.toDict = some v → field ms k = v.canon :=
    fun {k} _ h => field_canon (hget k) h
  rw [fromDict, fieldNames_ok (fun x hx => (hkeys x).mpr hx) (fun x hx => (hkeys x).mp hx),
    hf (k := "logical_node_slot") rfl, hf (k := "node_id") rfl,
    hf (k := "first_global_rank") rfl, hf (k := "local_world_size") rfl]
  simp only [Json.canon, bind, Except.bind, integerOf_int a.slot_nonneg,
    stringOf_str a.nodeId_nonBlank, integerOf_int a.rank_nonneg, integerOf_int a.size_pos,
    init_fields]

end SlotAssignment

def slotsOf (as : List SlotAssignment) : List Int := as.map SlotAssignment.logicalNodeSlot

def nodesOf (as : List SlotAssignment) : List String := as.map SlotAssignment.nodeId

/-- `range(n)`. -/
def slotRange (n : Nat) : List Int := (List.range n).map Int.ofNat

/-- What `_assignments` establishes of the tuple it returns: the slots in
order from zero, one node each, the ranks tiled by one local world size. -/
structure Placed (as : List SlotAssignment) : Prop where
  ne_nil : as ≠ []
  slots : slotsOf as = slotRange as.length
  nodes : (nodesOf as).Nodup
  sizes : ∀ a ∈ as, ∀ b ∈ as, a.localWorldSize = b.localWorldSize
  ranks : ∀ a ∈ as, a.firstGlobalRank = a.logicalNodeSlot * a.localWorldSize

/-- `sorted(assignments, key=…)`. -/
def sortSlots (as : List SlotAssignment) : List SlotAssignment :=
  as.insertionSort fun a b => a.logicalNodeSlot ≤ b.logicalNodeSlot

theorem perm_sortSlots (as : List SlotAssignment) : (sortSlots as).Perm as :=
  List.perm_insertionSort _ as

/-- Unique slots that are exactly those of a range are, once sorted, the range. -/
theorem slotsOf_sortSlots {as : List SlotAssignment} (hnd : (slotsOf as).Nodup)
    (hsub : ∀ s ∈ slotsOf as, s ∈ slotRange as.length) :
    slotsOf (sortSlots as) = slotRange (sortSlots as).length := by
  have hlen : (sortSlots as).length = as.length := (perm_sortSlots as).length_eq
  have hperm : (slotsOf as).Perm (slotRange as.length) :=
    (List.subperm_of_subset hnd hsub).perm_of_length_le (by simp [slotsOf, slotRange])
  have hsorted : (slotsOf (sortSlots as)).Pairwise (· ≤ ·) := by
    rw [slotsOf, List.pairwise_map]
    exact List.pairwise_insertionSort
      (fun a b : SlotAssignment => a.logicalNodeSlot ≤ b.logicalNodeSlot) as
  have hrange : (slotRange as.length).Pairwise (· ≤ ·) := by
    rw [slotRange, List.pairwise_map]
    exact List.pairwise_le_range.imp fun h => Int.ofNat_le.mpr h
  rw [hlen]
  exact (((perm_sortSlots as).map _).trans hperm).eq_of_pairwise'
    hsorted hrange

/-- The loop of `_assignments`: each slot starts at its own rank. -/
def startRanks (path : String) (localWorldSize : Int) : (as : List SlotAssignment) →
    Checked (Fact (∀ a ∈ as, a.firstGlobalRank = a.logicalNodeSlot * localWorldSize))
  | [] => .ok ⟨fun _ h => by simp at h⟩
  | a :: as => do
      let slot := a.logicalNodeSlot
      let expected := slot * localWorldSize
      let ⟨h⟩ ← require (a.firstGlobalRank = a.logicalNodeSlot * localWorldSize) path
        (.text s!"slot {slot} must start at rank {expected}")
      let ⟨hs⟩ ← startRanks path localWorldSize as
      .ok ⟨List.forall_mem_cons.mpr ⟨h, hs⟩⟩

/-- `_assignments` on assignments that are records already. -/
def assignments (path : String) (as : List SlotAssignment) :
    Checked { bs : List SlotAssignment // Placed bs } := do
  let ⟨hne⟩ ← require (as ≠ []) path (.text "at least one assignment is required")
  let ⟨hslots⟩ ← require (slotsOf as).Nodup path (.text "logical slots must be unique")
  let ⟨hdense⟩ ← require
    ((∀ s ∈ slotsOf as, s ∈ slotRange as.length) ∧ ∀ s ∈ slotRange as.length, s ∈ slotsOf as)
    path (.text "logical slots must be dense from zero")
  let ⟨hnodes⟩ ← require (nodesOf as).Nodup path (.text "assigned node IDs must be unique")
  let size := (as.head hne).localWorldSize
  let ⟨hsizes⟩ ← require (∀ a ∈ as, a.localWorldSize = size) path
    (.text "all assignments must use one local world size")
  let ⟨hranks⟩ ← startRanks path size as
  have hmem : ∀ a, a ∈ sortSlots as ↔ a ∈ as := fun a => (perm_sortSlots as).mem_iff
  .ok ⟨sortSlots as,
    { ne_nil := fun h => hne (List.perm_nil.mp (h ▸ (perm_sortSlots as).symm))
      slots := slotsOf_sortSlots hslots hdense.1
      nodes := ((perm_sortSlots as).map _).nodup_iff.mpr hnodes
      sizes := fun a ha b hb => by
        rw [hsizes a ((hmem a).mp ha), hsizes b ((hmem b).mp hb)]
      ranks := fun a ha => by
        rw [hranks a ((hmem a).mp ha), hsizes a ((hmem a).mp ha)] }⟩

theorem sortSlots_eq_self {as : List SlotAssignment} (h : Placed as) : sortSlots as = as := by
  refine List.Pairwise.insertionSort_eq ?_
  have hrange : (slotsOf as).Pairwise (· ≤ ·) := by
    rw [h.slots, slotRange, List.pairwise_map]
    exact List.pairwise_le_range.imp fun h => Int.ofNat_le.mpr h
  rwa [slotsOf, List.pairwise_map] at hrange

theorem startRanks_ok {size : Int} {as : List SlotAssignment}
    (h : ∀ a ∈ as, a.firstGlobalRank = a.logicalNodeSlot * size) (path : String) :
    startRanks path size as = .ok ⟨h⟩ := by
  induction as with
  | nil => rfl
  | cons a as ih =>
      have ha := List.forall_mem_cons.mp h
      simp only [startRanks, require_ok ha.1, ih ha.2, bind, Except.bind]

theorem nodup_slotRange (n : Nat) : (slotRange n).Nodup :=
  List.nodup_range.map fun _ _ h => Int.ofNat.inj h

theorem assignments_ok {as : List SlotAssignment} (h : Placed as) (path : String) :
    assignments path as = .ok ⟨as, h⟩ := by
  have hhead : as.head h.ne_nil ∈ as := List.head_mem h.ne_nil
  have hslots : (slotsOf as).Nodup := by rw [h.slots]; exact nodup_slotRange _
  have hdense : (∀ s ∈ slotsOf as, s ∈ slotRange as.length) ∧
      ∀ s ∈ slotRange as.length, s ∈ slotsOf as := by
    rw [h.slots]
    exact ⟨fun _ hs => hs, fun _ hs => hs⟩
  have hranks : ∀ a ∈ as, a.firstGlobalRank =
      a.logicalNodeSlot * (as.head h.ne_nil).localWorldSize := fun a ha => by
    rw [h.ranks a ha, h.sizes a ha _ hhead]
  simp only [assignments, bind, Except.bind, require_ok h.ne_nil, require_ok hslots,
    require_ok hdense, require_ok h.nodes, require_ok fun a ha => h.sizes a ha _ hhead,
    startRanks_ok hranks, sortSlots_eq_self h]

/-- What `_assignments` returns is its argument, sorted. -/
theorem assignments_eq_ok {path : String} {as : List SlotAssignment}
    {bs : { bs : List SlotAssignment // Placed bs }} (h : assignments path as = .ok bs) :
    bs.val = sortSlots as := by
  rw [assignments] at h
  iterate 6 (obtain ⟨_, -, h⟩ := Checked.bind_eq_ok.mp h)
  cases h
  rfl

end LmResiliency.Torchrun
