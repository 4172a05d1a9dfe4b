/-
# MoERecords — fingerprints and requests as JSON records

How a fingerprint, a location and a request are made of a JSON value, and that
what is written is read back as it was: a fingerprint is determined by the
document of its identifier.

What `str` and `int` make of a value that is neither a text nor a number is left
open.
-/
import LmResiliency.Detection.MoERegimes
import LmResiliency.Lib.JsonText
import LmResiliency.Lib.Outcome

namespace LmResiliency.Detection.MoE

open LmResiliency.Outcome
open LmResiliency.Json (Reading)

/-- Python's conversions of a JSON value. -/
structure Conversions where
  /-- `str(value)`. -/
  str : Json → String
  /-- `int(value)`. -/
  int : Json → Except Error Int
  str_str : ∀ s, str (.str s) = s
  int_int : ∀ n, int (.int n) = .ok n

/-- Numbers and texts, and nothing else. -/
def plainConversions : Conversions where
  str v := match v with
    | .str s => s
    | _ => ""
  int v := match v with
    | .int n => .ok n
    | _ => .error .typeError
  str_str _ := rfl
  int_int _ := rfl

/-! ## Values -/

/-- The items of a mapping. -/
def members : Json → Except Error (List (String × Json))
  | .obj ms => .ok ms
  | _ => .error .typeError

/-- `value[key]`. -/
def item (ms : List (String × Json)) (key : String) : Except Error Json :=
  match Json.get? key ms with
  | some v => .ok v
  | none => .error (.keyError key)

/-- `value.get(key, default)`. -/
def itemOr (ms : List (String × Json)) (key : String) (default : Json) : Json :=
  (Json.get? key ms).getD default

/-- What a loop over the value goes through. -/
def iterate : Json → Except Error (List Json)
  | .arr vs => .ok vs
  | .str s => .ok (s.toList.map fun c => .str (String.singleton c))
  | .obj ms => .ok (ms.map fun m => .str m.1)
  | _ => .error .typeError

variable (C : Conversions)

def labelOrUnknown : Json → String
  | .null => "unknown"
  | v => C.str v

def optionalInt : Json → Except Error (Option Int)
  | .null => .ok none
  | v => (C.int v).map some

/-- The extents of a launch: three at most, and one for each that is missing. -/
def tripleOfParts (parts : List Json) : Except Error (Option (Int × Int × Int)) :=
  if parts = [] then .ok none
  else do
    let integers ← (parts.take 3).mapM C.int
    return some (integers.getD 0 1, integers.getD 1 1, integers.getD 2 1)

/-- `value.strip().strip("[]()")`, cut at commas and crosses. -/
def tripleParts (value : String) : List Json :=
  let bracket := fun c => decide (c ∈ "[]()".toList)
  let cleaned := ((Text.stripChars value.toList).dropWhile bracket).rdropWhile bracket
  let parts := (cleaned.map fun c => if c = 'x' then ',' else c).splitOn ','
  ((parts.map Text.stripChars).filter (· ≠ [])).map fun part => .str (String.ofList part)

def triple : Json → Except Error (Option (Int × Int × Int))
  | .str value => tripleOfParts C (tripleParts value)
  | .arr parts => tripleOfParts C parts
  | _ => .ok none

/-- `_frozen_mapping`, of any value. -/
def frozenValue : Json → Except Error (List (String × Json))
  | .obj ms => .ok (frozenMapping ms)
  | .null | .bool false | .int 0 | .float "0.0" | .float "-0.0" | .str "" | .arr [] => .ok []
  | _ => .error .typeError

/-! ## Fingerprints -/

def KernelLaunch.fromDict (value : Json) : Except Error KernelLaunch := do
  let ms ← members value
  return { name := C.str (← item ms "name")
           grid := ← triple C (itemOr ms "grid" .null)
           block := ← triple C (itemOr ms "block" .null)
           sharedMemoryBytes := ← optionalInt C (itemOr ms "shared_memory_bytes" .null)
           registersPerThread := ← optionalInt C (itemOr ms "registers_per_thread" .null) }

/-- The pair that an item is unpacked into. -/
def unpackPair (v : Json) : Except Error (Json × Json) := do
  match ← iterate v with
  | [a, b] => return (a, b)
  | _ => .error (.valueError "not two values to unpack")

/-- `values.items()`, or the pairs of a sequence. -/
def roleItems : Json → Except Error (List (Json × Json))
  | .obj ms => .ok (ms.map fun (role, count) => (.str role, count))
  | values => do (← iterate values).mapM unpackPair

/-- The loop that counts the roles. -/
def countRoles (counts : List (String × Int)) :
    List (Json × Json) → Except Error (List (String × Int))
  | [] => .ok counts
  | (role, count) :: items =>
      let label := labelOrUnknown C role
      if label ∈ counts.map Prod.fst then .error (.duplicateRole label)
      else do countRoles (counts ++ [(label, ← C.int count)]) items

def frozenRoleCounts (values : Json) : Except Error (List (String × Int)) := do
  let counts ← countRoles C [] (← roleItems values)
  return Dict.sortedItems counts

def CTASemantics.create (mappingClass : String) (roleCounts qualificationRoleCounts : Json)
    (derivationSource derivationDigest qualificationSource qualificationDigest : String) :
    Except Error CTASemantics := do
  return { mappingClass := mappingClass
           roleCounts := ← frozenRoleCounts C roleCounts
           qualificationRoleCounts := ← frozenRoleCounts C qualificationRoleCounts
           derivationSource := derivationSource
           derivationDigest := derivationDigest
           qualificationSource := qualificationSource
           qualificationDigest := qualificationDigest }

def CTASemantics.fromDict (value : Json) : Except Error CTASemantics := do
  let ms ← members value
  let label := fun key => C.str (itemOr ms key (.str "unknown"))
  CTASemantics.create C (label "mapping_class") (itemOr ms "role_counts" (.obj []))
    (itemOr ms "qualification_role_counts" (.obj [])) (label "derivation_source")
    (label "derivation_digest") (label "qualification_source") (label "qualification_digest")

namespace ExecutionFingerprint

def create (kernels : List KernelLaunch) (algorithmIds tileShapes : List Json)
    (tailPath : String) (workspaceBytes : Json) (pressureClass overlapClass : String)
    (persistentWorkItems : List Json) (ctaSemantics : List CTASemantics) (extra : Json) :
    Except Error ExecutionFingerprint := do
  if kernels = [] then
    .error (.valueError "an execution fingerprint requires at least one GPU kernel")
  return { kernels := kernels
           algorithmIds := algorithmIds.map (labelOrUnknown C)
           tileShapes := tileShapes.map (labelOrUnknown C)
           tailPath := tailPath
           workspaceBytes := ← optionalInt C workspaceBytes
           pressureClass := pressureClass
           overlapClass := overlapClass
           persistentWorkItems := ← persistentWorkItems.mapM C.int
           ctaSemantics := ctaSemantics
           extra := ← frozenValue extra }

def fromDict (value : Json) : Except Error ExecutionFingerprint := do
  let ms ← members value
  let kernels ← (← iterate (← item ms "kernels")).mapM (KernelLaunch.fromDict C)
  let algorithmIds ← iterate (itemOr ms "algorithm_ids" (.arr []))
  let tileShapes ← iterate (itemOr ms "tile_shapes" (.arr []))
  let work ← iterate (itemOr ms "persistent_work_items" (.arr []))
  let semantics ← (← iterate (itemOr ms "cta_semantics" (.arr []))).mapM (CTASemantics.fromDict C)
  create C kernels algorithmIds tileShapes (C.str (itemOr ms "tail_path" (.str "unknown")))
    (itemOr ms "workspace_bytes" .null) (C.str (itemOr ms "pressure_class" (.str "unknown")))
    (C.str (itemOr ms "overlap_class" (.str "unknown"))) work semantics
    (itemOr ms "extra" (.obj []))

end ExecutionFingerprint

/-! ## Requests -/

/-- `ProfileLocation`. -/
structure ProfileLocation where
  layerId : String
  expertId : Int
  epPosition : Int
  executionClass : String := "default"

namespace ProfileLocation

/-- The fields, in the order they are compared. -/
def key (l : ProfileLocation) : String ×ₗ Int ×ₗ Int ×ₗ String :=
  toLex (l.layerId, toLex (l.expertId, toLex (l.epPosition, l.executionClass)))

theorem key_injective : Function.Injective key := by
  rintro ⟨layer, expert, ep, cls⟩ ⟨layer', expert', ep', cls'⟩ h
  cases h
  rfl

instance : LinearOrder ProfileLocation := LinearOrder.lift' key key_injective

/-- `to_dict`. -/
def toJson (l : ProfileLocation) : Json :=
  .obj [("layer_id", .str l.layerId), ("expert_id", .int l.expertId),
    ("ep_position", .int l.epPosition), ("execution_class", .str l.executionClass)]

def fromDict (value : Json) : Except Error ProfileLocation := do
  let ms ← members value
  return { layerId := C.str (← item ms "layer_id")
           expertId := ← C.int (← item ms "expert_id")
           epPosition := ← C.int (← item ms "ep_position")
           executionClass := C.str (itemOr ms "execution_class" (.str "default")) }

end ProfileLocation

/-- `ProfileRequest`. -/
structure ProfileRequest where
  nExec : Int
  location : ProfileLocation
  nonneg : 0 ≤ nExec

namespace ProfileRequest

/-- The fields, in the order they are compared. -/
def key (r : ProfileRequest) : Int ×ₗ ProfileLocation := toLex (r.nExec, r.location)

theorem key_injective : Function.Injective key := by
  rintro ⟨n, l, hn⟩ ⟨n', l', hn'⟩ h
  cases h
  rfl

instance : LinearOrder ProfileRequest := LinearOrder.lift' key key_injective

/-- The constructor. -/
def make (nExec : Int) (location : ProfileLocation) : Except Error ProfileRequest :=
  if h : 0 ≤ nExec then .ok ⟨nExec, location, h⟩
  else .error (.valueError "n_exec must be non-negative")

/-- `to_dict`. -/
def toJson (r : ProfileRequest) : Json :=
  .obj [("n_exec", .int r.nExec), ("location", r.location.toJson)]

def fromDict (value : Json) : Except Error ProfileRequest := do
  let ms ← members value
  make (← C.int (← item ms "n_exec")) (← ProfileLocation.fromDict C (← item ms "location"))

end ProfileRequest

/-- `ExecutionObservation`. -/
structure ExecutionObservation where
  request : ProfileRequest
  fingerprint : ExecutionFingerprint

namespace ExecutionObservation

def nExec (o : ExecutionObservation) : Int := o.request.nExec

def location (o : ExecutionObservation) : ProfileLocation := o.request.location

end ExecutionObservation

end LmResiliency.Detection.MoE
