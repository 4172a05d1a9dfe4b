/-
# MoECatalog — regimes, and the catalog they are kept in

A regime is a set of shapes with one equivalence key, and a catalog holds the
regimes of one EP position, bound to the environment they were profiled in.  Both
are checked when they are made, by discovery or from a JSON value.
-/
import LmResiliency.Detection.MoERecords

namespace LmResiliency.Detection.MoE

open LmResiliency.Outcome

/-! ## The environment -/

/-- `not value`. -/
def falsy : Json → Bool
  | .null | .bool false | .int 0 | .float "0.0" | .float "-0.0" | .str "" | .arr [] | .obj [] =>
      true
  | _ => false

def requiredCatalogEnvironmentFields : List String :=
  ["backend", "container_digest", "cublas", "cuda_build", "cuda_graphs", "driver",
   "gpu_capability", "gpu_model", "model", "model_commit", "nccl", "overlap", "parallelism",
   "precision", "precision_recipe", "sm_count", "torch", "workspace_policy"]

/-- `MoEExecutionEnvironment`. -/
structure MoEExecutionEnvironment where
  attributes : List (String × Json)

namespace MoEExecutionEnvironment

def fromMapping (attributes : Json) : Except Error MoEExecutionEnvironment :=
  if falsy attributes then
    .error (.valueError "MoE execution environment cannot be empty")
  else do
    return { attributes := ← frozenValue attributes }

/-- `to_dict`. -/
def toJson (e : MoEExecutionEnvironment) : Json := .obj e.attributes

def identifier (digest : String → String) (e : MoEExecutionEnvironment) : String :=
  digestOf digest e.toJson

/-- `attributes.get("extra")`, when it is a mapping. -/
def extra (e : MoEExecutionEnvironment) : List (String × Json) :=
  match Json.get? "extra" e.attributes with
  | some (.obj ms) => ms
  | _ => []

/-- `attributes.get(name, extra.get(name))`. -/
def value (e : MoEExecutionEnvironment) (name : String) : Json :=
  itemOr e.attributes name (itemOr e.extra name .null)

/-- The required fields that are not there. -/
def missing (e : MoEExecutionEnvironment) : List String :=
  requiredCatalogEnvironmentFields.filter fun name =>
    (Json.get? name e.attributes).isNone && (Json.get? name e.extra).isNone

/-- What `int(value) < 1` comes to, where a value that is no number is no count. -/
def noCount (C : Conversions) (value : Json) : Bool :=
  match C.int value with
  | .ok n => n < 1
  | .error _ => true

/-- The fields that hold a placeholder, as they are found. -/
def placeholders (C : Conversions) (e : MoEExecutionEnvironment) : List String :=
  (requiredCatalogEnvironmentFields.filter fun name =>
    name ∉ e.missing && containsPlaceholder (name = "overlap") (e.value name)) ++
  (if !e.extra.isEmpty && containsPlaceholder false (.obj e.extra) then ["extra"] else []) ++
  (if "sm_count" ∉ e.missing && noCount C (e.value "sm_count") then ["sm_count"] else [])

def validateForCatalog (C : Conversions) (e : MoEExecutionEnvironment) : Except Error Unit :=
  let missing := e.missing
  let placeholders := (e.placeholders C).dedup.mergeSort (· ≤ ·)
  if missing = [] ∧ placeholders = [] then .ok ()
  else
    let details :=
      (if missing = [] then [] else ["missing fields: " ++ ", ".intercalate missing]) ++
      (if placeholders = [] then []
        else ["placeholder fields: " ++ ", ".intercalate placeholders])
    .error (.regimeDiscoveryError
      ("MoE execution environment is incomplete for catalog construction (" ++
        "; ".intercalate details ++ ")"))

end MoEExecutionEnvironment

/-! ## Regimes -/

/-- `set(xs) == set(ys)`. -/
def SameSet {α : Type} (xs ys : List α) : Prop := xs ⊆ ys ∧ ys ⊆ xs

instance {α : Type} [DecidableEq α] (xs ys : List α) : Decidable (SameSet xs ys) :=
  inferInstanceAs (Decidable (_ ∧ _))

/-- A list of numbers as it is printed. -/
def printed (values : List Int) : String := "[" ++ ", ".intercalate (values.map toString) ++ "]"

/-- `s[:12]`. -/
def shortened (s : String) : String := String.ofList (s.toList.take 12)

/-- `ExecutionRegime`. -/
structure ExecutionRegime where
  regimeId : String
  executionClass : String
  fingerprints : List ExecutionFingerprint
  shapeFingerprintIds : List (Int × String)
  nExecValues : List Int
  representatives : List Int
  locations : List ProfileLocation

namespace ExecutionRegime

variable (digest : String → String)

def fingerprintsById (r : ExecutionRegime) : List (String × ExecutionFingerprint) :=
  Dict.ofItems (r.fingerprints.map fun f => (f.identifier digest, f))

def fingerprintForShape (r : ExecutionRegime) (nExec : Int) : Except Error ExecutionFingerprint :=
  match (Dict.ofItems r.shapeFingerprintIds).lookup nExec with
  | none => .error (.keyError ("n_exec=" ++ toString nExec ++ " is not in regime " ++ r.regimeId))
  | some identifier =>
      match (r.fingerprintsById digest).lookup identifier with
      | none => .error (.keyError identifier)
      | some fingerprint => .ok fingerprint

def representativesCoverShape (r : ExecutionRegime) (nExec : Int) : Except Error Bool := do
  let target ← r.fingerprintForShape digest nExec
  r.representatives.anyM fun representative => do
    return fingerprintCovers digest (← r.fingerprintForShape digest representative) target

def postInit (r : ExecutionRegime) : Except Error Unit := do
  raiseIf (r.fingerprints = [] ∨ r.nExecValues = [] ∨ r.representatives = [])
    (.valueError "an execution regime requires fingerprints, shapes, and representatives")
  raiseIf (¬r.representatives ⊆ r.nExecValues)
    (.valueError "regime representatives must belong to its n_exec values")
  let shapeMap := Dict.ofItems r.shapeFingerprintIds
  raiseIf (¬SameSet (shapeMap.map Prod.fst) r.nExecValues)
    (.valueError "regime shape/fingerprint map must cover every n_exec exactly")
  raiseIf (¬shapeMap.map Prod.snd ⊆ r.fingerprints.map (·.identifier digest))
    (.valueError "regime shape/fingerprint map refers to an unknown fingerprint")
  let uncovered ← r.nExecValues.filterM fun nExec => do
    return !(← r.representativesCoverShape digest nExec)
  raiseIf (uncovered ≠ [])
    (.valueError ("regime representatives do not cover per-role work counts for shapes " ++
      printed uncovered))

/-- The constructor. -/
def make (r : ExecutionRegime) : Except Error ExecutionRegime := do
  r.postInit digest
  return r

/-- `to_dict`. -/
def toJson (r : ExecutionRegime) : Json :=
  .obj [("regime_id", .str r.regimeId), ("execution_class", .str r.executionClass),
    ("fingerprints", .arr (r.fingerprints.map ExecutionFingerprint.toJson)),
    ("shape_fingerprint_ids",
      .arr (r.shapeFingerprintIds.map fun p => .arr [.int p.1, .str p.2])),
    ("n_exec_values", numbers r.nExecValues), ("representatives", numbers r.representatives),
    ("locations", .arr (r.locations.map ProfileLocation.toJson))]

end ExecutionRegime

/-- `value[index]`. -/
def itemAt (value : Json) (index : Nat) : Except Error Json :=
  match value with
  | .arr vs =>
      match vs[index]? with
      | some v => .ok v
      | none => .error .indexError
  | .str s =>
      match s.toList[index]? with
      | some c => .ok (.str (String.singleton c))
      | none => .error .indexError
  | .obj _ => .error (.keyError (toString index))
  | _ => .error .typeError

variable (digest : String → String) (C : Conversions)

/-- `(int(item[0]), str(item[1]))`. -/
def shapeFingerprintId (value : Json) : Except Error (Int × String) := do
  return (← C.int (← itemAt value 0), C.str (← itemAt value 1))

def ExecutionRegime.fromDict (value : Json) : Except Error ExecutionRegime := do
  let ms ← members value
  let regimeId := C.str (← item ms "regime_id")
  let executionClass := C.str (← item ms "execution_class")
  let fingerprints ←
    (← iterate (← item ms "fingerprints")).mapM (ExecutionFingerprint.fromDict C)
  let shapeFingerprintIds ←
    (← iterate (← item ms "shape_fingerprint_ids")).mapM (shapeFingerprintId C)
  let nExecValues ← (← iterate (← item ms "n_exec_values")).mapM C.int
  let representatives ← (← iterate (← item ms "representatives")).mapM C.int
  let locations ← (← iterate (← item ms "locations")).mapM (ProfileLocation.fromDict C)
  make digest { regimeId, executionClass, fingerprints, shapeFingerprintIds, nExecValues,
                representatives, locations }

/-! ## The catalog -/

/-- `ReplayRecipe`. -/
structure ReplayRecipe where
  regimeId : String
  executionClass : String
  nExec : Int
  fingerprintId : String
deriving DecidableEq

/-- `MoERegimeCatalog`. -/
structure MoERegimeCatalog where
  environment : MoEExecutionEnvironment
  epPosition : Int
  regimes : List ExecutionRegime
  profiledRequests : List ProfileRequest
  observationCounts : List (ProfileRequest × Int)
  equivalencePolicy : String := "plan_and_pressure"
  schemaVersion : Int := catalogSchemaVersion

namespace MoERegimeCatalog

/-- What is asked of a regime of the catalog: one equivalence key, which its name is made
of. -/
def checkRegime (policy : String) (regime : ExecutionRegime) : Except Error Unit := do
  let keys ← regime.nExecValues.mapM fun nExec => do
    return regimeEquivalenceKey digest policy (← regime.fingerprintForShape digest nExec) nExec
  match keys.dedup with
  | [key] =>
      raiseIf (regime.regimeId ≠ regime.executionClass ++ "-" ++ shortened key)
        (.wrongRegimeId regime.regimeId)
  | _ =>
      .error (.valueError
        ("regime " ++ regime.regimeId ++ " contains incompatible execution plans"))

def postInit (c : MoERegimeCatalog) : Except Error Unit := do
  raiseIf (c.schemaVersion ≠ catalogSchemaVersion)
    (.valueError ("unsupported MoE catalog schema " ++ toString c.schemaVersion ++
      "; expected " ++ toString catalogSchemaVersion))
  raiseIf (c.regimes = []) (.valueError "MoE regime catalog cannot be empty")
  raiseIf (c.equivalencePolicy ∉ equivalencePolicies) (.unsupportedPolicy c.equivalencePolicy)
  raiseIf (¬(c.regimes.map ExecutionRegime.regimeId).Nodup)
    (.valueError "MoE regime IDs must be unique")
  raiseIf (¬c.profiledRequests.Nodup) (.valueError "profiled requests must be unique")
  let counts := Dict.ofItems c.observationCounts
  raiseIf (counts.length ≠ c.observationCounts.length)
    (.valueError "observation counts must contain each request exactly once")
  raiseIf (¬SameSet (counts.map Prod.fst) c.profiledRequests)
    (.valueError "observation counts must cover every profiled request exactly")
  raiseIf (∃ count ∈ counts, count.2 < 1) (.valueError "observation counts must be positive")
  c.environment.validateForCatalog C
  c.regimes.forM (checkRegime digest c.equivalencePolicy)

/-- The constructor. -/
def make (c : MoERegimeCatalog) : Except Error MoERegimeCatalog := do
  c.postInit digest C
  return c

/-- The recipe of a representative. -/
def recipeFor (regime : ExecutionRegime) (nExec : Int) : Except Error ReplayRecipe := do
  let fingerprint ← regime.fingerprintForShape digest nExec
  return { regimeId := regime.regimeId
           executionClass := regime.executionClass
           nExec := nExec
           fingerprintId := fingerprint.identifier digest }

def replayRecipes (c : MoERegimeCatalog) : Except Error (List ReplayRecipe) := do
  let recipes ← c.regimes.mapM fun regime =>
    regime.representatives.mapM (recipeFor digest regime)
  return recipes.flatten

def cycleSize (c : MoERegimeCatalog) : Except Error Nat := do
  return (← c.replayRecipes digest).length

/-- `to_dict`. -/
def toJson (c : MoERegimeCatalog) : Json :=
  .obj [("schema_version", .int c.schemaVersion), ("environment", c.environment.toJson),
    ("environment_id", .str (c.environment.identifier digest)),
    ("ep_position", .int c.epPosition), ("equivalence_policy", .str c.equivalencePolicy),
    ("profiled_requests", .arr (c.profiledRequests.map ProfileRequest.toJson)),
    ("observation_counts", .arr (c.observationCounts.map fun p =>
      .obj [("request", p.1.toJson), ("count", .int p.2)])),
    ("regimes", .arr (c.regimes.map ExecutionRegime.toJson))]

def identifier (c : MoERegimeCatalog) : String := digestOf digest (c.toJson digest)

/-- `(ProfileRequest.from_dict(item["request"]), int(item["count"]))`. -/
def observationCount (value : Json) : Except Error (ProfileRequest × Int) := do
  let ms ← members value
  return (← ProfileRequest.fromDict C (← item ms "request"), ← C.int (← item ms "count"))

def fromDict (value : Json) : Except Error MoERegimeCatalog := do
  let ms ← members value
  let schemaVersion ← C.int (← item ms "schema_version")
  let environment ← MoEExecutionEnvironment.fromMapping (← item ms "environment")
  let epPosition ← C.int (← item ms "ep_position")
  let equivalencePolicy := C.str (itemOr ms "equivalence_policy" (.str "exact_launch"))
  let profiledRequests ←
    (← iterate (← item ms "profiled_requests")).mapM (ProfileRequest.fromDict C)
  let observationCounts ←
    (← iterate (← item ms "observation_counts")).mapM (observationCount C)
  let regimes ← (← iterate (← item ms "regimes")).mapM (ExecutionRegime.fromDict digest C)
  let catalog ← make digest C { schemaVersion, environment, epPosition, equivalencePolicy,
                                profiledRequests, observationCounts, regimes }
  let matching : Bool := match itemOr ms "environment_id" .null with
    | .null => true
    | .str expected => expected = catalog.environment.identifier digest
    | _ => false
  raiseIf (¬matching)
    (.valueError "MoE catalog environment checksum does not match its contents")
  return catalog

end MoERegimeCatalog

/-! ## What the checks of a regime establish -/

section Regime

variable {digest : String → String}

theorem anyM_ok_iff {α : Type} {p : α → Except Error Bool} {g : α → Bool} {xs : List α}
    (h : ∀ x ∈ xs, p x = .ok (g x)) : xs.anyM p = .ok (xs.any g) := by
  induction xs with
  | nil => rfl
  | cons x xs ih =>
      rw [List.anyM, h x List.mem_cons_self, List.any_cons]
      change (match g x with
        | true => pure true
        | false => xs.anyM p) = _
      rw [ih fun y hy => h y (List.mem_cons_of_mem x hy)]
      cases g x <;> rfl

theorem filterM_eq_nil_iff {α : Type} {p : α → Except Error Bool} {xs : List α} :
    xs.filterM p = .ok [] ↔ ∀ x ∈ xs, p x = .ok false := by
  have hgrows : ∀ (xs acc ys : List α), List.filterAuxM p xs acc = .ok ys →
      acc.length ≤ ys.length ∧ (ys.length = acc.length → ∀ x ∈ xs, p x = .ok false) := by
    intro xs
    induction xs with
    | nil =>
        intro acc ys h
        rw [← Except.ok.inj h]
        exact ⟨le_rfl, fun _ _ hx => absurd hx List.not_mem_nil⟩
    | cons x xs ih =>
        intro acc ys h
        obtain ⟨found, hx, hrest⟩ := bind_ok_iff.mp h
        obtain ⟨hle, hall⟩ := ih _ _ hrest
        cases found with
        | true =>
            rw [cond_true, List.length_cons] at hle
            exact ⟨by omega, fun heq => by omega⟩
        | false => exact ⟨hle, fun heq => List.forall_mem_cons.mpr ⟨hx, hall heq⟩⟩
  constructor
  · intro h
    obtain ⟨ys, hys, hnil⟩ := bind_ok_iff.mp h
    have hys' : ys = [] := List.reverse_eq_nil_iff.mp (Except.ok.inj hnil)
    exact (hgrows xs [] ys hys).2 (by rw [hys'])
  · intro h
    have hstays : ∀ xs : List α, (∀ x ∈ xs, p x = .ok false) →
        List.filterAuxM p xs [] = .ok [] := by
      intro xs hxs
      induction xs with
      | nil => rfl
      | cons x xs ih =>
          rw [List.filterAuxM, hxs x List.mem_cons_self]
          exact ih fun y hy => hxs y (List.mem_cons_of_mem x hy)
    rw [List.filterM, hstays xs h]
    rfl

/-- What a regime is, once it has been made. -/
structure ExecutionRegime.Checked (digest : String → String) (r : ExecutionRegime) : Prop where
  fingerprints : r.fingerprints ≠ []
  shapes : r.nExecValues ≠ []
  representatives : r.representatives ≠ []
  belong : r.representatives ⊆ r.nExecValues
  mapped : SameSet ((Dict.ofItems r.shapeFingerprintIds).map Prod.fst) r.nExecValues
  known : (Dict.ofItems r.shapeFingerprintIds).map Prod.snd ⊆
    r.fingerprints.map (·.identifier digest)
  covered : ∀ n ∈ r.nExecValues, r.representativesCoverShape digest n = .ok true

theorem ExecutionRegime.postInit_ok_iff {r : ExecutionRegime} :
    r.postInit digest = .ok () ↔ r.Checked digest := by
  have hcover : ∀ nExec, (do return !(← r.representativesCoverShape digest nExec)) =
      (.ok false : Except Error Bool) ↔ r.representativesCoverShape digest nExec = .ok true := by
    intro nExec
    cases r.representativesCoverShape digest nExec with
    | error e => simp [bind, Except.bind]
    | ok covers => cases covers <;> simp [bind, Except.bind, pure, Except.pure]
  have hlast : (∃ uncovered, (r.nExecValues.filterM fun nExec => do
        return !(← r.representativesCoverShape digest nExec)) = .ok uncovered ∧
        uncovered = []) ↔
      ∀ n ∈ r.nExecValues, r.representativesCoverShape digest n = .ok true := by
    simp only [exists_eq_right, filterM_eq_nil_iff, hcover]
  simp only [postInit, raiseIf_bind_ok_iff]
  simp only [bind_ok_iff, raiseIf_ok_iff, ne_eq, not_not, not_or, hlast]
  constructor
  · rintro ⟨⟨hf, hs, hr⟩, hbelong, hmapped, hknown, hcovered⟩
    exact ⟨hf, hs, hr, hbelong, hmapped, hknown, hcovered⟩
  · rintro ⟨hf, hs, hr, hbelong, hmapped, hknown, hcovered⟩
    exact ⟨⟨hf, hs, hr⟩, hbelong, hmapped, hknown, hcovered⟩

theorem exists_lookup {κ α : Type} [DecidableEq κ] {d : List (κ × α)} {k : κ}
    (h : k ∈ d.map Prod.fst) : ∃ v, d.lookup k = some v ∧ (k, v) ∈ d := by
  obtain ⟨m, hm, rfl⟩ := List.mem_map.mp h
  obtain ⟨v, hv⟩ := Option.ne_none_iff_exists'.mp (Dict.lookup_ne_none hm)
  exact ⟨v, hv, Dict.mem_of_lookup hv⟩

/-- Every shape of the regime has its fingerprint. -/
theorem ExecutionRegime.Checked.fingerprintForShape {r : ExecutionRegime} (h : r.Checked digest)
    {n : Int} (hn : n ∈ r.nExecValues) :
    ∃ f ∈ r.fingerprints, r.fingerprintForShape digest n = .ok f := by
  obtain ⟨identifier, hlookup, hmem⟩ := exists_lookup (h.mapped.2 hn)
  have hknown := h.known (List.mem_map_of_mem hmem)
  obtain ⟨g, hg, hid⟩ := List.mem_map.mp hknown
  have hkey : identifier ∈ (r.fingerprintsById digest).map Prod.fst := by
    have hput := Dict.mem_update_of_key (d := []) (List.mem_map_of_mem
      (f := fun f : ExecutionFingerprint => (f.identifier digest, f)) hg)
    obtain ⟨m, hm, hmkey⟩ := hput
    exact List.mem_map.mpr ⟨m, hm, hmkey.trans hid⟩
  obtain ⟨f, hf, hfmem⟩ := exists_lookup hkey
  refine ⟨f, ?_, by rw [ExecutionRegime.fingerprintForShape, hlookup]; dsimp only; rw [hf]⟩
  obtain ⟨f', hf', heq⟩ :=
    List.mem_map.mp ((Dict.mem_of_mem_update hfmem).resolve_right List.not_mem_nil)
  cases heq
  exact hf'

end Regime

/-! ## What the checks of a catalog establish -/

section Catalog

variable {digest : String → String} {C : Conversions}

theorem forM_ok_iff {α : Type} {f : α → Except Error Unit} {xs : List α} :
    xs.forM f = .ok () ↔ ∀ x ∈ xs, f x = .ok () := by
  induction xs with
  | nil => exact iff_of_true rfl fun _ hx => absurd hx List.not_mem_nil
  | cons x xs ih =>
      change (f x >>= fun _ => xs.forM f) = _ ↔ _
      rw [bind_ok_iff, List.forall_mem_cons, ← ih]
      exact ⟨fun ⟨_, hx, hxs⟩ => ⟨hx, hxs⟩, fun ⟨hx, hxs⟩ => ⟨(), hx, hxs⟩⟩

namespace MoERegimeCatalog

/-- What a catalog is, once it has been made. -/
structure Checked (digest : String → String) (C : Conversions) (c : MoERegimeCatalog) : Prop where
  schema : c.schemaVersion = catalogSchemaVersion
  regimes : c.regimes ≠ []
  policy : c.equivalencePolicy ∈ equivalencePolicies
  unique : (c.regimes.map ExecutionRegime.regimeId).Nodup
  profiled : c.profiledRequests.Nodup
  once : (Dict.ofItems c.observationCounts).length = c.observationCounts.length
  counted : SameSet ((Dict.ofItems c.observationCounts).map Prod.fst) c.profiledRequests
  positive : ∀ count ∈ Dict.ofItems c.observationCounts, 1 ≤ count.2
  environment : c.environment.validateForCatalog C = .ok ()
  keyed : ∀ regime ∈ c.regimes, checkRegime digest c.equivalencePolicy regime = .ok ()

theorem postInit_ok_iff {c : MoERegimeCatalog} :
    c.postInit digest C = .ok () ↔ c.Checked digest C := by
  simp only [postInit, raiseIf_bind_ok_iff]
  simp only [bind_ok_iff, forM_ok_iff, ne_eq, not_not, not_exists, not_and, not_lt]
  constructor
  · rintro ⟨h₁, h₂, h₃, h₄, h₅, h₆, h₇, h₈, _, h₉, h₁₀⟩
    exact ⟨h₁, h₂, h₃, h₄, h₅, h₆, h₇, h₈, h₉, h₁₀⟩
  · rintro ⟨h₁, h₂, h₃, h₄, h₅, h₆, h₇, h₈, h₉, h₁₀⟩
    exact ⟨h₁, h₂, h₃, h₄, h₅, h₆, h₇, h₈, (), h₉, h₁₀⟩

/-- A catalog that was made, of regimes that were made. -/
structure Valid (digest : String → String) (C : Conversions) (c : MoERegimeCatalog) : Prop where
  checked : c.Checked digest C
  regimes : ∀ regime ∈ c.regimes, regime.Checked digest

/-- **A catalog has recipes.** -/
theorem Valid.replayRecipes {c : MoERegimeCatalog} (h : c.Valid digest C) :
    ∃ recipes, c.replayRecipes digest = .ok recipes ∧ recipes ≠ [] := by
  have hregime : ∀ regime ∈ c.regimes, ∃ recipes,
      (regime.representatives.mapM (recipeFor digest regime)) = .ok recipes := by
    intro regime hregime
    refine mapM_total fun n hn => ?_
    have hchecked := h.regimes regime hregime
    obtain ⟨f, -, hf⟩ := hchecked.fingerprintForShape (hchecked.belong hn)
    exact ⟨_, by rw [recipeFor, hf]; rfl⟩
  obtain ⟨recipes, hrecipes⟩ := mapM_total hregime
  refine ⟨recipes.flatten, by rw [MoERegimeCatalog.replayRecipes, hrecipes]; rfl, fun hnil => ?_⟩
  obtain ⟨regime, hmem⟩ := List.exists_mem_of_ne_nil _ h.checked.regimes
  obtain ⟨own, hown, hall⟩ := (mem_of_forall₂ (mapM_ok_iff.mp hrecipes)).1 regime hmem
  have hlength := length_mapM hall
  rw [List.flatten_eq_nil_iff.mp hnil own hown] at hlength
  exact (h.regimes regime hmem).representatives (List.length_eq_zero_iff.mp hlength.symm)

end MoERegimeCatalog

end Catalog

/-! ## A catalog of two regimes -/

/-- Two padded digests that agree in twelve letters agree in the first ones. -/
theorem leading_eq_of_shortened {v w : Json}
    (h : shortened (digestOf paddedDigest v) = shortened (digestOf paddedDigest w)) :
    leading v = leading w := by
  have htake := congrArg (List.take 5) (String.ofList_injective h)
  rwa [List.take_take, List.take_take] at htake

/-- Every required field is there. -/
def sampleEnvironment : MoEExecutionEnvironment where
  attributes := requiredCatalogEnvironmentFields.map fun name =>
    (name, if name = "sm_count" then .int 132 else .str "pinned")

theorem validate_sampleEnvironment :
    sampleEnvironment.validateForCatalog plainConversions = .ok () := by
  have hplaceholders : sampleEnvironment.placeholders plainConversions = [] := by decide +kernel
  rw [MoEExecutionEnvironment.validateForCatalog, hplaceholders]
  exact if_pos ⟨by decide +kernel, List.mergeSort_nil⟩

/-- The regime of one shape. -/
def sampleRegime (algorithm : String) (n : Int) : ExecutionRegime where
  regimeId := "default" ++ "-" ++ shortened (digestOf paddedDigest (productDocument algorithm n))
  executionClass := "default"
  fingerprints := [product algorithm n]
  shapeFingerprintIds := [(n, (product algorithm n).identifier paddedDigest)]
  nExecValues := [n]
  representatives := [n]
  locations := []

def sampleCatalog : MoERegimeCatalog where
  environment := sampleEnvironment
  epPosition := 0
  regimes := [sampleRegime "stream_k" 8, sampleRegime "split_k" 32]
  profiledRequests := []
  observationCounts := []

theorem fingerprintForShape_sampleRegime (algorithm : String) (n : Int) :
    (sampleRegime algorithm n).fingerprintForShape paddedDigest n =
      .ok (product algorithm n) := by
  simp [ExecutionRegime.fingerprintForShape, ExecutionRegime.fingerprintsById, sampleRegime,
    Dict.ofItems, Dict.update, Dict.put]

theorem checked_sampleRegime (algorithm : String) (n : Int) :
    (sampleRegime algorithm n).Checked paddedDigest := by
  have hids : Dict.ofItems (sampleRegime algorithm n).shapeFingerprintIds =
      [(n, (product algorithm n).identifier paddedDigest)] := rfl
  refine ⟨List.cons_ne_nil _ _, List.cons_ne_nil _ _, List.cons_ne_nil _ _,
    List.Subset.refl _, ?_, ?_, fun m hm => ?_⟩
  · rw [hids]
    exact ⟨List.Subset.refl _, List.Subset.refl _⟩
  · rw [hids]
    exact List.Subset.refl _
  · obtain rfl := List.mem_singleton.mp hm
    have hself := shapeCovers_self paddedDigest (product algorithm) m
    have hrepresentatives : (sampleRegime algorithm m).representatives = [m] := rfl
    rw [shapeCovers] at hself
    rw [ExecutionRegime.representativesCoverShape, hrepresentatives,
      fingerprintForShape_sampleRegime]
    simp only [bind, Except.bind, List.anyM, fingerprintForShape_sampleRegime, hself]
    rfl

theorem keyed_sampleRegime (algorithm : String) (n : Int) :
    MoERegimeCatalog.checkRegime paddedDigest "plan_and_pressure" (sampleRegime algorithm n) =
      .ok () := by
  have hvalues : (sampleRegime algorithm n).nExecValues = [n] := rfl
  rw [MoERegimeCatalog.checkRegime, hvalues]
  simp only [List.mapM_cons, List.mapM_nil, fingerprintForShape_sampleRegime, bind, Except.bind,
    pure, Except.pure, (List.nodup_singleton _).dedup]
  exact raiseIf_ok_iff.mpr (not_not.mpr rfl)

theorem leading_eq_of_regimeId {a b : String} {n m : Int}
    (h : (sampleRegime a n).regimeId = (sampleRegime b m).regimeId) :
    leading (productDocument a n) = leading (productDocument b m) := by
  rw [sampleRegime, sampleRegime, String.append_right_inj] at h
  exact leading_eq_of_shortened h

theorem nodup_sampleRegimes : (sampleCatalog.regimes.map ExecutionRegime.regimeId).Nodup := by
  have hne : (sampleRegime "stream_k" 8).regimeId ≠ (sampleRegime "split_k" 32).regimeId :=
    fun h => leading_productDocument_ne (leading_eq_of_regimeId h)
  rw [sampleCatalog, List.map_cons, List.map_cons, List.map_nil]
  simp only [List.nodup_cons, List.mem_singleton, List.not_mem_nil, List.nodup_nil, hne,
    not_false_eq_true, and_self]

theorem valid_sampleCatalog : sampleCatalog.Valid paddedDigest plainConversions where
  checked := by
    refine ⟨rfl, List.cons_ne_nil _ _, by decide, nodup_sampleRegimes, List.nodup_nil, rfl,
      by decide, fun _ h => absurd h List.not_mem_nil, validate_sampleEnvironment,
      fun regime hregime => ?_⟩
    rcases List.mem_pair.mp hregime with rfl | rfl <;> exact keyed_sampleRegime _ _
  regimes regime hregime := by
    rcases List.mem_pair.mp hregime with rfl | rfl <;> exact checked_sampleRegime _ _

/-- The recipe of a regime of one shape. -/
def sampleRecipe (algorithm : String) (n : Int) : ReplayRecipe where
  regimeId := (sampleRegime algorithm n).regimeId
  executionClass := "default"
  nExec := n
  fingerprintId := (product algorithm n).identifier paddedDigest

theorem recipes_sampleRegime (algorithm : String) (n : Int) :
    (sampleRegime algorithm n).representatives.mapM
      (MoERegimeCatalog.recipeFor paddedDigest (sampleRegime algorithm n)) =
    .ok [sampleRecipe algorithm n] := by
  have hrepresentatives : (sampleRegime algorithm n).representatives = [n] := rfl
  rw [hrepresentatives]
  simp only [List.mapM_cons, List.mapM_nil, MoERegimeCatalog.recipeFor,
    fingerprintForShape_sampleRegime, bind, Except.bind, pure, Except.pure]
  rfl

theorem replayRecipes_of_regimes {c : MoERegimeCatalog} {a b : String} {n m : Int}
    (h : c.regimes = [sampleRegime a n, sampleRegime b m]) :
    c.replayRecipes paddedDigest = .ok [sampleRecipe a n, sampleRecipe b m] := by
  have hall : c.regimes.mapM (fun regime => regime.representatives.mapM
      (MoERegimeCatalog.recipeFor paddedDigest regime)) =
      .ok [[sampleRecipe a n], [sampleRecipe b m]] := by
    rw [h]
    exact mapM_ok_iff.mpr (.cons (recipes_sampleRegime a n) (.cons (recipes_sampleRegime b m) .nil))
  rw [MoERegimeCatalog.replayRecipes, hall]
  rfl

theorem replayRecipes_sampleCatalog : sampleCatalog.replayRecipes paddedDigest =
    .ok [sampleRecipe "stream_k" 8, sampleRecipe "split_k" 32] :=
  replayRecipes_of_regimes rfl

end LmResiliency.Detection.MoE
