/-
# MoERegimes — physical fingerprints and the regimes they fall in

An observed execution of an expert stage has a fingerprint: its kernels and what
selects and scales them.  Fingerprints with one equivalence key form a regime,
and a regime is represented by the shapes whose work covers that of every other.

A frozen mapping is the list of its items, by key; where the code keeps the
canonical text of a value, it stands for the value with its members sorted.
`digest` is the hexadecimal SHA-256 of a text.
-/
import Mathlib.Algebra.Order.Ring.Int
import LmResiliency.Lib.Dict
import LmResiliency.Lib.JsonRoundTrip
import Mathlib.Data.Finset.Sort
import Mathlib.Data.Prod.Lex
import Mathlib.Data.String.Basic

namespace LmResiliency.Detection.MoE

/-- What the code raises. -/
inductive Error where
  | valueError (message : String)
  | typeError
  /-- `f"duplicate CTA semantic role {label!r}"`, a `ValueError` -/
  | duplicateRole (label : String)
  | keyError (key : String)
  | indexError
  | regimeDiscoveryError (message : String)
  | conflictingObservationError (message : String)
  | catalogEnvironmentMismatch (message : String)
  | replayShapePlanMismatch (message : String)
  | assertionError (message : String)
  /-- `f"unsupported regime equivalence policy {policy!r}"`, a `ValueError` -/
  | unsupportedPolicy (policy : String)
  /-- `f"regime ID {regime_id!r} does not match its execution fingerprint"`, a `ValueError` -/
  | wrongRegimeId (regimeId : String)
deriving DecidableEq

def catalogSchemaVersion : Int := 5

def equivalencePolicies : List String := ["exact_launch", "plan_and_pressure"]

def ctaSemanticEvidenceSources : List String :=
  ["backend_api", "generated_metadata", "instrumented", "source_audit"]

def placeholderLabels : List String :=
  ["", "n/a", "none", "null", "placeholder", "tbd", "todo", "unknown", "unset"]

/-! ## Canonical values -/

def frozenMapping (values : List (String × Json)) : List (String × Json) :=
  Json.sortMembers (Json.canonMembers values)

variable (digest : String → String)

/-- `_digest`. -/
def digestOf (value : Json) : String := digest (Json.dumps value)

/-- An integer, or `None`. -/
def optionalNumber : Option Int → Json
  | none => .null
  | some n => .int n

def texts (values : List String) : Json := .arr (values.map .str)

def numbers (values : List Int) : Json := .arr (values.map .int)

/-! ## Labels -/

/-- `str.lower` of a character, as far as a letter of the labels comes out: a capital
letter, or the Kelvin sign. -/
def lowerChar (c : Char) : Char :=
  if 'A' ≤ c ∧ c ≤ 'Z' then Char.ofNat (c.toNat + 32)
  else if c.toNat = 0x212a then 'k'
  else c

def lower (s : String) : String := String.ofList (s.toList.map lowerChar)

/-- A text that stands for something not filled in. -/
def isPlaceholder (allowNone : Bool) (s : String) : Bool :=
  let normalized := lower (Text.strip s)
  if allowNone && normalized = "none" then false
  else normalized ∈ placeholderLabels ||
    (normalized.toList.head? = some '<' && normalized.toList.getLast? = some '>')

mutual

def containsPlaceholder (allowNone : Bool) : Json → Bool
  | .null => true
  | .str s => isPlaceholder allowNone s
  | .obj ms => ms.isEmpty || anyMemberPlaceholder ms
  | .arr vs => vs.isEmpty || anyItemPlaceholder allowNone vs
  | _ => false

/-- `any(_contains_placeholder(item, allow_none=key == "overlap") for key, item in …)`. -/
def anyMemberPlaceholder : List (String × Json) → Bool
  | [] => false
  | (k, v) :: ms => containsPlaceholder (k = "overlap") v || anyMemberPlaceholder ms

/-- `any(_contains_placeholder(item, allow_none=allow_none) for item in …)`. -/
def anyItemPlaceholder (allowNone : Bool) : List Json → Bool
  | [] => false
  | v :: vs => containsPlaceholder allowNone v || anyItemPlaceholder allowNone vs

end

def knownLabel (value : String) (allowNone : Bool := false) : Bool :=
  !containsPlaceholder allowNone (.str value)

def knownLabels (values : List String) : Bool :=
  !values.isEmpty && values.all fun value => knownLabel value

def knownExtra (values : List (String × Json)) : Bool :=
  values.all fun (key, value) => !containsPlaceholder (key = "overlap") value

def validSha256 (value : String) : Bool :=
  value.length = 64 && value.toList.all fun c => lowerChar c ∈ "0123456789abcdef".toList

/-! ## Fingerprints -/

/-- `KernelLaunch`. -/
structure KernelLaunch where
  name : String
  grid : Option (Int × Int × Int) := none
  block : Option (Int × Int × Int) := none
  sharedMemoryBytes : Option Int := none
  registersPerThread : Option Int := none
deriving DecidableEq

/-- A launch extent, or `None`. -/
def optionalTriple : Option (Int × Int × Int) → Json
  | none => .null
  | some (x, y, z) => numbers [x, y, z]

/-- `KernelLaunch.to_dict`. -/
def KernelLaunch.toMembers (k : KernelLaunch) : List (String × Json) :=
  [("name", .str k.name), ("grid", optionalTriple k.grid), ("block", optionalTriple k.block),
   ("shared_memory_bytes", optionalNumber k.sharedMemoryBytes),
   ("registers_per_thread", optionalNumber k.registersPerThread)]

def validLaunchShape : Option (Int × Int × Int) → Bool
  | none => false
  | some (x, y, z) => 0 < x && 0 < y && 0 < z

def ctaCount (k : KernelLaunch) : Int :=
  match k.grid with
  | none => 0
  | some (x, y, z) => x * y * z

/-- `CTASemantics`. -/
structure CTASemantics where
  mappingClass : String
  roleCounts : List (String × Int)
  qualificationRoleCounts : List (String × Int)
  derivationSource : String
  derivationDigest : String
  qualificationSource : String
  qualificationDigest : String
deriving DecidableEq

/-- The roles are written as a dict. -/
def roleMembers (counts : List (String × Int)) : Json :=
  .obj (counts.map fun (role, count) => (role, .int count))

namespace CTASemantics

/-- `to_dict`. -/
def toMembers (s : CTASemantics) : List (String × Json) :=
  [("mapping_class", .str s.mappingClass), ("role_counts", roleMembers s.roleCounts),
   ("qualification_role_counts", roleMembers s.qualificationRoleCounts),
   ("derivation_source", .str s.derivationSource),
   ("derivation_digest", .str s.derivationDigest),
   ("qualification_source", .str s.qualificationSource),
   ("qualification_digest", .str s.qualificationDigest)]

def isCompressionReady (s : CTASemantics) (kernel : KernelLaunch) (persistentWorkItems : Int) :
    Bool :=
  let expectedWork := if persistentWorkItems ≠ 0 then persistentWorkItems else ctaCount kernel
  knownLabel s.mappingClass &&
  !s.roleCounts.isEmpty &&
  s.roleCounts = s.qualificationRoleCounts &&
  (s.roleCounts.all fun (role, count) => knownLabel role && 0 < count) &&
  (s.roleCounts.map Prod.snd).sum = expectedWork &&
  s.derivationSource ∈ ctaSemanticEvidenceSources &&
  s.qualificationSource ∈ ctaSemanticEvidenceSources &&
  s.derivationSource ≠ s.qualificationSource &&
  validSha256 s.derivationDigest &&
  validSha256 s.qualificationDigest &&
  s.derivationDigest ≠ s.qualificationDigest

end CTASemantics

/-- `ExecutionFingerprint`. -/
structure ExecutionFingerprint where
  kernels : List KernelLaunch
  algorithmIds : List String := []
  tileShapes : List String := []
  tailPath : String := "unknown"
  workspaceBytes : Option Int := none
  pressureClass : String := "unknown"
  overlapClass : String := "unknown"
  persistentWorkItems : List Int := []
  ctaSemantics : List CTASemantics := []
  extra : List (String × Json) := []

namespace ExecutionFingerprint

/-- `to_dict`. -/
def toMembers (f : ExecutionFingerprint) : List (String × Json) :=
  [("kernels", .arr (f.kernels.map fun k => .obj k.toMembers)),
   ("algorithm_ids", texts f.algorithmIds), ("tile_shapes", texts f.tileShapes),
   ("tail_path", .str f.tailPath), ("workspace_bytes", optionalNumber f.workspaceBytes),
   ("pressure_class", .str f.pressureClass), ("overlap_class", .str f.overlapClass),
   ("persistent_work_items", numbers f.persistentWorkItems),
   ("cta_semantics", .arr (f.ctaSemantics.map fun s => .obj s.toMembers)),
   ("extra", .obj f.extra)]

def toJson (f : ExecutionFingerprint) : Json := .obj f.toMembers

def identifier (f : ExecutionFingerprint) : String := digestOf digest f.toJson

/-- What `create` establishes: there is a kernel, the roles are sorted, and the extra
items are a frozen mapping. -/
structure Created (f : ExecutionFingerprint) : Prop where
  kernels : f.kernels ≠ []
  roles : ∀ s ∈ f.ctaSemantics, (s.roleCounts.map Prod.fst).Pairwise (· < ·) ∧
    (s.qualificationRoleCounts.map Prod.fst).Pairwise (· < ·)
  extra : ∃ values, Json.Readable (.obj values) ∧ f.extra = frozenMapping values

end ExecutionFingerprint

/-! ## Equivalence keys -/

/-- The fields set to `None`. -/
def cleared (names : List String) (ms : List (String × Json)) : List (String × Json) :=
  ms.map fun (k, v) => if k ∈ names then (k, .null) else (k, v)

/-- The document of `_exact_regime_key`. -/
def exactRegimeDocument (f : ExecutionFingerprint) (nExec : Int) : Json :=
  .obj [("equivalence", .str "exact_launch"), ("fingerprint_id", .str (f.identifier digest)),
    ("n_exec", .int nExec)]

/-- All distinctions that compression rests on are known. -/
def compressionReady (f : ExecutionFingerprint) : Bool :=
  knownLabels f.algorithmIds &&
  knownLabels f.tileShapes &&
  knownLabel f.tailPath &&
  (f.workspaceBytes.any fun bytes => 0 ≤ bytes) &&
  knownLabel f.pressureClass &&
  knownLabel f.overlapClass true &&
  f.persistentWorkItems.length = f.kernels.length &&
  (f.persistentWorkItems.all fun value => 0 ≤ value) &&
  f.ctaSemantics.length = f.kernels.length &&
  ((f.ctaSemantics.zip (f.kernels.zip f.persistentWorkItems)).all
    fun (semantics, kernel, work) => semantics.isCompressionReady kernel work) &&
  knownExtra f.extra &&
  f.kernels.all fun kernel =>
    knownLabel kernel.name && validLaunchShape kernel.grid && validLaunchShape kernel.block

/-- The fingerprint without what scales. -/
def projected (f : ExecutionFingerprint) : Json :=
  .obj (cleared ["persistent_work_items"]
    ((f.toMembers.map fun (k, v) =>
      if k = "kernels" then
        (k, Json.arr (f.kernels.map fun kernel => .obj (cleared ["grid"] kernel.toMembers)))
      else if k = "cta_semantics" then
        (k, Json.arr (f.ctaSemantics.map fun semantics => .obj (cleared
          ["role_counts", "qualification_role_counts", "derivation_source", "derivation_digest",
           "qualification_source", "qualification_digest"] semantics.toMembers)))
      else (k, v)) ++
    [("persistent_work_modes", .arr (f.persistentWorkItems.map fun work =>
      .str (if work ≠ 0 then "persistent" else "direct")))]))

/-- The document of `_regime_equivalence_key`. -/
def regimeDocument (policy : String) (f : ExecutionFingerprint) (nExec : Int) : Json :=
  if policy = "exact_launch" then exactRegimeDocument digest f nExec
  else if !compressionReady f then exactRegimeDocument digest f nExec
  else .obj [("equivalence", .str "plan_and_pressure"), ("fingerprint", projected f)]

def regimeEquivalenceKey (policy : String) (f : ExecutionFingerprint) (nExec : Int) : String :=
  digestOf digest (regimeDocument digest policy f nExec)

/-! ## Coverage -/

/-- `candidate_counts.get(role, 0)`, where `dict` keeps the last count of a role. -/
def roleCount (counts : List (String × Int)) (role : String) : Int :=
  ((Dict.ofItems counts).lookup role).getD 0

def roleCountsCover (candidate target : List (String × Int)) : Bool :=
  target.all fun (role, count) => count ≤ roleCount candidate role

/-- One kernel with its work and its semantics. -/
abbrev KernelWork : Type := KernelLaunch × Int × CTASemantics

/-- The kernels with their work. -/
def ExecutionFingerprint.work (f : ExecutionFingerprint) : List KernelWork :=
  f.kernels.zip (f.persistentWorkItems.zip f.ctaSemantics)

/-- Whether a kernel covers another. -/
def kernelCovers (candidate target : KernelWork) : Bool :=
  candidate.1.grid.isSome && target.1.grid.isSome && target.2.1 ≤ candidate.2.1 &&
    candidate.2.2.mappingClass = target.2.2.mappingClass &&
    roleCountsCover candidate.2.2.roleCounts target.2.2.roleCounts

def fingerprintCovers (candidate target : ExecutionFingerprint) : Bool :=
  if candidate.identifier digest = target.identifier digest then true
  else if candidate.kernels.length ≠ target.kernels.length then false
  else if candidate.persistentWorkItems.length ≠ candidate.kernels.length then false
  else if target.persistentWorkItems.length ≠ target.kernels.length then false
  else if candidate.ctaSemantics.length ≠ candidate.kernels.length then false
  else if target.ctaSemantics.length ≠ target.kernels.length then false
  else (candidate.work.zip target.work).all fun (c, t) => kernelCovers c t

def fingerprintCoverageSize (f : ExecutionFingerprint) : Int :=
  if f.persistentWorkItems.length ≠ f.kernels.length then 0
  else if f.ctaSemantics.length ≠ f.kernels.length then 0
  else (f.work.map fun (_, _, semantics) => (semantics.roleCounts.map Prod.snd).sum).sum

/-! ## Representatives -/

/-- `max(first, *rest, key=key)`: the first of the greatest. -/
def maxBy {α κ : Type} [LinearOrder κ] (key : α → κ) (first : α) (rest : List α) : α :=
  rest.foldl (fun best x => if key best < key x then x else best) first

section Select

variable (fingerprints : Int → ExecutionFingerprint)

/-- `_fingerprint_covers(fingerprints[a], fingerprints[b])`. -/
def shapeCovers (a b : Int) : Bool := fingerprintCovers digest (fingerprints a) (fingerprints b)

/-- The shape with the most work, the greatest of them. -/
def coverageKey (value : Int) : Int ×ₗ Int :=
  toLex (fingerprintCoverageSize (fingerprints value), value)

/-- One round of the loop that keeps the maximal shapes. -/
def keepMaximal (maximal : List Int) (candidate : Int) : List Int :=
  let relations := maximal.map fun existing =>
    (existing, shapeCovers digest fingerprints existing candidate,
      shapeCovers digest fingerprints candidate existing)
  if relations.any fun (_, existingCovers, candidateCovers) =>
      existingCovers && !candidateCovers then maximal
  else
    let equivalent := (relations.filter fun (_, existingCovers, candidateCovers) =>
      existingCovers && candidateCovers).map Prod.fst
    let winner := maxBy (coverageKey fingerprints) candidate equivalent
    ((relations.filter fun (_, existingCovers, candidateCovers) =>
      !candidateCovers && !(existingCovers && candidateCovers)).map Prod.fst) ++ [winner]

/-- One deterministic member of each Pareto-maximal coverage class. -/
def maximalShapes (values : List Int) : List Int :=
  values.foldl (keepMaximal digest fingerprints) []

/-- The shapes of other classes than the representative's. -/
def withoutClass (representative : Int) (maximal : List Int) : List Int :=
  maximal.filter fun candidate =>
    !(shapeCovers digest fingerprints representative candidate &&
      shapeCovers digest fingerprints candidate representative)

theorem shapeCovers_self (a : Int) : shapeCovers digest fingerprints a a = true := by
  rw [shapeCovers, fingerprintCovers, if_pos rfl]

theorem maxBy_mem {α κ : Type} [LinearOrder κ] (key : α → κ) (first : α) (rest : List α) :
    maxBy key first rest ∈ first :: rest := by
  induction rest generalizing first with
  | nil => exact List.mem_singleton.mpr rfl
  | cons x rest ih =>
      rw [maxBy, List.foldl_cons, ← maxBy]
      have hmem := ih (if key first < key x then x else first)
      rcases List.mem_cons.mp hmem with heq | hmem
      · rw [heq]
        split <;> simp
      · exact List.mem_cons_of_mem _ (List.mem_cons_of_mem _ hmem)

theorem withoutClass_shorter (first : Int) (rest : List Int) :
    (withoutClass digest fingerprints (maxBy (coverageKey fingerprints) first rest)
      (first :: rest)).length < (first :: rest).length := by
  rw [withoutClass, List.length_filter_lt_length_iff_exists]
  refine ⟨_, maxBy_mem (coverageKey fingerprints) first rest, ?_⟩
  rw [shapeCovers_self]
  exact Bool.false_ne_true

/-- The loop that takes the representative of each class out of the maximal shapes. -/
def selectClasses (selected : List Int) : List Int → List Int
  | [] => selected
  | first :: rest =>
      let representative := maxBy (coverageKey fingerprints) first rest
      selectClasses (selected ++ [representative])
        (withoutClass digest fingerprints representative (first :: rest))
termination_by maximal => maximal.length
decreasing_by exact withoutClass_shorter digest fingerprints first rest

/-- The shapes chosen before padding. -/
def coverShapes (values : List Int) : List Int :=
  selectClasses digest fingerprints [] (maximalShapes digest fingerprints values)

/-- `abs(indexed_values[value] - indexed_values[chosen])`, the least over the chosen. -/
def distanceTo (values : List Int) (selected : List Int) (value : Int) : Nat :=
  match selected.map fun chosen => Int.natAbs (values.idxOf value - values.idxOf chosen) with
  | [] => 0
  | first :: rest => rest.foldl min first

/-- The loop that adds the shape farthest from the chosen ones; it raises when there is
none left. -/
def padShapes (values : List Int) (targetCount : Nat) (selected : List Int) :
    Except Error (List Int) :=
  if selected.length < targetCount then
    match values.filter (· ∉ selected) with
    | [] => .error (.valueError "max() iterable argument is empty")
    | first :: rest =>
        let candidate := maxBy (fun value =>
          (toLex (distanceTo values selected value, value) : Nat ×ₗ Int)) first rest
        padShapes values targetCount (selected ++ [candidate])
  else .ok selected
termination_by targetCount - selected.length
decreasing_by
  rw [List.length_append, List.length_singleton]
  omega

def selectCoverageRepresentatives (values : List Int) (requestedCount : Int) :
    Except Error (List Int) := do
  if values = [] then
    .error (.valueError "cannot select a representative from an empty regime")
  let selected := coverShapes digest fingerprints values
  if values.any fun target =>
      !selected.any fun representative => shapeCovers digest fingerprints representative target then
    .error (.assertionError "maximal per-role representatives did not cover the regime")
  let targetCount := min values.length (max requestedCount selected.length).toNat
  let selected ← padShapes values targetCount selected
  return selected.insertionSort (· ≤ ·)

end Select

/-! ## A digest, and a family of fingerprints -/

/-- A text from its 66th letter on, filled up to the length of a digest. -/
def paddedDigest (text : String) : String :=
  String.ofList ((text.toList.drop 65 ++ List.replicate 64 '0').take 64)

theorem length_paddedDigest (text : String) : (paddedDigest text).length = 64 := by
  rw [paddedDigest, String.length_ofList, List.length_take, List.length_append,
    List.length_replicate]
  omega

/-- The first letters of a padded digest. -/
def leading (value : Json) : List Char := (digestOf paddedDigest value).toList.take 5

theorem leading_eq (value : Json) : leading value =
    ((Json.write (Json.canon value)).drop 65 ++ List.replicate 64 '0').take 5 := by
  rw [leading, digestOf, Json.dumps, paddedDigest, String.toList_ofList, String.toList_ofList,
    List.take_take]
  rfl

/-- A matrix product of some work items by an algorithm, whose roles are audited. -/
def product (algorithm : String) (n : Int) : ExecutionFingerprint where
  kernels := [{ name := "gemm", grid := some (n, 1, 1), block := some (128, 1, 1) }]
  algorithmIds := [algorithm]
  tileShapes := ["128x128x64"]
  tailPath := "masked"
  workspaceBytes := some 0
  pressureClass := "full"
  overlapClass := "none"
  persistentWorkItems := [0]
  ctaSemantics := [{
    mappingClass := "row_major"
    roleCounts := [("interior", n - 1), ("tail", 1)]
    qualificationRoleCounts := [("interior", n - 1), ("tail", 1)]
    derivationSource := "backend_api"
    derivationDigest := String.ofList (List.replicate 64 (Nat.digitChar (n.toNat % 16)))
    qualificationSource := "instrumented"
    qualificationDigest := String.ofList (List.replicate 64 'b') }]

theorem created_product (algorithm : String) (n : Int) : (product algorithm n).Created := by
  refine ⟨List.cons_ne_nil _ _, fun s hs => ?_, [], ⟨List.nodup_nil, trivial⟩, rfl⟩
  obtain rfl := List.mem_singleton.mp hs
  have hroles : ["interior", "tail"].Pairwise (· < ·) := by decide
  exact ⟨hroles, hroles⟩

/-- The key of a product is made of this. -/
def productDocument (algorithm : String) (n : Int) : Json :=
  regimeDocument paddedDigest "plan_and_pressure" (product algorithm n) n

/-- The fingerprints of two shapes of one algorithm and one of another, and what the two
keys are made of. -/
def sampleDocuments : List Json :=
  [(product "stream_k" 8).toJson, (product "stream_k" 16).toJson, (product "split_k" 32).toJson,
   productDocument "stream_k" 8, productDocument "split_k" 32]

theorem productDocument_mem : productDocument "stream_k" 8 ∈ sampleDocuments ∧
    productDocument "split_k" 32 ∈ sampleDocuments := by
  simp [sampleDocuments]

/-- Their padded digests differ in the first letters. -/
theorem nodup_sampleDocuments : (sampleDocuments.map leading).Nodup := by
  have heq : sampleDocuments.map leading =
      ["t\":\"8", "t\":\"0", "\":\"00", ":[\"st", ":[\"sp"].map String.toList := by
    simp only [sampleDocuments, List.map_cons, List.map_nil, leading_eq]
    decide +kernel
  rw [heq]
  decide +kernel

theorem leading_productDocument_ne :
    leading (productDocument "stream_k" 8) ≠ leading (productDocument "split_k" 32) := by
  have hlast : ((sampleDocuments.map leading).drop 3).Nodup :=
    nodup_sampleDocuments.sublist (List.drop_sublist 3 _)
  exact fun h => (List.nodup_cons.mp hlast).1 (List.mem_singleton.mpr h)

theorem eq_of_leading {v w : Json} (hv : v ∈ sampleDocuments) (hw : w ∈ sampleDocuments)
    (h : leading v = leading w) : v = w :=
  List.inj_on_of_nodup_map nodup_sampleDocuments hv hw h

end LmResiliency.Detection.MoE
