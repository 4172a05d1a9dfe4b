/-
# Scoring — what a localization is worth

An occurrence of an incident is compared with what the resiliency system reported
about it: the ranks, the resources and their pairs, and for every kind of failure
and for every component the targets that go with it.  The comparisons that have
nothing to compare are skipped.

Together they say that the reported association is the expected one.

That is `localized_exact`, the main result.  Scores in between are computed, and
nothing is claimed of them.
-/
import LmResiliency.FaultInjection.Config
import LmResiliency.Lib.KeyedSets
import Mathlib.Data.Finset.Prod
import Mathlib.Data.Finset.Sort
import Mathlib.Data.String.Basic

namespace LmResiliency.FaultInjection

open KeyedSets

/-! ## Reports -/

/-- `InjectionStatus` -/
inductive InjectionStatus where
  | pending
  | active
  | completed
  | skippedProbability
  | failed
  | cancelled
deriving DecidableEq

/-- `FaultInjectionRecord`: what the scoring reads. -/
structure FaultInjectionRecord where
  faultId : String
  status : InjectionStatus
  verified : Bool

def FaultInjectionRecord.injectionSucceeded (record : FaultInjectionRecord) : Bool :=
  record.verified && (record.status = .active ∨ record.status = .completed)

/-- `LocalizationResult` -/
structure LocalizationResult where
  occurrenceId : String
  detected : Bool
  failedRanks : List Int := []
  failedResources : List String := []
  kind : Option String := none
  components : List String := []
  scope : Option String := none
  latencyMs : Option ℚ := none
  occurrence_named : occurrenceId ≠ ""
  ranks_sorted : failedRanks.Pairwise (· < ·)
  ranks_nonneg : ∀ rank ∈ failedRanks, 0 ≤ rank
  resources_sorted : failedResources.Pairwise (· < ·)
  resources_named : ∀ resource ∈ failedResources, Text.nonBlank resource = true
  components_sorted : components.Pairwise (· < ·)
  components_named : ∀ component ∈ components, Text.nonBlank component = true
  kind_named : Named kind
  scope_named : Named scope
  undetected : detected = false → failedRanks = [] ∧ failedResources = [] ∧ components = []
  latency_nonneg : ∀ latency, latencyMs = some latency → 0 ≤ latency

/-- `FaultEvaluation` -/
structure FaultEvaluation where
  occurrenceId : String
  injectionSucceeded : Bool
  detected : Bool
  localized : Bool
  expectedRanks : List Int
  reportedRanks : List Int
  unexpectedRanks : List Int
  expectedResources : List String
  reportedResources : List String
  unexpectedResources : List String
  kindMatches : Option Bool
  componentMatches : Option Bool
  latencyMs : Option ℚ

/-! ## Targets -/

/-- A rank and a resource that go together. -/
abbrev Target : Type := Option Int × Option String

def expectedRank (fault : FaultSpec) : Option Int :=
  if fault.target.rank ≠ none then fault.target.rank
  else if fault.target.resource ≠ none then none
  else some fault.target.executionRank

/-- The component a fault is expected to be reported with. -/
def expectedComponent (fault : FaultSpec) : Option String :=
  if fault.target.component ≠ none then fault.target.component else fault.target.modulePath

/-- `fault.target.component or fault.target.module_path` -/
def componentOrModulePath (fault : FaultSpec) : Option String :=
  match fault.target.component with
  | none => fault.target.modulePath
  | some component => if component = "" then fault.target.modulePath else some component

/-- `items or (None,)` -/
def orNone {α : Type} (items : List α) : List (Option α) :=
  if items = [] then [none] else items.map some

def expectedTargetAssociations (faults : List FaultSpec) : Finset Target :=
  (faults.map fun fault => (expectedRank fault, fault.target.resource)).toFinset

def reportedTargetAssociations (results : List LocalizationResult) : Finset Target :=
  (results.flatMap fun result => (orNone result.failedRanks).flatMap fun rank =>
    (orNone result.failedResources).map fun resource => (rank, resource)).toFinset

def expectedTargetsForKind (incident : FaultIncident) (kind : String) : Finset Target :=
  expectedTargetAssociations (incident.faults.filter (·.expectedKind = kind))

def reportedTargetsForKind (results : List LocalizationResult) (kind : String) : Finset Target :=
  reportedTargetAssociations (results.filter (·.kind = some kind))

def expectedTargetsForComponent (incident : FaultIncident) (component : String) : Finset Target :=
  expectedTargetAssociations (incident.faults.filter (componentOrModulePath · = some component))

def reportedTargetsForComponent (results : List LocalizationResult) (component : String) :
    Finset Target :=
  reportedTargetAssociations (results.filter (component ∈ ·.components))

def expectedTargetsForKindComponent (incident : FaultIncident) (item : String × String) :
    Finset Target :=
  expectedTargetAssociations (incident.faults.filter fun fault =>
    fault.expectedKind = item.1 ∧ componentOrModulePath fault = some item.2)

def reportedTargetsForKindComponent (results : List LocalizationResult) (item : String × String) :
    Finset Target :=
  reportedTargetAssociations (results.filter fun result =>
    result.kind = some item.1 ∧ item.2 ∈ result.components)

/-! ## The evaluation -/

/-- The detected results. -/
def detectedResults (results : List LocalizationResult) : List LocalizationResult :=
  results.filter (·.detected)

/-- The detected results that say more than which peer group failed. -/
def localizingResults (results : List LocalizationResult) : List LocalizationResult :=
  (detectedResults results).filter (·.scope ≠ some "peer_group")

def injectionSucceeded (incident : FaultIncident) (records : List FaultInjectionRecord) : Bool :=
  let expectedFaultIds := (incident.faults.map FaultSpec.faultId).toFinset
  let recordedFaultIds := records.map FaultInjectionRecord.faultId
  let completeActionSet :=
    recordedFaultIds.length = expectedFaultIds.card && recordedFaultIds.toFinset = expectedFaultIds
  completeActionSet && !records.isEmpty && records.all (·.injectionSucceeded)

def kindMatches (incident : FaultIncident) (localizing : List LocalizationResult) : Option Bool :=
  let expectedKinds := (incident.faults.map FaultSpec.expectedKind).toFinset
  let reportedKinds := (localizing.filterMap LocalizationResult.kind).toFinset
  if reportedKinds = ∅ ∧ expectedKinds.card = 1 then none
  else
    some (reportedKinds = expectedKinds &&
      keyed reportedKinds (reportedTargetsForKind localizing) =
        keyed expectedKinds (expectedTargetsForKind incident))

def componentMatches (incident : FaultIncident) (localizing : List LocalizationResult) :
    Option Bool :=
  let expectedKinds := (incident.faults.map FaultSpec.expectedKind).toFinset
  let reportedKinds := (localizing.filterMap LocalizationResult.kind).toFinset
  let expectedComponents := (incident.faults.filterMap expectedComponent).toFinset
  let reportedComponents := (localizing.flatMap LocalizationResult.components).toFinset
  if reportedComponents = ∅ then none
  else
    let expectedKindComponents := (expectedKinds.product expectedComponents).filter fun item =>
      incident.faults.any fun fault =>
        fault.expectedKind = item.1 && componentOrModulePath fault = some item.2
    let reportedKindComponents := (reportedKinds.product reportedComponents).filter fun item =>
      localizing.any fun result => result.kind = some item.1 && item.2 ∈ result.components
    some (expectedComponents ≠ ∅ &&
      reportedComponents = expectedComponents &&
      keyed reportedComponents (reportedTargetsForComponent localizing) =
        keyed expectedComponents (expectedTargetsForComponent incident) &&
      (reportedKinds = ∅ ||
        keyed reportedKindComponents (reportedTargetsForKindComponent localizing) =
          keyed expectedKindComponents (expectedTargetsForKindComponent incident)))

def evaluateOccurrence (occurrenceId : String) (records : List FaultInjectionRecord)
    (results : List LocalizationResult) (incident : FaultIncident) : FaultEvaluation :=
  let expectedRanks := (incident.faults.filterMap expectedRank).toFinset.sort (· ≤ ·)
  let expectedResources := (incident.faults.filterMap (·.target.resource)).toFinset.sort (· ≤ ·)
  let injectionSucceeded := injectionSucceeded incident records
  let detectedResults := detectedResults results
  let localizing := localizingResults results
  let detected := !detectedResults.isEmpty
  let reportedRanks := (localizing.flatMap (·.failedRanks)).toFinset.sort (· ≤ ·)
  let reportedResources := (localizing.flatMap (·.failedResources)).toFinset.sort (· ≤ ·)
  let expectedRankResourcePairs := (incident.faults.filterMap fun fault =>
    fault.target.rank.bind fun rank => fault.target.resource.map fun resource =>
      (rank, resource)).toFinset
  let reportedRankResourcePairs := (localizing.flatMap fun result =>
    result.failedRanks.flatMap fun rank => result.failedResources.map fun resource =>
      (rank, resource)).toFinset
  let ranksMatch : Bool := expectedRanks.toFinset = reportedRanks.toFinset
  let resourcesMatch : Bool := expectedResources.toFinset = reportedResources.toFinset
  let rankResourcePairsMatch : Bool :=
    expectedRankResourcePairs = ∅ || reportedRankResourcePairs = expectedRankResourcePairs
  let kindMatches := kindMatches incident localizing
  let componentMatches := componentMatches incident localizing
  { occurrenceId := occurrenceId
    injectionSucceeded := injectionSucceeded
    detected := detected
    localized := injectionSucceeded && detected && ranksMatch && resourcesMatch &&
      rankResourcePairsMatch && kindMatches ≠ some false && componentMatches ≠ some false
    expectedRanks := expectedRanks
    reportedRanks := reportedRanks
    unexpectedRanks := reportedRanks.filter (· ∉ expectedRanks)
    expectedResources := expectedResources
    reportedResources := reportedResources
    unexpectedResources := reportedResources.filter (· ∉ expectedResources)
    kindMatches := kindMatches
    componentMatches := componentMatches
    latencyMs := (detectedResults.filterMap LocalizationResult.latencyMs).max? }

/-! ## Associations -/

/-- The target of a fault. -/
def targetOf (fault : FaultSpec) : Target := (expectedRank fault, fault.target.resource)

/-- A result names a target: one of its ranks with one of its resources, where a rank or a
resource may be left out when the result has none. -/
def Names (result : LocalizationResult) (target : Target) : Prop :=
  target.1 ∈ orNone result.failedRanks ∧ target.2 ∈ orNone result.failedResources

/-- The expected kinds with their targets. -/
def expectedTriples (incident : FaultIncident) : Set (String × Target) :=
  {x | ∃ fault ∈ incident.faults, fault.expectedKind = x.1 ∧ targetOf fault = x.2}

/-- The reported kinds with their targets. -/
def reportedTriples (results : List LocalizationResult) : Set (String × Target) :=
  {x | ∃ result ∈ localizingResults results, result.kind = some x.1 ∧ Names result x.2}

/-- The expected kinds and components with their targets. -/
def expectedQuadruples (incident : FaultIncident) : Set ((String × String) × Target) :=
  {x | ∃ fault ∈ incident.faults,
    fault.expectedKind = x.1.1 ∧ expectedComponent fault = some x.1.2 ∧ targetOf fault = x.2}

/-- The reported kinds and components with their targets. -/
def reportedQuadruples (results : List LocalizationResult) : Set ((String × String) × Target) :=
  {x | ∃ result ∈ localizingResults results,
    result.kind = some x.1.1 ∧ x.1.2 ∈ result.components ∧ Names result x.2}

section Associations

variable {incident : FaultIncident} {results localizing : List LocalizationResult}
variable {result : LocalizationResult} {fault : FaultSpec} {target : Target}

theorem some_mem_orNone {α : Type} {items : List α} {x : α} :
    some x ∈ orNone items ↔ x ∈ items := by
  rw [orNone]
  split
  · rename_i h
    simp [h]
  · simp

theorem exists_mem_orNone {α : Type} (items : List α) : ∃ x, x ∈ orNone items := by
  cases items with
  | nil => exact ⟨none, List.mem_singleton.mpr rfl⟩
  | cons x xs => exact ⟨some x, some_mem_orNone.mpr List.mem_cons_self⟩

theorem exists_names (result : LocalizationResult) : ∃ target, Names result target := by
  obtain ⟨rank, hrank⟩ := exists_mem_orNone result.failedRanks
  obtain ⟨resource, hresource⟩ := exists_mem_orNone result.failedResources
  exact ⟨(rank, resource), hrank, hresource⟩

theorem mem_expectedTargetAssociations {faults : List FaultSpec} :
    target ∈ expectedTargetAssociations faults ↔ ∃ fault ∈ faults, targetOf fault = target := by
  rw [expectedTargetAssociations, List.mem_toFinset, List.mem_map]
  rfl

theorem mem_reportedTargetAssociations :
    target ∈ reportedTargetAssociations results ↔ ∃ result ∈ results, Names result target := by
  rw [reportedTargetAssociations, List.mem_toFinset, List.mem_flatMap]
  refine exists_congr fun result => and_congr_right fun _ => ?_
  rw [List.mem_flatMap]
  constructor
  · rintro ⟨rank, hrank, hmem⟩
    obtain ⟨resource, hresource, rfl⟩ := List.mem_map.mp hmem
    exact ⟨hrank, hresource⟩
  · rintro ⟨hrank, hresource⟩
    exact ⟨target.1, hrank, List.mem_map.mpr ⟨target.2, hresource, rfl⟩⟩

theorem componentOrModulePath_eq (fault : FaultSpec) :
    componentOrModulePath fault = expectedComponent fault := by
  unfold componentOrModulePath expectedComponent
  split
  · rename_i hnone
    rw [if_neg (not_not.mpr hnone)]
  · rename_i component hsome
    have hne : component ≠ "" := by
      rintro rfl
      have := fault.target.component_named "" hsome
      revert this
      decide
    rw [if_neg hne, if_pos (by rw [hsome]; exact Option.some_ne_none component), hsome]

theorem targetOf_ne (fault : FaultSpec) : targetOf fault ≠ (none, none) := by
  intro h
  have hresource : fault.target.resource = none := congrArg Prod.snd h
  have hrank : expectedRank fault = none := congrArg Prod.fst h
  unfold expectedRank at hrank
  split at hrank
  · rename_i hne
    exact hne hrank
  · rw [if_neg (not_not.mpr hresource)] at hrank
    cases hrank

theorem tells_expectedKind (incident : FaultIncident) :
    Tells (incident.faults.map FaultSpec.expectedKind).toFinset (expectedTargetsForKind incident)
      fun kind target => (kind, target) ∈ expectedTriples incident where
  mem_keys kind := by
    rw [List.mem_toFinset, List.mem_map]
    constructor
    · rintro ⟨fault, hfault, rfl⟩
      exact ⟨targetOf fault, fault, hfault, rfl, rfl⟩
    · rintro ⟨target, fault, hfault, hkind, -⟩
      exact ⟨fault, hfault, hkind⟩
  mem_value kind target := by
    rw [expectedTargetsForKind, mem_expectedTargetAssociations]
    simp only [List.mem_filter, decide_eq_true_iff, and_assoc]
    rfl

theorem tells_reportedKind (results : List LocalizationResult) :
    Tells ((localizingResults results).filterMap LocalizationResult.kind).toFinset
      (reportedTargetsForKind (localizingResults results))
      fun kind target => (kind, target) ∈ reportedTriples results where
  mem_keys kind := by
    rw [List.mem_toFinset, List.mem_filterMap]
    constructor
    · rintro ⟨result, hresult, hkind⟩
      obtain ⟨target, htarget⟩ := exists_names result
      exact ⟨target, result, hresult, hkind, htarget⟩
    · rintro ⟨target, result, hresult, hkind, -⟩
      exact ⟨result, hresult, hkind⟩
  mem_value kind target := by
    rw [reportedTargetsForKind, mem_reportedTargetAssociations]
    simp only [List.mem_filter, decide_eq_true_iff, and_assoc]
    rfl

theorem tells_expectedComponent (incident : FaultIncident) :
    Tells (incident.faults.filterMap expectedComponent).toFinset
      (expectedTargetsForComponent incident)
      fun component target =>
        ∃ kind, ((kind, component), target) ∈ expectedQuadruples incident where
  mem_keys component := by
    rw [List.mem_toFinset, List.mem_filterMap]
    constructor
    · rintro ⟨fault, hfault, hcomponent⟩
      exact ⟨targetOf fault, _, fault, hfault, rfl, hcomponent, rfl⟩
    · rintro ⟨target, kind, fault, hfault, -, hcomponent, -⟩
      exact ⟨fault, hfault, hcomponent⟩
  mem_value component target := by
    rw [expectedTargetsForComponent, mem_expectedTargetAssociations]
    simp only [List.mem_filter, decide_eq_true_iff, componentOrModulePath_eq]
    constructor
    · rintro ⟨fault, ⟨hfault, hcomponent⟩, htarget⟩
      exact ⟨_, fault, hfault, rfl, hcomponent, htarget⟩
    · rintro ⟨kind, fault, hfault, -, hcomponent, htarget⟩
      exact ⟨fault, ⟨hfault, hcomponent⟩, htarget⟩

/-- What is told of the reported components, when every result has a kind. -/
theorem tells_reportedComponent
    (hkinds : ∀ result ∈ localizingResults results, result.kind ≠ none) :
    Tells ((localizingResults results).flatMap LocalizationResult.components).toFinset
      (reportedTargetsForComponent (localizingResults results))
      fun component target =>
        ∃ kind, ((kind, component), target) ∈ reportedQuadruples results where
  mem_keys component := by
    rw [List.mem_toFinset, List.mem_flatMap]
    constructor
    · rintro ⟨result, hresult, hcomponent⟩
      obtain ⟨kind, hkind⟩ := Option.ne_none_iff_exists'.mp (hkinds result hresult)
      obtain ⟨target, htarget⟩ := exists_names result
      exact ⟨target, kind, result, hresult, hkind, hcomponent, htarget⟩
    · rintro ⟨target, kind, result, hresult, -, hcomponent, -⟩
      exact ⟨result, hresult, hcomponent⟩
  mem_value component target := by
    rw [reportedTargetsForComponent, mem_reportedTargetAssociations]
    simp only [List.mem_filter, decide_eq_true_iff]
    constructor
    · rintro ⟨result, ⟨hresult, hcomponent⟩, htarget⟩
      obtain ⟨kind, hkind⟩ := Option.ne_none_iff_exists'.mp (hkinds result hresult)
      exact ⟨kind, result, hresult, hkind, hcomponent, htarget⟩
    · rintro ⟨kind, result, hresult, -, hcomponent, htarget⟩
      exact ⟨result, ⟨hresult, hcomponent⟩, htarget⟩

/-- What is told of the expected kinds with their components. -/
theorem tells_expectedKindComponent (incident : FaultIncident) :
    Tells
      (((incident.faults.map FaultSpec.expectedKind).toFinset.product
        (incident.faults.filterMap expectedComponent).toFinset).filter fun item =>
          incident.faults.any fun fault =>
            fault.expectedKind = item.1 && componentOrModulePath fault = some item.2)
      (expectedTargetsForKindComponent incident)
      fun item target => (item, target) ∈ expectedQuadruples incident where
  mem_keys item := by
    rw [Finset.mem_filter, List.any_eq_true]
    simp only [Bool.and_eq_true, decide_eq_true_iff, componentOrModulePath_eq]
    constructor
    · rintro ⟨-, fault, hfault, hkind, hcomponent⟩
      exact ⟨targetOf fault, fault, hfault, hkind, hcomponent, rfl⟩
    · rintro ⟨target, fault, hfault, hkind, hcomponent, -⟩
      refine ⟨Finset.mem_product.mpr ⟨?_, ?_⟩, fault, hfault, hkind, hcomponent⟩
      · exact List.mem_toFinset.mpr (List.mem_map.mpr ⟨fault, hfault, hkind⟩)
      · exact List.mem_toFinset.mpr (List.mem_filterMap.mpr ⟨fault, hfault, hcomponent⟩)
  mem_value item target := by
    rw [expectedTargetsForKindComponent, mem_expectedTargetAssociations]
    simp only [List.mem_filter, decide_eq_true_iff, componentOrModulePath_eq, and_assoc]
    rfl

/-- What is told of the reported kinds with their components. -/
theorem tells_reportedKindComponent (results : List LocalizationResult) :
    Tells
      ((((localizingResults results).filterMap LocalizationResult.kind).toFinset.product
        ((localizingResults results).flatMap LocalizationResult.components).toFinset).filter
          fun item => (localizingResults results).any fun result =>
            result.kind = some item.1 && item.2 ∈ result.components)
      (reportedTargetsForKindComponent (localizingResults results))
      fun item target => (item, target) ∈ reportedQuadruples results where
  mem_keys item := by
    rw [Finset.mem_filter, List.any_eq_true]
    simp only [Bool.and_eq_true, decide_eq_true_iff]
    constructor
    · rintro ⟨-, result, hresult, hkind, hcomponent⟩
      obtain ⟨target, htarget⟩ := exists_names result
      exact ⟨target, result, hresult, hkind, hcomponent, htarget⟩
    · rintro ⟨target, result, hresult, hkind, hcomponent, -⟩
      refine ⟨Finset.mem_product.mpr ⟨?_, ?_⟩, result, hresult, hkind, hcomponent⟩
      · exact List.mem_toFinset.mpr (List.mem_filterMap.mpr ⟨result, hresult, hkind⟩)
      · exact List.mem_toFinset.mpr (List.mem_flatMap.mpr ⟨result, hresult, hcomponent⟩)
  mem_value item target := by
    rw [reportedTargetsForKindComponent, mem_reportedTargetAssociations]
    simp only [List.mem_filter, decide_eq_true_iff, and_assoc]
    rfl

end Associations

/-! ## The verdict -/

section Verdict

variable {incident : FaultIncident} {results : List LocalizationResult}

/-- The targets without their kinds are the expected ones. -/
def SameTargets (incident : FaultIncident) (results : List LocalizationResult) : Prop :=
  ∀ target, (∃ fault ∈ incident.faults, targetOf fault = target) ↔
    ∃ result ∈ localizingResults results, Names result target

/-- **The comparison of kinds**, when every result has one. -/
theorem kindMatches_iff (hkinds : ∀ result ∈ localizingResults results, result.kind ≠ none)
    (hne : localizingResults results ≠ []) :
    kindMatches incident (localizingResults results) ≠ some false ↔
      reportedTriples results = expectedTriples incident := by
  have hsome : ((localizingResults results).filterMap LocalizationResult.kind).toFinset ≠ ∅ := by
    obtain ⟨result, hresult⟩ := List.exists_mem_of_ne_nil _ hne
    obtain ⟨kind, hkind⟩ := Option.ne_none_iff_exists'.mp (hkinds result hresult)
    exact Finset.ne_empty_of_mem
      (List.mem_toFinset.mpr (List.mem_filterMap.mpr ⟨result, hresult, hkind⟩))
  have hmaps := (tells_reportedKind results).keyed_eq_iff (tells_expectedKind incident)
  unfold kindMatches
  dsimp only
  rw [if_neg fun h => hsome h.1]
  rw [Ne, Option.some.injEq, Bool.not_eq_false, Bool.and_eq_true, decide_eq_true_iff,
    decide_eq_true_iff, hmaps]
  constructor
  · rintro ⟨-, h⟩
    exact Set.ext fun x => h x.1 x.2
  · intro h
    have hrel : ∀ kind target, (kind, target) ∈ reportedTriples results ↔
        (kind, target) ∈ expectedTriples incident := fun kind target => by rw [h]
    exact ⟨(keyed_eq_iff.mp (hmaps.mpr hrel)).1, hrel⟩

/-- Without components there is nothing to compare. -/
theorem componentMatches_none
    (hcomponents : ∀ result ∈ localizingResults results, result.components = []) :
    componentMatches incident (localizingResults results) = none := by
  unfold componentMatches
  dsimp only
  rw [if_pos]
  refine List.toFinset_eq_empty_iff _ |>.mpr (List.flatMap_eq_nil_iff.mpr hcomponents)

/-- **The comparison of components**, when every result has a kind and a component. -/
theorem componentMatches_iff (hkinds : ∀ result ∈ localizingResults results, result.kind ≠ none)
    (hcomponents : ∀ result ∈ localizingResults results, result.components ≠ [])
    (hne : localizingResults results ≠ []) :
    componentMatches incident (localizingResults results) ≠ some false ↔
      reportedQuadruples results = expectedQuadruples incident := by
  obtain ⟨result, hresult⟩ := List.exists_mem_of_ne_nil _ hne
  obtain ⟨kind, hkind⟩ := Option.ne_none_iff_exists'.mp (hkinds result hresult)
  obtain ⟨component, hcomponent⟩ := List.exists_mem_of_ne_nil _ (hcomponents result hresult)
  have hkindMem := List.mem_toFinset.mpr (List.mem_filterMap.mpr ⟨result, hresult, hkind⟩)
  have hcomponentMem := List.mem_toFinset.mpr (List.mem_flatMap.mpr ⟨result, hresult, hcomponent⟩)
  have hcomponentMaps :=
    (tells_reportedComponent hkinds).keyed_eq_iff (tells_expectedComponent incident)
  have hmaps := (tells_reportedKindComponent results).keyed_eq_iff
    (tells_expectedKindComponent incident)
  unfold componentMatches
  dsimp only
  rw [if_neg (Finset.ne_empty_of_mem hcomponentMem), Ne, Option.some.injEq, Bool.not_eq_false,
    Bool.and_eq_true, Bool.and_eq_true, Bool.and_eq_true, Bool.or_eq_true, decide_eq_true_iff,
    decide_eq_true_iff, decide_eq_true_iff, decide_eq_true_iff, decide_eq_true_iff, hmaps,
    hcomponentMaps]
  constructor
  · rintro ⟨-, hempty | h⟩
    · exact absurd hempty (Finset.ne_empty_of_mem hkindMem)
    · exact Set.ext fun x => h x.1 x.2
  · intro h
    have hrel : ∀ component target,
        (∃ kind, ((kind, component), target) ∈ reportedQuadruples results) ↔
          ∃ kind, ((kind, component), target) ∈ expectedQuadruples incident :=
      fun component target => by rw [h]
    have hkeys := (keyed_eq_iff.mp (hcomponentMaps.mpr hrel)).1
    exact ⟨⟨⟨hkeys ▸ Finset.ne_empty_of_mem hcomponentMem, hkeys⟩, hrel⟩,
      Or.inr fun item target => by rw [h]⟩

theorem sameTargets_of_triples
    (hkinds : ∀ result ∈ localizingResults results, result.kind ≠ none)
    (h : reportedTriples results = expectedTriples incident) : SameTargets incident results := by
  intro target
  constructor
  · rintro ⟨fault, hfault, htarget⟩
    have hmem : (fault.expectedKind, target) ∈ expectedTriples incident :=
      ⟨fault, hfault, rfl, htarget⟩
    obtain ⟨result, hresult, -, hnames⟩ := h ▸ hmem
    exact ⟨result, hresult, hnames⟩
  · rintro ⟨result, hresult, hnames⟩
    obtain ⟨kind, hkind⟩ := Option.ne_none_iff_exists'.mp (hkinds result hresult)
    have hmem : (kind, target) ∈ reportedTriples results := ⟨result, hresult, hkind, hnames⟩
    obtain ⟨fault, hfault, -, htarget⟩ := h ▸ hmem
    exact ⟨fault, hfault, htarget⟩

theorem triples_of_quadruples
    (hcomponents : ∀ result ∈ localizingResults results, result.components ≠ [])
    (hexpected : ∀ fault ∈ incident.faults, expectedComponent fault ≠ none)
    (h : reportedQuadruples results = expectedQuadruples incident) :
    reportedTriples results = expectedTriples incident := by
  refine Set.ext fun ⟨kind, target⟩ => ?_
  constructor
  · rintro ⟨result, hresult, hkind, hnames⟩
    obtain ⟨component, hcomponent⟩ := List.exists_mem_of_ne_nil _ (hcomponents result hresult)
    have hmem : ((kind, component), target) ∈ reportedQuadruples results :=
      ⟨result, hresult, hkind, hcomponent, hnames⟩
    obtain ⟨fault, hfault, hkind, -, htarget⟩ := h ▸ hmem
    exact ⟨fault, hfault, hkind, htarget⟩
  · rintro ⟨fault, hfault, hkind, htarget⟩
    obtain ⟨component, hcomponent⟩ := Option.ne_none_iff_exists'.mp (hexpected fault hfault)
    have hmem : ((kind, component), target) ∈ expectedQuadruples incident :=
      ⟨fault, hfault, hkind, hcomponent, htarget⟩
    obtain ⟨result, hresult, hkind, -, hnames⟩ := h ▸ hmem
    exact ⟨result, hresult, hkind, hnames⟩

theorem pairOf_eq_some {fault : FaultSpec} {pair : Int × String} :
    (fault.target.rank.bind fun rank => fault.target.resource.map fun resource =>
        (rank, resource)) = some pair ↔
      fault.target.rank = some pair.1 ∧ fault.target.resource = some pair.2 := by
  rw [Option.bind_eq_some_iff]
  constructor
  · rintro ⟨rank, hrank, hpair⟩
    obtain ⟨resource, hresource, rfl⟩ := Option.map_eq_some_iff.mp hpair
    exact ⟨hrank, hresource⟩
  · rintro ⟨hrank, hresource⟩
    exact ⟨pair.1, hrank, by rw [hresource, Option.map_some]⟩

theorem localized_iff_parts {occurrenceId : String} {records : List FaultInjectionRecord} :
    (evaluateOccurrence occurrenceId records results incident).localized = true ↔
      injectionSucceeded incident records = true ∧
      detectedResults results ≠ [] ∧
      (∀ rank, (∃ fault ∈ incident.faults, expectedRank fault = some rank) ↔
        ∃ result ∈ localizingResults results, rank ∈ result.failedRanks) ∧
      (∀ resource, (∃ fault ∈ incident.faults, fault.target.resource = some resource) ↔
        ∃ result ∈ localizingResults results, resource ∈ result.failedResources) ∧
      ((∀ fault ∈ incident.faults, fault.target.rank = none ∨ fault.target.resource = none) ∨
        ∀ rank resource, (∃ result ∈ localizingResults results,
            rank ∈ result.failedRanks ∧ resource ∈ result.failedResources) ↔
          ∃ fault ∈ incident.faults,
            fault.target.rank = some rank ∧ fault.target.resource = some resource) ∧
      kindMatches incident (localizingResults results) ≠ some false ∧
      componentMatches incident (localizingResults results) ≠ some false := by
  unfold evaluateOccurrence
  dsimp only
  rw [Finset.sort_toFinset, Finset.sort_toFinset, Finset.sort_toFinset, Finset.sort_toFinset]
  simp only [Bool.and_eq_true, Bool.or_eq_true, Bool.not_eq_true', List.isEmpty_eq_false_iff,
    decide_eq_true_iff, Finset.ext_iff, List.mem_toFinset, List.mem_filterMap, List.mem_flatMap,
    and_assoc]
  refine and_congr_right fun _ => and_congr_right fun _ => and_congr_right fun _ =>
    and_congr_right fun _ => and_congr_left fun _ => or_congr ?_ ?_
  · simp only [pairOf_eq_some, Finset.notMem_empty, iff_false, not_exists, not_and]
    constructor
    · intro h fault hfault
      cases hrank : fault.target.rank with
      | none => exact Or.inl rfl
      | some rank =>
          refine Or.inr (Option.eq_none_iff_forall_ne_some.mpr fun resource hresource => ?_)
          exact h (rank, resource) fault hfault hrank hresource
    · intro h pair fault hfault hrank hresource
      rcases h fault hfault with h | h
      · rw [h] at hrank
        cases hrank
      · rw [h] at hresource
        cases hresource
  · rw [Prod.forall]
    refine forall_congr' fun rank => forall_congr' fun resource => iff_congr ?_ ?_
    · refine exists_congr fun result => and_congr_right fun _ => ?_
      simp
    · exact exists_congr fun fault => and_congr_right fun _ => pairOf_eq_some

theorem expectedRank_of_rank {fault : FaultSpec} {rank : Int} (h : fault.target.rank = some rank) :
    expectedRank fault = some rank := by
  rw [expectedRank, if_pos (by rw [h]; exact Option.some_ne_none rank), h]

/-- A rank that goes with a resource is the target's own. -/
theorem rank_of_expectedRank {fault : FaultSpec} {rank : Int} {resource : String}
    (h : expectedRank fault = some rank) (hresource : fault.target.resource = some resource) :
    fault.target.rank = some rank := by
  unfold expectedRank at h
  split at h
  · exact h
  · rw [if_pos (by rw [hresource]; exact Option.some_ne_none resource)] at h
    cases h

/-- Where the verdict says localized, there is a result that says something. -/
theorem localizing_ne_nil
    (hranks : ∀ rank, (∃ fault ∈ incident.faults, expectedRank fault = some rank) ↔
      ∃ result ∈ localizingResults results, rank ∈ result.failedRanks)
    (hresources : ∀ resource, (∃ fault ∈ incident.faults, fault.target.resource = some resource) ↔
      ∃ result ∈ localizingResults results, resource ∈ result.failedResources) :
    localizingResults results ≠ [] := by
  obtain ⟨fault, hfault⟩ := List.exists_mem_of_ne_nil _ incident.faults_ne
  cases hrank : expectedRank fault with
  | some rank =>
      obtain ⟨result, hresult, -⟩ := (hranks rank).mp ⟨fault, hfault, hrank⟩
      exact List.ne_nil_of_mem hresult
  | none =>
      cases hresource : fault.target.resource with
      | some resource =>
          obtain ⟨result, hresult, -⟩ := (hresources resource).mp ⟨fault, hfault, hresource⟩
          exact List.ne_nil_of_mem hresult
      | none => exact absurd (Prod.ext hrank hresource) (targetOf_ne fault)

/-- The comparisons of ranks, resources and their pairs follow from the targets. -/
theorem parts_of_sameTargets (h : SameTargets incident results) :
    detectedResults results ≠ [] ∧
      (∀ rank, (∃ fault ∈ incident.faults, expectedRank fault = some rank) ↔
        ∃ result ∈ localizingResults results, rank ∈ result.failedRanks) ∧
      (∀ resource, (∃ fault ∈ incident.faults, fault.target.resource = some resource) ↔
        ∃ result ∈ localizingResults results, resource ∈ result.failedResources) ∧
      ∀ rank resource, (∃ result ∈ localizingResults results,
          rank ∈ result.failedRanks ∧ resource ∈ result.failedResources) ↔
        ∃ fault ∈ incident.faults,
          fault.target.rank = some rank ∧ fault.target.resource = some resource := by
  refine ⟨?_, fun rank => ?_, fun resource => ?_, fun rank resource => ?_⟩
  · obtain ⟨fault, hfault⟩ := List.exists_mem_of_ne_nil _ incident.faults_ne
    obtain ⟨result, hresult, -⟩ := (h (targetOf fault)).mp ⟨fault, hfault, rfl⟩
    exact List.ne_nil_of_mem (List.mem_of_mem_filter hresult)
  · constructor
    · rintro ⟨fault, hfault, hrank⟩
      obtain ⟨result, hresult, hnames⟩ := (h (targetOf fault)).mp ⟨fault, hfault, rfl⟩
      exact ⟨result, hresult, some_mem_orNone.mp (hrank ▸ hnames.1)⟩
    · rintro ⟨result, hresult, hrank⟩
      obtain ⟨resource, hresource⟩ := exists_mem_orNone result.failedResources
      obtain ⟨fault, hfault, htarget⟩ := (h (some rank, resource)).mpr
        ⟨result, hresult, some_mem_orNone.mpr hrank, hresource⟩
      exact ⟨fault, hfault, congrArg Prod.fst htarget⟩
  · constructor
    · rintro ⟨fault, hfault, hresource⟩
      obtain ⟨result, hresult, hnames⟩ := (h (targetOf fault)).mp ⟨fault, hfault, rfl⟩
      exact ⟨result, hresult, some_mem_orNone.mp (hresource ▸ hnames.2)⟩
    · rintro ⟨result, hresult, hresource⟩
      obtain ⟨rank, hrank⟩ := exists_mem_orNone result.failedRanks
      obtain ⟨fault, hfault, htarget⟩ := (h (rank, some resource)).mpr
        ⟨result, hresult, hrank, some_mem_orNone.mpr hresource⟩
      exact ⟨fault, hfault, congrArg Prod.snd htarget⟩
  · constructor
    · rintro ⟨result, hresult, hrank, hresource⟩
      obtain ⟨fault, hfault, htarget⟩ := (h (some rank, some resource)).mpr
        ⟨result, hresult, some_mem_orNone.mpr hrank, some_mem_orNone.mpr hresource⟩
      have hresource : fault.target.resource = some resource := congrArg Prod.snd htarget
      exact ⟨fault, hfault, rank_of_expectedRank (congrArg Prod.fst htarget) hresource, hresource⟩
    · rintro ⟨fault, hfault, hrank, hresource⟩
      obtain ⟨result, hresult, hnames⟩ := (h (some rank, some resource)).mp
        ⟨fault, hfault, Prod.ext (expectedRank_of_rank hrank) hresource⟩
      exact ⟨result, hresult, some_mem_orNone.mp hnames.1, some_mem_orNone.mp hnames.2⟩

/-- **The verdict is exact**: without components, by the kinds with their targets; when every
fault and every result has one, by the kinds and components with their targets. -/
theorem localized_exact (occurrenceId : String) (records : List FaultInjectionRecord)
    (results : List LocalizationResult) (incident : FaultIncident)
    (hkinds : ∀ result ∈ localizingResults results, result.kind ≠ none) :
    ((∀ result ∈ localizingResults results, result.components = []) →
      ((evaluateOccurrence occurrenceId records results incident).localized = true ↔
        injectionSucceeded incident records = true ∧
          reportedTriples results = expectedTriples incident)) ∧
    ((∀ fault ∈ incident.faults, expectedComponent fault ≠ none) →
      (∀ result ∈ localizingResults results, result.components ≠ []) →
      ((evaluateOccurrence occurrenceId records results incident).localized = true ↔
        injectionSucceeded incident records = true ∧
          reportedQuadruples results = expectedQuadruples incident)) := by
  refine ⟨fun hcomponents => ?_, fun hexpected hcomponents => ?_⟩
  · rw [localized_iff_parts]
    constructor
    · rintro ⟨hinjected, -, hranks, hresources, -, hkind, -⟩
      exact ⟨hinjected, (kindMatches_iff hkinds (localizing_ne_nil hranks hresources)).mp hkind⟩
    · rintro ⟨hinjected, htriples⟩
      obtain ⟨hdetected, hranks, hresources, hpairs⟩ :=
        parts_of_sameTargets (sameTargets_of_triples hkinds htriples)
      refine ⟨hinjected, hdetected, hranks, hresources, Or.inr hpairs, ?_, ?_⟩
      · exact (kindMatches_iff hkinds (localizing_ne_nil hranks hresources)).mpr htriples
      · rw [componentMatches_none hcomponents]
        exact fun h => nomatch h
  · rw [localized_iff_parts]
    constructor
    · rintro ⟨hinjected, -, hranks, hresources, -, -, hcomponent⟩
      have hne := localizing_ne_nil hranks hresources
      exact ⟨hinjected, (componentMatches_iff hkinds hcomponents hne).mp hcomponent⟩
    · rintro ⟨hinjected, hquadruples⟩
      have htriples := triples_of_quadruples hcomponents hexpected hquadruples
      obtain ⟨hdetected, hranks, hresources, hpairs⟩ :=
        parts_of_sameTargets (sameTargets_of_triples hkinds htriples)
      have hne := localizing_ne_nil hranks hresources
      exact ⟨hinjected, hdetected, hranks, hresources, Or.inr hpairs,
        (kindMatches_iff hkinds hne).mpr htriples,
        (componentMatches_iff hkinds hcomponents hne).mpr hquadruples⟩

/-- At iteration 7 the data loader dies on rank 3, and a link of rank 5 is slow. -/
def loaderAndLink : FaultIncident where
  incidentId := "incident-1"
  trigger := .seventh
  lifetime := .permanent .recovery
  faults :=
    [⟨"loader", .processTermination, ⟨.process, some 3, some "loader", none, none,
      by decide, by intro text h; cases h; decide, named_none, named_none, by decide⟩⟩,
     ⟨"link", .delay, ⟨.collective, some 5, some "allreduce", none, some "ib0",
      by decide, by intro text h; cases h; decide, named_none,
      by intro text h; cases h; decide, by decide⟩⟩]
  id_named := by decide
  faults_ne := by simp
  faultIds := by simp
  occurrences_some := once_some
  occurrences_none := once_none
  permanent_once := seventh_once
  separate := seventh_separate
  calls_surface := fun h => nomatch h

/-- A report of a failed process on rank 3. -/
def failedProcess (components : List String) (h : components = [] ∨ components = ["loader"]) :
    LocalizationResult where
  occurrenceId := "incident-1:1"
  detected := true
  failedRanks := [3]
  kind := some "process_failure"
  components := components
  occurrence_named := by decide
  ranks_sorted := by decide
  ranks_nonneg := by decide
  resources_sorted := by decide
  resources_named := by decide
  components_sorted := by rcases h with rfl | rfl <;> decide
  components_named := by rcases h with rfl | rfl <;> decide
  kind_named := by intro text h; cases h; decide
  scope_named := named_none
  undetected := fun h => nomatch h
  latency_nonneg := by intro latency h; cases h

/-- A report of a slow link of rank 5. -/
def slowLink (components : List String) (h : components = [] ∨ components = ["allreduce"]) :
    LocalizationResult where
  occurrenceId := "incident-1:1"
  detected := true
  failedRanks := [5]
  failedResources := ["ib0"]
  kind := some "straggler"
  components := components
  occurrence_named := by decide
  ranks_sorted := by decide
  ranks_nonneg := by decide
  resources_sorted := by decide
  resources_named := by decide
  components_sorted := by rcases h with rfl | rfl <;> decide
  components_named := by rcases h with rfl | rfl <;> decide
  kind_named := by intro text h; cases h; decide
  scope_named := named_none
  undetected := fun h => nomatch h
  latency_nonneg := by intro latency h; cases h

def sampleRecords : List FaultInjectionRecord :=
  [⟨"link", .active, true⟩, ⟨"loader", .completed, true⟩]

theorem localized_kinds : (evaluateOccurrence "incident-1:1" sampleRecords
    [failedProcess [] (Or.inl rfl), slowLink [] (Or.inl rfl)] loaderAndLink).localized = true := by
  unfold evaluateOccurrence
  dsimp only
  rw [Finset.sort_toFinset, Finset.sort_toFinset, Finset.sort_toFinset, Finset.sort_toFinset]
  decide +kernel

theorem localized_components : (evaluateOccurrence "incident-1:1" sampleRecords
    [slowLink ["allreduce"] (Or.inr rfl), failedProcess ["loader"] (Or.inr rfl)]
    loaderAndLink).localized = true := by
  unfold evaluateOccurrence
  dsimp only
  rw [Finset.sort_toFinset, Finset.sort_toFinset, Finset.sort_toFinset, Finset.sort_toFinset]
  decide +kernel

/-- The process and the link are localized by kind, rank and resource, and by component too. -/
theorem localized_exact_sample :
    reportedTriples [failedProcess [] (Or.inl rfl), slowLink [] (Or.inl rfl)] =
        expectedTriples loaderAndLink ∧
      reportedQuadruples
          [slowLink ["allreduce"] (Or.inr rfl), failedProcess ["loader"] (Or.inr rfl)] =
        expectedQuadruples loaderAndLink :=
  ⟨(((localized_exact "incident-1:1" sampleRecords
      [failedProcess [] (Or.inl rfl), slowLink [] (Or.inl rfl)] loaderAndLink
      (by decide +kernel)).1 (by decide +kernel)).mp localized_kinds).2,
    (((localized_exact "incident-1:1" sampleRecords
      [slowLink ["allreduce"] (Or.inr rfl), failedProcess ["loader"] (Or.inr rfl)] loaderAndLink
      (by decide +kernel)).2 (by decide +kernel) (by decide +kernel)).mp localized_components).2⟩

end Verdict

end LmResiliency.FaultInjection
