/-
# RegimeDiscovery — a catalog made of profiled executions

The observations are checked, grouped by execution class and equivalence key, and
each group becomes a regime.  Every step goes through a dict or a set of which only
the sorted items are used, so the order of the observations does not come out.

The main result is `discoverExecutionRegimes_covers`.  The digests are assumed to
tell apart the documents that occur (`Profiled`), and no others.
-/
import LmResiliency.Detection.MoECatalog
import LmResiliency.Detection.RegimeCoverage
import LmResiliency.Lib.SortedSet

namespace LmResiliency.Detection.MoE

open LmResiliency.Outcome

/-! ## Discovery -/

/-- The keyword arguments of discovery. -/
structure DiscoveryOptions where
  environment : MoEExecutionEnvironment
  representativesPerRegime : Int := 1
  equivalencePolicy : String := "plan_and_pressure"
  expectedRequests : Option (List ProfileRequest) := none
  minimumObservationsPerRequest : Int := 3
  maxReplayRecipes : Option Int := none

section Checks

variable (digest : String → String) (C : Conversions) (options : DiscoveryOptions)
  (values : List ExecutionObservation)

/-- Eight items, and an ellipsis when there are more. -/
def preview (items : List String) : String :=
  ", ".intercalate (items.take 8) ++ (if 8 < items.length then " ..." else "")

/-- A request as the errors name it. -/
def describeRequest (request : ProfileRequest) : String :=
  "layer=" ++ request.location.layerId ++ "/expert=" ++ toString request.location.expertId ++
    "/n_exec=" ++ toString request.nExec

def epPositions : List Int :=
  sortedSet (values.map fun observation => observation.location.epPosition)

def observationCountsByRequest : List (ProfileRequest × Int) :=
  (Dict.group ExecutionObservation.request values).map fun p => (p.1, (p.2.length : Int))

def profiledRequests : List ProfileRequest :=
  (Dict.sortedItems (observationCountsByRequest values)).map Prod.fst

/-- `missing`. -/
def missingRequests : List ProfileRequest :=
  match options.expectedRequests with
  | none => []
  | some expected => sortedSet (expected.filter fun request => request ∉ profiledRequests values)

def underSampled : List (ProfileRequest × Int) :=
  Dict.sortedItems ((observationCountsByRequest values).filter fun p =>
    p.2 < options.minimumObservationsPerRequest)

/-- The class and the shape of an observation. -/
def shapeKey (observation : ExecutionObservation) : String ×ₗ Int :=
  toLex (observation.location.executionClass, observation.nExec)

def byShape : List ((String ×ₗ Int) × List String) :=
  (Dict.group shapeKey values).map fun p =>
    (p.1, sortedSet (p.2.map fun observation => observation.fingerprint.identifier digest))

/-- `sorted(conflicts.items())`. -/
def conflicts : List ((String ×ₗ Int) × List String) :=
  Dict.sortedItems ((byShape digest values).filter fun p => 1 < p.2.length)

/-- The checks before the observations are grouped. -/
def checkObservations : Except Error Unit := do
  raiseIf (values = [])
    (.regimeDiscoveryError "cannot discover MoE regimes without observations")
  raiseIf (options.representativesPerRegime < 1)
    (.valueError "representatives_per_regime must be positive")
  raiseIf (options.minimumObservationsPerRequest < 1)
    (.valueError "minimum_observations_per_request must be positive")
  raiseIf (∃ limit ∈ options.maxReplayRecipes, limit < 1)
    (.valueError "max_replay_recipes must be positive when provided")
  raiseIf (options.equivalencePolicy ∉ equivalencePolicies)
    (.unsupportedPolicy options.equivalencePolicy)
  options.environment.validateForCatalog C
  raiseIf ((epPositions values).length ≠ 1)
    (.regimeDiscoveryError
      ("build a separate MoE regime catalog for each EP position; got " ++
        printed (epPositions values)))
  let missing := missingRequests options values
  raiseIf (missing ≠ [])
    (.regimeDiscoveryError ("offline MoE profiling missed " ++ toString missing.length ++
      " required requests: " ++ preview (missing.map describeRequest)))
  let sampled := underSampled options values
  raiseIf (sampled ≠ [])
    (.regimeDiscoveryError ("offline MoE profiling has " ++ toString sampled.length ++
      " requests with fewer than " ++ toString options.minimumObservationsPerRequest ++
      " observations: " ++
      preview (sampled.map fun p => describeRequest p.1 ++ ": " ++ toString p.2)))
  raiseIf (conflicts digest values ≠ [])
    (.conflictingObservationError
      ("homogeneous MoE workloads produced conflicting execution fingerprints; " ++
        "use separate execution_class values for heterogeneous layers/experts or " ++
        "stabilize the profiler (" ++
        ", ".intercalate ((conflicts digest values).map fun p =>
          (ofLex p.1).1 ++ "/n_exec=" ++ toString (ofLex p.1).2 ++ ": " ++
            toString p.2.length ++ " fingerprints") ++ ")"))

end Checks

section Discovery

variable (digest : String → String) (C : Conversions) (options : DiscoveryOptions)

/-- The key that an observation is grouped by. -/
def groupKey (observation : ExecutionObservation) : String ×ₗ String :=
  toLex (observation.location.executionClass,
    regimeEquivalenceKey digest options.equivalencePolicy observation.fingerprint
      observation.nExec)

/-- `sorted(grouped.items())`. -/
def groupedObservations (values : List ExecutionObservation) :
    List ((String ×ₗ String) × List ExecutionObservation) :=
  Dict.sortedItems (Dict.group (groupKey digest options) values)

def fingerprintsById (members : List ExecutionObservation) :
    List (String × ExecutionFingerprint) :=
  Dict.ofItems (members.map fun member =>
    (member.fingerprint.identifier digest, member.fingerprint))

def fingerprintsByShape (members : List ExecutionObservation) :
    List (Int × ExecutionFingerprint) :=
  Dict.ofItems (members.map fun member => (member.nExec, member.fingerprint))

/-- `fingerprints_by_shape[value]`, asked only of the shapes that are there. -/
def shapeFingerprint (members : List ExecutionObservation) (value : Int) : ExecutionFingerprint :=
  ((fingerprintsByShape members).lookup value).getD { kernels := [] }

def shapeFingerprintIds (members : List ExecutionObservation) : List (Int × String) :=
  (sortedSet (members.map fun member =>
    (toLex (member.nExec, member.fingerprint.identifier digest) : Int ×ₗ String))).map ofLex

/-- The regime of a group, before it is made. -/
def regimeWith (executionClass regimeKey : String) (members : List ExecutionObservation)
    (representatives : List Int) : ExecutionRegime where
  regimeId := executionClass ++ "-" ++ shortened regimeKey
  executionClass := executionClass
  fingerprints := (Dict.sortedItems (fingerprintsById digest members)).map Prod.snd
  shapeFingerprintIds := shapeFingerprintIds digest members
  nExecValues := sortedSet (members.map ExecutionObservation.nExec)
  representatives := representatives
  locations := sortedSet (members.map ExecutionObservation.location)

/-- The regime of a group. -/
def regimeOf (executionClass regimeKey : String) (members : List ExecutionObservation) :
    Except Error ExecutionRegime := do
  let representatives ← selectCoverageRepresentatives digest (shapeFingerprint members)
    (sortedSet (members.map ExecutionObservation.nExec)) options.representativesPerRegime
  ExecutionRegime.make digest (regimeWith digest executionClass regimeKey members representatives)

/-- The catalog asks for more recipes than are allowed. -/
def tooManyRecipes (size : Nat) (limit : Int) : Error :=
  .regimeDiscoveryError ("compressed MoE catalog requires " ++ toString size ++
    " replay recipes, exceeding the configured maximum of " ++ toString limit)

/-- The check of a compressed catalog against the recipes allowed. -/
def checkRecipes (catalog : MoERegimeCatalog) : Except Error Unit :=
  match options.maxReplayRecipes with
  | none => .ok ()
  | some limit =>
      if options.equivalencePolicy = "plan_and_pressure" then do
        let size ← catalog.cycleSize digest
        raiseIf (limit < size) (tooManyRecipes size limit)
      else .ok ()

/-- The catalog before it is made. -/
def catalogOf (values : List ExecutionObservation) (regimes : List ExecutionRegime) :
    MoERegimeCatalog where
  environment := options.environment
  epPosition := (epPositions values).headD 0
  profiledRequests := profiledRequests values
  observationCounts := Dict.sortedItems (observationCountsByRequest values)
  equivalencePolicy := options.equivalencePolicy
  regimes := regimes

def discoverExecutionRegimes (values : List ExecutionObservation) :
    Except Error MoERegimeCatalog := do
  checkObservations digest C options values
  let regimes ← (groupedObservations digest options values).mapM fun p =>
    regimeOf digest options (ofLex p.1).1 (ofLex p.1).2 p.2
  let catalog ← MoERegimeCatalog.make digest C (catalogOf options values regimes)
  checkRecipes digest options catalog
  return catalog

end Discovery

/-! ## Sorted dicts of the observations -/

section Sorted

variable {digest : String → String} {options : DiscoveryOptions}
  {values values' : List ExecutionObservation}

theorem sortedSet_map_perm {α β : Type} [LinearOrder β] (f : α → β) {xs ys : List α}
    (hp : xs.Perm ys) : sortedSet (xs.map f) = sortedSet (ys.map f) :=
  sortedSet_congr fun _ => (hp.map f).mem_iff

theorem sortedItems_observationCounts (values : List ExecutionObservation) :
    Dict.sortedItems (observationCountsByRequest values) =
      (sortedSet (values.map ExecutionObservation.request)).map fun request =>
        (request, ((values.filter fun o => o.request = request).length : Int)) := by
  rw [observationCountsByRequest,
    Dict.sortedItems_map (fun _ (os : List ExecutionObservation) => (os.length : Int))
      (Dict.nodup_keys_group _ _), Dict.sortedItems_group, List.map_map]
  rfl

theorem nodup_keys_observationCounts (values : List ExecutionObservation) :
    ((observationCountsByRequest values).map Prod.fst).Nodup := by
  rw [observationCountsByRequest, List.map_map]
  exact Dict.nodup_keys_group _ _

theorem profiledRequests_eq (values : List ExecutionObservation) :
    profiledRequests values = sortedSet (values.map ExecutionObservation.request) := by
  rw [profiledRequests, sortedItems_observationCounts, List.map_map]
  exact List.map_id _

theorem sortedItems_observationCounts_perm (hp : values.Perm values') :
    Dict.sortedItems (observationCountsByRequest values) =
      Dict.sortedItems (observationCountsByRequest values') := by
  rw [sortedItems_observationCounts, sortedItems_observationCounts, sortedSet_map_perm _ hp]
  exact List.map_congr_left fun request _ =>
    Prod.ext rfl (congrArg Int.ofNat (hp.filter _).length_eq)

theorem underSampled_perm (hp : values.Perm values') :
    underSampled options values = underSampled options values' := by
  rw [underSampled, underSampled,
    Dict.sortedItems_filter _ (nodup_keys_observationCounts values),
    Dict.sortedItems_filter _ (nodup_keys_observationCounts values'),
    sortedItems_observationCounts_perm hp]

theorem missingRequests_perm (hp : values.Perm values') :
    missingRequests options values = missingRequests options values' := by
  rw [missingRequests, missingRequests, profiledRequests_eq, profiledRequests_eq,
    sortedSet_map_perm _ hp]

/-- The identifiers that were observed for a shape. -/
theorem sortedItems_byShape (values : List ExecutionObservation) :
    Dict.sortedItems (byShape digest values) = (sortedSet (values.map shapeKey)).map fun shape =>
      (shape, sortedSet ((values.filter fun o => shapeKey o = shape).map fun o =>
        o.fingerprint.identifier digest)) := by
  rw [byShape, Dict.sortedItems_map (fun _ (os : List ExecutionObservation) =>
      sortedSet (os.map fun o => o.fingerprint.identifier digest))
      (Dict.nodup_keys_group _ _), Dict.sortedItems_group, List.map_map]
  rfl

theorem nodup_keys_byShape (values : List ExecutionObservation) :
    ((byShape digest values).map Prod.fst).Nodup := by
  rw [byShape, List.map_map]
  exact Dict.nodup_keys_group _ _

theorem conflicts_eq (values : List ExecutionObservation) :
    conflicts digest values =
      (Dict.sortedItems (byShape digest values)).filter fun p => 1 < p.2.length :=
  Dict.sortedItems_filter _ (nodup_keys_byShape values)

/-- Observations are in conflict when two of one shape have two fingerprints. -/
theorem conflicts_eq_nil_iff : conflicts digest values = [] ↔
    ∀ o ∈ values, ∀ o' ∈ values, shapeKey o = shapeKey o' →
      o.fingerprint.identifier digest = o'.fingerprint.identifier digest := by
  rw [conflicts_eq, List.filter_eq_nil_iff, sortedItems_byShape]
  simp only [List.forall_mem_map, decide_eq_true_eq, not_lt, length_sortedSet_le_one_iff,
    mem_sortedSet, List.mem_filter]
  constructor
  · intro h o ho o' ho' hshape
    exact h o ho o ⟨ho, rfl⟩ o' ⟨ho', hshape.symm⟩
  · intro h o _ x hx y hy
    exact h x hx.1 y hy.1 (hx.2.trans hy.2.symm)

theorem conflicts_perm (hp : values.Perm values') :
    conflicts digest values = conflicts digest values' := by
  have hsame : Dict.sortedItems (byShape digest values) =
      Dict.sortedItems (byShape digest values') := by
    rw [sortedItems_byShape, sortedItems_byShape, sortedSet_map_perm _ hp]
    exact List.map_congr_left fun shape _ =>
      Prod.ext rfl (sortedSet_map_perm _ (hp.filter _))
  rw [conflicts_eq, conflicts_eq, hsame]

/-- The checks do not depend on the order of the observations. -/
theorem checkObservations_perm {C : Conversions} (hp : values.Perm values') :
    checkObservations digest C options values = checkObservations digest C options values' := by
  have hnil : values = [] ↔ values' = [] := by
    rw [← List.length_eq_zero_iff, hp.length_eq, List.length_eq_zero_iff]
  have hep : epPositions values = epPositions values' := sortedSet_map_perm _ hp
  simp only [checkObservations, hnil, hep, missingRequests_perm hp, underSampled_perm hp,
    conflicts_perm hp]

end Sorted

/-! ## What the checks leave -/

/-- What the observed executions are: made by `create`, with identifiers that tell apart
what they are made of. -/
structure Profiled (digest : String → String) (policy : String)
    (values : List ExecutionObservation) : Prop where
  created : ∀ o ∈ values, o.fingerprint.Created
  documents : CollisionFree digest {v | ∃ o ∈ values, v = o.fingerprint.toJson ∨
    v = regimeDocument digest policy o.fingerprint o.nExec}
  hexadecimal : ∀ text, (digest text).length = 64
  shortened : ∀ o ∈ values, ∀ o' ∈ values,
    shortened (regimeEquivalenceKey digest policy o.fingerprint o.nExec) =
      shortened (regimeEquivalenceKey digest policy o'.fingerprint o'.nExec) →
    regimeEquivalenceKey digest policy o.fingerprint o.nExec =
      regimeEquivalenceKey digest policy o'.fingerprint o'.nExec

/-- Observations of one shape have one fingerprint. -/
structure Agree (digest : String → String) (members : List ExecutionObservation) : Prop where
  shape : ∀ o ∈ members, ∀ o' ∈ members, o.nExec = o'.nExec → o.fingerprint = o'.fingerprint
  identifier : ∀ o ∈ members, ∀ o' ∈ members,
    o.fingerprint.identifier digest = o'.fingerprint.identifier digest →
      o.fingerprint = o'.fingerprint

section Agreement

variable {digest : String → String} {options : DiscoveryOptions} {policy : String}
  {values values' : List ExecutionObservation}

theorem Profiled.identifier (h : Profiled digest policy values) {o o' : ExecutionObservation}
    (ho : o ∈ values) (ho' : o' ∈ values)
    (heq : o.fingerprint.identifier digest = o'.fingerprint.identifier digest) :
    o.fingerprint = o'.fingerprint := by
  have hcreated := h.created o ho
  have hcreated' := h.created o' ho'
  have htext := h.documents _ ⟨o, ho, Or.inl rfl⟩ _ ⟨o', ho', Or.inl rfl⟩ heq
  exact ExecutionFingerprint.eq_of_canon_eq hcreated hcreated'
    (Json.canon_eq_of_dumps_eq hcreated.readable hcreated'.readable htext)

theorem Profiled.subset (h : Profiled digest policy values) (hsub : values' ⊆ values) :
    Profiled digest policy values' where
  created o ho := h.created o (hsub ho)
  documents := by
    rintro v ⟨o, ho, hv⟩ w ⟨o', ho', hw⟩
    exact h.documents v ⟨o, hsub ho, hv⟩ w ⟨o', hsub ho', hw⟩
  hexadecimal := h.hexadecimal
  shortened o ho o' ho' := h.shortened o (hsub ho) o' (hsub ho')

/-- Without conflicts, one shape of a class has one fingerprint. -/
theorem same_fingerprint (h : Profiled digest policy values)
    (hconflicts : conflicts digest values = []) {o o' : ExecutionObservation} (ho : o ∈ values)
    (ho' : o' ∈ values) (hshape : shapeKey o = shapeKey o') : o.fingerprint = o'.fingerprint :=
  h.identifier ho ho' (conflicts_eq_nil_iff.mp hconflicts o ho o' ho' hshape)

end Agreement

/-! ## The regime of a group -/

section Regime

variable {digest : String → String} {options : DiscoveryOptions} {policy : String}
  {members members' : List ExecutionObservation} {executionClass regimeKey : String}

theorem Agree.items_identifier (h : Agree digest members) :
    ∀ m ∈ members.map (fun o => (o.fingerprint.identifier digest, o.fingerprint)),
      ∀ n ∈ members.map (fun o => (o.fingerprint.identifier digest, o.fingerprint)),
        m.1 = n.1 → m = n := by
  intro m hm n hn heq
  obtain ⟨o, ho, rfl⟩ := List.mem_map.mp hm
  obtain ⟨o', ho', rfl⟩ := List.mem_map.mp hn
  exact Prod.ext heq (h.identifier o ho o' ho' heq)

theorem Agree.items_shape (h : Agree digest members) :
    ∀ m ∈ members.map (fun o => (o.nExec, o.fingerprint)),
      ∀ n ∈ members.map (fun o => (o.nExec, o.fingerprint)), m.1 = n.1 → m = n := by
  intro m hm n hn heq
  obtain ⟨o, ho, rfl⟩ := List.mem_map.mp hm
  obtain ⟨o', ho', rfl⟩ := List.mem_map.mp hn
  exact Prod.ext heq (h.shape o ho o' ho' heq)

/-- A regime does not depend on the order of its observations. -/
theorem regimeOf_perm (h : Agree digest members) (hp : members.Perm members') :
    regimeOf digest options executionClass regimeKey members =
      regimeOf digest options executionClass regimeKey members' := by
  have hshape : shapeFingerprint members = shapeFingerprint members' := by
    funext n
    rw [shapeFingerprint, shapeFingerprint, fingerprintsByShape, fingerprintsByShape,
      Dict.lookup_ofItems_perm (hp.map _) h.items_shape]
  have hwith : regimeWith digest executionClass regimeKey members =
      regimeWith digest executionClass regimeKey members' := by
    funext representatives
    rw [regimeWith, regimeWith, fingerprintsById, fingerprintsById,
      Dict.sortedItems_ofItems_perm (hp.map _) h.items_identifier, shapeFingerprintIds,
      shapeFingerprintIds, sortedSet_map_perm _ hp, sortedSet_map_perm _ hp,
      sortedSet_map_perm _ hp]
  rw [regimeOf, regimeOf, hshape, hwith, sortedSet_map_perm _ hp]

theorem shapeFingerprint_eq (h : Agree digest members) {o : ExecutionObservation}
    (ho : o ∈ members) : shapeFingerprint members o.nExec = o.fingerprint := by
  have hlookup : (fingerprintsByShape members).lookup o.nExec = some o.fingerprint :=
    (Dict.lookup_ofItems h.items_shape).mpr (List.mem_map.mpr ⟨o, ho, rfl⟩)
  rw [shapeFingerprint, hlookup, Option.getD_some]

theorem mem_shapeFingerprintIds {p : Int × String} :
    p ∈ shapeFingerprintIds digest members ↔
      ∃ o ∈ members, p = (o.nExec, o.fingerprint.identifier digest) := by
  rw [shapeFingerprintIds, List.mem_map]
  simp only [mem_sortedSet, List.mem_map]
  constructor
  · rintro ⟨_, ⟨o, ho, rfl⟩, rfl⟩
    exact ⟨o, ho, rfl⟩
  · rintro ⟨o, ho, rfl⟩
    exact ⟨_, ⟨o, ho, rfl⟩, rfl⟩

theorem Agree.shapeFingerprintIds (h : Agree digest members) :
    ∀ m ∈ shapeFingerprintIds digest members, ∀ n ∈ MoE.shapeFingerprintIds digest members,
      m.1 = n.1 → m = n := by
  intro m hm n hn heq
  obtain ⟨o, ho, rfl⟩ := mem_shapeFingerprintIds.mp hm
  obtain ⟨o', ho', rfl⟩ := mem_shapeFingerprintIds.mp hn
  exact Prod.ext heq (by rw [h.shape o ho o' ho' heq])

theorem mem_fingerprints (h : Agree digest members) {representatives : List Int}
    {f : ExecutionFingerprint} :
    f ∈ (regimeWith digest executionClass regimeKey members representatives).fingerprints ↔
      ∃ o ∈ members, f = o.fingerprint := by
  rw [regimeWith, List.mem_map]
  simp only [(Dict.perm_sortedItems _).mem_iff, fingerprintsById,
    Dict.mem_ofItems_iff h.items_identifier, List.mem_map]
  constructor
  · rintro ⟨_, ⟨o, ho, rfl⟩, rfl⟩
    exact ⟨o, ho, rfl⟩
  · rintro ⟨o, ho, rfl⟩
    exact ⟨_, ⟨o, ho, rfl⟩, rfl⟩

/-- The regime gives back the fingerprint that was observed. -/
theorem fingerprintForShape_regimeWith (h : Agree digest members) {representatives : List Int}
    {o : ExecutionObservation} (ho : o ∈ members) :
    (regimeWith digest executionClass regimeKey members representatives).fingerprintForShape
      digest o.nExec = .ok o.fingerprint := by
  have hshape : (Dict.ofItems (regimeWith digest executionClass regimeKey members
      representatives).shapeFingerprintIds).lookup o.nExec =
      some (o.fingerprint.identifier digest) :=
    (Dict.lookup_ofItems h.shapeFingerprintIds).mpr (mem_shapeFingerprintIds.mpr ⟨o, ho, rfl⟩)
  have hid : ((regimeWith digest executionClass regimeKey members
      representatives).fingerprintsById digest).lookup (o.fingerprint.identifier digest) =
      some o.fingerprint := by
    refine (Dict.lookup_ofItems ?_).mpr (List.mem_map.mpr
      ⟨o.fingerprint, (mem_fingerprints h).mpr ⟨o, ho, rfl⟩, rfl⟩)
    intro m hm n hn heq
    obtain ⟨f, hf, rfl⟩ := List.mem_map.mp hm
    obtain ⟨g, hg, rfl⟩ := List.mem_map.mp hn
    obtain ⟨p, hp, rfl⟩ := (mem_fingerprints h).mp hf
    obtain ⟨q, hq, rfl⟩ := (mem_fingerprints h).mp hg
    exact Prod.ext heq (h.identifier p hp q hq heq)
  rw [ExecutionRegime.fingerprintForShape, hshape]
  dsimp only
  rw [hid]

theorem mem_shapes {n : Int} : n ∈ sortedSet (members.map ExecutionObservation.nExec) ↔
    ∃ o ∈ members, o.nExec = n := by
  rw [mem_sortedSet, List.mem_map]

theorem grouped_members (h : Profiled digest policy members) (hagree : Agree digest members)
    (hne : members ≠ []) (hkey : ∀ o ∈ members,
      regimeEquivalenceKey digest policy o.fingerprint o.nExec = regimeKey) :
    Grouped digest policy (sortedSet (members.map ExecutionObservation.nExec))
      (shapeFingerprint members) := by
  refine ⟨fun hnil => hne (List.map_eq_nil_iff.mp (sortedSet_eq_nil_iff.mp hnil)),
    pairwise_sortedSet _, fun n hn => ?_, fun a ha b hb => ?_⟩
  · obtain ⟨o, ho, rfl⟩ := mem_shapes.mp hn
    rw [shapeFingerprint_eq hagree ho]
    exact h.created o ho
  · obtain ⟨o, ho, rfl⟩ := mem_shapes.mp ha
    obtain ⟨o', ho', rfl⟩ := mem_shapes.mp hb
    rw [shapeFingerprint_eq hagree ho, shapeFingerprint_eq hagree ho', hkey o ho, hkey o' ho']

theorem collisionFree_members (h : Profiled digest policy members)
    (hagree : Agree digest members) : CollisionFree digest (groupDocuments digest policy
      (sortedSet (members.map ExecutionObservation.nExec)) (shapeFingerprint members)) := by
  have hdocument : ∀ v ∈ groupDocuments digest policy
      (sortedSet (members.map ExecutionObservation.nExec)) (shapeFingerprint members),
      ∃ o ∈ members, v = o.fingerprint.toJson ∨
        v = regimeDocument digest policy o.fingerprint o.nExec := by
    rintro v ⟨n, hn, hv⟩
    obtain ⟨o, ho, rfl⟩ := mem_shapes.mp hn
    rw [shapeFingerprint_eq hagree ho] at hv
    exact ⟨o, ho, hv⟩
  exact fun v hv w hw => h.documents v (hdocument v hv) w (hdocument w hw)

/-- A group becomes a regime that passes its checks, whose representatives cover it. -/
theorem regimeOf_ok (h : Profiled digest options.equivalencePolicy members)
    (hagree : Agree digest members) (hne : members ≠ []) (hkey : ∀ o ∈ members,
      regimeEquivalenceKey digest options.equivalencePolicy o.fingerprint o.nExec = regimeKey) :
    ∃ representatives, regimeOf digest options executionClass regimeKey members =
        .ok (regimeWith digest executionClass regimeKey members representatives) ∧
      (regimeWith digest executionClass regimeKey members representatives).Checked digest := by
  obtain ⟨hcover, final, hselect, -, -, hsub, hin⟩ := select_minimum_cover
    (grouped_members h hagree hne hkey) (collisionFree_members h hagree)
    options.representativesPerRegime
  have hlookup : ∀ n ∈ sortedSet (members.map ExecutionObservation.nExec),
      (regimeWith digest executionClass regimeKey members final).fingerprintForShape digest n =
        .ok (shapeFingerprint members n) := by
    intro n hn
    obtain ⟨o, ho, rfl⟩ := mem_shapes.mp hn
    rw [shapeFingerprint_eq hagree ho]
    exact fingerprintForShape_regimeWith hagree ho
  obtain ⟨o, ho⟩ := List.exists_mem_of_ne_nil _ hne
  have hshape : o.nExec ∈ sortedSet (members.map ExecutionObservation.nExec) :=
    mem_shapes.mpr ⟨o, ho, rfl⟩
  have hkeys : ∀ p : Int × String, p ∈ Dict.ofItems (shapeFingerprintIds digest members) ↔
      ∃ o ∈ members, p = (o.nExec, o.fingerprint.identifier digest) := fun p =>
    (Dict.mem_ofItems_iff hagree.shapeFingerprintIds).trans mem_shapeFingerprintIds
  have hchecked :
      (regimeWith digest executionClass regimeKey members final).Checked digest := by
    refine ⟨List.ne_nil_of_mem ((mem_fingerprints hagree).mpr ⟨o, ho, rfl⟩),
      List.ne_nil_of_mem hshape, ?_, hin, ⟨fun n hn => ?_, fun n hn => ?_⟩, fun i hi => ?_,
      fun n hn => ?_⟩
    · obtain ⟨c, hc, -⟩ := hcover.covers _ hshape
      exact List.ne_nil_of_mem (hsub hc)
    · obtain ⟨p, hp, rfl⟩ := List.mem_map.mp hn
      obtain ⟨x, hx, rfl⟩ := (hkeys p).mp hp
      exact mem_shapes.mpr ⟨x, hx, rfl⟩
    · obtain ⟨x, hx, rfl⟩ := mem_shapes.mp hn
      exact List.mem_map.mpr ⟨_, (hkeys _).mpr ⟨x, hx, rfl⟩, rfl⟩
    · obtain ⟨p, hp, rfl⟩ := List.mem_map.mp hi
      obtain ⟨x, hx, rfl⟩ := (hkeys p).mp hp
      exact List.mem_map.mpr ⟨_, (mem_fingerprints hagree).mpr ⟨x, hx, rfl⟩, rfl⟩
    · have hany : final.anyM (fun representative => do
          return fingerprintCovers digest (← (regimeWith digest executionClass regimeKey members
            final).fingerprintForShape digest representative) (shapeFingerprint members n)) =
          .ok (final.any fun representative => fingerprintCovers digest
            (shapeFingerprint members representative) (shapeFingerprint members n)) :=
        anyM_ok_iff fun m hm => by rw [hlookup m (hin hm)]; rfl
      obtain ⟨c, hc, hreach⟩ := hcover.covers n hn
      have htrue : (final.any fun representative => fingerprintCovers digest
          (shapeFingerprint members representative) (shapeFingerprint members n)) = true :=
        List.any_eq_true.mpr ⟨c, hsub hc, hreach⟩
      rw [ExecutionRegime.representativesCoverShape, hlookup n hn]
      exact hany.trans (congrArg Except.ok htrue)
  refine ⟨final, ?_, hchecked⟩
  rw [regimeOf, hselect]
  change ExecutionRegime.make digest _ = _
  rw [ExecutionRegime.make, ExecutionRegime.postInit_ok_iff.mpr hchecked]
  rfl

end Regime

/-! ## The groups -/

section Groups

variable {digest : String → String} {C : Conversions} {options : DiscoveryOptions}
  {values values' : List ExecutionObservation}

theorem groupedObservations_eq (digest : String → String) (options : DiscoveryOptions)
    (values : List ExecutionObservation) : groupedObservations digest options values =
      (sortedSet (values.map (groupKey digest options))).map fun key =>
        (key, values.filter fun o => groupKey digest options o = key) :=
  Dict.sortedItems_group _ _

/-- What the checks establish. -/
structure Passed (digest : String → String) (C : Conversions) (options : DiscoveryOptions)
    (values : List ExecutionObservation) : Prop where
  nonempty : values ≠ []
  policy : options.equivalencePolicy ∈ equivalencePolicies
  environment : options.environment.validateForCatalog C = .ok ()
  conflicts : conflicts digest values = []

theorem passed_of_checkObservations (h : checkObservations digest C options values = .ok ()) :
    Passed digest C options values := by
  simp only [checkObservations, raiseIf_bind_ok_iff] at h
  simp only [bind_ok_iff, raiseIf_ok_iff, not_not, ne_eq] at h
  obtain ⟨hnonempty, -, -, -, hpolicy, _, henvironment, -, -, -, -, -, -, hconflicts⟩ := h
  exact ⟨hnonempty, hpolicy, henvironment, hconflicts⟩

/-- Observations of one group have one fingerprint for a shape. -/
theorem agree_group (h : Profiled digest options.equivalencePolicy values)
    (hconflicts : conflicts digest values = []) (key : String ×ₗ String) :
    Agree digest (values.filter fun o => groupKey digest options o = key) := by
  constructor
  · intro o ho o' ho' hshape
    obtain ⟨ho, hkey⟩ := List.mem_filter.mp ho
    obtain ⟨ho', hkey'⟩ := List.mem_filter.mp ho'
    have hgroup := (of_decide_eq_true hkey).trans (of_decide_eq_true hkey').symm
    have hclass : o.location.executionClass = o'.location.executionClass :=
      congrArg (fun k => (ofLex k).1) hgroup
    refine same_fingerprint h hconflicts ho ho' ?_
    rw [shapeKey, shapeKey, hclass, hshape]
  · intro o ho o' ho' heq
    exact h.identifier (List.mem_of_mem_filter ho) (List.mem_of_mem_filter ho') heq

/-- The regimes do not depend on the order of the observations. -/
theorem regimes_perm (h : Profiled digest options.equivalencePolicy values)
    (hconflicts : conflicts digest values = []) (hp : values.Perm values') :
    ((groupedObservations digest options values).mapM fun p =>
      regimeOf digest options (ofLex p.1).1 (ofLex p.1).2 p.2) =
    (groupedObservations digest options values').mapM fun p =>
      regimeOf digest options (ofLex p.1).1 (ofLex p.1).2 p.2 := by
  rw [groupedObservations_eq, groupedObservations_eq, List.mapM_map, List.mapM_map,
    sortedSet_map_perm _ hp]
  exact mapM_congr fun key _ => regimeOf_perm (agree_group h hconflicts key) (hp.filter _)

theorem catalogOf_perm (hp : values.Perm values') (regimes : List ExecutionRegime) :
    catalogOf options values regimes = catalogOf options values' regimes := by
  have hep : epPositions values = epPositions values' := sortedSet_map_perm _ hp
  rw [catalogOf, catalogOf, hep, profiledRequests_eq, profiledRequests_eq,
    sortedSet_map_perm _ hp, sortedItems_observationCounts_perm hp]

/-- Discovery does not depend on the order of the observations. -/
theorem discover_perm (h : Profiled digest options.equivalencePolicy values)
    (hp : values.Perm values') : discoverExecutionRegimes digest C options values =
      discoverExecutionRegimes digest C options values' := by
  rw [discoverExecutionRegimes, discoverExecutionRegimes, ← checkObservations_perm hp]
  cases hcheck : checkObservations digest C options values with
  | error e => rfl
  | ok u =>
      have hconflicts := (passed_of_checkObservations hcheck).conflicts
      simp only [regimes_perm h hconflicts hp, catalogOf_perm hp]

/-- The regime of the group of a key. -/
def regimeAt (digest : String → String) (options : DiscoveryOptions)
    (values : List ExecutionObservation) (representatives : String ×ₗ String → List Int)
    (key : String ×ₗ String) : ExecutionRegime :=
  regimeWith digest (ofLex key).1 (ofLex key).2
    (values.filter fun o => groupKey digest options o = key) (representatives key)

/-- The group of an observation becomes a regime. -/
theorem regime_of_group (h : Profiled digest options.equivalencePolicy values)
    (hconflicts : conflicts digest values = []) {key : String ×ₗ String}
    (hkey : key ∈ values.map (groupKey digest options)) :
    ∃ representatives, regimeOf digest options (ofLex key).1 (ofLex key).2
        (values.filter fun o => groupKey digest options o = key) =
        .ok (regimeWith digest (ofLex key).1 (ofLex key).2
          (values.filter fun o => groupKey digest options o = key) representatives) ∧
      (regimeWith digest (ofLex key).1 (ofLex key).2
        (values.filter fun o => groupKey digest options o = key)
        representatives).Checked digest := by
  obtain ⟨o, ho, rfl⟩ := List.mem_map.mp hkey
  refine regimeOf_ok (h.subset List.filter_sublist.subset) (agree_group h hconflicts _) ?_ ?_
  · exact List.ne_nil_of_mem (List.mem_filter.mpr ⟨ho, decide_eq_true rfl⟩)
  · intro x hx
    exact congrArg (fun k => (ofLex k).2) (of_decide_eq_true (List.mem_filter.mp hx).2)

theorem exists_regimes (h : Profiled digest options.equivalencePolicy values)
    (hconflicts : conflicts digest values = []) :
    ∃ representatives : String ×ₗ String → List Int,
      ((groupedObservations digest options values).mapM fun p =>
        regimeOf digest options (ofLex p.1).1 (ofLex p.1).2 p.2) =
        .ok ((sortedSet (values.map (groupKey digest options))).map
          (regimeAt digest options values representatives)) ∧
      ∀ key ∈ values.map (groupKey digest options),
        (regimeAt digest options values representatives key).Checked digest := by
  have hchoose : ∀ key : String ×ₗ String, ∃ representatives,
      key ∈ values.map (groupKey digest options) →
      regimeOf digest options (ofLex key).1 (ofLex key).2
        (values.filter fun o => groupKey digest options o = key) =
        .ok (regimeWith digest (ofLex key).1 (ofLex key).2
          (values.filter fun o => groupKey digest options o = key) representatives) ∧
      (regimeWith digest (ofLex key).1 (ofLex key).2
        (values.filter fun o => groupKey digest options o = key)
        representatives).Checked digest := by
    intro key
    by_cases hkey : key ∈ values.map (groupKey digest options)
    · obtain ⟨representatives, hok⟩ := regime_of_group h hconflicts hkey
      exact ⟨representatives, fun _ => hok⟩
    · exact ⟨[], fun hmem => absurd hmem hkey⟩
  obtain ⟨representatives, hall⟩ := Classical.axiomOfChoice hchoose
  refine ⟨representatives, ?_, fun key hkey => (hall key hkey).2⟩
  rw [groupedObservations_eq, List.mapM_map]
  exact mapM_eq_map fun key hkey => (hall key (mem_sortedSet.mp hkey)).1

end Groups

/-! ## The catalog -/

/-- Regimes of one name are of one class and one shortened key. -/
theorem regimeId_inj {digest : String → String} (hexadecimal : ∀ text, (digest text).length = 64)
    {c c' v v' : String}
    (h : c ++ "-" ++ shortened (digest v) = c' ++ "-" ++ shortened (digest v')) :
    c = c' ∧ shortened (digest v) = shortened (digest v') := by
  have hlength : ∀ v, (shortened (digest v)).toList.length = 12 := by
    intro v
    have hdigest := hexadecimal v
    rw [← String.length_toList] at hdigest
    rw [shortened, String.toList_ofList, List.length_take, hdigest]
    rfl
  have htext := congrArg String.toList h
  simp only [String.toList_append] at htext
  obtain ⟨hclass, hkey⟩ := List.append_inj' htext ((hlength v).trans (hlength v').symm)
  have hclass := (List.append_inj' hclass rfl).1
  exact ⟨String.toList_injective hclass, String.toList_injective hkey⟩

/-- Every observed shape is in one regime, with its own fingerprint, and one of the
regime's representatives covers it. -/
structure CoversProfiled (digest : String → String) (catalog : MoERegimeCatalog)
    (values : List ExecutionObservation) : Prop where
  one : ∀ o ∈ values, ∃! regime, regime ∈ catalog.regimes ∧
    regime.executionClass = o.location.executionClass ∧ o.nExec ∈ regime.nExecValues
  covered : ∀ o ∈ values, ∀ regime ∈ catalog.regimes,
    regime.executionClass = o.location.executionClass → o.nExec ∈ regime.nExecValues →
    regime.fingerprintForShape digest o.nExec = .ok o.fingerprint ∧
      ∃ representative ∈ regime.representatives, ∃ candidate,
        regime.fingerprintForShape digest representative = .ok candidate ∧
        fingerprintCovers digest candidate o.fingerprint = true

theorem anyM_true {α : Type} {p : α → Except Error Bool} {xs : List α}
    (h : xs.anyM p = .ok true) : ∃ x ∈ xs, p x = .ok true := by
  induction xs with
  | nil => cases h
  | cons x xs ih =>
      rw [List.anyM] at h
      obtain ⟨found, hx, hrest⟩ := bind_ok_iff.mp h
      cases found with
      | true => exact ⟨x, List.mem_cons_self, hx⟩
      | false =>
          obtain ⟨y, hy, hpy⟩ := ih hrest
          exact ⟨y, List.mem_cons_of_mem x hy, hpy⟩

/-- A regime that passes its checks covers each of its shapes. -/
theorem ExecutionRegime.Checked.covers {digest : String → String} {r : ExecutionRegime}
    (h : r.Checked digest) {n : Int} (hn : n ∈ r.nExecValues) {target : ExecutionFingerprint}
    (htarget : r.fingerprintForShape digest n = .ok target) :
    ∃ representative ∈ r.representatives, ∃ candidate,
      r.fingerprintForShape digest representative = .ok candidate ∧
      fingerprintCovers digest candidate target = true := by
  have hcovered := h.covered n hn
  rw [ExecutionRegime.representativesCoverShape, htarget] at hcovered
  obtain ⟨representative, hmem, hcover⟩ := anyM_true hcovered
  obtain ⟨candidate, hcandidate, hok⟩ := bind_ok_iff.mp hcover
  exact ⟨representative, hmem, candidate, hcandidate, Except.ok.inj hok⟩

section Catalog

variable {digest : String → String} {C : Conversions} {options : DiscoveryOptions}
  {values : List ExecutionObservation} {representatives : String ×ₗ String → List Int}

theorem mem_shapes_regimeAt {key : String ×ₗ String} {n : Int} :
    n ∈ (regimeAt digest options values representatives key).nExecValues ↔
      ∃ o ∈ values, groupKey digest options o = key ∧ o.nExec = n := by
  refine mem_shapes.trans ?_
  simp only [List.mem_filter, decide_eq_true_eq, and_assoc]

theorem checkRegime_regimeAt (h : Profiled digest options.equivalencePolicy values)
    (hconflicts : conflicts digest values = []) {key : String ×ₗ String}
    (hkey : key ∈ values.map (groupKey digest options)) :
    MoERegimeCatalog.checkRegime digest options.equivalencePolicy
      (regimeAt digest options values representatives key) = .ok () := by
  obtain ⟨o, ho, rfl⟩ := List.mem_map.mp hkey
  have hagree := agree_group h hconflicts (groupKey digest options o)
  have hkeys : (regimeAt digest options values representatives
      (groupKey digest options o)).nExecValues.mapM (fun nExec => do
        return regimeEquivalenceKey digest options.equivalencePolicy
          (← (regimeAt digest options values representatives
            (groupKey digest options o)).fingerprintForShape digest nExec) nExec) =
      .ok ((regimeAt digest options values representatives
        (groupKey digest options o)).nExecValues.map fun _ =>
          (ofLex (groupKey digest options o)).2) := by
    refine mapM_eq_map fun n hn => ?_
    obtain ⟨x, hx, hgroup, rfl⟩ := mem_shapes_regimeAt.mp hn
    have hmem : x ∈ values.filter fun y =>
        groupKey digest options y = groupKey digest options o :=
      List.mem_filter.mpr ⟨hx, decide_eq_true hgroup⟩
    have hfound : (regimeAt digest options values representatives
        (groupKey digest options o)).fingerprintForShape digest x.nExec = .ok x.fingerprint :=
      fingerprintForShape_regimeWith hagree hmem
    rw [hfound, ← hgroup]
    rfl
  have hlength : (regimeAt digest options values representatives
      (groupKey digest options o)).nExecValues.length ≠ 0 := by
    have hmem : o.nExec ∈ (regimeAt digest options values representatives
        (groupKey digest options o)).nExecValues := mem_shapes_regimeAt.mpr ⟨o, ho, rfl, rfl⟩
    exact fun h => List.ne_nil_of_mem hmem (List.length_eq_zero_iff.mp h)
  rw [MoERegimeCatalog.checkRegime, hkeys]
  simp only [List.map_const', bind, Except.bind, List.replicate_dedup hlength]
  exact raiseIf_ok_iff.mpr (not_not.mpr rfl)

/-- **The catalog passes its checks.** -/
theorem valid_catalogOf (h : Profiled digest options.equivalencePolicy values)
    (hpassed : Passed digest C options values)
    (hcounts : ∀ p ∈ observationCountsByRequest values, 1 ≤ p.2)
    (hregimes : ∀ key ∈ values.map (groupKey digest options),
      (regimeAt digest options values representatives key).Checked digest) :
    (catalogOf options values ((sortedSet (values.map (groupKey digest options))).map
      (regimeAt digest options values representatives))).Valid digest C := by
  have hnodup := nodup_keys_observationCounts values
  have hsorted : ((Dict.sortedItems (observationCountsByRequest values)).map Prod.fst).Nodup :=
    (Dict.pairwise_keys_sortedItems hnodup).imp ne_of_lt
  have hcount : Dict.ofItems (Dict.sortedItems (observationCountsByRequest values)) =
      Dict.sortedItems (observationCountsByRequest values) := Dict.ofItems_of_nodup hsorted
  refine ⟨⟨rfl, ?_, hpassed.policy, ?_, hsorted, congrArg List.length hcount, ?_, ?_,
    hpassed.environment, ?_⟩, ?_⟩
  · intro hnil
    have hkeys := sortedSet_eq_nil_iff.mp (List.map_eq_nil_iff.mp hnil)
    exact hpassed.nonempty (List.map_eq_nil_iff.mp hkeys)
  · -- regimes of one name are of one group
    rw [catalogOf, List.map_map]
    refine List.Nodup.map_on ?_ (nodup_sortedSet _)
    intro key hkey key' hkey' heq
    obtain ⟨o, ho, rfl⟩ := List.mem_map.mp (mem_sortedSet.mp hkey)
    obtain ⟨o', ho', rfl⟩ := List.mem_map.mp (mem_sortedSet.mp hkey')
    obtain ⟨hclass, hshort⟩ := regimeId_inj h.hexadecimal heq
    have hclass' : o.location.executionClass = o'.location.executionClass := hclass
    rw [groupKey, groupKey, hclass', h.shortened o ho o' ho' hshort]
  · change SameSet ((Dict.ofItems (Dict.sortedItems _)).map Prod.fst) (profiledRequests values)
    rw [hcount]
    exact ⟨List.Subset.refl _, List.Subset.refl _⟩
  · change ∀ count ∈ Dict.ofItems (Dict.sortedItems _), _
    rw [hcount]
    exact fun p hp => hcounts p ((Dict.perm_sortedItems _).mem_iff.mp hp)
  · intro regime hregime
    obtain ⟨key, hkey, rfl⟩ := List.mem_map.mp hregime
    exact checkRegime_regimeAt h hpassed.conflicts (mem_sortedSet.mp hkey)
  · intro regime hregime
    obtain ⟨key, hkey, rfl⟩ := List.mem_map.mp hregime
    exact hregimes key (mem_sortedSet.mp hkey)

theorem one_le_observationCounts (values : List ExecutionObservation) :
    ∀ p ∈ observationCountsByRequest values, 1 ≤ p.2 := by
  intro p hp
  obtain ⟨q, hq, rfl⟩ := List.mem_map.mp hp
  have hne : q.2 ≠ [] := (Dict.mem_group.mp (show (q.1, q.2) ∈ _ from hq)).2
  have hlength := List.length_pos_iff.mpr hne
  change (1 : Int) ≤ (q.2.length : Int)
  omega

/-- **Each observation is covered by its regime alone.** -/
theorem coversProfiled_catalogOf (h : Profiled digest options.equivalencePolicy values)
    (hpassed : Passed digest C options values)
    (hregimes : ∀ key ∈ values.map (groupKey digest options),
      (regimeAt digest options values representatives key).Checked digest) :
    CoversProfiled digest (catalogOf options values
      ((sortedSet (values.map (groupKey digest options))).map
        (regimeAt digest options values representatives))) values := by
  -- a regime of the class that has the shape is that of the observation's group
  have hown : ∀ o ∈ values, ∀ regime ∈ (sortedSet (values.map (groupKey digest options))).map
      (regimeAt digest options values representatives),
      regime.executionClass = o.location.executionClass → o.nExec ∈ regime.nExecValues →
      regime = regimeAt digest options values representatives (groupKey digest options o) := by
    intro o ho regime hregime hclass hshape
    obtain ⟨key, hkey, rfl⟩ := List.mem_map.mp hregime
    obtain ⟨x, hx, hgroup, hn⟩ := mem_shapes_regimeAt.mp hshape
    have hxclass : x.location.executionClass = o.location.executionClass := by
      rw [← hgroup] at hclass
      exact hclass
    have hsame : x.fingerprint = o.fingerprint :=
      same_fingerprint h hpassed.conflicts hx ho (by rw [shapeKey, shapeKey, hxclass, hn])
    rw [← hgroup, groupKey, groupKey, hxclass, hsame, hn]
  constructor
  · intro o ho
    refine ⟨regimeAt digest options values representatives (groupKey digest options o),
      ⟨List.mem_map_of_mem (mem_sortedSet.mpr (List.mem_map_of_mem ho)), rfl,
        mem_shapes_regimeAt.mpr ⟨o, ho, rfl, rfl⟩⟩, ?_⟩
    rintro regime ⟨hregime, hclass, hshape⟩
    exact hown o ho regime hregime hclass hshape
  · intro o ho regime hregime hclass hshape
    have hmem : o ∈ values.filter fun y =>
        groupKey digest options y = groupKey digest options o :=
      List.mem_filter.mpr ⟨ho, decide_eq_true rfl⟩
    have hfound : (regimeAt digest options values representatives
        (groupKey digest options o)).fingerprintForShape digest o.nExec = .ok o.fingerprint :=
      fingerprintForShape_regimeWith (agree_group h hpassed.conflicts _) hmem
    obtain rfl := hown o ho regime hregime hclass hshape
    exact ⟨hfound, (hregimes _ (List.mem_map_of_mem ho)).covers hshape hfound⟩

/-- The check of the recipes raises its own error only. -/
theorem checkRecipes_cases (options : DiscoveryOptions) {catalog : MoERegimeCatalog}
    (h : catalog.Valid digest C) :
    checkRecipes digest options catalog = .ok () ∨
      ∃ limit size, options.maxReplayRecipes = some limit ∧
        options.equivalencePolicy = "plan_and_pressure" ∧
        catalog.cycleSize digest = .ok size ∧ limit < size ∧
        checkRecipes digest options catalog = .error (tooManyRecipes size limit) := by
  obtain ⟨recipes, hrecipes, -⟩ := h.replayRecipes
  have hsize : catalog.cycleSize digest = .ok recipes.length := by
    rw [MoERegimeCatalog.cycleSize, hrecipes]
    rfl
  rw [checkRecipes]
  cases hlimit : options.maxReplayRecipes with
  | none => exact Or.inl rfl
  | some limit =>
      dsimp only
      split
      · rename_i hpolicy
        rw [hsize]
        by_cases hmore : limit < (recipes.length : Int)
        · refine Or.inr ⟨limit, recipes.length, rfl, hpolicy, rfl, hmore, ?_⟩
          exact if_pos hmore
        · exact Or.inl (if_neg hmore)
      · exact Or.inl rfl

theorem discover_of_parts {regimes : List ExecutionRegime} {catalog : MoERegimeCatalog}
    (hcheck : checkObservations digest C options values = .ok ())
    (hregimes : ((groupedObservations digest options values).mapM fun p =>
      regimeOf digest options (ofLex p.1).1 (ofLex p.1).2 p.2) = .ok regimes)
    (hcatalog : catalogOf options values regimes = catalog) (hvalid : catalog.Valid digest C) :
    discoverExecutionRegimes digest C options values =
      (checkRecipes digest options catalog).map fun _ => catalog := by
  have hmake : MoERegimeCatalog.make digest C (catalogOf options values regimes) =
      .ok catalog := by
    rw [hcatalog, MoERegimeCatalog.make, MoERegimeCatalog.postInit_ok_iff.mpr hvalid.checked]
    rfl
  simp only [discoverExecutionRegimes, hcheck, hregimes, hmake, bind, Except.bind]
  cases checkRecipes digest options catalog <;> rfl

theorem discover_of_checked (h : Profiled digest options.equivalencePolicy values)
    (hcheck : checkObservations digest C options values = .ok ()) :
    ∃ catalog : MoERegimeCatalog, catalog.Valid digest C ∧
      CoversProfiled digest catalog values ∧ discoverExecutionRegimes digest C options values =
        (checkRecipes digest options catalog).map fun _ => catalog := by
  have hpassed := passed_of_checkObservations hcheck
  obtain ⟨representatives, hmapM, hregimes⟩ := exists_regimes h hpassed.conflicts
  have hvalid := valid_catalogOf h hpassed (one_le_observationCounts values) hregimes
  exact ⟨_, hvalid, coversProfiled_catalogOf h hpassed hregimes,
    discover_of_parts hcheck hmapM rfl hvalid⟩

end Catalog

/-- **What was profiled is covered, whatever the order.**  Discovery raises one of its
checks, or it has a catalog that passes its own checks, where each observed shape is in
one regime and covered by a representative of it, and gives it out unless it asks for more
recipes than are allowed.  Another order of the observations gives the same. -/
theorem discoverExecutionRegimes_covers {digest : String → String} {C : Conversions}
    {options : DiscoveryOptions} {values : List ExecutionObservation}
    (h : Profiled digest options.equivalencePolicy values) :
    ((∃ e, checkObservations digest C options values = .error e ∧
        discoverExecutionRegimes digest C options values = .error e) ∨
      ∃ catalog : MoERegimeCatalog, catalog.Valid digest C ∧
        CoversProfiled digest catalog values ∧
        (discoverExecutionRegimes digest C options values = .ok catalog ∨
          ∃ limit size, options.maxReplayRecipes = some limit ∧
            options.equivalencePolicy = "plan_and_pressure" ∧
            catalog.cycleSize digest = .ok size ∧ limit < size ∧
            discoverExecutionRegimes digest C options values =
              .error (tooManyRecipes size limit))) ∧
    ∀ values', values.Perm values' → discoverExecutionRegimes digest C options values' =
      discoverExecutionRegimes digest C options values := by
  refine ⟨?_, fun values' hp => (discover_perm h hp).symm⟩
  cases hcheck : checkObservations digest C options values with
  | error e => exact Or.inl ⟨e, rfl, by rw [discoverExecutionRegimes, hcheck]; rfl⟩
  | ok u =>
      right
      obtain ⟨catalog, hvalid, hcovers, hrun⟩ := discover_of_checked h hcheck
      refine ⟨catalog, hvalid, hcovers, ?_⟩
      rcases checkRecipes_cases options hvalid with hok | ⟨limit, size, hlimit,
        hpolicy, hsize, hmore, herror⟩
      · exact Or.inl (hrun.trans (by rw [hok]; rfl))
      · exact Or.inr ⟨limit, size, hlimit, hpolicy, hsize, hmore,
          hrun.trans (by rw [herror]; rfl)⟩

/-- A product that was profiled. -/
def sampleObservation (algorithm : String) (n : Nat) : ExecutionObservation where
  request := ⟨n, { layerId := "0", expertId := 0, epPosition := 0 }, Int.natCast_nonneg n⟩
  fingerprint := product algorithm n

/-- Two shapes of one regime, and one of another. -/
def sampleObservations : List ExecutionObservation :=
  [sampleObservation "split_k" 32, sampleObservation "stream_k" 8, sampleObservation "stream_k" 16]

theorem forall_sampleObservations {P : ExecutionObservation → Prop}
    (h₁ : P (sampleObservation "split_k" 32)) (h₂ : P (sampleObservation "stream_k" 8))
    (h₃ : P (sampleObservation "stream_k" 16)) : ∀ o ∈ sampleObservations, P o := by
  intro o ho
  rcases List.mem_cons.mp ho with rfl | ho
  · exact h₁
  · rcases List.mem_pair.mp ho with rfl | rfl
    · exact h₂
    · exact h₃

theorem document_sampleObservation (algorithm : String) (n : Nat) :
    regimeDocument paddedDigest "plan_and_pressure" (sampleObservation algorithm n).fingerprint
      (sampleObservation algorithm n).nExec = productDocument algorithm n := rfl

theorem document_mem_sample : ∀ o ∈ sampleObservations,
    regimeDocument paddedDigest "plan_and_pressure" o.fingerprint o.nExec ∈ sampleDocuments := by
  refine forall_sampleObservations ?_ ?_ ?_ <;> rw [document_sampleObservation]
  · exact productDocument_mem.2
  · exact productDocument_mem.1
  · rw [Nat.cast_ofNat, productDocument_sixteen]
    exact productDocument_mem.1

theorem profiled_sampleObservations :
    Profiled paddedDigest "plan_and_pressure" sampleObservations := by
  refine ⟨forall_sampleObservations (created_product _ _) (created_product _ _)
    (created_product _ _), collisionFree_sample ?_, length_paddedDigest, fun o ho o' ho' h => ?_⟩
  · rintro v ⟨o, ho, rfl | rfl⟩
    · revert o
      refine forall_sampleObservations ?_ ?_ ?_ <;> simp [sampleDocuments, sampleObservation]
    · exact document_mem_sample o ho
  · rw [regimeEquivalenceKey, regimeEquivalenceKey] at h ⊢
    rw [eq_of_leading (document_mem_sample o ho) (document_mem_sample o' ho')
      (leading_eq_of_shortened h)]

def sampleOptions : DiscoveryOptions where
  environment := sampleEnvironment
  minimumObservationsPerRequest := 1

theorem checkObservations_sample :
    checkObservations paddedDigest plainConversions sampleOptions sampleObservations = .ok () := by
  simp only [checkObservations, raiseIf_bind_ok_iff]
  simp only [bind_ok_iff, raiseIf_ok_iff, not_not, ne_eq]
  refine ⟨List.cons_ne_nil _ _, by decide, by decide, by decide, by decide, (),
    validate_sampleEnvironment, (), ?_, (), ?_, (), ?_, ?_⟩
  · decide +kernel
  · decide +kernel
  · decide +kernel
  · have hshapes : (sampleObservations.map ExecutionObservation.nExec).Nodup := by decide
    refine conflicts_eq_nil_iff.mpr fun o ho o' ho' h => ?_
    rw [List.inj_on_of_nodup_map hshapes ho ho' (congrArg (fun key => (ofLex key).2) h)]

theorem discoverExecutionRegimes_covers_sampleObservations :
    ((∃ e, checkObservations paddedDigest plainConversions sampleOptions sampleObservations =
          .error e ∧
        discoverExecutionRegimes paddedDigest plainConversions sampleOptions
          sampleObservations = .error e) ∨
      ∃ catalog : MoERegimeCatalog, catalog.Valid paddedDigest plainConversions ∧
        CoversProfiled paddedDigest catalog sampleObservations ∧
        (discoverExecutionRegimes paddedDigest plainConversions sampleOptions
            sampleObservations = .ok catalog ∨
          ∃ limit size, sampleOptions.maxReplayRecipes = some limit ∧
            sampleOptions.equivalencePolicy = "plan_and_pressure" ∧
            catalog.cycleSize paddedDigest = .ok size ∧ limit < size ∧
            discoverExecutionRegimes paddedDigest plainConversions sampleOptions
              sampleObservations = .error (tooManyRecipes size limit))) ∧
    ∀ values', sampleObservations.Perm values' →
      discoverExecutionRegimes paddedDigest plainConversions sampleOptions values' =
        discoverExecutionRegimes paddedDigest plainConversions sampleOptions
          sampleObservations :=
  discoverExecutionRegimes_covers profiled_sampleObservations

end LmResiliency.Detection.MoE
