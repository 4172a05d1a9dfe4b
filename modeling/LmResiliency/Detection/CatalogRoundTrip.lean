/-
# CatalogRoundTrip — a discovered catalog is read back as it was

Every record of a catalog is restored from its document, whatever the order of the
fields, and the checks of a catalog see only what is restored.

The main result is `fromDict_discovered`.  It is about catalogs that discovery
gives out; a document written by hand need not come back as it was.
-/
import LmResiliency.Detection.RegimeDiscovery

namespace LmResiliency.Detection.MoE

open LmResiliency.Outcome
open LmResiliency.Json (Reading)

variable {digest : String → String} {C : Conversions} {r : Json → Json}

/-! ## Regimes -/

theorem shapeFingerprintId_read (hr : Reading r) (p : Int × String) :
    shapeFingerprintId C (r (.arr [.int p.1, .str p.2])) = .ok p := by
  have hpair : r (.arr [.int p.1, .str p.2]) = .arr [r (.int p.1), r (.str p.2)] := hr.arr _
  rw [hpair]
  simp only [shapeFingerprintId, itemAt, List.getElem?_cons_zero, List.getElem?_cons_succ,
    int_read hr, str_read hr, bind, Except.bind, pure, Except.pure]

/-- The members of the document of a regime. -/
def ExecutionRegime.toMembers (regime : ExecutionRegime) : List (String × Json) :=
  [("regime_id", .str regime.regimeId), ("execution_class", .str regime.executionClass),
    ("fingerprints", .arr (regime.fingerprints.map ExecutionFingerprint.toJson)),
    ("shape_fingerprint_ids",
      .arr (regime.shapeFingerprintIds.map fun p => .arr [.int p.1, .str p.2])),
    ("n_exec_values", numbers regime.nExecValues),
    ("representatives", numbers regime.representatives),
    ("locations", .arr (regime.locations.map ProfileLocation.toJson))]

theorem ExecutionRegime.nodup_keys_toMembers (regime : ExecutionRegime) :
    (Json.keys regime.toMembers).Nodup := by
  change ["regime_id", "execution_class", "fingerprints", "shape_fingerprint_ids",
    "n_exec_values", "representatives", "locations"].Nodup
  decide

/-- **A regime that passes its checks is read back.** -/
theorem ExecutionRegime.fromDict_read (hr : Reading r) {regime : ExecutionRegime}
    (hcreated : ∀ f ∈ regime.fingerprints, f.Created) (hchecked : regime.Checked digest) :
    ExecutionRegime.fromDict digest C (r regime.toJson) = .ok regime := by
  obtain ⟨ms, hms, h⟩ := read_members hr regime.toMembers regime.nodup_keys_toMembers
  have hms' : members (r regime.toJson) = .ok ms := hms
  have hfingerprints : ((regime.fingerprints.map ExecutionFingerprint.toJson).map r).mapM
      (ExecutionFingerprint.fromDict C) = .ok regime.fingerprints :=
    mapM_fromDict_read fun f hf => ExecutionFingerprint.fromDict_read hr (hcreated f hf)
  have hids : ((regime.shapeFingerprintIds.map fun p =>
      Json.arr [.int p.1, .str p.2]).map r).mapM (shapeFingerprintId C) =
      .ok regime.shapeFingerprintIds :=
    mapM_fromDict_read fun p _ => shapeFingerprintId_read hr p
  have hlocations : ((regime.locations.map ProfileLocation.toJson).map r).mapM
      (ProfileLocation.fromDict C) = .ok regime.locations :=
    mapM_fromDict_read fun l _ => ProfileLocation.fromDict_read hr l
  have hmake : ExecutionRegime.make digest regime = .ok regime := by
    rw [ExecutionRegime.make, ExecutionRegime.postInit_ok_iff.mpr hchecked]
    rfl
  simp only [ExecutionRegime.fromDict, hms', h.item (k := "regime_id") rfl,
    h.item (k := "execution_class") rfl, h.item (k := "fingerprints") rfl,
    h.item (k := "shape_fingerprint_ids") rfl, h.item (k := "n_exec_values") rfl,
    h.item (k := "representatives") rfl, h.item (k := "locations") rfl, numbers, iterate_read hr,
    str_read hr, hfingerprints, hids, hlocations, mapM_int_read hr, hmake, bind, Except.bind]

/-! ## The catalog -/

theorem observationCount_read (hr : Reading r) (p : ProfileRequest × Int) :
    MoERegimeCatalog.observationCount C
      (r (.obj [("request", p.1.toJson), ("count", .int p.2)])) = .ok p := by
  obtain ⟨ms, hms, h⟩ := read_members hr [("request", p.1.toJson), ("count", .int p.2)] (by
    change ["request", "count"].Nodup
    decide)
  simp only [MoERegimeCatalog.observationCount, hms, h.item (k := "request") rfl,
    h.item (k := "count") rfl, ProfileRequest.fromDict_read hr, int_read hr, bind, Except.bind,
    pure, Except.pure]

theorem fromMapping_read (hr : Reading r) {environment : MoEExecutionEnvironment}
    (hfrozen : Frozen environment.attributes) (hne : environment.attributes ≠ []) :
    MoEExecutionEnvironment.fromMapping (r environment.toJson) = .ok environment := by
  have hread := frozenValue_read hr hfrozen
  obtain ⟨ms, hms, hperm⟩ := hr.obj _ hfrozen.keys_nodup
  have hnil : ms ≠ [] := by
    rintro rfl
    exact hne (List.map_eq_nil_iff.mp hperm.nil_eq.symm)
  have htrue : falsy (.obj ms) = false := by
    cases ms with
    | nil => exact absurd rfl hnil
    | cons m ms => rfl
  rw [MoEExecutionEnvironment.fromMapping, MoEExecutionEnvironment.toJson, hread, hms, htrue]
  rfl

/-- An environment that passes its check has a field. -/
theorem attributes_ne_nil {environment : MoEExecutionEnvironment}
    (h : environment.validateForCatalog C = .ok ()) : environment.attributes ≠ [] := by
  intro hnil
  rw [MoEExecutionEnvironment.validateForCatalog] at h
  split at h
  · rename_i hnone
    have hbackend : "backend" ∈ environment.missing := by
      rw [MoEExecutionEnvironment.missing, List.mem_filter, MoEExecutionEnvironment.extra, hnil]
      exact ⟨List.mem_cons_self, rfl⟩
    rw [hnone.1] at hbackend
    exact List.not_mem_nil hbackend
  · cases h

namespace MoERegimeCatalog

/-- What the records of a catalog were made by. -/
structure Created (catalog : MoERegimeCatalog) : Prop where
  environment : Frozen catalog.environment.attributes
  fingerprints : ∀ regime ∈ catalog.regimes, ∀ f ∈ regime.fingerprints, f.Created

/-- The members of the document of a catalog. -/
def toMembers (digest : String → String) (c : MoERegimeCatalog) : List (String × Json) :=
  [("schema_version", .int c.schemaVersion), ("environment", c.environment.toJson),
    ("environment_id", .str (c.environment.identifier digest)),
    ("ep_position", .int c.epPosition), ("equivalence_policy", .str c.equivalencePolicy),
    ("profiled_requests", .arr (c.profiledRequests.map ProfileRequest.toJson)),
    ("observation_counts", .arr (c.observationCounts.map fun p =>
      .obj [("request", p.1.toJson), ("count", .int p.2)])),
    ("regimes", .arr (c.regimes.map ExecutionRegime.toJson))]

theorem nodup_keys_toMembers (c : MoERegimeCatalog) : (Json.keys (c.toMembers digest)).Nodup := by
  change ["schema_version", "environment", "environment_id", "ep_position",
    "equivalence_policy", "profiled_requests", "observation_counts", "regimes"].Nodup
  decide

/-- **A catalog that passes its checks is read back**, its fields in any order. -/
theorem fromDict_read (hr : Reading r) {c : MoERegimeCatalog} (hcreated : c.Created)
    (hvalid : c.Valid digest C) : fromDict digest C (r (c.toJson digest)) = .ok c := by
  obtain ⟨ms, hms, h⟩ := read_members hr (c.toMembers digest) c.nodup_keys_toMembers
  have hms' : members (r (c.toJson digest)) = .ok ms := hms
  have henvironment := fromMapping_read hr hcreated.environment
    (attributes_ne_nil hvalid.checked.environment)
  have hrequests : ((c.profiledRequests.map ProfileRequest.toJson).map r).mapM
      (ProfileRequest.fromDict C) = .ok c.profiledRequests :=
    mapM_fromDict_read fun q _ => ProfileRequest.fromDict_read hr q
  have hcounts : ((c.observationCounts.map fun p =>
      Json.obj [("request", p.1.toJson), ("count", .int p.2)]).map r).mapM (observationCount C) =
      .ok c.observationCounts :=
    mapM_fromDict_read fun p _ => observationCount_read hr p
  have hregimes : ((c.regimes.map ExecutionRegime.toJson).map r).mapM
      (ExecutionRegime.fromDict digest C) = .ok c.regimes :=
    mapM_fromDict_read fun regime hregime => ExecutionRegime.fromDict_read hr
      (hcreated.fingerprints regime hregime) (hvalid.regimes regime hregime)
  have hmake : make digest C ⟨c.environment, c.epPosition, c.regimes, c.profiledRequests,
      c.observationCounts, c.equivalencePolicy, c.schemaVersion⟩ = .ok c := by
    rw [make, postInit_ok_iff.mpr hvalid.checked]
    rfl
  simp only [fromDict, hms', h.item (k := "schema_version") rfl,
    h.item (k := "environment") rfl, h.item (k := "ep_position") rfl,
    h.itemOr (k := "equivalence_policy") rfl, h.item (k := "profiled_requests") rfl,
    h.item (k := "observation_counts") rfl, h.item (k := "regimes") rfl,
    h.itemOr (k := "environment_id") rfl, iterate_read hr, int_read hr, hr.str, C.str_str,
    henvironment, hrequests, hcounts, hregimes, hmake, bind, Except.bind, pure, Except.pure,
    decide_true, not_true_eq_false]
  rfl

end MoERegimeCatalog

/-! ## The text of a catalog -/

theorem ProfileLocation.readable (l : ProfileLocation) : Json.Readable l.toJson := by
  refine ⟨?_, trivial, trivial, trivial, trivial, trivial⟩
  change ["layer_id", "expert_id", "ep_position", "execution_class"].Nodup
  decide

theorem ProfileRequest.readable (q : ProfileRequest) : Json.Readable q.toJson := by
  refine ⟨?_, trivial, q.location.readable, trivial⟩
  change ["n_exec", "location"].Nodup
  decide

theorem ExecutionRegime.readable {regime : ExecutionRegime}
    (hcreated : ∀ f ∈ regime.fingerprints, f.Created) : Json.Readable regime.toJson :=
  ⟨regime.nodup_keys_toMembers, trivial, trivial,
    readableItems_map fun f hf => (hcreated f hf).readable,
    readableItems_map fun _ _ => ⟨trivial, trivial, trivial⟩, (plain_numbers _).readable,
    (plain_numbers _).readable, readableItems_map fun l _ => l.readable, trivial⟩

namespace MoERegimeCatalog

theorem Created.readable {c : MoERegimeCatalog} (h : c.Created) :
    Json.Readable (c.toJson digest) := by
  have hcount : ∀ p : ProfileRequest × Int,
      Json.Readable (.obj [("request", p.1.toJson), ("count", .int p.2)]) := by
    intro p
    refine ⟨?_, p.1.readable, trivial, trivial⟩
    change ["request", "count"].Nodup
    decide
  exact ⟨c.nodup_keys_toMembers, trivial, ⟨h.environment.keys_nodup, h.environment.readable⟩,
    trivial, trivial, trivial, readableItems_map fun q _ => q.readable,
    readableItems_map fun p _ => hcount p,
    readableItems_map fun regime hregime => ExecutionRegime.readable
      (h.fingerprints regime hregime), trivial⟩

end MoERegimeCatalog

/-! ## Discovered catalogs -/

section Discovered

variable {options : DiscoveryOptions} {values : List ExecutionObservation}

theorem fingerprints_observed {executionClass regimeKey : String}
    {members : List ExecutionObservation} {regime : ExecutionRegime}
    (h : regimeOf digest options executionClass regimeKey members = .ok regime) :
    regime.Checked digest ∧ ∀ f ∈ regime.fingerprints, ∃ o ∈ members, f = o.fingerprint := by
  obtain ⟨representatives, -, hmake⟩ := bind_ok_iff.mp h
  obtain ⟨u, hpost, hregime⟩ := bind_ok_iff.mp hmake
  obtain rfl := Except.ok.inj hregime
  refine ⟨ExecutionRegime.postInit_ok_iff.mp hpost, fun f hf => ?_⟩
  obtain ⟨p, hp, rfl⟩ := List.mem_map.mp hf
  have hin : p ∈ fingerprintsById digest members := (Dict.perm_sortedItems _).mem_iff.mp hp
  obtain ⟨o, ho, rfl⟩ :=
    List.mem_map.mp ((Dict.mem_of_mem_update hin).resolve_right List.not_mem_nil)
  exact ⟨o, ho, rfl⟩

/-- What discovery gives out has passed every check, and is made of what was observed. -/
theorem discovered_valid (hcreated : ∀ o ∈ values, o.fingerprint.Created)
    (hfrozen : Frozen options.environment.attributes) {catalog : MoERegimeCatalog}
    (h : discoverExecutionRegimes digest C options values = .ok catalog) :
    catalog.Valid digest C ∧ catalog.Created := by
  obtain ⟨u, -, h⟩ := bind_ok_iff.mp h
  obtain ⟨regimes, hregimes, h⟩ := bind_ok_iff.mp h
  obtain ⟨made, hmake, h⟩ := bind_ok_iff.mp h
  obtain ⟨u, -, hmade⟩ := bind_ok_iff.mp h
  obtain rfl := Except.ok.inj hmade
  obtain ⟨u, hpost, hcatalog⟩ := bind_ok_iff.mp hmake
  obtain rfl := Except.ok.inj hcatalog
  -- each regime comes from a group, whose members are observations
  have hfrom : ∀ regime ∈ regimes, regime.Checked digest ∧
      ∀ f ∈ regime.fingerprints, ∃ o ∈ values, f = o.fingerprint := by
    intro regime hregime
    obtain ⟨p, hp, hok⟩ := (mem_of_forall₂ (mapM_ok_iff.mp hregimes)).2 regime hregime
    obtain ⟨hchecked, hobserved⟩ := fingerprints_observed hok
    rw [groupedObservations_eq] at hp
    obtain ⟨key, -, rfl⟩ := List.mem_map.mp hp
    refine ⟨hchecked, fun f hf => ?_⟩
    obtain ⟨o, ho, heq⟩ := hobserved f hf
    exact ⟨o, List.mem_of_mem_filter ho, heq⟩
  refine ⟨⟨MoERegimeCatalog.postInit_ok_iff.mp hpost, fun regime hregime =>
    (hfrom regime hregime).1⟩, hfrozen, fun regime hregime f hf => ?_⟩
  obtain ⟨o, ho, rfl⟩ := (hfrom regime hregime).2 f hf
  exact hcreated o ho

/-- **A discovered catalog survives its JSON text**, and any other order of its fields: no
check raises, and it is the same catalog, with the same identifier. -/
theorem fromDict_discovered (hcreated : ∀ o ∈ values, o.fingerprint.Created)
    (hfrozen : Frozen options.environment.attributes) {catalog : MoERegimeCatalog}
    (h : discoverExecutionRegimes digest C options values = .ok catalog) :
    (∃ value, Json.loadsLast (Json.dumps (catalog.toJson digest)) = some value ∧
      MoERegimeCatalog.fromDict digest C value = .ok catalog) ∧
    ∀ r, Reading r → ∃ restored,
      MoERegimeCatalog.fromDict digest C (r (catalog.toJson digest)) = .ok restored ∧
      restored = catalog ∧ restored.identifier digest = catalog.identifier digest := by
  obtain ⟨hvalid, hmade⟩ := discovered_valid hcreated hfrozen h
  refine ⟨⟨Json.canon (catalog.toJson digest), ?_, ?_⟩, fun r hr => ⟨catalog, ?_, rfl, rfl⟩⟩
  · exact Json.loadsWith_dumps Json.keeps_keepLast hmade.readable
  · exact MoERegimeCatalog.fromDict_read Json.reading_canon hmade hvalid
  · exact MoERegimeCatalog.fromDict_read hr hmade hvalid

end Discovered

theorem frozen_sampleEnvironment : Frozen sampleEnvironment.attributes := by
  refine ⟨by decide +kernel, Json.readableMembers_iff.mpr fun m hm => ?_, fun m hm => ?_⟩
  · obtain ⟨name, -, rfl⟩ := List.mem_map.mp hm
    dsimp only
    split <;> trivial
  · obtain ⟨name, -, rfl⟩ := List.mem_map.mp hm
    dsimp only
    split <;> rfl

theorem exists_discovered_sample : ∃ catalog, discoverExecutionRegimes paddedDigest
    plainConversions sampleOptions sampleObservations = .ok catalog := by
  obtain ⟨catalog, -, -, hrun⟩ :=
    discover_of_checked profiled_sampleObservations checkObservations_sample
  exact ⟨catalog, hrun⟩

theorem fromDict_discovered_sample : ∃ catalog,
    discoverExecutionRegimes paddedDigest plainConversions sampleOptions
      sampleObservations = .ok catalog ∧
    (∃ value, Json.loadsLast (Json.dumps (catalog.toJson paddedDigest)) = some value ∧
      MoERegimeCatalog.fromDict paddedDigest plainConversions value = .ok catalog) ∧
    ∀ r, Reading r → ∃ restored,
      MoERegimeCatalog.fromDict paddedDigest plainConversions
        (r (catalog.toJson paddedDigest)) = .ok restored ∧
      restored = catalog ∧
      restored.identifier paddedDigest = catalog.identifier paddedDigest := by
  obtain ⟨catalog, h⟩ := exists_discovered_sample
  exact ⟨catalog, h, fromDict_discovered profiled_sampleObservations.created
    frozen_sampleEnvironment h⟩

end LmResiliency.Detection.MoE
