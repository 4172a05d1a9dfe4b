/-
# MoERoundTrip — what is written of a fingerprint is read back

A document may come back with the fields of its objects in another order.  A
record is read back as it was all the same, because its roles and its extra
items are kept sorted.
-/
import LmResiliency.Detection.MoERecords

namespace LmResiliency.Detection.MoE

open LmResiliency.Outcome
open LmResiliency.Json (Reading)

variable {C : Conversions} {r : Json → Json}

/-! ## Fields -/

/-- The members of an object that was read. -/
structure ReadMembers (r : Json → Json) (ms ms' : List (String × Json)) : Prop where
  get : ∀ k, Json.get? k ms' = (Json.get? k ms).map r

theorem read_members (hr : Reading r) (ms : List (String × Json)) (hnd : (Json.keys ms).Nodup) :
    ∃ ms', members (r (.obj ms)) = .ok ms' ∧ ReadMembers r ms ms' := by
  obtain ⟨ms', hms, hget, -⟩ := hr.fields ms hnd
  exact ⟨ms', by rw [hms, members], ⟨hget⟩⟩

theorem ReadMembers.item {ms ms' : List (String × Json)} (h : ReadMembers r ms ms') {k : String}
    {v : Json} (hk : Json.get? k ms = some v) : item ms' k = .ok (r v) := by
  rw [MoE.item, h.get, hk]
  rfl

theorem ReadMembers.itemOr {ms ms' : List (String × Json)} (h : ReadMembers r ms ms')
    {k : String} {v d : Json} (hk : Json.get? k ms = some v) : itemOr ms' k d = r v := by
  rw [MoE.itemOr, h.get, hk]
  rfl

section Values

variable (hr : Reading r)
include hr

theorem iterate_read (vs : List Json) : iterate (r (.arr vs)) = .ok (vs.map r) := by
  rw [hr.arr, iterate]

theorem str_read (s : String) : C.str (r (.str s)) = s := by rw [hr.str, C.str_str]

theorem int_read (n : Int) : C.int (r (.int n)) = .ok n := by rw [hr.int, C.int_int]

theorem optionalInt_read (n : Option Int) : optionalInt C (r (optionalNumber n)) = .ok n := by
  cases n with
  | none => rw [optionalNumber, hr.null, optionalInt]
  | some n =>
      rw [optionalNumber, hr.int]
      exact congrArg (Except.map some) (C.int_int n)

theorem mapM_int_read (values : List Int) :
    ((values.map Json.int).map r).mapM C.int = .ok values := by
  rw [List.map_map, mapM_ok_iff, List.forall₂_map_left_iff, List.forall₂_same]
  exact fun n _ => int_read hr n

theorem triple_read (t : Option (Int × Int × Int)) :
    triple C (r (optionalTriple t)) = .ok t := by
  match t with
  | none =>
      rw [optionalTriple, hr.null]
      rfl
  | some (x, y, z) =>
      have hints := mapM_int_read (C := C) hr [x, y, z]
      rw [optionalTriple, numbers, hr.arr, triple, tripleOfParts, if_neg (by simp)]
      have htake : (([x, y, z].map Json.int).map r).take 3 = ([x, y, z].map Json.int).map r := rfl
      rw [htake, hints]
      rfl

theorem labels_read (values : List String) :
    ((values.map Json.str).map r).map (labelOrUnknown C) = values := by
  rw [List.map_map, List.map_map]
  refine (List.map_congr_left fun s _ => ?_).trans (List.map_id _)
  rw [Function.comp_apply, Function.comp_apply, hr.str]
  exact C.str_str s

end Values

/-! ## Kernels and semantics -/

theorem KernelLaunch.fromDict_read (hr : Reading r) (k : KernelLaunch) :
    KernelLaunch.fromDict C (r (.obj k.toMembers)) = .ok k := by
  obtain ⟨ms, hms, h⟩ := read_members hr k.toMembers (by
    change ["name", "grid", "block", "shared_memory_bytes", "registers_per_thread"].Nodup
    decide)
  simp only [KernelLaunch.fromDict, hms, h.item (k := "name") rfl, h.itemOr (k := "grid") rfl,
    h.itemOr (k := "block") rfl, h.itemOr (k := "shared_memory_bytes") rfl,
    h.itemOr (k := "registers_per_thread") rfl, str_read hr, triple_read hr,
    optionalInt_read hr, bind, Except.bind, pure, Except.pure]

/-! ### Roles -/

theorem countRoles_ok {counts : List (String × Int)} {items : List (String × Int)}
    (hnd : ((counts ++ items).map Prod.fst).Nodup) :
    countRoles C counts (items.map fun m => (.str m.1, .int m.2)) = .ok (counts ++ items) := by
  induction items generalizing counts with
  | nil => rw [List.append_nil]; rfl
  | cons m items ih =>
      have hlabel : labelOrUnknown C (.str m.1) = m.1 := C.str_str m.1
      have hnew : m.1 ∉ counts.map Prod.fst := by
        rw [List.map_append, List.map_cons, List.nodup_append] at hnd
        exact fun hmem => hnd.2.2 m.1 hmem m.1 List.mem_cons_self rfl
      rw [List.map_cons, countRoles]
      simp only [hlabel, if_neg hnew, C.int_int, bind, Except.bind]
      rw [ih (by rwa [List.append_assoc, List.singleton_append]), List.append_assoc]
      rfl

theorem frozenRoleCounts_read (hr : Reading r) {counts : List (String × Int)}
    (hsorted : (counts.map Prod.fst).Pairwise (· < ·)) :
    frozenRoleCounts C (r (roleMembers counts)) = .ok counts := by
  have hnd : (counts.map Prod.fst).Nodup := hsorted.imp fun h => ne_of_lt h
  have hkeys : Json.keys (counts.map fun c => (c.1, Json.int c.2)) =
      counts.map Prod.fst := by
    rw [Json.keys, List.map_map]
    rfl
  obtain ⟨ms, hms, hperm⟩ := hr.obj _ (hkeys ▸ hnd)
  have hvalues : (counts.map fun c => (c.1, Json.int c.2)).map
      (fun m => (m.1, r m.2)) = counts.map fun m => (m.1, Json.int m.2) := by
    rw [List.map_map]
    exact List.map_congr_left fun m _ => Prod.ext rfl (hr.int m.2)
  rw [hvalues] at hperm
  -- the members are the counts in some order
  obtain ⟨items, rfl, hitems⟩ : ∃ items : List (String × Int),
      ms = items.map (fun m => (m.1, Json.int m.2)) ∧ items.Perm counts :=
    (congrFun (congrFun (List.eq_map_comp_perm _) ms) counts).mpr hperm
  have hroles : roleItems (r (roleMembers counts)) =
      .ok (items.map fun m => (.str m.1, .int m.2)) := by
    rw [roleMembers, hms, roleItems, List.map_map]
    rfl
  have hitemsNodup : (([] ++ items).map Prod.fst).Nodup := (hitems.map Prod.fst).nodup_iff.mpr hnd
  rw [frozenRoleCounts, hroles]
  change (countRoles C [] (items.map _) >>= fun counts => pure (Dict.sortedItems counts)) = _
  rw [countRoles_ok hitemsNodup]
  exact congrArg Except.ok (Dict.sortedItems_eq hitems hsorted)

/-- The roles of the semantics are sorted. -/
def CTASemantics.Sorted (s : CTASemantics) : Prop :=
  (s.roleCounts.map Prod.fst).Pairwise (· < ·) ∧
    (s.qualificationRoleCounts.map Prod.fst).Pairwise (· < ·)

theorem CTASemantics.fromDict_read (hr : Reading r) {s : CTASemantics} (hs : s.Sorted) :
    CTASemantics.fromDict C (r (.obj s.toMembers)) = .ok s := by
  obtain ⟨ms, hms, h⟩ := read_members hr s.toMembers (by
    change ["mapping_class", "role_counts", "qualification_role_counts", "derivation_source",
      "derivation_digest", "qualification_source", "qualification_digest"].Nodup
    decide)
  simp only [fromDict, hms, h.itemOr (k := "mapping_class") rfl,
    h.itemOr (k := "role_counts") rfl, h.itemOr (k := "qualification_role_counts") rfl,
    h.itemOr (k := "derivation_source") rfl, h.itemOr (k := "derivation_digest") rfl,
    h.itemOr (k := "qualification_source") rfl, h.itemOr (k := "qualification_digest") rfl,
    str_read hr, CTASemantics.create, frozenRoleCounts_read hr hs.1,
    frozenRoleCounts_read hr hs.2, bind, Except.bind, pure, Except.pure]

/-! ## Frozen mappings -/

/-- What the members of a frozen mapping are. -/
structure Frozen (items : List (String × Json)) : Prop where
  sorted : (items.map Prod.fst).Pairwise (· < ·)
  readable : Json.ReadableMembers items
  canonical : ∀ m ∈ items, Json.canon m.2 = m.2

theorem frozen_frozenMapping {values : List (String × Json)} (h : Json.Readable (.obj values)) :
    Frozen (frozenMapping values) := by
  have hnd : (Json.keys (Json.canonMembers values)).Nodup := by
    rw [Json.keys_canonMembers]
    exact h.1
  have hperm := Json.perm_sortMembers (Json.canonMembers values)
  have hmem : ∀ m ∈ frozenMapping values, ∃ v, Json.Readable v ∧ m.2 = Json.canon v := by
    intro m hm
    have hm := hperm.mem_iff.mp hm
    rw [Json.canonMembers_eq_map] at hm
    obtain ⟨n, hn, rfl⟩ := List.mem_map.mp hm
    exact ⟨n.2, Json.readableMembers_iff.mp h.2 n hn, rfl⟩
  refine ⟨?_, Json.readableMembers_iff.mpr fun m hm => ?_, fun m hm => ?_⟩
  · have hle := List.pairwise_map.mpr (Dict.pairwise_sortedItems (Json.canonMembers values))
    have hne : ((frozenMapping values).map Prod.fst).Nodup := (hperm.map Prod.fst).nodup_iff.mpr hnd
    exact (List.Pairwise.and hle hne).imp fun h => lt_of_le_of_ne h.1 h.2
  · obtain ⟨v, hv, heq⟩ := hmem m hm
    exact heq ▸ Json.readable_canon hv
  · obtain ⟨v, hv, heq⟩ := hmem m hm
    rw [heq, Json.canon_canon hv.distinct]

theorem Frozen.keys_nodup {items : List (String × Json)} (h : Frozen items) :
    (Json.keys items).Nodup := h.sorted.imp fun h => ne_of_lt h

/-- A frozen mapping is frozen from any order of its members. -/
theorem frozenValue_read (hr : Reading r) {items : List (String × Json)} (h : Frozen items) :
    frozenValue (r (.obj items)) = .ok items := by
  obtain ⟨ms, hms, hperm⟩ := hr.obj items h.keys_nodup
  have hcanon : (Json.canonMembers ms).Perm items := by
    have hread := Json.canonMembers_reading hr (Json.distinctMembers_of_readable h.readable)
    have hsame : Json.canonMembers items = items := by
      rw [Json.canonMembers_eq_map]
      exact (List.map_congr_left (f := fun m => (m.1, Json.canon m.2)) (g := id)
        fun m hm => Prod.ext rfl (h.canonical m hm)).trans (List.map_id _)
    rw [hsame] at hread
    rw [Json.canonMembers_eq_map, ← hread]
    exact hperm.map _
  rw [hms]
  exact congrArg Except.ok (Dict.sortedItems_eq hcanon h.sorted)

/-! ## Fingerprints -/

theorem mapM_fromDict_read {γ : Type} {toJson : γ → Json} {fromDict : Json → Except Error γ}
    {xs : List γ} (h : ∀ x ∈ xs, fromDict (r (toJson x)) = .ok x) :
    ((xs.map toJson).map r).mapM fromDict = .ok xs := by
  rw [List.map_map, mapM_ok_iff, List.forall₂_map_left_iff, List.forall₂_same]
  exact h

/-- A fingerprint is read back as it was written. -/
theorem ExecutionFingerprint.fromDict_read (hr : Reading r) {f : ExecutionFingerprint}
    (hf : f.Created) : ExecutionFingerprint.fromDict C (r f.toJson) = .ok f := by
  obtain ⟨ms, hms, h⟩ := read_members hr f.toMembers (by
    change ["kernels", "algorithm_ids", "tile_shapes", "tail_path", "workspace_bytes",
      "pressure_class", "overlap_class", "persistent_work_items", "cta_semantics",
      "extra"].Nodup
    decide)
  obtain ⟨values, hvalues, hextra⟩ := hf.extra
  have hfrozen : Frozen f.extra := hextra ▸ frozen_frozenMapping hvalues
  have hkernels : ((f.kernels.map fun k => Json.obj k.toMembers).map r).mapM
      (KernelLaunch.fromDict C) = .ok f.kernels :=
    mapM_fromDict_read fun k _ => KernelLaunch.fromDict_read hr k
  have hsemantics : ((f.ctaSemantics.map fun s => Json.obj s.toMembers).map r).mapM
      (CTASemantics.fromDict C) = .ok f.ctaSemantics :=
    mapM_fromDict_read fun s hs => CTASemantics.fromDict_read hr (hf.roles s hs)
  have hms' : members (r f.toJson) = .ok ms := hms
  simp only [fromDict, hms', h.item (k := "kernels") rfl, h.itemOr (k := "algorithm_ids") rfl,
    h.itemOr (k := "tile_shapes") rfl, h.itemOr (k := "tail_path") rfl,
    h.itemOr (k := "workspace_bytes") rfl, h.itemOr (k := "pressure_class") rfl,
    h.itemOr (k := "overlap_class") rfl, h.itemOr (k := "persistent_work_items") rfl,
    h.itemOr (k := "cta_semantics") rfl, h.itemOr (k := "extra") rfl, texts, numbers,
    iterate_read hr, str_read hr, hkernels, hsemantics, create, if_neg hf.kernels,
    labels_read hr, optionalInt_read hr, mapM_int_read hr, frozenValue_read hr hfrozen, bind,
    Except.bind, pure, Except.pure]

/-- **The document determines the fingerprint.** -/
theorem ExecutionFingerprint.eq_of_canon_eq {f g : ExecutionFingerprint} (hf : f.Created)
    (hg : g.Created) (h : Json.canon f.toJson = Json.canon g.toJson) : f = g := by
  have hread := ExecutionFingerprint.fromDict_read (C := plainConversions) Json.reading_canon hf
  rw [h, ExecutionFingerprint.fromDict_read Json.reading_canon hg] at hread
  exact (Except.ok.inj hread).symm

/-! ## Requests -/

theorem ProfileLocation.fromDict_read (hr : Reading r) (l : ProfileLocation) :
    ProfileLocation.fromDict C (r l.toJson) = .ok l := by
  obtain ⟨ms, hms, h⟩ := read_members hr [("layer_id", .str l.layerId),
    ("expert_id", .int l.expertId), ("ep_position", .int l.epPosition),
    ("execution_class", .str l.executionClass)] (by
    change ["layer_id", "expert_id", "ep_position", "execution_class"].Nodup
    decide)
  have hms' : members (r l.toJson) = .ok ms := hms
  simp only [fromDict, hms', h.item (k := "layer_id") rfl, h.item (k := "expert_id") rfl,
    h.item (k := "ep_position") rfl, h.itemOr (k := "execution_class") rfl, str_read hr,
    int_read hr, bind, Except.bind, pure, Except.pure]

theorem ProfileRequest.fromDict_read (hr : Reading r) (q : ProfileRequest) :
    ProfileRequest.fromDict C (r q.toJson) = .ok q := by
  obtain ⟨ms, hms, h⟩ := read_members hr [("n_exec", .int q.nExec),
    ("location", q.location.toJson)] (by
    change ["n_exec", "location"].Nodup
    decide)
  have hms' : members (r q.toJson) = .ok ms := hms
  simp only [fromDict, hms', h.item (k := "n_exec") rfl, h.item (k := "location") rfl,
    int_read hr, ProfileLocation.fromDict_read hr, make, dif_pos q.nonneg, bind, Except.bind]

end LmResiliency.Detection.MoE
