/-
# ManifestRoundTrip — what is written of a campaign is read back

`from_dict` of the text of `to_dict`.  The fields of an object may come back in another
order; every record is made again from them, and its checks hold again, because they read
the same values.  Only a mapping may change: where a key is a string whose `str` is
another text, `thaw_json` has renamed it.

The main result is `roundTrips_iff`, and `unrenamed_iff_exact` says its condition
of the keys alone.
-/
import Mathlib.Data.Fintype.Basic
import LmResiliency.FaultInjection.Manifest

namespace LmResiliency.FaultInjection.Manifest

open LmResiliency.Outcome
open LmResiliency.Json (Reading)

variable {r : Json → Json}

/-! ## Fields -/

/-- The members of an object that was read. -/
structure ReadOf (r : Json → Json) (ms ms' : List (String × Json)) : Prop where
  get : ∀ k, Json.get? k ms' = (Json.get? k ms).map r
  keys : ∀ k, k ∈ Json.keys ms' ↔ k ∈ Json.keys ms

theorem mapping_read (hr : Reading r) (ms : List (String × Json)) (hnd : (Json.keys ms).Nodup)
    (label : String) : ∃ ms', mapping label (r (.obj ms)) = .ok ms' ∧ ReadOf r ms ms' := by
  obtain ⟨ms', hms, hget, hkeys⟩ := hr.fields ms hnd
  exact ⟨ms', by rw [hms, mapping], ⟨hget, hkeys⟩⟩

namespace ReadOf

variable {ms ms' : List (String × Json)} (h : ReadOf r ms ms') {k : String} {v d : Json}
include h

theorem item (hk : Json.get? k ms = some v) : item ms' k = .ok (r v) := by
  rw [Manifest.item, h.get, hk]
  rfl

theorem itemOr (hk : Json.get? k ms = some v) : itemOr ms' k d = r v := by
  rw [Manifest.itemOr, h.get, hk]
  rfl

theorem itemOr_none (hk : Json.get? k ms = none) : Manifest.itemOr ms' k d = d := by
  rw [Manifest.itemOr, h.get, hk]
  rfl

theorem reject (allowed : List String) (hallowed : ∀ k ∈ Json.keys ms, k ∈ allowed)
    (label : String) : rejectUnknownKeys ms' allowed label = .ok () := by
  have hnone : unknownKeys ms' allowed = [] := by
    have hfilter : ((Json.keys ms').filter fun key => key ∉ allowed) = [] := by
      rw [List.filter_eq_nil_iff]
      intro key hkey
      simpa using hallowed key ((h.keys key).mp hkey)
    rw [unknownKeys, hfilter]
    rfl
  exact if_pos hnone

theorem rejectAlias {other : String} (hother : other ∉ Json.keys ms) (canonical label : String) :
    rejectAliasPair ms' canonical other label = .ok () :=
  if_neg fun hboth => hother ((h.keys other).mp hboth.2)

end ReadOf

theorem require_ok {p : Prop} [Decidable p] (h : p) (e : ConfigError) :
    require p e = .ok ⟨h⟩ := dif_pos h

section Values

variable (hr : Reading r)
include hr

theorem iterate_read (vs : List Json) : iterate (r (.arr vs)) = .ok (vs.map r) := by
  rw [hr.arr, iterate]

theorem strictInt_read (label : String) (n : Int) : strictInt label (r (.int n)) = .ok n := by
  rw [hr.int, strictInt]

theorem optionalInt_read (label : String) (n : Option Int) :
    optionalInt label (r (optionalNumber n)) = .ok n := by
  cases n with
  | none => rw [optionalNumber, hr.null]; rfl
  | some n => rw [optionalNumber, hr.int]; rfl

theorem string_read (label : String) {s : String} (hs : Text.nonBlank s = true) :
    requiredNonEmptyString label (r (.str s)) = .ok ⟨s, hs⟩ := by
  rw [hr.str, requiredNonEmptyString, dif_pos hs]

theorem optionalName_read (label : String) {name : Option String} (hname : Named name) :
    optionalName label (r (optionalText name)) = .ok ⟨name, hname⟩ := by
  cases name with
  | none => rw [optionalText, hr.null]; rfl
  | some s =>
      have hs : Text.nonBlank s = true := hname s rfl
      rw [optionalText, hr.str, optionalName]
      · rw [requiredNonEmptyString, dif_pos hs]
        rfl
      · exact fun h => nomatch h

theorem enum_read {α : Type} {all : List α} {value : α → String} {x : α} (name : String)
    (hx : (all.find? fun y => value y = value x) = some x) :
    enumMember all value name (r (.str (value x))) = .ok x := by
  rw [hr.str, enumMember, hx]

theorem mapM_int_read (label : String) (values : List Int) :
    ((values.map Json.int).map r).mapM (strictInt label) = .ok values := by
  rw [List.map_map, mapM_ok_iff, List.forall₂_map_left_iff, List.forall₂_same]
  exact fun n _ => strictInt_read hr label n

end Values

/-! ## Enumerations -/

theorem FailureType.find (x : FailureType) :
    (FailureType.all.find? fun y => y.value = x.value) = some x := by cases x <;> rfl

theorem FaultSurface.find (x : FaultSurface) :
    (FaultSurface.all.find? fun y => y.value = x.value) = some x := by cases x <;> rfl

theorem RetriggerPolicy.find (x : RetriggerPolicy) :
    (RetriggerPolicy.all.find? fun y => y.value = x.value) = some x := by cases x <;> rfl

theorem Until.find (x : Until) : (Until.all.find? fun y => y.value = x.value) = some x := by
  cases x <;> rfl

theorem SystemFailureType.find (x : SystemFailureType) :
    (SystemFailureType.all.find? fun y => y.value = x.value) = some x := by cases x <;> rfl

theorem ClockType.find (x : ClockType) :
    (ClockType.all.find? fun y => y.value = x.value) = some x := by cases x; rfl

theorem ClockOrigin.find (x : ClockOrigin) :
    (ClockOrigin.all.find? fun y => y.value = x.value) = some x := by cases x <;> rfl

/-! ## Clock, triggers and lifetimes -/

theorem ClockSpec.fromDict_read (hr : Reading r) (clock : ClockSpec) :
    ClockSpec.fromDict (r (.obj clock.toMembers)) = .ok clock := by
  obtain ⟨ms, hms, h⟩ := mapping_read hr clock.toMembers (by
    change ["type", "origin"].Nodup
    decide) "clock"
  have hreject := h.reject ["type", "origin"] (fun _ hk => hk) "clock"
  rw [ClockSpec.fromDict, hms]
  simp only [hreject, h.itemOr (k := "type") rfl, h.itemOr (k := "origin") rfl,
    enum_read hr _ (ClockType.find _), enum_read hr _ (ClockOrigin.find _), bind, Except.bind,
    pure, Except.pure]

theorem IterationRange.make_self (range : IterationRange) :
    IterationRange.make range.start range.endAt range.every = .ok range := by
  rw [IterationRange.make, require_ok range.start_pos, require_ok range.start_le,
    require_ok range.every_pos]
  rfl

theorem IterationRange.fromDict_read (hr : Reading r) (range : IterationRange) :
    IterationRange.fromDict (r (.obj (IterationRange.toMembers range))) = .ok range := by
  obtain ⟨ms, hms, h⟩ := mapping_read hr (IterationRange.toMembers range) (by
    change ["start", "end", "every"].Nodup
    decide) "trigger range"
  have hreject := h.reject ["start", "end", "every"] (fun _ hk => hk)
    "trigger range"
  rw [IterationRange.fromDict, hms]
  simp only [hreject, h.item (k := "start") rfl, h.item (k := "end") rfl,
    h.itemOr (k := "every") rfl, strictInt_read hr, IterationRange.make_self, bind, Except.bind]

namespace IncidentTrigger

variable (trigger : IncidentTrigger)

theorem literalValue_self :
    literalValue trigger.literal = .ok ⟨trigger.probability, trigger.literal_value⟩ := by
  have hsome : (Double.ofText trigger.literal).isSome = true := by
    rw [trigger.literal_value]
    rfl
  rw [literalValue, dif_pos hsome]
  exact congrArg Except.ok (Subtype.ext (Option.get_of_eq_some hsome trigger.literal_value))

theorem make_self : make trigger.exactAt trigger.range (.float trigger.literal) = .ok trigger := by
  have hnodup : trigger.exactAt.Nodup := trigger.at_sorted.imp fun h => ne_of_lt h
  have hsorted : trigger.exactAt.Pairwise (· ≤ ·) := trigger.at_sorted.imp fun h => le_of_lt h
  rw [make, require_ok (trigger.one_of.trans Option.isSome_iff_ne_none.symm),
    require_ok trigger.at_pos, require_ok hnodup, require_ok hsorted]
  simp only [probabilityLiteral, literalValue_self, bind, Except.bind,
    require_ok (And.intro trigger.probability_nonneg trigger.probability_le)]
  rfl

theorem fromDict_read (hr : Reading r) :
    fromDict (r (.obj trigger.toMembers)) = .ok trigger := by
  have hself := trigger.make_self
  cases hrange : trigger.range with
  | some range =>
      have hat : trigger.exactAt = [] :=
        trigger.one_of.mpr (by rw [hrange]; exact Option.some_ne_none _)
      have hmembers : trigger.toMembers = [("probability", .float trigger.literal),
          ("range", .obj (IterationRange.toMembers range))] := by rw [toMembers, hrange]
      obtain ⟨ms, hms, h⟩ := mapping_read hr trigger.toMembers (by
        rw [hmembers]
        change ["probability", "range"].Nodup
        decide) "incident trigger"
      rw [hmembers] at h
      have hreject := h.reject ["at", "range", "probability"] (by
        change ∀ k ∈ ["probability", "range"], k ∈ ["at", "range", "probability"]
        decide) "incident trigger"
      obtain ⟨ms', hms', -⟩ := hr.fields (IterationRange.toMembers range) (by
        change ["start", "end", "every"].Nodup
        decide)
      have hread : readRange (r (.obj (IterationRange.toMembers range))) = .ok (some range) := by
        have hrange := IterationRange.fromDict_read hr range
        rw [hms'] at hrange ⊢
        rw [readRange, hrange]
        · rfl
        · exact fun h => nomatch h
      rw [hat, hrange] at hself
      rw [fromDict, hms]
      simp only [hreject, h.itemOr_none (k := "at") rfl, h.itemOr (k := "range") rfl,
        h.itemOr (k := "probability") rfl, iterate, hread, List.mapM_nil, hr.float, bind,
        Except.bind, pure, Except.pure]
      exact hself
  | none =>
      have hmembers : trigger.toMembers = [("probability", .float trigger.literal),
          ("at", .arr (trigger.exactAt.map .int))] := by rw [toMembers, hrange]
      obtain ⟨ms, hms, h⟩ := mapping_read hr trigger.toMembers (by
        rw [hmembers]
        change ["probability", "at"].Nodup
        decide) "incident trigger"
      rw [hmembers] at h
      have hreject := h.reject ["at", "range", "probability"] (by
        change ∀ k ∈ ["probability", "at"], k ∈ ["at", "range", "probability"]
        decide) "incident trigger"
      rw [hrange] at hself
      rw [fromDict, hms]
      simp only [hreject, h.itemOr (k := "at") rfl, h.itemOr_none (k := "range") rfl,
        h.itemOr (k := "probability") rfl, iterate_read hr, readRange, mapM_int_read hr,
        hr.float, bind, Except.bind]
      exact hself

end IncidentTrigger

theorem IncidentLifetime.fromDict_read (hr : Reading r) (lifetime : IncidentLifetime) :
    IncidentLifetime.fromDict (r (.obj (IncidentLifetime.toMembers lifetime))) =
      .ok lifetime := by
  obtain ⟨ms, hms, h⟩ := mapping_read hr (IncidentLifetime.toMembers lifetime) (by
    cases lifetime <;> exact List.nodup_singleton _) "incident lifetime"
  have hreject := h.reject ["matching_calls", "iterations", "until"] (by
    cases lifetime with
    | matchingCalls calls pos =>
        change ∀ k ∈ ["matching_calls"], k ∈ ["matching_calls", "iterations", "until"]
        decide
    | iterations count pos =>
        change ∀ k ∈ ["iterations"], k ∈ ["matching_calls", "iterations", "until"]
        decide
    | permanent ends =>
        change ∀ k ∈ ["until"], k ∈ ["matching_calls", "iterations", "until"]
        decide) "incident lifetime"
  rw [IncidentLifetime.fromDict, hms]
  cases lifetime with
  | matchingCalls calls pos =>
      simp only [hreject, h.itemOr (k := "matching_calls") rfl,
        h.itemOr_none (k := "iterations") rfl, h.itemOr_none (k := "until") rfl, hr.int,
        optionalInt, strictInt, Except.map, IncidentLifetime.make, require_ok pos, bind,
        Except.bind, pure, Except.pure]
  | iterations count pos =>
      simp only [hreject, h.itemOr_none (k := "matching_calls") rfl,
        h.itemOr (k := "iterations") rfl, h.itemOr_none (k := "until") rfl, hr.int,
        optionalInt, strictInt, Except.map, IncidentLifetime.make, require_ok pos, bind,
        Except.bind, pure, Except.pure]
  | permanent ends =>
      simp only [hreject, h.itemOr_none (k := "matching_calls") rfl,
        h.itemOr_none (k := "iterations") rfl, h.itemOr (k := "until") rfl, hr.str,
        optionalInt, IncidentLifetime.make, Until.find, bind, Except.bind]

theorem map_of_forall₂ {α β γ : Type} {R : α → β → Prop} {f : α → γ} {g : β → γ}
    (hR : ∀ x y, R x y → g y = f x) {xs : List α} {ys : List β} (h : List.Forall₂ R xs ys) :
    ys.map g = xs.map f := by
  induction h with
  | nil => rfl
  | cons hxy _ ih => rw [List.map_cons, List.map_cons, hR _ _ hxy, ih]

/-! ## Targets -/

/-- A field that is written, or whose value is the default. -/
theorem ReadOf.itemOr_written (hr : Reading r) {fields ms : List (String × Json)}
    (hnd : (Json.keys fields).Nodup)
    (h : ReadOf r (fields.filter fun m => FaultTarget.written m.2) ms) {k : String} {v d : Json}
    (hk : Json.get? k fields = some v)
    (hwritten : FaultTarget.written v = true ∨ v = d ∧ (d = .null ∨ d = .obj [])) :
    Manifest.itemOr ms k d = r v := by
  have hnd' : (Json.keys (fields.filter fun m => FaultTarget.written m.2)).Nodup :=
    (List.filter_sublist.map Prod.fst).nodup hnd
  have hmem := (Json.get?_eq_some_iff hnd).mp hk
  rcases hwritten with hwritten | ⟨rfl, hdefault⟩
  · exact h.itemOr ((Json.get?_eq_some_iff hnd').mpr (List.mem_filter.mpr ⟨hmem, hwritten⟩))
  · have hnone : Json.get? k (fields.filter fun m => FaultTarget.written m.2) = none := by
      rw [Option.eq_none_iff_forall_ne_some]
      intro w hw
      obtain ⟨hw, hwritten⟩ := List.mem_filter.mp ((Json.get?_eq_some_iff hnd').mp hw)
      obtain rfl := Option.some.inj (hk.symm.trans ((Json.get?_eq_some_iff hnd).mpr hw))
      rcases hdefault with rfl | rfl
      · cases hwritten
      · cases hwritten
    rw [h.itemOr_none hnone]
    rcases hdefault with rfl | rfl
    · exact hr.null.symm
    · obtain ⟨ms', hms, hperm⟩ := hr.obj [] List.nodup_nil
      rw [hms, List.perm_nil.mp hperm]

/-- What a mapping is read back as. -/
structure ReadAs (r : Json → Json) (m n : FrozenMapping) : Prop where
  thaw : n.thaw = r m.thaw
  members : .obj n.members = r m.thaw

theorem mapping_readAs (hr : Reading r) (m : FrozenMapping) (label : String) :
    ∃ n, freezeJsonMapping (r m.thaw) label = .ok n ∧ ReadAs r m n := by
  obtain ⟨n, hn, hthaw, hmembers⟩ := freezeJsonMapping_read hr m label
  exact ⟨n, hn, hthaw, hmembers⟩

namespace FaultTarget

variable (target : FaultTarget)

theorem make_read (hr : Reading r) {metadata : Json} {n : FrozenMapping}
    (hn : freezeJsonMapping metadata "fault target metadata" = .ok n) :
    make target.surface (r (optionalNumber target.rank)) (r (.int target.modelPart))
        (r (optionalText target.component)) (r (optionalNumber target.index))
        (r (optionalText target.modulePath)) (r (optionalText target.operation))
        (r (optionalText target.resource)) (r (optionalText target.path)) metadata =
      .ok { target with metadata := n } := by
  simp only [make, optionalInt_read hr, strictInt_read hr,
    optionalName_read hr _ target.component_named, optionalName_read hr _ target.modulePath_named,
    optionalName_read hr _ target.operation_named, optionalName_read hr _ target.path_named,
    optionalName_read hr _ target.resource_named, hn, bind, Except.bind]
  rw [require_ok (p := ∀ n ∈ target.rank, 0 ≤ n) target.rank_nonneg]
  dsimp only
  rw [require_ok target.modelPart_nonneg]
  dsimp only
  rw [require_ok target.index_nonneg]
  dsimp only
  rw [require_ok target.index_component]
  dsimp only
  rw [require_ok target.located]
  rfl

theorem keys_fields : Json.keys target.fields = keys := rfl

theorem nodup_fields : (Json.keys target.fields).Nodup := by
  rw [keys_fields]
  decide

theorem number_written (n : Option Int) :
    written (optionalNumber n) = true ∨
      optionalNumber n = .null ∧ (Json.null = .null ∨ Json.null = .obj []) := by
  cases n with
  | none => exact Or.inr ⟨rfl, Or.inl rfl⟩
  | some n => exact Or.inl rfl

theorem text_written (s : Option String) :
    written (optionalText s) = true ∨
      optionalText s = .null ∧ (Json.null = .null ∨ Json.null = .obj []) := by
  cases s with
  | none => exact Or.inr ⟨rfl, Or.inl rfl⟩
  | some s => exact Or.inl rfl

theorem thaw_written (m : FrozenMapping) :
    written m.thaw = true ∨
      m.thaw = .obj [] ∧ (Json.obj [] = .null ∨ Json.obj [] = .obj []) := by
  rw [FrozenMapping.thaw, Frozen.thawJson]
  cases Dict.ofItems (Frozen.thawMembers m.items) with
  | nil => exact Or.inr ⟨rfl, Or.inr rfl⟩
  | cons m ms => exact Or.inl rfl

/-- A target is read back, with its metadata as it is read back. -/
theorem fromDict_read (hr : Reading r) :
    ∃ n, ReadAs r target.metadata n ∧
      fromDict (r (.obj target.toMembers)) = .ok { target with metadata := n } := by
  have hnd := target.nodup_fields
  have hsub : target.toMembers.Sublist target.fields := List.filter_sublist
  obtain ⟨ms, hms, h⟩ := mapping_read hr target.toMembers ((hsub.map Prod.fst).nodup hnd)
    "fault target"
  have hreject := h.reject keys (fun k hk => (hsub.map Prod.fst).subset hk)
    "fault target"
  have hsurface : item ms "surface" = .ok (r (.str target.surface.value)) := by
    refine h.item ((Json.get?_eq_some_iff ((hsub.map Prod.fst).nodup hnd)).mpr ?_)
    exact List.mem_filter.mpr ⟨List.mem_cons_self, rfl⟩
  obtain ⟨n, hn, hread⟩ := mapping_readAs hr target.metadata "fault target metadata"
  refine ⟨n, hread, ?_⟩
  rw [fromDict, hms]
  simp only [hreject, hsurface, enum_read hr _ (FaultSurface.find _),
    h.itemOr_written hr hnd (k := "rank") rfl (number_written _),
    h.itemOr_written hr hnd (k := "model_part") rfl (Or.inl rfl),
    h.itemOr_written hr hnd (k := "component") rfl (text_written _),
    h.itemOr_written hr hnd (k := "index") rfl (number_written _),
    h.itemOr_written hr hnd (k := "module_path") rfl (text_written _),
    h.itemOr_written hr hnd (k := "operation") rfl (text_written _),
    h.itemOr_written hr hnd (k := "resource") rfl (text_written _),
    h.itemOr_written hr hnd (k := "path") rfl (text_written _),
    h.itemOr_written hr hnd (k := "metadata") rfl (thaw_written _), bind, Except.bind]
  exact target.make_read hr hn

end FaultTarget

/-! ## Parameters

The checks read single parameters, and of an array or an object only that it is one. -/

/-- A value with what is inside an array or an object left out. -/
def shallow : Json → Json
  | .arr _ => .arr []
  | .obj _ => .obj []
  | v => v

theorem shallow_canon (v : Json) : shallow (Json.canon v) = shallow v := by cases v <;> rfl

/-- Members that the checks cannot tell apart. -/
structure Alike (ps ps' : List (String × Json)) : Prop where
  get : ∀ k, (Json.get? k ps').map shallow = (Json.get? k ps).map shallow
  keys : (Json.keys ps').Perm (Json.keys ps)

theorem alike_of_canon {ps ps' : List (String × Json)} (hnd : (Json.keys ps).Nodup)
    (hnd' : (Json.keys ps').Nodup) (h : Json.canon (.obj ps') = Json.canon (.obj ps)) :
    Alike ps ps' := by
  obtain ⟨ms, hms, hget, hkeys⟩ := Json.canon_obj hnd
  obtain ⟨ms', hms', hget', hkeys'⟩ := Json.canon_obj hnd'
  obtain rfl : ms' = ms := Json.obj.inj ((hms'.symm.trans h).trans hms)
  have hcanon : ∀ v : Option Json, (v.map Json.canon).map shallow = v.map shallow := by
    intro v
    rw [Option.map_map]
    exact congrArg (Option.map · v) (funext shallow_canon)
  refine ⟨fun k => ?_, (List.perm_ext_iff_of_nodup hnd' hnd).mpr fun k => ?_⟩
  · rw [← hcanon, ← hget' k, hget k, hcanon]
  · exact (hkeys' k).symm.trans (hkeys k)

namespace Alike

variable {ps ps' : List (String × Json)} (h : Alike ps ps')
include h

/-- Both have a member of one name, alike on the outside, or neither has. -/
theorem given (k : String) : Json.get? k ps' = none ∧ Json.get? k ps = none ∨
    ∃ v' v, Json.get? k ps' = some v' ∧ Json.get? k ps = some v ∧ shallow v' = shallow v := by
  have hget := h.get k
  cases hv : Json.get? k ps with
  | none =>
      rw [hv, Option.map_none, Option.map_eq_none_iff] at hget
      exact .inl ⟨hget, rfl⟩
  | some v =>
      rw [hv, Option.map_some, Option.map_eq_some_iff] at hget
      obtain ⟨v', hv', hsame⟩ := hget
      exact .inr ⟨v', v, hv', rfl, hsame⟩

theorem ifGiven {check : Json → Except ConfigError Unit}
    (hcheck : ∀ v, check (shallow v) = check v) (k : String) :
    Manifest.ifGiven ps' k check = Manifest.ifGiven ps k check := by
  rw [Manifest.ifGiven, Manifest.ifGiven]
  obtain ⟨hnone', hnone⟩ | ⟨v', v, hv', hv, hsame⟩ := h.given k
  · rw [hnone', hnone]
  · rw [hv', hv]
    exact (hcheck v').symm.trans ((congrArg check hsame).trans (hcheck v))

theorem textParameter (k : String) :
    Manifest.textParameter ps' k = Manifest.textParameter ps k := by
  rw [Manifest.textParameter, Manifest.textParameter]
  obtain ⟨hnone', hnone⟩ | ⟨v', v, hv', hv, hsame⟩ := h.given k
  · rw [hnone', hnone]
  · rw [hv', hv]
    cases v' <;> cases v <;> cases hsame <;> rfl

theorem requiredParameter {check : Json → Except ConfigError Unit}
    (hcheck : ∀ v, check (shallow v) = check v) (k message : String) :
    Manifest.requiredParameter ps' k message check =
      Manifest.requiredParameter ps k message check := by
  rw [Manifest.requiredParameter, Manifest.requiredParameter]
  obtain ⟨hnone', hnone⟩ | ⟨v', v, hv', hv, hsame⟩ := h.given k
  · rw [hnone', hnone]
  · rw [hv', hv]
    have hboth : check v' = check v :=
      (hcheck v').symm.trans ((congrArg check hsame).trans (hcheck v))
    cases v' <;> cases v <;> first | rfl | exact hboth | cases hsame

theorem unknownKeys (allowed : List String) :
    Manifest.unknownKeys ps' allowed = Manifest.unknownKeys ps allowed :=
  List.Perm.eq_of_pairwise (fun _ _ _ _ hab hba => le_antisymm hab hba)
    (List.pairwise_insertionSort _ _) (List.pairwise_insertionSort _ _)
    (((List.perm_insertionSort _ _).trans (h.keys.filter _)).trans
      (List.perm_insertionSort _ _).symm)

theorem mem_keys (k : String) : k ∈ Json.keys ps' ↔ k ∈ Json.keys ps := h.keys.mem_iff

end Alike

theorem requiredNonEmptyString_shallow (label : String) (v : Json) :
    requiredNonEmptyString label (shallow v) = requiredNonEmptyString label v := by
  cases v <;> rfl

theorem enumMember_shallow {α : Type} (all : List α) (value : α → String) (name : String)
    (v : Json) : enumMember all value name (shallow v) = enumMember all value name v := by
  cases v <;> rfl

theorem finiteNumber_shallow (label : String) (v : Json) :
    finiteNumber label (shallow v) = finiteNumber label v := by cases v <;> rfl

theorem corruptionValue_shallow (v : Json) : corruptionValue (shallow v) = corruptionValue v := by
  cases v <;> rfl

theorem checkDelay_shallow (v : Json) : checkDelay (shallow v) = checkDelay v := by
  cases v <;> rfl

/-- The checks of the parameters have one outcome for members that are alike. -/
theorem validateParameters_alike {ps ps' : List (String × Json)} (h : Alike ps ps')
    (type : FailureType) (surface : FaultSurface) :
    validateParameters ps' type surface = validateParameters ps type surface := by
  have hselector : ∀ label v, checkSelector label (shallow v) = checkSelector label v := by
    intro label v
    rw [checkSelector, checkSelector, requiredNonEmptyString_shallow]
  have hscope : ∀ v, checkScope (shallow v) = checkScope v := by
    intro v
    rw [checkScope, checkScope, enumMember_shallow]
  have hoperation : ∀ v, checkOperation (shallow v) = checkOperation v := by
    intro v
    rw [checkOperation, checkOperation, enumMember_shallow]
  have hmagnitude : ∀ v, checkMagnitude (shallow v) = checkMagnitude v := by
    intro v
    rw [checkMagnitude, checkMagnitude, enumMember_shallow]
  have hfactor : ∀ operation v, checkFactor operation (shallow v) = checkFactor operation v := by
    intro operation v
    rw [checkFactor, checkFactor, finiteNumber_shallow]
  have hstd : ∀ v, checkStd (shallow v) = checkStd v := by
    intro v
    rw [checkStd, checkStd, finiteNumber_shallow]
  simp only [validateParameters, validateBuiltinLocalParameters, validateCorruption,
    h.textParameter, h.unknownKeys, h.ifGiven (hselector _), h.ifGiven hscope,
    h.requiredParameter hoperation, h.ifGiven hmagnitude, h.ifGiven (hfactor _),
    h.ifGiven hstd, h.ifGiven corruptionValue_shallow, h.requiredParameter checkDelay_shallow,
    h.mem_keys]

/-- The parameters that come back are alike, when no key was renamed. -/
theorem alike_of_readAs (hr : Reading r) {m n : FrozenMapping} (h : ReadAs r m n)
    (hm : m.Unrenamed) : Alike m.members n.members :=
  alike_of_canon m.strict.1 n.strict.1 ((same_read_iff hr h.members).mpr hm)

/-! ## Faults -/

namespace FaultSpec

theorem checkParameters_ok {parameters : FrozenMapping} {type : FailureType}
    {surface : FaultSurface}
    (h : validateParameters parameters.members type surface = .ok ()) :
    checkParameters parameters type surface = .ok ⟨h⟩ := by
  unfold checkParameters
  revert h
  generalize validateParameters parameters.members type surface = outcome
  rintro rfl
  rfl

variable (fault : FaultSpec)

/-- What a fault is read back as. -/
structure ReadAs (r : Json → Json) (fault f : FaultSpec) : Prop where
  faultId : f.faultId = fault.faultId
  type : f.type = fault.type
  target : f.target = { fault.target with metadata := f.target.metadata }
  metadata : Manifest.ReadAs r fault.target.metadata f.target.metadata
  parameters : Manifest.ReadAs r fault.parameters f.parameters
  systemFailureType : f.systemFailureType = fault.systemFailureType

theorem nodup_members : (Json.keys fault.toMembers).Nodup := by
  rw [toMembers]
  cases fault.systemFailureType with
  | none =>
      change ["fault_id", "type", "target", "parameters"].Nodup
      decide
  | some cause =>
      change ["fault_id", "type", "target", "parameters", "system_failure_type"].Nodup
      decide

theorem mem_keys {k : String} (hk : k ∈ Json.keys fault.toMembers) :
    k ∈ keys ∧ k ≠ "id" := by
  have hmem : k ∈ ["fault_id", "type", "target", "parameters", "system_failure_type"] := by
    rw [toMembers] at hk
    cases hcause : fault.systemFailureType with
    | none =>
        rw [hcause] at hk
        exact List.mem_append_left ["system_failure_type"] hk
    | some cause =>
        rw [hcause] at hk
        exact hk
  clear hk
  revert k
  decide

theorem get_cause : readSystemFailureType
    ((Json.get? "system_failure_type" fault.toMembers).getD .null) =
      .ok fault.systemFailureType := by
  rw [toMembers]
  cases fault.systemFailureType with
  | none => rfl
  | some cause =>
      change readSystemFailureType (.str cause.value) = _
      rw [readSystemFailureType, enumMember, SystemFailureType.find]
      · rfl
      · exact fun h => nomatch h

/-- What is read of a fault, up to the checks of its parameters. -/
theorem fromDict_read (hr : Reading r) :
    ∃ n p, Manifest.ReadAs r fault.target.metadata n ∧ Manifest.ReadAs r fault.parameters p ∧
      fromDict (r (.obj fault.toMembers)) =
        (checkParameters p fault.type fault.target.surface).map fun h =>
          ⟨fault.faultId, fault.type, { fault.target with metadata := n }, p,
            fault.systemFailureType, fault.id_named, fault.effect_allowed, h.down⟩ := by
  obtain ⟨ms, hms, h⟩ := mapping_read hr fault.toMembers fault.nodup_members "fault"
  have hreject := h.reject keys (fun k hk => (fault.mem_keys hk).1) "fault"
  have halias := h.rejectAlias (fun hk => (fault.mem_keys hk).2 rfl) "fault_id" "fault"
  obtain ⟨n, hn, htarget⟩ := fault.target.fromDict_read hr
  obtain ⟨p, hp, hparameters⟩ := mapping_readAs hr fault.parameters "fault parameters"
  have hcause : readSystemFailureType (itemOr ms "system_failure_type" .null) =
      .ok fault.systemFailureType := by
    have hget : itemOr ms "system_failure_type" .null =
        (Json.get? "system_failure_type" fault.toMembers).getD .null := by
      rw [itemOr, h.get, toMembers]
      cases fault.systemFailureType with
      | none => rfl
      | some cause => exact hr.str _
    rw [hget, get_cause]
  refine ⟨n, p, hn, hparameters, ?_⟩
  rw [fromDict, hms]
  simp only [hreject, halias, h.item (k := "type") rfl, enum_read hr _ (FailureType.find _),
    h.item (k := "target") rfl, htarget, hcause, h.itemOr (k := "fault_id") rfl,
    h.itemOr (k := "parameters") rfl, make, string_read hr _ fault.id_named, hp, bind,
    Except.bind]
  rw [require_ok (p := ∀ cause ∈ fault.systemFailureType, fault.type ∈ cause.effects)
    fault.effect_allowed]
  dsimp only
  cases checkParameters p fault.type fault.target.surface with
  | error e => rfl
  | ok h => rfl

/-- A fault that is read back has the fields that were written. -/
theorem readAs_of_fromDict (hr : Reading r) {fault f : FaultSpec}
    (h : fromDict (r (.obj fault.toMembers)) = .ok f) : ReadAs r fault f := by
  obtain ⟨n, p, hn, hp, hread⟩ := fault.fromDict_read hr
  rw [hread] at h
  cases hcheck : checkParameters p fault.type fault.target.surface with
  | error e => rw [hcheck] at h; cases h
  | ok hvalid =>
      rw [hcheck] at h
      cases h
      exact ⟨rfl, rfl, rfl, hn, hp, rfl⟩

/-- A fault is read back, when no key of its parameters was renamed. -/
theorem exists_fromDict (hr : Reading r) (hm : fault.parameters.Unrenamed) :
    ∃ f, fromDict (r (.obj fault.toMembers)) = .ok f := by
  obtain ⟨n, p, -, hp, hread⟩ := fault.fromDict_read hr
  have hvalid : validateParameters p.members fault.type fault.target.surface = .ok () := by
    rw [validateParameters_alike (alike_of_readAs hr hp hm)]
    exact fault.parameters_valid
  rw [hread, checkParameters_ok hvalid]
  exact ⟨_, rfl⟩

end FaultSpec

/-! ## Incidents -/

namespace FaultIncident

variable (incident : FaultIncident)

/-- What an incident is read back as. -/
structure ReadAs (r : Json → Json) (incident i : FaultIncident) : Prop where
  incidentId : i.incidentId = incident.incidentId
  trigger : i.trigger = incident.trigger
  lifetime : i.lifetime = incident.lifetime
  retrigger : i.retrigger = incident.retrigger
  maxOccurrences : i.maxOccurrences = incident.maxOccurrences
  faults : List.Forall₂ (FaultSpec.ReadAs r) incident.faults i.faults

theorem nodup_members : (Json.keys incident.toMembers).Nodup := by
  rw [toMembers]
  cases incident.maxOccurrences with
  | none =>
      change ["incident_id", "trigger", "lifetime", "retrigger", "faults"].Nodup
      decide
  | some n =>
      change ["incident_id", "trigger", "lifetime", "retrigger", "faults",
        "max_occurrences"].Nodup
      decide

theorem mem_keys {k : String} (hk : k ∈ Json.keys incident.toMembers) :
    k ∈ keys ∧ k ≠ "id" := by
  have hmem : k ∈ ["incident_id", "trigger", "lifetime", "retrigger", "faults",
      "max_occurrences"] := by
    rw [toMembers] at hk
    cases hmax : incident.maxOccurrences with
    | none =>
        rw [hmax] at hk
        exact List.mem_append_left ["max_occurrences"] hk
    | some n =>
        rw [hmax] at hk
        exact hk
  clear hk
  revert k
  decide

/-- The checks of an incident hold of its faults as they are read back. -/
theorem make_read (hr : Reading r) {faults : List FaultSpec}
    (h : List.Forall₂ (FaultSpec.ReadAs r) incident.faults faults) :
    ∃ i, make ⟨incident.incidentId, incident.id_named⟩ incident.trigger incident.lifetime faults
      incident.retrigger (r (optionalNumber incident.maxOccurrences)) = .ok i ∧
        ReadAs r incident i := by
  have hids : faults.map FaultSpec.faultId = incident.faults.map FaultSpec.faultId :=
    map_of_forall₂ (fun _ _ h => h.faultId) h
  have hne : faults ≠ [] := by
    intro hnil
    rw [hnil, List.forall₂_nil_right_iff] at h
    exact incident.faults_ne h
  have hsurface : ¬ (incident.lifetime.isMatchingCalls = true ∧ ∃ fault ∈ faults,
      fault.target.surface ∈ [FaultSurface.weight, .bias, .optimizerState]) := by
    rintro ⟨hcalls, f, hf, hsurface⟩
    obtain ⟨fault, hfault, hread⟩ := (mem_of_forall₂ h).2 f hf
    refine incident.calls_surface ⟨hcalls, fault, hfault, ?_⟩
    rw [hread.target] at hsurface
    exact hsurface
  simp only [make, optionalInt_read hr, bind, Except.bind]
  rw [require_ok hne]
  dsimp only
  rw [require_ok (hids ▸ incident.faultIds)]
  dsimp only
  rw [require_ok incident.occurrences]
  dsimp only
  rw [require_ok incident.permanent_once]
  dsimp only
  rw [require_ok incident.separate]
  dsimp only
  rw [require_ok hsurface]
  exact ⟨_, rfl, rfl, rfl, rfl, rfl, rfl, h⟩

/-- What is read of an incident is what is read of its faults. -/
theorem fromDict_read (hr : Reading r) :
    (∃ e, ((incident.faults.map fun fault => Json.obj fault.toMembers).map r).mapM
        FaultSpec.fromDict = .error e ∧
      fromDict (r (.obj incident.toMembers)) = .error e) ∨
    ∃ faults i, ((incident.faults.map fun fault => Json.obj fault.toMembers).map r).mapM
        FaultSpec.fromDict = .ok faults ∧
      fromDict (r (.obj incident.toMembers)) = .ok i ∧ ReadAs r incident i := by
  obtain ⟨ms, hms, h⟩ := mapping_read hr incident.toMembers incident.nodup_members "incident"
  have hreject := h.reject keys (fun k hk => (incident.mem_keys hk).1) "incident"
  have halias := h.rejectAlias (fun hk => (incident.mem_keys hk).2 rfl) "incident_id" "incident"
  have hmax : itemOr ms "max_occurrences" .null = r (optionalNumber incident.maxOccurrences) := by
    rw [itemOr, h.get, toMembers]
    cases incident.maxOccurrences with
    | none => exact hr.null.symm
    | some n => rfl
  rw [fromDict, hms]
  simp only [hreject, halias, h.item (k := "trigger") rfl, incident.trigger.fromDict_read hr,
    h.item (k := "lifetime") rfl, IncidentLifetime.fromDict_read hr, h.item (k := "faults") rfl,
    iterate_read hr, h.itemOr (k := "retrigger") rfl, enum_read hr _ (RetriggerPolicy.find _),
    h.itemOr (k := "incident_id") rfl, string_read hr _ incident.id_named, hmax, bind,
    Except.bind]
  cases hfaults : ((incident.faults.map fun fault => Json.obj fault.toMembers).map r).mapM
      FaultSpec.fromDict with
  | error e => exact Or.inl ⟨e, rfl, rfl⟩
  | ok faults =>
      have hread : List.Forall₂ (FaultSpec.ReadAs r) incident.faults faults := by
        have hall := mapM_ok_iff.mp hfaults
        rw [List.map_map, List.forall₂_map_left_iff] at hall
        exact hall.imp fun _ _ h => FaultSpec.readAs_of_fromDict hr h
      obtain ⟨i, hi, hincident⟩ := incident.make_read hr hread
      exact Or.inr ⟨faults, i, rfl, hi, hincident⟩

/-- An incident that is read back has the fields that were written. -/
theorem readAs_of_fromDict (hr : Reading r) {incident i : FaultIncident}
    (h : fromDict (r (.obj incident.toMembers)) = .ok i) : ReadAs r incident i := by
  obtain ⟨e, -, herror⟩ | ⟨_, i', -, hok, hread⟩ := incident.fromDict_read hr
  · rw [herror] at h
    cases h
  · rw [hok] at h
    cases h
    exact hread

/-- An incident is read back, when no key of its faults' parameters was renamed. -/
theorem exists_fromDict (hr : Reading r)
    (hm : ∀ fault ∈ incident.faults, fault.parameters.Unrenamed) :
    ∃ i, fromDict (r (.obj incident.toMembers)) = .ok i := by
  obtain ⟨e, herror, -⟩ | ⟨_, i, -, hok, -⟩ := incident.fromDict_read hr
  · have hall : ∀ v ∈ (incident.faults.map fun fault => Json.obj fault.toMembers).map r,
        ∃ f, FaultSpec.fromDict v = .ok f := by
      rw [List.map_map]
      intro v hv
      obtain ⟨fault, hfault, rfl⟩ := List.mem_map.mp hv
      exact fault.exists_fromDict hr (hm fault hfault)
    obtain ⟨faults, hfaults⟩ := mapM_total hall
    rw [hfaults] at herror
    cases herror
  · exact ⟨i, hok⟩

end FaultIncident

/-! ## Campaigns -/

namespace FaultCampaign

variable (campaign : FaultCampaign)

/-- What a campaign is read back as. -/
structure ReadAs (r : Json → Json) (campaign c : FaultCampaign) : Prop where
  name : c.name = campaign.name
  schemaVersion : c.schemaVersion = campaign.schemaVersion
  seed : c.seed = campaign.seed
  clock : c.clock = campaign.clock
  metadata : Manifest.ReadAs r campaign.metadata c.metadata
  incidents : List.Forall₂ (FaultIncident.ReadAs r) campaign.incidents c.incidents

theorem keys_members : Json.keys campaign.toMembers = keys := rfl

theorem namesCause_read (hr : Reading r) {fault : FaultSpec}
    (h : fault.systemFailureType = none) : namesCause (r (.obj fault.toMembers)) = false := by
  obtain ⟨ms, hms, -, hkeys⟩ := hr.fields fault.toMembers fault.nodup_members
  have hnot : "system_failure_type" ∉ Json.keys fault.toMembers := by
    rw [FaultSpec.toMembers, h]
    change "system_failure_type" ∉ ["fault_id", "type", "target", "parameters"]
    decide
  rw [hms, namesCause]
  exact decide_eq_false (mt (hkeys _).mp hnot)

theorem incidentNamesCause_read (hr : Reading r) {incident : FaultIncident}
    (h : ∀ fault ∈ incident.faults, fault.systemFailureType = none) :
    incidentNamesCause (r (.obj incident.toMembers)) = false := by
  obtain ⟨ms, hms, hget, -⟩ := hr.fields incident.toMembers incident.nodup_members
  have hfaults : itemOr ms "faults" (.arr []) =
      .arr ((incident.faults.map fun fault => Json.obj fault.toMembers).map r) := by
    rw [itemOr, hget, ← hr.arr]
    rfl
  rw [hms, incidentNamesCause, hfaults]
  simp only [List.any_eq_false, List.mem_map]
  rintro _ ⟨_, ⟨fault, hfault, rfl⟩, rfl⟩
  rw [namesCause_read hr (h fault hfault)]
  exact Bool.false_ne_true

theorem rejectLegacyCauses_read (hr : Reading r) {ms : List (String × Json)}
    (h : ReadOf r campaign.toMembers ms) : rejectLegacyCauses ms = .ok () := by
  have hversion : itemOr ms "schema_version" (.int 1) = .int campaign.schemaVersion := by
    rw [h.itemOr (k := "schema_version") rfl, hr.int]
  have hincidents : itemOr ms "incidents" (.arr []) =
      .arr ((campaign.incidents.map fun incident => Json.obj incident.toMembers).map r) := by
    rw [h.itemOr (k := "incidents") rfl, hr.arr]
  rw [rejectLegacyCauses, hversion, hincidents]
  by_cases hlegacy : campaign.schemaVersion = 1
  · have hnone : ((campaign.incidents.map fun incident =>
        Json.obj incident.toMembers).map r).any incidentNamesCause = false := by
      simp only [List.any_eq_false, List.mem_map]
      rintro _ ⟨_, ⟨incident, hincident, rfl⟩, rfl⟩
      rw [incidentNamesCause_read hr]
      · exact Bool.false_ne_true
      · intro fault hfault
        rw [← Option.not_isSome_iff_eq_none]
        exact fun hcause => campaign.legacy_causes
          ⟨hlegacy, incident, hincident, fault, hfault, hcause⟩
    simp only [iterate, hnone, bind, Except.bind]
    split
    · rfl
    · rfl
  · exact if_pos (decide_eq_false hlegacy)

/-- The checks of a campaign hold of its incidents as they are read back. -/
theorem make_read (hr : Reading r) {incidents : List FaultIncident}
    (h : List.Forall₂ (FaultIncident.ReadAs r) campaign.incidents incidents) :
    ∃ c, make (r (.str campaign.name)) incidents (r (.int campaign.schemaVersion))
      (r (.int campaign.seed)) campaign.clock (r campaign.metadata.thaw) = .ok c ∧
        ReadAs r campaign c := by
  obtain ⟨n, hn, hread⟩ := mapping_readAs hr campaign.metadata "campaign metadata"
  have hids : incidents.map FaultIncident.incidentId =
      campaign.incidents.map FaultIncident.incidentId :=
    map_of_forall₂ (fun _ _ h => h.incidentId) h
  have hne : incidents ≠ [] := by
    intro hnil
    rw [hnil, List.forall₂_nil_right_iff] at h
    exact campaign.incidents_ne h
  have hlegacy : ¬ (campaign.schemaVersion = 1 ∧ ∃ incident ∈ incidents,
      ∃ fault ∈ incident.faults, fault.systemFailureType.isSome = true) := by
    rintro ⟨hversion, i, hi, f, hf, hcause⟩
    obtain ⟨incident, hincident, hi⟩ := (mem_of_forall₂ h).2 i hi
    obtain ⟨fault, hfault, hf⟩ := (mem_of_forall₂ hi.faults).2 f hf
    refine campaign.legacy_causes ⟨hversion, incident, hincident, fault, hfault, ?_⟩
    rw [← hf.systemFailureType]
    exact hcause
  simp only [make, string_read hr _ campaign.name_named, strictInt_read hr, hn, bind,
    Except.bind]
  rw [require_ok campaign.schema_supported]
  dsimp only
  rw [require_ok hlegacy]
  dsimp only
  rw [require_ok campaign.seed_fits]
  dsimp only
  rw [require_ok hne]
  dsimp only
  rw [require_ok (hids ▸ campaign.incidentIds)]
  exact ⟨_, rfl, rfl, rfl, rfl, rfl, hread, h⟩

/-- What is read of a campaign is what is read of its incidents. -/
theorem fromDict_read (hr : Reading r) :
    (∃ e, ((campaign.incidents.map fun incident => Json.obj incident.toMembers).map r).mapM
        FaultIncident.fromDict = .error e ∧
      fromDict (r (.obj campaign.toMembers)) = .error e) ∨
    ∃ incidents c, ((campaign.incidents.map fun incident =>
        Json.obj incident.toMembers).map r).mapM FaultIncident.fromDict = .ok incidents ∧
      fromDict (r (.obj campaign.toMembers)) = .ok c ∧ ReadAs r campaign c := by
  obtain ⟨ms, hms, h⟩ := mapping_read hr campaign.toMembers (by
    rw [keys_members]
    decide) "campaign"
  have hreject := h.reject keys (fun _ hk => hk) "campaign"
  rw [fromDict, hms]
  simp only [hreject, campaign.rejectLegacyCauses_read hr h, h.item (k := "name") rfl,
    h.itemOr (k := "clock") rfl, ClockSpec.fromDict_read hr, h.item (k := "incidents") rfl,
    iterate_read hr, h.itemOr (k := "schema_version") rfl, h.itemOr (k := "seed") rfl,
    h.itemOr (k := "metadata") rfl, bind, Except.bind]
  cases hincidents : ((campaign.incidents.map fun incident =>
      Json.obj incident.toMembers).map r).mapM FaultIncident.fromDict with
  | error e => exact Or.inl ⟨e, rfl, rfl⟩
  | ok incidents =>
      have hread : List.Forall₂ (FaultIncident.ReadAs r) campaign.incidents incidents := by
        have hall := mapM_ok_iff.mp hincidents
        rw [List.map_map, List.forall₂_map_left_iff] at hall
        exact hall.imp fun _ _ h => FaultIncident.readAs_of_fromDict hr h
      obtain ⟨c, hc, hcampaign⟩ := campaign.make_read hr hread
      exact Or.inr ⟨incidents, c, rfl, hc, hcampaign⟩

/-- A campaign that is read back has the fields that were written. -/
theorem readAs_of_fromDict (hr : Reading r) {campaign c : FaultCampaign}
    (h : fromDict (r (.obj campaign.toMembers)) = .ok c) : ReadAs r campaign c := by
  obtain ⟨e, -, herror⟩ | ⟨_, c', -, hok, hread⟩ := campaign.fromDict_read hr
  · rw [herror] at h
    cases h
  · rw [hok] at h
    cases h
    exact hread

/-- A campaign is read back, when no key of its parameters was renamed. -/
theorem exists_fromDict (hr : Reading r)
    (hm : ∀ incident ∈ campaign.incidents, ∀ fault ∈ incident.faults,
      fault.parameters.Unrenamed) :
    ∃ c, fromDict (r (.obj campaign.toMembers)) = .ok c := by
  obtain ⟨e, herror, -⟩ | ⟨_, c, -, hok, -⟩ := campaign.fromDict_read hr
  · have hall : ∀ v ∈ (campaign.incidents.map fun incident =>
        Json.obj incident.toMembers).map r, ∃ i, FaultIncident.fromDict v = .ok i := by
      rw [List.map_map]
      intro v hv
      obtain ⟨incident, hincident, rfl⟩ := List.mem_map.mp hv
      exact incident.exists_fromDict hr (hm incident hincident)
    obtain ⟨incidents, hincidents⟩ := mapM_total hall
    rw [hincidents] at herror
    cases herror
  · exact ⟨c, hok⟩

end FaultCampaign

/-! ## Equal campaigns

Two records are equal when their fields are; a mapping equals another with the same members,
in any order. -/

/-- `==` of two faults. -/
structure FaultSpec.Same (f g : FaultSpec) : Prop where
  faultId : f.faultId = g.faultId
  type : f.type = g.type
  target : f.target = { g.target with metadata := f.target.metadata }
  metadata : f.target.metadata.Same g.target.metadata
  parameters : f.parameters.Same g.parameters
  systemFailureType : f.systemFailureType = g.systemFailureType

/-- `==` of two incidents. -/
structure FaultIncident.Same (i j : FaultIncident) : Prop where
  incidentId : i.incidentId = j.incidentId
  trigger : i.trigger = j.trigger
  lifetime : i.lifetime = j.lifetime
  retrigger : i.retrigger = j.retrigger
  maxOccurrences : i.maxOccurrences = j.maxOccurrences
  faults : List.Forall₂ (fun g f => FaultSpec.Same f g) j.faults i.faults

/-- `==` of two campaigns. -/
structure FaultCampaign.Same (c d : FaultCampaign) : Prop where
  name : c.name = d.name
  schemaVersion : c.schemaVersion = d.schemaVersion
  seed : c.seed = d.seed
  clock : c.clock = d.clock
  metadata : c.metadata.Same d.metadata
  incidents : List.Forall₂ (fun j i => FaultIncident.Same i j) d.incidents c.incidents

/-- A relation that says one thing more of the left items. -/
theorem forall₂_iff_of {α β : Type} {R S : α → β → Prop} {P : α → Prop}
    (hRS : ∀ x y, R x y → (S x y ↔ P x)) {xs : List α} {ys : List β}
    (h : List.Forall₂ R xs ys) : List.Forall₂ S xs ys ↔ ∀ x ∈ xs, P x := by
  induction h with
  | nil => simp
  | cons hxy _ ih => simp [hRS _ _ hxy, ih]

theorem FaultSpec.same_iff (hr : Reading r) {fault f : FaultSpec} (h : ReadAs r fault f) :
    f.Same fault ↔ fault.target.metadata.Unrenamed ∧ fault.parameters.Unrenamed := by
  constructor
  · intro hsame
    exact ⟨(same_read_iff hr h.metadata.members).mp hsame.metadata,
      (same_read_iff hr h.parameters.members).mp hsame.parameters⟩
  · rintro ⟨hmetadata, hparameters⟩
    exact ⟨h.faultId, h.type, h.target, (same_read_iff hr h.metadata.members).mpr hmetadata,
      (same_read_iff hr h.parameters.members).mpr hparameters, h.systemFailureType⟩

theorem FaultIncident.same_iff (hr : Reading r) {incident i : FaultIncident}
    (h : ReadAs r incident i) :
    i.Same incident ↔ ∀ fault ∈ incident.faults,
      fault.target.metadata.Unrenamed ∧ fault.parameters.Unrenamed := by
  have hfaults := forall₂_iff_of (S := fun g f => FaultSpec.Same f g)
    (fun _ _ h => FaultSpec.same_iff hr h) h.faults
  constructor
  · intro hsame
    exact hfaults.mp hsame.faults
  · intro hm
    exact ⟨h.incidentId, h.trigger, h.lifetime, h.retrigger, h.maxOccurrences, hfaults.mpr hm⟩

theorem FaultCampaign.mem_mappings {campaign : FaultCampaign} :
    (∀ m ∈ campaign.mappings, m.Unrenamed) ↔ campaign.metadata.Unrenamed ∧
      ∀ incident ∈ campaign.incidents, ∀ fault ∈ incident.faults,
        fault.target.metadata.Unrenamed ∧ fault.parameters.Unrenamed := by
  simp only [mappings, List.forall_mem_cons, List.forall_mem_flatMap, List.not_mem_nil,
    false_imp_iff, implies_true, and_true]

/-- What is read back equals what was written just when no key was renamed. -/
theorem FaultCampaign.same_iff (hr : Reading r) {campaign c : FaultCampaign}
    (h : ReadAs r campaign c) :
    c.Same campaign ↔ ∀ m ∈ campaign.mappings, m.Unrenamed := by
  have hincidents := forall₂_iff_of (S := fun j i => FaultIncident.Same i j)
    (fun _ _ h => FaultIncident.same_iff hr h) h.incidents
  rw [mem_mappings]
  constructor
  · intro hsame
    exact ⟨(same_read_iff hr h.metadata.members).mp hsame.metadata,
      hincidents.mp hsame.incidents⟩
  · rintro ⟨hmetadata, hm⟩
    exact ⟨h.name, h.schemaVersion, h.seed, h.clock,
      (same_read_iff hr h.metadata.members).mpr hmetadata, hincidents.mpr hm⟩

/-! ## The identity -/

theorem canon_obj_congr {ms ms' : List (String × Json)}
    (h : Json.canonMembers ms' = Json.canonMembers ms) :
    Json.canon (.obj ms') = Json.canon (.obj ms) := by
  rw [Json.canon, Json.canon, h]

theorem canon_arr_congr {vs vs' : List Json}
    (h : vs'.map Json.canon = vs.map Json.canon) :
    Json.canon (.arr vs') = Json.canon (.arr vs) := by
  rw [Json.canon, Json.canon, Json.canonItems_eq_map, Json.canonItems_eq_map, h]

theorem canon_thaw_readAs (hr : Reading r) {m n : FrozenMapping} (h : ReadAs r m n) :
    Json.canon n.thaw = Json.canon m.thaw := by
  rw [h.thaw, canon_thaw_read hr]

/-- An empty mapping is read back as an empty one, and no other is. -/
theorem written_readAs (hr : Reading r) {m n : FrozenMapping} (h : ReadAs r m n) :
    FaultTarget.written n.thaw = FaultTarget.written m.thaw := by
  obtain ⟨ms, hms, hperm⟩ := hr.obj (Dict.ofItems (Frozen.thawMembers m.items))
    (Dict.nodup_keys_update List.nodup_nil)
  have hread : n.thaw = .obj ms := h.thaw.trans hms
  have hthaw : m.thaw = .obj (Dict.ofItems (Frozen.thawMembers m.items)) := rfl
  rw [hread, hthaw]
  generalize Dict.ofItems (Frozen.thawMembers m.items) = items at hperm
  cases items with
  | nil => rw [List.perm_nil.mp hperm]
  | cons item items =>
      cases ms with
      | nil => exact absurd hperm.symm.eq_nil (List.cons_ne_nil _ _)
      | cons => rfl

theorem FaultTarget.canon_readAs (hr : Reading r) (target : FaultTarget) {n : FrozenMapping}
    (h : Manifest.ReadAs r target.metadata n) :
    Json.canonMembers { target with metadata := n }.toMembers =
      Json.canonMembers target.toMembers := by
  have hfields : ∀ t : FaultTarget, t.toMembers =
      (t.fields.take 9).filter (fun m => written m.2) ++
        [("metadata", t.metadata.thaw)].filter fun m => written m.2 := by
    intro t
    rw [← List.filter_append]
    rfl
  rw [hfields, hfields, Json.canonMembers_eq_map, Json.canonMembers_eq_map, List.map_append,
    List.map_append]
  congr 1
  change ([("metadata", n.thaw)].filter fun m => written m.2).map _ = _
  simp only [List.filter_cons, List.filter_nil, written_readAs hr h]
  split
  · rw [List.map_cons, List.map_cons, canon_thaw_readAs hr h]
  · rfl

theorem FaultSpec.canon_readAs (hr : Reading r) {fault f : FaultSpec} (h : ReadAs r fault f) :
    Json.canon (.obj f.toMembers) = Json.canon (.obj fault.toMembers) := by
  have htarget : Json.canonMembers f.target.toMembers =
      Json.canonMembers fault.target.toMembers := by
    rw [h.target]
    exact fault.target.canon_readAs hr h.metadata
  refine canon_obj_congr ?_
  simp only [toMembers, h.faultId, h.type, h.systemFailureType, Json.canonMembers_eq_map,
    List.map_append, List.map_cons, canon_obj_congr htarget, canon_thaw_readAs hr h.parameters]

theorem FaultIncident.canon_readAs (hr : Reading r) {incident i : FaultIncident}
    (h : ReadAs r incident i) :
    Json.canon (.obj i.toMembers) = Json.canon (.obj incident.toMembers) := by
  have hfaults : (i.faults.map fun fault => Json.obj fault.toMembers).map Json.canon =
      (incident.faults.map fun fault => Json.obj fault.toMembers).map Json.canon := by
    rw [List.map_map, List.map_map]
    exact map_of_forall₂ (fun _ _ h => FaultSpec.canon_readAs hr h) h.faults
  refine canon_obj_congr ?_
  simp only [toMembers, h.incidentId, h.trigger, h.lifetime, h.retrigger, h.maxOccurrences,
    Json.canonMembers_eq_map, List.map_append, List.map_cons, canon_arr_congr hfaults]

/-- **The identity** of what is read back is the one of what was written. -/
theorem FaultCampaign.manifestIdentity_readAs (hr : Reading r) (digest : String → String)
    {campaign c : FaultCampaign} (h : ReadAs r campaign c) :
    c.manifestIdentity digest = campaign.manifestIdentity digest := by
  have hincidents : (c.incidents.map fun incident => Json.obj incident.toMembers).map
      Json.canon = (campaign.incidents.map fun incident =>
        Json.obj incident.toMembers).map Json.canon := by
    rw [List.map_map, List.map_map]
    exact map_of_forall₂ (fun _ _ h => FaultIncident.canon_readAs hr h) h.incidents
  have hcanon : Json.canon (.obj c.toMembers) = Json.canon (.obj campaign.toMembers) := by
    refine canon_obj_congr ?_
    simp only [toMembers, h.name, h.schemaVersion, h.seed, h.clock, Json.canonMembers_eq_map,
      List.map_cons, canon_arr_congr hincidents, canon_thaw_readAs hr h.metadata]
  rw [manifestIdentity, manifestIdentity, Json.dumps, Json.dumps, hcanon]

/-! ## The round trip -/

/-- `from_dict` of what the JSON library reads of `to_dict` is an equal campaign with the same
identity. -/
def FaultCampaign.RoundTrips (r : Json → Json) (digest : String → String)
    (campaign : FaultCampaign) : Prop :=
  ∃ c, fromDict (r (.obj campaign.toMembers)) = .ok c ∧ c.Same campaign ∧
    c.manifestIdentity digest = campaign.manifestIdentity digest

/-- **A campaign comes back from its manifest** just when `thaw_json` leaves its mappings as
they are. -/
theorem FaultCampaign.roundTrips_iff (hr : Reading r) (digest : String → String)
    (campaign : FaultCampaign) :
    campaign.RoundTrips r digest ↔ ∀ m ∈ campaign.mappings, m.Unrenamed := by
  constructor
  · rintro ⟨c, hread, hsame, -⟩
    exact (same_iff hr (readAs_of_fromDict hr hread)).mp hsame
  · intro hm
    obtain ⟨c, hread⟩ := campaign.exists_fromDict hr fun incident hincident fault hfault =>
      ((mem_mappings.mp hm).2 incident hincident fault hfault).2
    have hreadAs := readAs_of_fromDict hr hread
    exact ⟨c, hread, (same_iff hr hreadAs).mpr hm, manifestIdentity_readAs hr digest hreadAs⟩

/-! ## A key that is renamed -/

/-- A mapping with one member. -/
def oneMember (key : Key) (n : Int) : FrozenMapping where
  items := [(key, .int n)]
  strict := ⟨List.nodup_singleton _, trivial, trivial⟩

/-- One process that ends, with such metadata. -/
def smokeCampaign (metadata : FrozenMapping) : FaultCampaign where
  name := "smoke"
  incidents := [{
    incidentId := "crash"
    trigger := {
      exactAt := [7]
      probability := 1
      one_of := IncidentTrigger.seventh.one_of
      at_pos := IncidentTrigger.seventh.at_pos
      at_sorted := IncidentTrigger.seventh.at_sorted
      probability_nonneg := by decide
      probability_le := by decide
      literal_value := by decide +kernel }
    lifetime := .permanent .replacement
    faults := [{
      faultId := "crash"
      type := .processTermination
      target := {
        surface := .process
        rank := some 0
        metadata := .empty
        rank_nonneg := first_rank
        component_named := named_none
        modulePath_named := named_none
        resource_named := named_none
        located := process_located
        modelPart_nonneg := first_part
        index_nonneg := noIndex_nonneg
        index_component := noIndex_component
        operation_named := named_none
        path_named := named_none }
      parameters := .empty
      id_named := by decide
      effect_allowed := by simp
      parameters_valid := rfl }]
    id_named := by decide
    faults_ne := List.cons_ne_nil _ _
    faultIds := List.nodup_singleton _
    occurrences := by simp
    permanent_once := by simp [IncidentTrigger.hasMultipleCandidates, IncidentTrigger.seventh]
    separate := by simp [IncidentLifetime.iterationCount]
    calls_surface := by simp [IncidentLifetime.isMatchingCalls] }]
  metadata := metadata
  name_named := by decide
  schema_supported := by decide
  legacy_causes := by simp
  seed_fits := by decide
  incidents_ne := List.cons_ne_nil _ _
  incidentIds := List.nodup_singleton _

theorem roundTrips_sample :
    (smokeCampaign (oneMember ⟨"row", "row"⟩ 1)).RoundTrips Json.canon id := by
  refine (FaultCampaign.roundTrips_iff Json.reading_canon id _).mpr
    (FaultCampaign.mem_mappings.mpr ⟨?_, fun incident hincident fault hfault => ?_⟩)
  · exact FrozenMapping.unrenamed_of_exact _ ⟨rfl, trivial, trivial⟩
  · obtain rfl := List.mem_singleton.mp hincident
    obtain rfl := List.mem_singleton.mp hfault
    exact ⟨FrozenMapping.unrenamed_of_exact _ trivial,
      FrozenMapping.unrenamed_of_exact _ trivial⟩

/-- **A member of a string enumeration as a key**: `FaultScope.ROW` is a string, and equal to
`"row"`, and its `str` is another text, which is read back. -/
theorem enumeration_key_renamed :
    ¬ (smokeCampaign (oneMember ⟨"row", "FaultScope.ROW"⟩ 1)).RoundTrips Json.canon id := by
  rintro ⟨c, hread, hsame, -⟩
  have hread := FaultCampaign.readAs_of_fromDict Json.reading_canon hread
  have hrenamed := (FaultCampaign.same_iff Json.reading_canon hread).mp hsame _
    List.mem_cons_self
  have hkeys := congrArg (List.map Prod.fst) (Json.obj.inj hrenamed)
  exact absurd (show ["FaultScope.ROW"] = ["row"] from hkeys) (by decide)

end LmResiliency.FaultInjection.Manifest
