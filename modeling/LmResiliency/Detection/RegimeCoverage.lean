/-
# RegimeCoverage — the representatives of a regime are a least cover

In a group that one equivalence key makes, covering is a preorder: a group of an
exact key is one shape, and in a compressed one every count of a role is
positive, so that a role that is covered is there.  The maximal shapes, one of
each class, then cover the group, and no cover has fewer shapes.

The main result is `select_minimum_cover`: within one group.  Two regimes may
still share a shape, and no cover across regimes is asked for.
-/
import LmResiliency.Detection.MoERoundTrip
import LmResiliency.Lib.Pareto
import Mathlib.Data.Set.Operations

namespace LmResiliency.Detection.MoE

open LmResiliency.Pareto

variable {digest : String → String}

/-- No two of the documents have the digest of one another. -/
def CollisionFree (digest : String → String) (documents : Set Json) : Prop :=
  ∀ v ∈ documents, ∀ w ∈ documents, digestOf digest v = digestOf digest w →
    Json.dumps v = Json.dumps w

/-! ## Readable documents -/

theorem plain_texts (values : List String) : Json.Plain (texts values) :=
  Json.plainItems_map (f := Json.str) (fun _ => trivial) values

theorem plain_numbers (values : List Int) : Json.Plain (numbers values) :=
  Json.plainItems_map (f := Json.int) (fun _ => trivial) values

theorem plain_optionalNumber (n : Option Int) : Json.Plain (optionalNumber n) := by
  cases n <;> trivial

theorem plain_optionalTriple : ∀ t : Option (Int × Int × Int), Json.Plain (optionalTriple t)
  | none => trivial
  | some (x, y, z) => plain_numbers [x, y, z]

theorem KernelLaunch.plain (k : KernelLaunch) : Json.Plain (.obj k.toMembers) := by
  refine ⟨?_, trivial, plain_optionalTriple _, plain_optionalTriple _, plain_optionalNumber _,
    plain_optionalNumber _, trivial⟩
  change ["name", "grid", "block", "shared_memory_bytes", "registers_per_thread"].Nodup
  decide

theorem plain_roleMembers {counts : List (String × Int)}
    (h : (counts.map Prod.fst).Pairwise (· < ·)) : Json.Plain (roleMembers counts) := by
  refine ⟨?_, Json.plainMembers_iff.mpr fun m hm => ?_⟩
  · rw [Json.keys, List.map_map]
    exact h.imp fun h => ne_of_lt h
  · obtain ⟨m, -, rfl⟩ := List.mem_map.mp hm
    trivial

theorem CTASemantics.plain {s : CTASemantics} (hs : s.Sorted) :
    Json.Plain (.obj s.toMembers) := by
  refine ⟨?_, trivial, plain_roleMembers hs.1, plain_roleMembers hs.2, trivial, trivial, trivial,
    trivial, trivial⟩
  change ["mapping_class", "role_counts", "qualification_role_counts", "derivation_source",
    "derivation_digest", "qualification_source", "qualification_digest"].Nodup
  decide

theorem keys_cleared (names : List String) (ms : List (String × Json)) :
    Json.keys (cleared names ms) = Json.keys ms := by
  rw [Json.keys, cleared, List.map_map]
  refine List.map_congr_left fun ⟨k, v⟩ _ => ?_
  rw [Function.comp_apply]
  dsimp only
  split <;> rfl

theorem plain_cleared {names : List String} {ms : List (String × Json)}
    (h : Json.Plain (.obj ms)) : Json.Plain (.obj (cleared names ms)) := by
  refine ⟨by rw [keys_cleared]; exact h.1, Json.plainMembers_iff.mpr fun m hm => ?_⟩
  obtain ⟨⟨k, v⟩, hn, rfl⟩ := List.mem_map.mp hm
  dsimp only
  split
  · trivial
  · exact Json.plainMembers_iff.mp h.2 (k, v) hn

theorem readableItems_map {α : Type} {g : α → Json} {xs : List α}
    (h : ∀ x ∈ xs, Json.Readable (g x)) : Json.ReadableItems (xs.map g) := by
  induction xs with
  | nil => trivial
  | cons x xs ih =>
      exact ⟨h x List.mem_cons_self, ih fun y hy => h y (List.mem_cons_of_mem x hy)⟩

theorem ExecutionFingerprint.Created.frozen {f : ExecutionFingerprint} (hf : f.Created) :
    Frozen f.extra := by
  obtain ⟨values, hvalues, hextra⟩ := hf.extra
  exact hextra ▸ frozen_frozenMapping hvalues

theorem ExecutionFingerprint.Created.readable {f : ExecutionFingerprint} (hf : f.Created) :
    Json.Readable f.toJson := by
  refine ⟨?_, readableItems_map fun k _ => k.plain.readable, (plain_texts _).readable,
    (plain_texts _).readable, trivial, (plain_optionalNumber _).readable, trivial, trivial,
    (plain_numbers _).readable,
    readableItems_map fun s hs => (CTASemantics.plain (hf.roles s hs)).readable,
    ⟨hf.frozen.keys_nodup, hf.frozen.readable⟩, trivial⟩
  change ["kernels", "algorithm_ids", "tile_shapes", "tail_path", "workspace_bytes",
    "pressure_class", "overlap_class", "persistent_work_items", "cta_semantics",
    "extra"].Nodup
  decide

/-- The members of the projected document. -/
def projectedMembers (f : ExecutionFingerprint) : List (String × Json) :=
  [("kernels", .arr (f.kernels.map fun kernel => .obj (cleared ["grid"] kernel.toMembers))),
   ("algorithm_ids", texts f.algorithmIds), ("tile_shapes", texts f.tileShapes),
   ("tail_path", .str f.tailPath), ("workspace_bytes", optionalNumber f.workspaceBytes),
   ("pressure_class", .str f.pressureClass), ("overlap_class", .str f.overlapClass),
   ("persistent_work_items", .null),
   ("cta_semantics", .arr (f.ctaSemantics.map fun semantics => .obj (cleared
     ["role_counts", "qualification_role_counts", "derivation_source", "derivation_digest",
      "qualification_source", "qualification_digest"] semantics.toMembers))),
   ("extra", .obj f.extra),
   ("persistent_work_modes", .arr (f.persistentWorkItems.map fun work =>
     .str (if work ≠ 0 then "persistent" else "direct")))]

theorem projected_eq (f : ExecutionFingerprint) : projected f = .obj (projectedMembers f) := by
  simp [projected, projectedMembers, ExecutionFingerprint.toMembers, cleared]

theorem readable_projected {f : ExecutionFingerprint} (hf : f.Created) :
    Json.Readable (projected f) := by
  rw [projected_eq]
  refine ⟨?_, readableItems_map fun k _ => (plain_cleared k.plain).readable,
    (plain_texts _).readable, (plain_texts _).readable, trivial,
    (plain_optionalNumber _).readable, trivial, trivial, trivial,
    readableItems_map fun s hs => (plain_cleared (CTASemantics.plain (hf.roles s hs))).readable,
    ⟨hf.frozen.keys_nodup, hf.frozen.readable⟩, readableItems_map fun _ _ => trivial, trivial⟩
  change ["kernels", "algorithm_ids", "tile_shapes", "tail_path", "workspace_bytes",
    "pressure_class", "overlap_class", "persistent_work_items", "cta_semantics",
    "extra", "persistent_work_modes"].Nodup
  decide

theorem readable_regimeDocument {policy : String} {f : ExecutionFingerprint} (hf : f.Created)
    (nExec : Int) : Json.Readable (regimeDocument digest policy f nExec) := by
  have hexact : Json.Readable (exactRegimeDocument digest f nExec) := by
    refine ⟨?_, trivial, trivial, trivial, trivial⟩
    change ["equivalence", "fingerprint_id", "n_exec"].Nodup
    decide
  rw [regimeDocument]
  split
  · exact hexact
  · split
    · exact hexact
    · refine ⟨?_, trivial, readable_projected hf, trivial⟩
      change ["equivalence", "fingerprint"].Nodup
      decide

/-! ## What a shared key says -/

/-- Shapes whose executions have one key. -/
structure Grouped (digest : String → String) (policy : String) (values : List Int)
    (fingerprints : Int → ExecutionFingerprint) : Prop where
  nonempty : values ≠ []
  increasing : values.Pairwise (· < ·)
  created : ∀ n ∈ values, (fingerprints n).Created
  sameKey : ∀ a ∈ values, ∀ b ∈ values, regimeEquivalenceKey digest policy (fingerprints a) a =
    regimeEquivalenceKey digest policy (fingerprints b) b

/-- The documents behind the identifiers and the keys of a group. -/
def groupDocuments (digest : String → String) (policy : String) (values : List Int)
    (fingerprints : Int → ExecutionFingerprint) : Set Json :=
  {v | ∃ n ∈ values, v = (fingerprints n).toJson ∨
    v = regimeDocument digest policy (fingerprints n) n}

/-- Two fingerprints that compression does not tell apart. -/
structure Alike (f g : ExecutionFingerprint) : Prop where
  ready : compressionReady f = true
  ready' : compressionReady g = true
  projected : Json.canon (projected f) = Json.canon (MoE.projected g)

/-- One key for two shapes: they are one shape, or compression does not tell their
fingerprints apart. -/
theorem same_or_alike {policy : String} {f g : ExecutionFingerprint} {a b : Int}
    (hf : f.Created) (hg : g.Created)
    (h : Json.dumps (regimeDocument digest policy f a) =
      Json.dumps (regimeDocument digest policy g b)) : a = b ∨ Alike f g := by
  have hcanon := Json.canon_eq_of_dumps_eq (readable_regimeDocument hf a)
    (readable_regimeDocument hg b) h
  have hkeys : ∀ f a, (Json.keys [("equivalence", .str "exact_launch"),
      ("fingerprint_id", .str (ExecutionFingerprint.identifier digest f)),
      ("n_exec", .int a)]).Nodup := by
    intro f a
    change ["equivalence", "fingerprint_id", "n_exec"].Nodup
    decide
  have hkeys' : ∀ v : Json, (Json.keys [("equivalence", .str "plan_and_pressure"),
      ("fingerprint", v)]).Nodup := by
    intro v
    change ["equivalence", "fingerprint"].Nodup
    decide
  have hexact : ∀ f g a b, Json.canon (exactRegimeDocument digest f a) =
      Json.canon (exactRegimeDocument digest g b) → a = b := by
    intro f g a b h
    have hn := Json.get?_of_canon_eq (hkeys f a) (hkeys g b) h "n_exec"
    exact Json.int.inj (Option.some.inj hn)
  have hmixed : ∀ f a v, Json.canon (exactRegimeDocument digest f a) ≠
      Json.canon (.obj [("equivalence", .str "plan_and_pressure"), ("fingerprint", v)]) := by
    intro f a v h
    have he := Json.get?_of_canon_eq (hkeys f a) (hkeys' v) h "equivalence"
    have htext : "exact_launch" = "plan_and_pressure" := Json.str.inj (Option.some.inj he)
    exact absurd htext (by decide)
  by_cases hpolicy : policy = "exact_launch"
  · rw [regimeDocument, regimeDocument, if_pos hpolicy, if_pos hpolicy] at hcanon
    exact Or.inl (hexact _ _ _ _ hcanon)
  · rw [regimeDocument, regimeDocument, if_neg hpolicy, if_neg hpolicy] at hcanon
    cases hf' : compressionReady f <;> cases hg' : compressionReady g <;>
      simp only [hf', hg', Bool.not_true, Bool.not_false, if_true, Bool.false_eq_true,
        if_false] at hcanon
    · exact Or.inl (hexact _ _ _ _ hcanon)
    · exact absurd hcanon (hmixed _ _ _)
    · exact absurd hcanon.symm (hmixed _ _ _)
    · have hprojected := Json.get?_of_canon_eq (hkeys' _) (hkeys' _) hcanon "fingerprint"
      exact Or.inr ⟨hf', hg', Option.some.inj hprojected⟩

/-! ## The work of a fingerprint -/

/-- What compression asks of the work of one kernel. -/
structure WorkReady (t : KernelWork) : Prop where
  grid : t.1.grid.isSome = true
  positive : ∀ m ∈ t.2.2.roleCounts, 0 < m.2
  sorted : (t.2.2.roleCounts.map Prod.fst).Pairwise (· < ·)

/-- What compression asks of a fingerprint. -/
structure Ready (f : ExecutionFingerprint) : Prop where
  persistent : f.persistentWorkItems.length = f.kernels.length
  semantics : f.ctaSemantics.length = f.kernels.length
  work : ∀ t ∈ f.work, WorkReady t

theorem ready_of_compressionReady {f : ExecutionFingerprint} (hf : f.Created)
    (h : compressionReady f = true) : Ready f := by
  simp only [compressionReady, Bool.and_eq_true, decide_eq_true_eq, List.all_eq_true] at h
  obtain ⟨⟨⟨⟨⟨-, hpersistent⟩, -⟩, hsemantics⟩, hready⟩, -⟩ := h.1
  have hlaunch := h.2
  refine ⟨hpersistent, hsemantics, fun t ht => ?_⟩
  obtain ⟨i, hi, rfl⟩ := List.mem_iff_getElem.mp ht
  simp only [ExecutionFingerprint.work, List.length_zip] at hi
  simp only [ExecutionFingerprint.work, List.getElem_zip]
  have hkernel := hlaunch _ (List.getElem_mem (l := f.kernels) (n := i) (by omega))
  have hsemantic := hready (f.ctaSemantics[i], f.kernels[i], f.persistentWorkItems[i]) (by
    rw [List.mem_iff_getElem]
    exact ⟨i, by simp only [List.length_zip]; omega, by simp only [List.getElem_zip]⟩)
  simp only [CTASemantics.isCompressionReady, Bool.and_eq_true, List.all_eq_true,
    decide_eq_true_eq] at hsemantic
  refine ⟨?_, fun m hm => ?_, (hf.roles _ (List.getElem_mem _)).1⟩
  · cases hgrid : f.kernels[i].grid with
    | some _ => rfl
    | none =>
        rw [hgrid] at hkernel
        cases hkernel.1.2
  · exact (hsemantic.1.1.1.1.1.1.1.2 m hm).2

/-- The work of one kernel reaches that of another. -/
def WorkAbove (c t : KernelWork) : Prop :=
  t.2.1 ≤ c.2.1 ∧ roleCountsCover c.2.2.roleCounts t.2.2.roleCounts = true

theorem roleCount_of_mem {counts : List (String × Int)} {m : String × Int}
    (hsorted : (counts.map Prod.fst).Pairwise (· < ·)) (hm : m ∈ counts) :
    roleCount counts m.1 = m.2 := by
  have hnd : (counts.map Prod.fst).Nodup := hsorted.imp fun h => ne_of_lt h
  rw [roleCount, Dict.ofItems_of_nodup hnd]
  cases hl : counts.lookup m.1 with
  | none => exact absurd hl (Dict.lookup_ne_none hm)
  | some count =>
      have heq := List.inj_on_of_nodup_map hnd (Dict.mem_of_lookup hl) hm rfl
      rw [← heq]
      rfl

theorem WorkAbove.refl {t : KernelWork} (h : WorkReady t) : WorkAbove t t :=
  ⟨le_rfl, List.all_eq_true.mpr fun _ hm =>
    decide_eq_true (roleCount_of_mem h.sorted hm).ge⟩

theorem WorkAbove.trans {a b c : KernelWork} (hb : WorkReady b) (hc : WorkReady c)
    (hab : WorkAbove a b) (hbc : WorkAbove b c) : WorkAbove a c := by
  refine ⟨hbc.1.trans hab.1, List.all_eq_true.mpr fun m hm => decide_eq_true ?_⟩
  have hcover : m.2 ≤ roleCount b.2.2.roleCounts m.1 :=
    of_decide_eq_true (List.all_eq_true.mp hbc.2 m hm)
  have hnd : (b.2.2.roleCounts.map Prod.fst).Nodup := hb.sorted.imp fun h => ne_of_lt h
  have hlookup : ∃ count, b.2.2.roleCounts.lookup m.1 = some count := by
    rw [← Option.isSome_iff_exists]
    by_contra hnone
    rw [Option.not_isSome_iff_eq_none] at hnone
    rw [roleCount, Dict.ofItems_of_nodup hnd, hnone] at hcover
    exact absurd (hc.positive m hm) (not_lt.mpr hcover)
  obtain ⟨count, hcount⟩ := hlookup
  have hmem : (m.1, count) ∈ b.2.2.roleCounts := Dict.mem_of_lookup hcount
  rw [roleCount_of_mem hb.sorted hmem] at hcover
  exact hcover.trans (of_decide_eq_true (List.all_eq_true.mp hab.2 _ hmem))

/-! ## Covering in a group -/

theorem length_work {f : ExecutionFingerprint} (h : Ready f) :
    f.work.length = f.kernels.length := by
  rw [ExecutionFingerprint.work, List.length_zip, List.length_zip, h.persistent, h.semantics,
    Nat.min_self, Nat.min_self]

theorem work_semantics {f : ExecutionFingerprint} (h : Ready f) :
    f.work.map (fun t => t.2.2) = f.ctaSemantics := by
  have hinner : (f.persistentWorkItems.zip f.ctaSemantics).map Prod.snd = f.ctaSemantics :=
    List.map_snd_zip (by rw [h.persistent, h.semantics])
  have houter : f.work.map Prod.snd = f.persistentWorkItems.zip f.ctaSemantics :=
    List.map_snd_zip (by rw [List.length_zip, h.persistent, h.semantics, Nat.min_self])
  rw [← hinner, ← houter, List.map_map]
  rfl

/-- The mapping class of a canonical document. -/
def mappingClassOf : Json → Option Json
  | .obj ms => Json.get? "mapping_class" ms
  | _ => none

/-- The text of a member that is one. -/
def textOf : Option Json → String
  | some (.str s) => s
  | _ => ""

theorem Alike.sameShape {f g : ExecutionFingerprint} (hf : f.Created) (hg : g.Created)
    (h : Alike f g) : f.kernels.length = g.kernels.length ∧
      f.ctaSemantics.map CTASemantics.mappingClass =
        g.ctaSemantics.map CTASemantics.mappingClass := by
  have hcanon := h.projected
  have hfnd := readable_projected hf
  have hgnd := readable_projected hg
  rw [projected_eq] at hcanon hfnd hgnd
  rw [projected_eq] at hcanon
  have hfield := Json.get?_of_canon_eq hfnd.1 hgnd.1 hcanon
  constructor
  · have hkernels := Json.arr.inj (Option.some.inj (hfield "kernels"))
    have hlength := congrArg List.length hkernels
    simpa only [Json.canonItems_eq_map, List.length_map] using hlength
  · have hsemantics := Json.arr.inj (Option.some.inj (hfield "cta_semantics"))
    rw [Json.canonItems_eq_map, Json.canonItems_eq_map, List.map_map, List.map_map] at hsemantics
    have hclass : ∀ f : ExecutionFingerprint, f.Created → (f.ctaSemantics.map (Json.canon ∘
        fun semantics => Json.obj (cleared ["role_counts", "qualification_role_counts",
          "derivation_source", "derivation_digest", "qualification_source",
          "qualification_digest"] semantics.toMembers))).map mappingClassOf =
        f.ctaSemantics.map fun s => some (.str s.mappingClass) := by
      intro f hf
      rw [List.map_map]
      refine List.map_congr_left fun s hs => ?_
      obtain ⟨ms, hms, hget, -⟩ :=
        Json.canon_obj (plain_cleared (CTASemantics.plain (hf.roles s hs))).1
      change mappingClassOf (Json.canon (.obj _)) = _
      rw [hms, mappingClassOf, hget]
      rfl
    have hmapped := congrArg (List.map mappingClassOf) hsemantics
    rw [hclass f hf, hclass g hg] at hmapped
    have hstrings := congrArg (List.map textOf) hmapped
    simpa only [List.map_map, Function.comp_def, textOf] using hstrings

/-- Covering, where compression does not tell fingerprints apart: kernel by kernel,
the work reaches. -/
theorem fingerprintCovers_iff {f g : ExecutionFingerprint} (hf : f.Created) (hg : g.Created)
    (h : Alike f g) (hfree : f.identifier digest = g.identifier digest → f = g) :
    fingerprintCovers digest f g = true ↔ List.Forall₂ WorkAbove f.work g.work := by
  have hfr := ready_of_compressionReady hf h.ready
  have hgr := ready_of_compressionReady hg h.ready'
  obtain ⟨hlength, hclasses⟩ := h.sameShape hf hg
  rw [fingerprintCovers]
  split
  · rename_i hid
    obtain rfl := hfree hid
    exact iff_of_true rfl (List.forall₂_same.mpr fun t ht => .refl (hfr.work t ht))
  · rw [if_neg (not_not.mpr hlength), if_neg (not_not.mpr hfr.persistent),
      if_neg (not_not.mpr hgr.persistent), if_neg (not_not.mpr hfr.semantics),
      if_neg (not_not.mpr hgr.semantics), List.all_eq_true, List.forall₂_iff_zip,
      length_work hfr, length_work hgr]
    have hclass : List.Forall₂ (fun c t : KernelWork =>
        c.2.2.mappingClass = t.2.2.mappingClass) f.work g.work := by
      rw [← work_semantics hfr, ← work_semantics hgr, List.map_map, List.map_map,
        ← List.forall₂_eq_eq_eq, List.forall₂_map_left_iff, List.forall₂_map_right_iff] at hclasses
      exact hclasses
    rw [List.forall₂_iff_zip] at hclass
    refine ⟨fun hall => ⟨hlength, fun hmem => ?_⟩, fun hall p hmem => ?_⟩
    · have hcovers := hall _ hmem
      simp only [kernelCovers, Bool.and_eq_true, decide_eq_true_eq] at hcovers
      exact ⟨hcovers.1.1.2, hcovers.2⟩
    · have habove := hall.2 hmem
      have hmems := List.of_mem_zip hmem
      simp only [kernelCovers, Bool.and_eq_true, decide_eq_true_eq]
      exact ⟨⟨⟨⟨(hfr.work _ hmems.1).grid, (hgr.work _ hmems.2).grid⟩, habove.1⟩,
        hclass.2 hmem⟩, habove.2⟩

theorem forall₂_trans {α : Type} {R : α → α → Prop} {xs ys zs : List α}
    (htrans : ∀ x ∈ xs, ∀ y ∈ ys, ∀ z ∈ zs, R x y → R y z → R x z)
    (hxy : List.Forall₂ R xs ys) (hyz : List.Forall₂ R ys zs) : List.Forall₂ R xs zs := by
  induction hxy generalizing zs with
  | nil => exact hyz
  | @cons x y xs ys hx hxs ih =>
      cases hyz with
      | @cons _ z _ zs hz hzs =>
          refine .cons (htrans x List.mem_cons_self y List.mem_cons_self z List.mem_cons_self hx hz)
            (ih (fun x' hx' y' hy' z' hz' => htrans x' (List.mem_cons_of_mem x hx') y'
              (List.mem_cons_of_mem y hy') z' (List.mem_cons_of_mem z hz')) hzs)

section Group

variable {policy : String} {values : List Int} {fingerprints : Int → ExecutionFingerprint}

/-- One shape covers another. -/
def Reaches (digest : String → String) (fingerprints : Int → ExecutionFingerprint) (a b : Int) :
    Prop := shapeCovers digest fingerprints a b = true

instance : DecidableRel (Reaches digest fingerprints) :=
  fun a b => inferInstanceAs (Decidable (shapeCovers digest fingerprints a b = true))

variable (hgroup : Grouped digest policy values fingerprints)
  (hfree : CollisionFree digest (groupDocuments digest policy values fingerprints))

include hgroup hfree

theorem eq_of_identifier {a b : Int} (ha : a ∈ values) (hb : b ∈ values)
    (h : (fingerprints a).identifier digest = (fingerprints b).identifier digest) :
    fingerprints a = fingerprints b := by
  have hca := hgroup.created a ha
  have hcb := hgroup.created b hb
  have htext := hfree _ ⟨a, ha, Or.inl rfl⟩ _ ⟨b, hb, Or.inl rfl⟩ h
  exact ExecutionFingerprint.eq_of_canon_eq hca hcb
    (Json.canon_eq_of_dumps_eq hca.readable hcb.readable htext)

theorem alike_of_ne {a b : Int} (ha : a ∈ values) (hb : b ∈ values) (hne : a ≠ b) :
    Alike (fingerprints a) (fingerprints b) :=
  (same_or_alike (hgroup.created a ha) (hgroup.created b hb)
    (hfree _ ⟨a, ha, Or.inr rfl⟩ _ ⟨b, hb, Or.inr rfl⟩ (hgroup.sameKey a ha b hb))).resolve_left hne

/-- Covering is a preorder in a group. -/
theorem preorderOn_group : PreorderOn (Reaches digest fingerprints) values where
  refl a _ := shapeCovers_self digest fingerprints a
  trans := by
    intro a ha b hb c hc hab hbc
    by_cases heqab : a = b
    · exact heqab ▸ hbc
    by_cases heqbc : b = c
    · exact heqbc ▸ hab
    have hcreated := hgroup.created
    have hab' := alike_of_ne hgroup hfree ha hb heqab
    have hbc' := alike_of_ne hgroup hfree hb hc heqbc
    have hac' : Alike (fingerprints a) (fingerprints c) :=
      ⟨hab'.ready, hbc'.ready', hab'.projected.trans hbc'.projected⟩
    rw [Reaches, shapeCovers, fingerprintCovers_iff (hcreated a ha) (hcreated b hb) hab'
      (eq_of_identifier hgroup hfree ha hb)] at hab
    rw [Reaches, shapeCovers, fingerprintCovers_iff (hcreated b hb) (hcreated c hc) hbc'
      (eq_of_identifier hgroup hfree hb hc)] at hbc
    rw [Reaches, shapeCovers, fingerprintCovers_iff (hcreated a ha) (hcreated c hc) hac'
      (eq_of_identifier hgroup hfree ha hc)]
    have hbr := ready_of_compressionReady (hcreated b hb) hab'.ready'
    have hcr := ready_of_compressionReady (hcreated c hc) hbc'.ready'
    exact forall₂_trans (fun _ _ y hy z hz => .trans (hbr.work y hy) (hcr.work z hz)) hab hbc

end Group

/-! ## The maximal shapes -/

section Select

variable {values : List Int} {fingerprints : Int → ExecutionFingerprint}
  (hR : PreorderOn (Reaches digest fingerprints) values)

variable (digest fingerprints) in
/-- One round of the loop keeps a part of the shapes, or puts a member of the
candidate's class in the place of what the candidate reaches. -/
theorem keepMaximal_cases (maximal : List Int) (candidate : Int) :
    ((∃ e ∈ maximal, Reaches digest fingerprints e candidate ∧
        ¬Reaches digest fingerprints candidate e) ∧
      keepMaximal digest fingerprints maximal candidate = maximal) ∨
    ((∀ e ∈ maximal, Reaches digest fingerprints e candidate →
        Reaches digest fingerprints candidate e) ∧
      ∃ w, (w = candidate ∨ w ∈ maximal ∧ Reaches digest fingerprints w candidate ∧
          Reaches digest fingerprints candidate w) ∧
        keepMaximal digest fingerprints maximal candidate =
          replace (Reaches digest fingerprints) maximal candidate w) := by
  rw [keepMaximal]
  simp only [List.any_map, List.filter_map, List.map_map]
  split
  · rename_i hany
    obtain ⟨e, he, hcond⟩ := List.any_eq_true.mp hany
    simp only [Function.comp_apply, Bool.and_eq_true, Bool.not_eq_true'] at hcond
    exact Or.inl ⟨⟨e, he, hcond.1, Bool.eq_false_iff.mp hcond.2⟩, rfl⟩
  · rename_i hany
    right
    have hfree : ∀ e ∈ maximal, Reaches digest fingerprints e candidate →
        Reaches digest fingerprints candidate e := by
      intro e he hreach
      by_contra hnot
      refine hany (List.any_eq_true.mpr ⟨e, he, ?_⟩)
      simp only [Function.comp_apply, Bool.and_eq_true, Bool.not_eq_true']
      exact ⟨hreach, Bool.eq_false_iff.mpr hnot⟩
    refine ⟨hfree, maxBy (coverageKey fingerprints) candidate
      (((maximal.filter ((fun x : Int × Bool × Bool => x.2.1 && x.2.2) ∘ fun existing =>
        (existing, shapeCovers digest fingerprints existing candidate,
          shapeCovers digest fingerprints candidate existing))).map (Prod.fst ∘ fun existing =>
        (existing, shapeCovers digest fingerprints existing candidate,
          shapeCovers digest fingerprints candidate existing)))), ?_, ?_⟩
    · rcases List.mem_cons.mp (maxBy_mem (coverageKey fingerprints) candidate _) with h | h
      · exact Or.inl h
      · right
        obtain ⟨e, he, heq⟩ := List.mem_map.mp h
        obtain ⟨hmem, hcond⟩ := List.mem_filter.mp he
        simp only [Function.comp_apply, Bool.and_eq_true] at hcond heq
        rw [← heq]
        exact ⟨hmem, hcond⟩
    · rw [replace]
      congr 1
      refine (List.map_id _).trans (List.filter_congr fun e _ => ?_)
      by_cases h : shapeCovers digest fingerprints candidate e = true <;>
        simp [Function.comp_apply, Reaches, h]

/-- What the loop has kept of the shapes it has been through. -/
structure Kept (digest : String → String) (fingerprints : Int → ExecutionFingerprint)
    (seen maximal : List Int) : Prop where
  subset : maximal ⊆ seen
  apart : Apart (Reaches digest fingerprints) maximal
  covered : ∀ n ∈ seen, Covered (Reaches digest fingerprints) maximal n

include hR

theorem Kept.step {seen maximal : List Int} {candidate : Int}
    (h : Kept digest fingerprints seen maximal) (hseen : seen ⊆ values)
    (hcandidate : candidate ∈ values) : Kept digest fingerprints (seen ++ [candidate])
      (keepMaximal digest fingerprints maximal candidate) := by
  have hmaximal : maximal ⊆ values := fun e he => hseen (h.subset he)
  rcases keepMaximal_cases digest fingerprints maximal candidate with
    ⟨⟨e, he, hreach, -⟩, heq⟩ | ⟨hfree, w, hw, heq⟩
  · rw [heq]
    refine ⟨fun e he => List.mem_append_left _ (h.subset he), h.apart, fun n hn => ?_⟩
    rcases List.mem_append.mp hn with hn | hn
    · exact h.covered n hn
    · rw [List.mem_singleton.mp hn]
      exact ⟨e, he, hreach⟩
  · have hstands : Stands (Reaches digest fingerprints) values candidate w := by
      rcases hw with rfl | ⟨hmem, habove, hbelow⟩
      · exact ⟨hcandidate, hR.refl w hcandidate, hR.refl w hcandidate⟩
      · exact ⟨hmaximal hmem, habove, hbelow⟩
    rw [heq]
    refine ⟨replace_subset (fun e he => List.mem_append_left _ (h.subset he)) ?_,
      apart_replace hR hmaximal hcandidate hstands h.apart hfree, fun n hn => ?_⟩
    · rcases hw with rfl | ⟨hmem, -⟩
      · exact List.mem_append_right _ (List.mem_singleton.mpr rfl)
      · exact List.mem_append_left _ (h.subset hmem)
    · rcases List.mem_append.mp hn with hn | hn
      · exact covered_replace hR hmaximal hcandidate hstands (hseen hn) (Or.inl (h.covered n hn))
      · rw [List.mem_singleton.mp hn]
        exact covered_replace hR hmaximal hcandidate hstands hcandidate
          (Or.inr (hR.refl candidate hcandidate))

/-- **The loop keeps the maximal shapes of the whole group.** -/
theorem kept_maximalShapes :
    Kept digest fingerprints values (maximalShapes digest fingerprints values) := by
  have hrun : ∀ rest seen maximal, seen ++ rest = values →
      Kept digest fingerprints seen maximal →
      Kept digest fingerprints values (rest.foldl (keepMaximal digest fingerprints) maximal) := by
    intro rest
    induction rest with
    | nil =>
        intro seen maximal hsplit h
        rw [List.append_nil] at hsplit
        exact hsplit ▸ h
    | cons candidate rest ih =>
        intro seen maximal hsplit h
        refine ih (seen ++ [candidate]) _ (by rw [List.append_assoc]; exact hsplit)
          (h.step hR (hsplit ▸ List.subset_append_left _ _) ?_)
        rw [← hsplit]
        exact List.mem_append_right _ List.mem_cons_self
  exact hrun values [] [] rfl ⟨List.nil_subset _, .nil, fun _ hn => absurd hn List.not_mem_nil⟩

/-! ## One representative of each class -/

theorem withoutClass_eq {maximal : List Int} {representative : Int}
    (happart : Apart (Reaches digest fingerprints) maximal) (hmaximal : maximal ⊆ values)
    (hmem : representative ∈ maximal) :
    withoutClass digest fingerprints representative maximal = maximal.erase representative := by
  have hnodup := happart.nodup fun c hc => hR.refl c (hmaximal hc)
  rw [hnodup.erase_eq_filter, withoutClass]
  refine List.filter_congr fun candidate hcandidate => ?_
  by_cases heq : candidate = representative
  · rw [heq, shapeCovers_self]
    simp
  · have hapart : shapeCovers digest fingerprints representative candidate = false :=
      Bool.eq_false_iff.mpr fun h => heq (happart.eq_of hmem hcandidate h).symm
    rw [hapart]
    simp [heq]

/-- Of shapes that are apart the loop takes every one. -/
theorem selectClasses_perm (selected maximal : List Int)
    (happart : Apart (Reaches digest fingerprints) maximal) (hmaximal : maximal ⊆ values) :
    (selectClasses digest fingerprints selected maximal).Perm (selected ++ maximal) := by
  induction hn : maximal.length using Nat.strong_induction_on generalizing selected maximal with
  | _ n ih =>
      cases maximal with
      | nil =>
          rw [selectClasses, List.append_nil]
      | cons first rest =>
          rw [selectClasses]
          have hmem := maxBy_mem (coverageKey fingerprints) first rest
          have hshorter := withoutClass_shorter digest fingerprints first rest
          generalize maxBy (coverageKey fingerprints) first rest = representative at hmem hshorter ⊢
          rw [withoutClass_eq hR happart hmaximal hmem] at hshorter ⊢
          have hrest := ih _ (hn ▸ hshorter) (selected ++ [representative])
            ((first :: rest).erase representative) (happart.sublist List.erase_sublist)
            (fun e he => hmaximal (List.mem_of_mem_erase he)) rfl
          rw [List.append_assoc, List.singleton_append] at hrest
          exact hrest.trans ((List.perm_cons_erase hmem).symm.append_left selected)

theorem coverShapes_perm : (coverShapes digest fingerprints values).Perm
    (maximalShapes digest fingerprints values) :=
  have hkept := kept_maximalShapes hR
  selectClasses_perm hR [] _ hkept.apart hkept.subset

/-- A cover of the shapes by some of them, with no more members than any other. -/
structure MinimumCover (digest : String → String) (fingerprints : Int → ExecutionFingerprint)
    (values cover : List Int) : Prop where
  subset : cover ⊆ values
  nodup : cover.Nodup
  covers : ∀ n ∈ values, Covered (Reaches digest fingerprints) cover n
  least : ∀ other, other ⊆ values →
    (∀ n ∈ values, Covered (Reaches digest fingerprints) other n) → cover.length ≤ other.length

/-- **The chosen shapes are a minimum cover.** -/
theorem minimumCover_coverShapes :
    MinimumCover digest fingerprints values (coverShapes digest fingerprints values) := by
  have hperm := coverShapes_perm hR
  have hkept := kept_maximalShapes hR
  refine ⟨fun n hn => hkept.subset (hperm.subset hn),
    hperm.nodup_iff.mpr (hkept.apart.nodup fun c hc => hR.refl c (hkept.subset hc)),
    fun n hn => ?_, fun other hother hcovers => ?_⟩
  · obtain ⟨c, hc, hreach⟩ := hkept.covered n hn
    exact ⟨c, hperm.symm.subset hc, hreach⟩
  · rw [hperm.length_eq]
    exact length_le_of_covers hR hkept.subset hother hkept.apart
      (fun d hd => hkept.covered d (hother hd)) fun c hc => hcovers c (hkept.subset hc)

end Select

/-! ## Padding -/

/-- Padding adds shapes of the group until there are as many as asked. -/
theorem padShapes_spec {values selected : List Int} {target : Nat} (hvalues : values.Nodup)
    (hsubset : selected ⊆ values) (hnodup : selected.Nodup) (hle : selected.length ≤ target)
    (hcount : target ≤ values.length) :
    ∃ final, padShapes values target selected = .ok final ∧ final.length = target ∧
      final.Nodup ∧ selected ⊆ final ∧ final ⊆ values := by
  induction hn : target - selected.length generalizing selected with
  | zero =>
      rw [padShapes, if_neg (by omega)]
      exact ⟨selected, rfl, by omega, hnodup, List.Subset.refl _, hsubset⟩
  | succ n ih =>
      rw [padShapes, if_pos (by omega)]
      cases hleft : values.filter (· ∉ selected) with
      | nil =>
          -- the chosen shapes would be all of them
          have hall : values ⊆ selected := by
            intro n hmem
            by_contra hnot
            have hin : n ∈ values.filter (· ∉ selected) :=
              List.mem_filter.mpr ⟨hmem, decide_eq_true hnot⟩
            rw [hleft] at hin
            exact List.not_mem_nil hin
          have hlength := (List.subperm_of_subset hvalues hall).length_le
          omega
      | cons first rest =>
          dsimp only
          have hmem := maxBy_mem (fun value =>
            (toLex (distanceTo values selected value, value) : Nat ×ₗ Int)) first rest
          generalize maxBy (fun value =>
            (toLex (distanceTo values selected value, value) : Nat ×ₗ Int)) first rest =
              candidate at hmem ⊢
          rw [← hleft] at hmem
          obtain ⟨hvalue, hnew⟩ := List.mem_filter.mp hmem
          have hlength : (selected ++ [candidate]).length = selected.length + 1 := by simp
          have hmore : selected ++ [candidate] ⊆ values := List.append_subset.mpr
            ⟨hsubset, fun n hn => List.mem_singleton.mp hn ▸ hvalue⟩
          have hdistinct : (selected ++ [candidate]).Nodup :=
            hnodup.append (List.nodup_singleton _) (by simpa using hnew)
          obtain ⟨final, hok, hfinal, hdistinct, hsub, hin⟩ :=
            ih hmore hdistinct (by omega) (by omega)
          exact ⟨final, hok, hfinal, hdistinct,
            List.Subset.trans (List.subset_append_left _ _) hsub, hin⟩

/-- **The representatives of a group.**  What is chosen before padding is a minimum cover,
and the selection has the shapes asked for, or the whole cover, or all shapes. -/
theorem select_minimum_cover {policy : String} {values : List Int}
    {fingerprints : Int → ExecutionFingerprint}
    (hgroup : Grouped digest policy values fingerprints)
    (hfree : CollisionFree digest (groupDocuments digest policy values fingerprints))
    (requestedCount : Int) :
    MinimumCover digest fingerprints values (coverShapes digest fingerprints values) ∧
    ∃ final,
      selectCoverageRepresentatives digest fingerprints values requestedCount = .ok final ∧
      final.length = min (values.length : Int)
        (max requestedCount (coverShapes digest fingerprints values).length) ∧
      final.Nodup ∧ coverShapes digest fingerprints values ⊆ final ∧ final ⊆ values := by
  have hcover := minimumCover_coverShapes (preorderOn_group hgroup hfree)
  have hvalues : values.Nodup := hgroup.increasing.imp ne_of_lt
  have hle := (List.subperm_of_subset hcover.nodup hcover.subset).length_le
  refine ⟨hcover, ?_⟩
  rw [selectCoverageRepresentatives, if_neg hgroup.nonempty]
  dsimp only
  generalize coverShapes digest fingerprints values = cover at hcover hle ⊢
  -- the assertion does not fail
  have hall : ¬values.any (fun target =>
      !cover.any fun representative => shapeCovers digest fingerprints representative target) =
        true := by
    intro hany
    obtain ⟨n, hn, hnot⟩ := List.any_eq_true.mp hany
    obtain ⟨c, hc, hreach⟩ := hcover.covers n hn
    have hthere : cover.any (fun representative =>
        shapeCovers digest fingerprints representative n) = true :=
      List.any_eq_true.mpr ⟨c, hc, hreach⟩
    rw [hthere] at hnot
    exact Bool.false_ne_true hnot
  have hcount : cover.length ≤ min values.length (max requestedCount cover.length).toNat := by
    omega
  obtain ⟨final, hok, hlength, hnodup, hsub, hin⟩ := padShapes_spec hvalues hcover.subset
    hcover.nodup hcount (Nat.min_le_left _ _)
  have hsorted := List.perm_insertionSort (· ≤ ·) final
  refine ⟨final.insertionSort (· ≤ ·), ?_, ?_, hsorted.nodup_iff.mpr hnodup,
    fun n hn => hsorted.symm.subset (hsub hn), fun n hn => hin (hsorted.subset hn)⟩
  · rw [if_neg hall]
    rw [hok]
    rfl
  · rw [hsorted.length_eq, hlength]
    omega

/-- The key of a product, with nothing that scales. -/
theorem productDocument_eq {algorithm : String} {n : Int}
    (h : compressionReady (product algorithm n) = true) :
    productDocument algorithm n = .obj [("equivalence", .str "plan_and_pressure"),
      ("fingerprint", .obj (projectedMembers (product algorithm 0)))] := by
  rw [productDocument, regimeDocument, if_neg (by decide), h, projected_eq]
  rfl

theorem productDocument_sixteen :
    productDocument "stream_k" 16 = productDocument "stream_k" 8 := by
  rw [productDocument_eq (by decide +kernel), productDocument_eq (by decide +kernel)]

theorem grouped_product : Grouped paddedDigest "plan_and_pressure" [8, 16] (product "stream_k")
    where
  nonempty := List.cons_ne_nil _ _
  increasing := by decide
  created n _ := created_product _ n
  sameKey := by
    have hkey : ∀ n ∈ [(8 : Int), 16], regimeEquivalenceKey paddedDigest "plan_and_pressure"
        (product "stream_k" n) n = digestOf paddedDigest (productDocument "stream_k" 8) := by
      intro n hn
      rcases List.mem_pair.mp hn with rfl | rfl
      · rfl
      · rw [← productDocument_sixteen, regimeEquivalenceKey, productDocument]
    intro a ha b hb
    rw [hkey a ha, hkey b hb]

/-- Documents among those of the sample do not share a padded digest. -/
theorem collisionFree_sample {documents : Set Json}
    (h : ∀ v ∈ documents, v ∈ sampleDocuments) : CollisionFree paddedDigest documents := by
  intro v hv w hw heq
  rw [eq_of_leading (h v hv) (h w hw) (by rw [leading, leading, heq])]

theorem collisionFree_product : CollisionFree paddedDigest
    (groupDocuments paddedDigest "plan_and_pressure" [8, 16] (product "stream_k")) := by
  refine collisionFree_sample ?_
  rintro v ⟨n, hn, hv⟩
  rw [← productDocument] at hv
  rcases List.mem_pair.mp hn with hn | hn <;> rcases hv with hv | hv <;> rw [hv, hn]
  · simp [sampleDocuments]
  · exact productDocument_mem.1
  · simp [sampleDocuments]
  · rw [productDocument_sixteen]
    exact productDocument_mem.1

theorem select_minimum_cover_product :
    MinimumCover paddedDigest (product "stream_k") [8, 16]
      (coverShapes paddedDigest (product "stream_k") [8, 16]) ∧
    ∃ final, selectCoverageRepresentatives paddedDigest (product "stream_k") [8, 16] 1 =
        .ok final ∧
      final.length = min (([8, 16] : List Int).length : Int)
        (max 1 (coverShapes paddedDigest (product "stream_k") [8, 16]).length) ∧
      final.Nodup ∧ coverShapes paddedDigest (product "stream_k") [8, 16] ⊆ final ∧
      final ⊆ [8, 16] :=
  select_minimum_cover grouped_product collisionFree_product 1

end LmResiliency.Detection.MoE
