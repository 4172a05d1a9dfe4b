/-
# Suspect — when a round of timings singles an endpoint out

`observe` localizes an endpoint exactly when, of all resource classes with
slow groups, one has a single surviving endpoint and every other one is
passed over: it has enough slow groups of different incidence, but the
endpoints they share are exonerated and no endpoint lies on enough of them.
Slow groups of a class passed over stay unexplained, and the localization
stands all the same.
-/
import Mathlib.Data.Finset.Card
import Mathlib.Data.List.GetD
import LmResiliency.Detection.Localizer

namespace LmResiliency.Detection.CommunicationLocalizer

open Outcome

variable (L : CommunicationLocalizer)

/-! ## Incidence -/

/-- The roster has the endpoints of all members. -/
def Resolves (o : CollectiveObservation) : Prop := ∃ rs, L.resources o = .ok rs

/-- The endpoints a group lies on. -/
def resourceSet (o : CollectiveObservation) : List String := (L.resources o).toOption.getD []

/-- The slow groups of a resource class. -/
def slowOf (r : Round) (k : String × ResourceKind) : List CollectiveObservation :=
  (L.slow r).filter (·.classKey = k)

/-- The healthy groups of a resource class. -/
def healthyOf (r : Round) (k : String × ResourceKind) : List CollectiveObservation :=
  (L.healthy r).filter (·.classKey = k)

/-- Enough slow groups, not all of the same incidence. -/
def Enough (cs : List CollectiveObservation) : Prop :=
  L.minSlowGroups ≤ (groupIds cs).length ∧
    ∃ o ∈ cs, ∃ o' ∈ cs, ¬∀ x, x ∈ L.resourceSet o ↔ x ∈ L.resourceSet o'

/-- An endpoint on every slow group and on no healthy one. -/
def Survives (cs ch : List CollectiveObservation) (x : String) : Prop :=
  (∀ o ∈ cs, x ∈ L.resourceSet o) ∧ ∀ o ∈ ch, x ∉ L.resourceSet o

/-- An endpoint on enough slow groups and on no healthy one. -/
def Supported (cs ch : List CollectiveObservation) (x : String) : Prop :=
  L.minSlowGroups ≤ (groupIds (cs.filter (x ∈ L.resourceSet ·))).length ∧
    ∀ o ∈ ch, x ∉ L.resourceSet o

variable {L}

theorem resources_eq {o : CollectiveObservation} (h : L.Resolves o) :
    L.resources o = .ok (L.resourceSet o) := by
  obtain ⟨rs, hrs⟩ := h
  rw [resourceSet, hrs]
  rfl

theorem mapM_resources {os : List CollectiveObservation} (h : ∀ o ∈ os, L.Resolves o) :
    os.mapM L.resources = .ok (os.map L.resourceSet) :=
  mapM_eq_map fun o ho => resources_eq (h o ho)

theorem resolves_of_mapM {os : List CollectiveObservation} {sets : List (List String)}
    (h : os.mapM L.resources = .ok sets) : ∀ o ∈ os, L.Resolves o := by
  intro o ho
  obtain ⟨rs, -, hrs⟩ := (mem_of_forall₂ (mapM_ok_iff.mp h)).1 o ho
  exact ⟨rs, hrs⟩

/-- Where the set of a group is found, so are those of its members. -/
theorem resourcesForMember_total {o : CollectiveObservation} (h : L.Resolves o) {index : Nat}
    (hindex : index < o.members.length) : ∃ rs, L.resourcesForMember o index = .ok rs := by
  obtain ⟨all, hall⟩ := h
  unfold resources at hall
  unfold resourcesForMember
  cases hm : o.memberResources with
  | some resources => exact ⟨_, rfl⟩
  | none =>
      rw [hm] at hall
      by_cases hk : o.resourceKind = .rank
      · exact ⟨[o.members.getD index ""], by simp [hk]⟩
      · simp only [hk, if_false] at hall ⊢
        obtain ⟨es, hes, -⟩ := bind_ok_iff.mp hall
        have hin : o.members.getD index "" ∈ o.members := by
          rw [List.getD_eq_getElem _ _ hindex]
          exact List.getElem_mem hindex
        obtain ⟨e, -, he⟩ := (mem_of_forall₂ (mapM_ok_iff.mp hes)).1 _ hin
        exact ⟨[e], bind_ok_iff.mpr ⟨e, he, rfl⟩⟩

/-! ## Candidates -/

theorem candidate_fingerprint {x : String} {k : String × ResourceKind}
    {cs : List CollectiveObservation} {sets : List (List String)} {c : EndpointCandidate}
    (h : L.candidate x k cs sets = .ok c) : c.fingerprint = (k.1, k.2, x) := by
  obtain ⟨ranks, -, hc⟩ := bind_ok_iff.mp h
  rw [← Except.ok.inj hc]
  rfl

theorem candidate_total {cs : List CollectiveObservation} (h : ∀ o ∈ cs, L.Resolves o)
    (x : String) (k : String × ResourceKind) (sets : List (List String)) :
    ∃ c, L.candidate x k cs sets = .ok c := by
  have hranks : ∀ o ∈ cs, ∃ rs : List (List String), (o.members.zipIdx.mapM fun m => do
      return if x ∈ (← L.resourcesForMember o m.2) then [m.1] else []) = .ok rs := by
    intro o ho
    refine mapM_total fun m hm => ?_
    obtain ⟨rs, hrs⟩ := resourcesForMember_total (h o ho) (List.snd_lt_of_mem_zipIdx hm)
    exact ⟨_, bind_ok_iff.mpr ⟨rs, hrs, rfl⟩⟩
  obtain ⟨ranks, hok⟩ := mapM_total hranks
  exact ⟨_, bind_ok_iff.mpr ⟨ranks, hok, rfl⟩⟩

/-! ## One resource class -/

theorem mem_intersection {sets : List (List String)} {x : String} :
    x ∈ intersection sets ↔ sets ≠ [] ∧ ∀ s ∈ sets, x ∈ s := by
  cases sets with
  | nil => simp [intersection]
  | cons s sets => simp [intersection]

theorem nodup_resourceSet (o : CollectiveObservation) : (L.resourceSet o).Nodup := by
  unfold resourceSet
  cases h : L.resources o with
  | error e => exact List.nodup_nil
  | ok rs =>
      show rs.Nodup
      unfold resources at h
      cases hm : o.memberResources with
      | some resources =>
          rw [hm] at h
          obtain ⟨perMember, -, hrs⟩ := bind_ok_iff.mp h
          exact Except.ok.inj hrs ▸ List.nodup_dedup _
      | none =>
          rw [hm] at h
          by_cases hk : o.resourceKind = .rank
          · simp only [hk, if_true] at h
            exact Except.ok.inj h ▸ List.nodup_dedup _
          · simp only [hk, if_false] at h
            obtain ⟨es, -, hrs⟩ := bind_ok_iff.mp h
            exact Except.ok.inj hrs ▸ List.nodup_dedup _

theorem nodup_intersection {cs : List CollectiveObservation} :
    (intersection (cs.map L.resourceSet)).Nodup := by
  cases cs with
  | nil => exact List.nodup_nil
  | cons o cs => exact (nodup_resourceSet o).filter _

theorem patterns_iff {cs : List CollectiveObservation} :
    ¬((cs.map L.resourceSet).map List.toFinset).dedup.length < 2 ↔
      ∃ o ∈ cs, ∃ o' ∈ cs, ¬∀ x, x ∈ L.resourceSet o ↔ x ∈ L.resourceSet o' := by
  rw [← List.card_toFinset, Nat.not_lt, Nat.succ_le_iff, Finset.one_lt_card]
  simp only [List.mem_toFinset, List.map_map, List.mem_map, Function.comp_apply, ne_eq]
  constructor
  · rintro ⟨_, ⟨o, ho, rfl⟩, _, ⟨o', ho', rfl⟩, hne⟩
    exact ⟨o, ho, o', ho', fun h => hne (by ext x; simpa using h x)⟩
  · rintro ⟨o, ho, o', ho', hne⟩
    refine ⟨_, ⟨o, ho, rfl⟩, _, ⟨o', ho', rfl⟩, fun h => hne fun x => ?_⟩
    simpa using congrArg (x ∈ ·) h

theorem mem_supportEntries {cs : List CollectiveObservation} {healthyResources : List String}
    {p : String × String} :
    p ∈ (cs.zip (cs.map L.resourceSet)).flatMap (fun p =>
        (p.2.filter (· ∉ healthyResources)).map fun r => (r, p.1.groupId)) ↔
      ∃ o ∈ cs, p.1 ∈ L.resourceSet o ∧ p.1 ∉ healthyResources ∧ o.groupId = p.2 := by
  rw [← List.map_prod_left_eq_zip]
  simp only [List.mem_flatMap, List.mem_map, List.mem_filter]
  constructor
  · rintro ⟨_, ⟨o, ho, rfl⟩, r, ⟨hr, hnot⟩, rfl⟩
    exact ⟨o, ho, hr, by simpa using hnot, rfl⟩
  · rintro ⟨o, ho, hr, hnot, hid⟩
    exact ⟨_, ⟨o, ho, rfl⟩, p.1, ⟨hr, by simpa using hnot⟩, Prod.ext rfl hid⟩

/-- The support of an endpoint counts the slow groups it lies on. -/
theorem supportSize_eq {cs : List CollectiveObservation} {healthyResources : List String}
    {x : String} {ys : List (String × String)}
    (h : (x, ys) ∈ support cs (cs.map L.resourceSet) healthyResources) :
    x ∉ healthyResources ∧
      supportSize (x, ys) = (groupIds (cs.filter (x ∈ L.resourceSet ·))).length := by
  obtain ⟨rfl, hne⟩ := Dict.mem_group.mp h
  obtain ⟨p, hp⟩ := List.exists_mem_of_ne_nil _ hne
  obtain ⟨hp, hpx⟩ := List.mem_filter.mp hp
  obtain ⟨o, -, -, hnot, -⟩ := mem_supportEntries.mp hp
  have hx : x ∉ healthyResources := of_decide_eq_true hpx ▸ hnot
  refine ⟨hx, ?_⟩
  rw [supportSize, groupIds, ← List.card_toFinset, ← List.card_toFinset]
  congr 1
  ext g
  simp only [List.mem_toFinset, List.mem_map, List.mem_filter, mem_supportEntries]
  constructor
  · rintro ⟨⟨y, g'⟩, ⟨⟨o, ho, hy, -, hid⟩, hyx⟩, rfl⟩
    have hyx : y = x := of_decide_eq_true hyx
    exact ⟨o, ⟨ho, decide_eq_true (hyx ▸ hy)⟩, hid⟩
  · rintro ⟨o, ⟨ho, hy⟩, hid⟩
    exact ⟨(x, g), ⟨⟨o, ho, of_decide_eq_true hy, hx, hid⟩, decide_eq_true rfl⟩, rfl⟩

/-- An endpoint on a slow group and on no healthy one has an entry. -/
theorem mem_support {cs : List CollectiveObservation} {healthyResources : List String}
    {x : String} {o : CollectiveObservation} (ho : o ∈ cs) (hxo : x ∈ L.resourceSet o)
    (hx : x ∉ healthyResources) :
    ∃ ys, (x, ys) ∈ support cs (cs.map L.resourceSet) healthyResources := by
  refine ⟨_, Dict.mem_group.mpr ⟨rfl, List.ne_nil_of_mem (a := (x, o.groupId)) ?_⟩⟩
  exact List.mem_filter.mpr
    ⟨mem_supportEntries.mpr ⟨o, ho, hxo, hx, rfl⟩, decide_eq_true rfl⟩

theorem notMem_flatten {ch : List CollectiveObservation} {x : String} :
    x ∉ (ch.map L.resourceSet).flatten ↔ ∀ o ∈ ch, x ∉ L.resourceSet o := by
  simp

/-- Some endpoint has enough support just when there is one to report. -/
theorem no_support_iff {cs ch : List CollectiveObservation} :
    (ranked (support cs (cs.map L.resourceSet) (ch.map L.resourceSet).flatten)).filter
        (L.minSlowGroups ≤ supportSize ·) = [] ↔ ∀ x, ¬L.Supported cs ch x := by
  rw [List.filter_eq_nil_iff]
  constructor
  · intro h x ⟨hcount, hhealthy⟩
    have hmin : 2 ≤ L.minSlowGroups := L.positive.2.1
    have hsome : cs.filter (x ∈ L.resourceSet ·) ≠ [] := by
      intro hnil
      rw [hnil] at hcount
      exact absurd (hmin.trans hcount) (by decide)
    obtain ⟨o, ho⟩ := List.exists_mem_of_ne_nil _ hsome
    obtain ⟨ho, hxo⟩ := List.mem_filter.mp ho
    obtain ⟨ys, hys⟩ :=
      mem_support ho (of_decide_eq_true hxo) (notMem_flatten.mpr hhealthy)
    refine h (x, ys) ?_ (decide_eq_true ?_)
    · rw [ranked, List.mem_insertionSort]
      exact hys
    · rw [(supportSize_eq hys).2]
      exact hcount
  · rintro h ⟨x, ys⟩ hin hsize
    rw [ranked, List.mem_insertionSort] at hin
    obtain ⟨hx, hcount⟩ := supportSize_eq hin
    exact h x ⟨hcount ▸ of_decide_eq_true hsize, notMem_flatten.mp hx⟩

/-- What the judgement of one class amounts to. -/
structure Judged (k : String × ResourceKind) (cs ch : List CollectiveObservation)
    (f : Finding) : Prop where
  enough : f.insufficient = [] ↔ L.Enough cs
  survivors : L.Enough cs → ∃ common : List String, common.Nodup ∧
    (∀ x, x ∈ common ↔ L.Survives cs ch x) ∧
    f.exactCandidates.map EndpointCandidate.fingerprint = common.map fun x => (k.1, k.2, x)
  partials : L.Enough cs → (f.partialCandidates = [] ↔
    (∃ x, L.Survives cs ch x) ∨ ∀ x, ¬L.Supported cs ch x)

/-- A class that lacks evidence is judged by that alone. -/
theorem judged_of_not_enough {k : String × ResourceKind} {cs ch : List CollectiveObservation}
    {f : Finding} (hf : f.insufficient ≠ []) (h : ¬L.Enough cs) : Judged (L := L) k cs ch f :=
  ⟨⟨fun hnil => absurd hnil hf, fun henough => absurd henough h⟩,
    fun henough => absurd henough h, fun henough => absurd henough h⟩

theorem mem_common {cs ch : List CollectiveObservation} (hne : cs ≠ []) {x : String} :
    x ∈ (intersection (cs.map L.resourceSet)).filter
        (· ∉ (ch.map L.resourceSet).flatten) ↔ L.Survives cs ch x := by
  rw [List.mem_filter, mem_intersection, decide_eq_true_iff, notMem_flatten, Survives]
  simp [hne]

theorem map_fingerprint {k : String × ResourceKind} {cs : List CollectiveObservation}
    {sets : List (List String)} {xs : List String} {found : List EndpointCandidate}
    (h : xs.mapM (fun x => L.candidate x k cs sets) = .ok found) :
    found.map EndpointCandidate.fingerprint = xs.map fun x => (k.1, k.2, x) := by
  induction mapM_ok_iff.mp h with
  | nil => rfl
  | @cons x c xs found hc _ ih =>
      rw [List.map_cons, List.map_cons, candidate_fingerprint hc, ih ?_]
      exact mapM_ok_iff.mpr ‹_›

theorem judge_total {k : String × ResourceKind} {cs ch : List CollectiveObservation}
    (hne : cs ≠ []) (hcs : ∀ o ∈ cs, L.Resolves o)
    (hch : L.Enough cs → ∀ o ∈ ch, L.Resolves o) :
    ∃ f, L.judge k cs ch = .ok f ∧ Judged (L := L) k cs ch f := by
  unfold judge
  rw [mapM_resources hcs]
  simp only [bind, Except.bind]
  by_cases hcount : (groupIds cs).length < L.minSlowGroups
  · rw [if_pos hcount]
    exact ⟨_, rfl, judged_of_not_enough (List.cons_ne_nil _ _)
      fun h => absurd h.1 (Nat.not_le.mpr hcount)⟩
  rw [if_neg hcount]
  by_cases hpat : ((cs.map L.resourceSet).map List.toFinset).dedup.length < 2
  · rw [if_pos hpat]
    exact ⟨_, rfl, judged_of_not_enough (List.cons_ne_nil _ _)
      fun h => patterns_iff.mpr h.2 hpat⟩
  have henough : L.Enough cs := ⟨Nat.not_lt.mp hcount, patterns_iff.mp hpat⟩
  rw [if_neg hpat, mapM_resources (hch henough)]
  dsimp only
  have hnodup : ((intersection (cs.map L.resourceSet)).filter
      (· ∉ (ch.map L.resourceSet).flatten)).Nodup := nodup_intersection.filter _
  have hmem : ∀ x, x ∈ (intersection (cs.map L.resourceSet)).filter
      (· ∉ (ch.map L.resourceSet).flatten) ↔ L.Survives cs ch x := fun x => mem_common hne
  revert hnodup hmem
  generalize (intersection (cs.map L.resourceSet)).filter
    (· ∉ (ch.map L.resourceSet).flatten) = common
  intro hnodup hmem
  by_cases hcommon : common = []
  · -- nothing survives: the endpoints are ranked by their support
    subst hcommon
    have htotal : ∃ found, ((ranked (support cs (cs.map L.resourceSet)
        (ch.map L.resourceSet).flatten)).filter (L.minSlowGroups ≤ supportSize ·)).mapM
        (fun e => L.candidate e.1 k cs (cs.map L.resourceSet)) = .ok found :=
      mapM_total fun e _ => candidate_total hcs e.1 k (cs.map L.resourceSet)
    obtain ⟨found, hfound⟩ := htotal
    have hnone : ∀ x, ¬L.Survives cs ch x := fun x hx => List.not_mem_nil ((hmem x).mpr hx)
    refine ⟨_, by simp only [ne_eq, not_true, if_false, hfound]; rfl,
      ⟨iff_of_true rfl henough, fun _ => ⟨[], hnodup, hmem, rfl⟩, fun _ => ?_⟩⟩
    have hlength : found = [] ↔ ∀ x, ¬L.Supported cs ch x := by
      rw [← no_support_iff, ← List.length_eq_zero_iff, length_mapM hfound,
        List.length_eq_zero_iff]
    exact hlength.trans ⟨Or.inr, fun h => h.resolve_left fun ⟨x, hx⟩ => hnone x hx⟩
  · have htotal : ∃ found, common.mapM (fun x => L.candidate x k cs (cs.map L.resourceSet)) =
        .ok found :=
      mapM_total fun x _ => candidate_total hcs x k (cs.map L.resourceSet)
    obtain ⟨found, hfound⟩ := htotal
    obtain ⟨x, hx⟩ := List.exists_mem_of_ne_nil _ hcommon
    refine ⟨_, by simp only [ne_eq, hcommon, not_false_iff, if_true, hfound]; rfl,
      ⟨iff_of_true rfl henough, fun _ => ⟨common, hnodup, hmem, map_fingerprint hfound⟩,
        fun _ => iff_of_true rfl (Or.inl ⟨x, (hmem x).mp hx⟩)⟩⟩

/-- A judgement that is reached has looked up what it needed. -/
theorem resolves_of_judge {k : String × ResourceKind} {cs ch : List CollectiveObservation}
    {f : Finding} (h : L.judge k cs ch = .ok f) :
    (∀ o ∈ cs, L.Resolves o) ∧ (L.Enough cs → ∀ o ∈ ch, L.Resolves o) := by
  unfold judge at h
  obtain ⟨sets, hsets, hrest⟩ := bind_ok_iff.mp h
  have hcs := resolves_of_mapM hsets
  refine ⟨hcs, fun henough => ?_⟩
  rw [mapM_resources hcs] at hsets
  cases Except.ok.inj hsets
  rw [if_neg (Nat.not_lt.mpr henough.1), if_neg (patterns_iff.mpr henough.2)] at hrest
  obtain ⟨healthySets, hhealthy, -⟩ := bind_ok_iff.mp hrest
  exact resolves_of_mapM hhealthy

/-! ## All resource classes -/

variable (L)

/-- The resource classes with slow groups. -/
def slowClasses (r : Round) : List (String × ResourceKind) :=
  (Dict.group CollectiveObservation.classKey (L.slow r)).map Prod.fst

/-- The roster has every endpoint the round asks for. -/
def Answered (r : Round) : Prop :=
  ∀ k ∈ L.slowClasses r, (∀ o ∈ L.slowOf r k, L.Resolves o) ∧
    (L.Enough (L.slowOf r k) → ∀ o ∈ L.healthyOf r k, L.Resolves o)

/-- The class of an endpoint. -/
def Fingerprint.classKey (f : Fingerprint) : String × ResourceKind := (f.1, f.2.1)

/-- An endpoint on every slow group of its class and on no healthy group of it. -/
def SurvivesIn (r : Round) (f : Fingerprint) : Prop :=
  Fingerprint.classKey f ∈ L.slowClasses r ∧
    L.Survives (L.slowOf r (Fingerprint.classKey f)) (L.healthyOf r (Fingerprint.classKey f)) f.2.2

/-- The round singles an endpoint out: it alone survives, and the other classes
are passed over. -/
structure SinglesOut (r : Round) (f : Fingerprint) : Prop where
  answered : L.Answered r
  enough : ∀ k ∈ L.slowClasses r, L.Enough (L.slowOf r k)
  sole : ∀ g, L.SurvivesIn r g ↔ g = f
  unsupported : ∀ k ∈ L.slowClasses r, k ≠ Fingerprint.classKey f →
    ∀ x, ¬L.Supported (L.slowOf r k) (L.healthyOf r k) x

variable {L}

theorem mem_slowClasses {r : Round} {k : String × ResourceKind} :
    k ∈ L.slowClasses r ↔ L.slowOf r k ≠ [] := by
  rw [slowClasses, List.mem_map]
  constructor
  · rintro ⟨e, he, rfl⟩
    obtain ⟨hfilter, hne⟩ := Dict.mem_group.mp (show (e.1, e.2) ∈ _ from he)
    show (L.slow r).filter (·.classKey = e.1) ≠ []
    exact hfilter ▸ hne
  · intro h
    exact ⟨(k, L.slowOf r k), Dict.mem_group.mpr ⟨rfl, h⟩, rfl⟩

theorem findings_ok_iff {r : Round} {fs : List Finding} :
    L.findings r = .ok fs ↔ List.Forall₂
      (fun k f => L.judge k (L.slowOf r k) (L.healthyOf r k) = .ok f) (L.slowClasses r) fs := by
  have hentries : Dict.group CollectiveObservation.classKey (L.slow r) =
      (L.slowClasses r).map fun k => (k, L.slowOf r k) := by
    rw [slowClasses, List.map_map]
    refine (List.map_id _).symm.trans (List.map_congr_left fun e he => ?_)
    exact Prod.ext rfl (Dict.mem_group.mp (show (e.1, e.2) ∈ _ from he)).1
  rw [findings, hentries, mapM_ok_iff, List.forall₂_map_left_iff]
  simp only [Dict.get_group, healthyOf]

theorem findings_total {r : Round} (h : L.Answered r) : ∃ fs, L.findings r = .ok fs ∧
    List.Forall₂ (fun k f => Judged (L := L) k (L.slowOf r k) (L.healthyOf r k) f)
      (L.slowClasses r) fs := by
  have hone : ∀ k ∈ L.slowClasses r, ∃ f, L.judge k (L.slowOf r k) (L.healthyOf r k) = .ok f ∧
      Judged (L := L) k (L.slowOf r k) (L.healthyOf r k) f := fun k hk =>
    judge_total (mem_slowClasses.mp hk) (h k hk).1 (h k hk).2
  obtain ⟨fs, hfs⟩ := mapM_total fun k hk => (hone k hk).imp fun _ hf => hf.1
  have hpairs := mapM_ok_iff.mp hfs
  refine ⟨fs, findings_ok_iff.mpr hpairs, ?_⟩
  have hall : ∀ k ∈ L.slowClasses r, ∀ f, L.judge k (L.slowOf r k) (L.healthyOf r k) = .ok f →
      Judged (L := L) k (L.slowOf r k) (L.healthyOf r k) f := by
    intro k hk f hf
    obtain ⟨f', hf', hj⟩ := hone k hk
    exact Except.ok.inj (hf.symm.trans hf') ▸ hj
  exact (List.forall₂_and_left _ _ |>.mpr ⟨hall, hpairs⟩).imp fun _ _ hf => hf.1 _ hf.2

theorem answered_of_findings {r : Round} {fs : List Finding} (h : L.findings r = .ok fs) :
    L.Answered r := by
  intro k hk
  obtain ⟨f, -, hf⟩ := (mem_of_forall₂ (findings_ok_iff.mp h)).1 k hk
  exact resolves_of_judge hf

theorem survivors_of_judged {r : Round} {ks : List (String × ResourceKind)} {fs : List Finding}
    (hks : ks.Nodup) (henough : ∀ k ∈ ks, L.Enough (L.slowOf r k))
    (h : List.Forall₂
      (fun k f => Judged (L := L) k (L.slowOf r k) (L.healthyOf r k) f) ks fs) :
    ((fs.flatMap Finding.exactCandidates).map EndpointCandidate.fingerprint).Nodup ∧
      ∀ g, g ∈ (fs.flatMap Finding.exactCandidates).map EndpointCandidate.fingerprint ↔
        Fingerprint.classKey g ∈ ks ∧ L.Survives (L.slowOf r (Fingerprint.classKey g))
          (L.healthyOf r (Fingerprint.classKey g)) g.2.2 := by
  induction h with
  | nil => exact ⟨List.nodup_nil, fun g => by simp⟩
  | @cons k f ks fs hkf _ ih =>
      rw [List.nodup_cons] at hks
      obtain ⟨hnodup, hmem⟩ := ih hks.2 fun k' hk' => henough k' (List.mem_cons_of_mem k hk')
      obtain ⟨common, hcommon, hin, hmap⟩ := hkf.survivors (henough k List.mem_cons_self)
      rw [List.flatMap_cons, List.map_append, hmap]
      have hfirst : ∀ g, g ∈ common.map (fun x => ((k.1, k.2, x) : Fingerprint)) ↔
          Fingerprint.classKey g = k ∧ L.Survives (L.slowOf r k) (L.healthyOf r k) g.2.2 := by
        intro g
        rw [List.mem_map]
        constructor
        · rintro ⟨x, hx, rfl⟩
          exact ⟨rfl, (hin x).mp hx⟩
        · rintro ⟨rfl, hg⟩
          exact ⟨g.2.2, (hin _).mpr hg, rfl⟩
      constructor
      · refine List.nodup_append.mpr ⟨hcommon.map ?_, hnodup, fun g hg g' hg' heq => ?_⟩
        · intro x y hxy
          exact congrArg (fun f : Fingerprint => f.2.2) hxy
        · have hk := ((hmem g').mp hg').1
          rw [← heq, ((hfirst g).mp hg).1] at hk
          exact hks.1 hk
      · intro g
        rw [List.mem_append, hfirst, hmem, List.mem_cons]
        constructor
        · rintro (⟨rfl, hg⟩ | ⟨hk, hg⟩)
          · exact ⟨Or.inl rfl, hg⟩
          · exact ⟨Or.inr hk, hg⟩
        · rintro ⟨hk | hk, hg⟩
          · exact Or.inl ⟨hk, hk ▸ hg⟩
          · exact Or.inr ⟨hk, hg⟩

/-- The only endpoint of a list of distinct ones. -/
theorem map_eq_singleton_iff {cs : List EndpointCandidate} {fp : Fingerprint}
    (hnodup : (cs.map EndpointCandidate.fingerprint).Nodup) :
    (∃ c, cs = [c] ∧ c.fingerprint = fp) ↔
      ∀ g, g ∈ cs.map EndpointCandidate.fingerprint ↔ g = fp := by
  constructor
  · rintro ⟨c, rfl, rfl⟩ g
    simp
  · intro h
    have hperm : (cs.map EndpointCandidate.fingerprint).Perm [fp] :=
      (List.perm_ext_iff_of_nodup hnodup (List.nodup_singleton fp)).mpr fun g => by
        rw [h, List.mem_singleton]
    obtain ⟨c, hc, hfp⟩ := List.map_eq_singleton_iff.mp (List.perm_singleton.mp hperm)
    exact ⟨c, hc, hfp⟩

/-- What `observe` needs to localize an endpoint. -/
def Sole (found : List Finding) (c : EndpointCandidate) : Prop :=
  found.flatMap Finding.exactCandidates = [c] ∧
    found.flatMap Finding.partialCandidates = [] ∧ found.flatMap Finding.insufficient = []

/-- **The findings are of one endpoint exactly when the round singles it out.** -/
theorem sole_iff {r : Round} {fs : List Finding} (h : L.findings r = .ok fs)
    (fp : Fingerprint) : (∃ c, Sole fs c ∧ c.fingerprint = fp) ↔ L.SinglesOut r fp := by
  have hanswered := answered_of_findings h
  obtain ⟨fs', hfs', hjudged⟩ := findings_total hanswered
  cases Except.ok.inj (h.symm.trans hfs')
  have hks : (L.slowClasses r).Nodup := Dict.nodup_keys_group _ _
  have hclass := mem_of_forall₂ hjudged
  have hins : fs.flatMap Finding.insufficient = [] ↔
      ∀ k ∈ L.slowClasses r, L.Enough (L.slowOf r k) := by
    rw [List.flatMap_eq_nil_iff]
    constructor
    · intro hnil k hk
      obtain ⟨f, hf, hj⟩ := hclass.1 k hk
      exact hj.enough.mp (hnil f hf)
    · intro henough f hf
      obtain ⟨k, hk, hj⟩ := hclass.2 f hf
      exact hj.enough.mpr (henough k hk)
  have hpart : (∀ k ∈ L.slowClasses r, L.Enough (L.slowOf r k)) →
      (fs.flatMap Finding.partialCandidates = [] ↔ ∀ k ∈ L.slowClasses r,
        (∃ x, L.Survives (L.slowOf r k) (L.healthyOf r k) x) ∨
          ∀ x, ¬L.Supported (L.slowOf r k) (L.healthyOf r k) x) := by
    intro henough
    rw [List.flatMap_eq_nil_iff]
    constructor
    · intro hnil k hk
      obtain ⟨f, hf, hj⟩ := hclass.1 k hk
      exact (hj.partials (henough k hk)).mp (hnil f hf)
    · intro hall f hf
      obtain ⟨k, hk, hj⟩ := hclass.2 f hf
      exact (hj.partials (henough k hk)).mpr (hall k hk)
  constructor
  · rintro ⟨c, ⟨hexact, hpartial, hinsufficient⟩, hfp⟩
    have henough := hins.mp hinsufficient
    obtain ⟨hnodup, hmem⟩ := survivors_of_judged hks henough hjudged
    have hsole := (map_eq_singleton_iff hnodup).mp ⟨c, hexact, hfp⟩
    have hunique : ∀ g, L.SurvivesIn r g ↔ g = fp := fun g => (hmem g).symm.trans (hsole g)
    refine ⟨hanswered, henough, hunique, fun k hk hne => ?_⟩
    refine ((hpart henough).mp hpartial k hk).resolve_left ?_
    rintro ⟨x, hx⟩
    have hg := (hunique (k.1, k.2, x)).mp ⟨hk, hx⟩
    exact hne (congrArg Fingerprint.classKey hg)
  · intro hs
    obtain ⟨hnodup, hmem⟩ := survivors_of_judged hks hs.enough hjudged
    obtain ⟨c, hexact, hfp⟩ := (map_eq_singleton_iff hnodup).mpr
      fun g => (hmem g).trans (hs.sole g)
    refine ⟨c, ⟨hexact, (hpart hs.enough).mpr fun k hk => ?_, hins.mpr hs.enough⟩, hfp⟩
    rcases eq_or_ne k (Fingerprint.classKey fp) with rfl | hne
    · exact Or.inl ⟨fp.2.2, ((hs.sole fp).mpr rfl).2⟩
    · exact Or.inr (hs.unsupported k hk hne)

end LmResiliency.Detection.CommunicationLocalizer
