/-
# SortedSet — the distinct values of a list, in order

`sorted(set(values))` says which values there are and nothing of the order they came in,
and so does a dict of groups once its items are sorted.
-/
import LmResiliency.Lib.Dict
import Mathlib.Data.List.Dedup

namespace LmResiliency

section SortedSet

variable {α : Type} [LinearOrder α]

/-- `sorted(set(values))`. -/
def sortedSet (values : List α) : List α := values.dedup.insertionSort (· ≤ ·)

@[simp] theorem mem_sortedSet {values : List α} {x : α} : x ∈ sortedSet values ↔ x ∈ values := by
  rw [sortedSet, List.mem_insertionSort, List.mem_dedup]

theorem nodup_sortedSet (values : List α) : (sortedSet values).Nodup :=
  (List.perm_insertionSort _ _).nodup_iff.mpr (List.nodup_dedup values)

theorem pairwise_sortedSet (values : List α) : (sortedSet values).Pairwise (· < ·) := by
  have hle : (sortedSet values).Pairwise (· ≤ ·) := List.pairwise_insertionSort _ _
  exact (hle.and (nodup_sortedSet values)).imp fun h => lt_of_le_of_ne h.1 h.2

/-- A sorted set is determined by its members. -/
theorem eq_sortedSet {sorted values : List α} (hsorted : sorted.Pairwise (· < ·))
    (h : ∀ x, x ∈ sorted ↔ x ∈ values) : sorted = sortedSet values := by
  have hnd : sorted.Nodup := hsorted.imp ne_of_lt
  have hperm : sorted.Perm (sortedSet values) :=
    (List.perm_ext_iff_of_nodup hnd (nodup_sortedSet values)).mpr fun x =>
      (h x).trans mem_sortedSet.symm
  exact hperm.eq_of_pairwise (fun _ _ _ _ hab hba => le_antisymm hab hba)
    (hsorted.imp le_of_lt) ((pairwise_sortedSet values).imp le_of_lt)

theorem sortedSet_congr {values values' : List α} (h : ∀ x, x ∈ values ↔ x ∈ values') :
    sortedSet values = sortedSet values' :=
  eq_sortedSet (pairwise_sortedSet values) fun x => mem_sortedSet.trans (h x)

/-- A sorted set of one member at most has no two. -/
theorem length_sortedSet_le_one_iff {values : List α} :
    (sortedSet values).length ≤ 1 ↔ ∀ x ∈ values, ∀ y ∈ values, x = y := by
  have hmem : ∀ x, x ∈ values ↔ x ∈ sortedSet values := fun x => mem_sortedSet.symm
  simp only [hmem]
  have hnodup := nodup_sortedSet values
  generalize sortedSet values = sorted at hnodup ⊢
  rcases sorted with _ | ⟨a, _ | ⟨b, rest⟩⟩
  · exact iff_of_true (Nat.zero_le _) fun x hx => absurd hx List.not_mem_nil
  · refine iff_of_true le_rfl fun x hx y hy => ?_
    rw [List.mem_singleton.mp hx, List.mem_singleton.mp hy]
  · have hne : a ≠ b := List.ne_of_not_mem_cons (List.nodup_cons.mp hnodup).1
    refine iff_of_false (by simp) fun h => hne (h a List.mem_cons_self b ?_)
    exact List.mem_cons_of_mem _ List.mem_cons_self

theorem sortedSet_eq_nil_iff {values : List α} : sortedSet values = [] ↔ values = [] := by
  constructor
  · intro h
    refine List.eq_nil_iff_forall_not_mem.mpr fun x hx => ?_
    have hmem := mem_sortedSet.mpr hx
    rw [h] at hmem
    exact List.not_mem_nil hmem
  · rintro rfl
    rfl

end SortedSet

namespace Dict

variable {κ α β : Type} [LinearOrder κ]

/-- **The groups, sorted**: one for each key, with the values that have it. -/
theorem sortedItems_group (key : α → κ) (xs : List α) :
    sortedItems (group key xs) =
      (sortedSet (xs.map key)).map fun k => (k, xs.filter fun x => key x = k) := by
  have hkeys : ((sortedSet (xs.map key)).map fun k =>
      (k, xs.filter fun x => key x = k)).map Prod.fst = sortedSet (xs.map key) := by
    rw [List.map_map]
    exact List.map_id _
  have hnd : ((sortedSet (xs.map key)).map fun k =>
      (k, xs.filter fun x => key x = k)).Nodup := by
    refine List.Nodup.of_map Prod.fst ?_
    rw [hkeys]
    exact nodup_sortedSet _
  refine sortedItems_eq ((List.perm_ext_iff_of_nodup
    (List.Nodup.of_map Prod.fst (nodup_keys_group key xs)) hnd).mpr fun p => ?_) ?_
  · obtain ⟨k, ys⟩ := p
    rw [mem_group, List.mem_map]
    constructor
    · rintro ⟨rfl, hne⟩
      obtain ⟨x, hx⟩ := List.exists_mem_of_ne_nil _ hne
      obtain ⟨hx, hkey⟩ := List.mem_filter.mp hx
      refine ⟨k, mem_sortedSet.mpr (List.mem_map.mpr ⟨x, hx, of_decide_eq_true hkey⟩), rfl⟩
    · rintro ⟨k', hk', heq⟩
      obtain ⟨rfl, rfl⟩ := Prod.mk.inj heq
      obtain ⟨x, hx, hkey⟩ := List.mem_map.mp (mem_sortedSet.mp hk')
      exact ⟨rfl, List.ne_nil_of_mem (List.mem_filter.mpr ⟨hx, decide_eq_true hkey⟩)⟩
  · rw [hkeys]
    exact pairwise_sortedSet _

theorem pairwise_keys_sortedItems {d : List (κ × α)} (hnd : (d.map Prod.fst).Nodup) :
    ((sortedItems d).map Prod.fst).Pairwise (· < ·) := by
  have hle : ((sortedItems d).map Prod.fst).Pairwise (· ≤ ·) :=
    List.pairwise_map.mpr (pairwise_sortedItems d)
  have hne : ((sortedItems d).map Prod.fst).Nodup :=
    ((perm_sortedItems d).map Prod.fst).nodup_iff.mpr hnd
  exact (hle.and hne).imp fun h => lt_of_le_of_ne h.1 h.2

theorem sortedItems_map (g : κ → α → β) {d : List (κ × α)} (hnd : (d.map Prod.fst).Nodup) :
    sortedItems (d.map fun p => (p.1, g p.1 p.2)) =
      (sortedItems d).map fun p => (p.1, g p.1 p.2) := by
  refine sortedItems_eq ((perm_sortedItems d).symm.map _) ?_
  have hkeys : ((sortedItems d).map fun p => (p.1, g p.1 p.2)).map Prod.fst =
      (sortedItems d).map Prod.fst := by
    rw [List.map_map]
    rfl
  rw [hkeys]
  exact pairwise_keys_sortedItems hnd

/-- A comprehension whose values follow from the keys says nothing of the order. -/
theorem lookup_ofItems_perm {ms ms' : List (κ × α)} (hp : ms.Perm ms')
    (hagree : ∀ m ∈ ms, ∀ n ∈ ms, m.1 = n.1 → m = n) (k : κ) :
    (ofItems ms).lookup k = (ofItems ms').lookup k := by
  have hagree' : ∀ m ∈ ms', ∀ n ∈ ms', m.1 = n.1 → m = n := fun m hm n hn =>
    hagree m (hp.mem_iff.mpr hm) n (hp.mem_iff.mpr hn)
  refine Option.ext fun v => ?_
  exact (lookup_ofItems hagree).trans (hp.mem_iff.trans (lookup_ofItems hagree').symm)

theorem sortedItems_ofItems_perm {ms ms' : List (κ × α)} (hp : ms.Perm ms')
    (hagree : ∀ m ∈ ms, ∀ n ∈ ms, m.1 = n.1 → m = n) :
    sortedItems (ofItems ms) = sortedItems (ofItems ms') := by
  have hagree' : ∀ m ∈ ms', ∀ n ∈ ms', m.1 = n.1 → m = n := fun m hm n hn =>
    hagree m (hp.mem_iff.mpr hm) n (hp.mem_iff.mpr hn)
  have hnd : ∀ ns : List (κ × α), ((ofItems ns).map Prod.fst).Nodup := fun ns =>
    nodup_keys_update List.nodup_nil
  have hperm : (ofItems ms).Perm (ofItems ms') := (List.perm_ext_iff_of_nodup
    (List.Nodup.of_map _ (hnd ms)) (List.Nodup.of_map _ (hnd ms'))).mpr fun m =>
      (mem_ofItems_iff hagree).trans (hp.mem_iff.trans (mem_ofItems_iff hagree').symm)
  exact sortedItems_eq (hperm.trans (perm_sortedItems _).symm)
    (pairwise_keys_sortedItems (hnd ms'))

theorem sortedItems_filter (p : κ × α → Bool) {d : List (κ × α)} (hnd : (d.map Prod.fst).Nodup) :
    sortedItems (d.filter p) = (sortedItems d).filter p := by
  refine sortedItems_eq ((perm_sortedItems d).symm.filter p) ?_
  exact (pairwise_keys_sortedItems hnd).sublist (List.filter_sublist.map Prod.fst)

end Dict

end LmResiliency
