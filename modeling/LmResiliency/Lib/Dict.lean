/-
# Dict — a Python dict as the list of its items

The items stand in insertion order.  Assigning to a key that is there changes
its value in place, and a comprehension is one assignment after another: the
last value of a key stands, where the key first stood.
-/
import Mathlib.Data.List.Basic
import Mathlib.Data.List.Induction
import Mathlib.Data.List.Sort

namespace LmResiliency.Dict

variable {κ α : Type} [DecidableEq κ]

/-- `d[m.1] = m.2`. -/
def put (d : List (κ × α)) (m : κ × α) : List (κ × α) :=
  if m.1 ∈ d.map Prod.fst then d.map fun n => if n.1 = m.1 then m else n else d ++ [m]

/-- `d.update(ms)`. -/
def update (d ms : List (κ × α)) : List (κ × α) := ms.foldl put d

/-- `{k: v for k, v in ms}`. -/
def ofItems (ms : List (κ × α)) : List (κ × α) := update [] ms

theorem mem_put {d : List (κ × α)} {m n : κ × α} :
    n ∈ put d m ↔ n = m ∨ n ∈ d ∧ n.1 ≠ m.1 := by
  rw [put]
  split
  · rename_i hin
    rw [List.mem_map]
    constructor
    · rintro ⟨n', hn', rfl⟩
      split
      · exact Or.inl rfl
      · rename_i hne
        exact Or.inr ⟨hn', hne⟩
    · rintro (rfl | ⟨hn, hne⟩)
      · obtain ⟨n', hn', hkey⟩ := List.mem_map.mp hin
        exact ⟨n', hn', if_pos hkey⟩
      · exact ⟨n, hn, if_neg hne⟩
  · rename_i hnot
    rw [List.mem_append, List.mem_singleton]
    constructor
    · rintro (hn | rfl)
      · exact Or.inr ⟨hn, fun hkey => hnot (List.mem_map.mpr ⟨n, hn, hkey⟩)⟩
      · exact Or.inl rfl
    · rintro (rfl | ⟨hn, -⟩)
      · exact Or.inr rfl
      · exact Or.inl hn

/-- What is in an updated dict was put in, or was there before. -/
theorem mem_of_mem_update {ms d : List (κ × α)} {n : κ × α} (h : n ∈ update d ms) :
    n ∈ ms ∨ n ∈ d := by
  induction ms generalizing d with
  | nil => exact Or.inr h
  | cons m ms ih =>
      rcases ih h with hin | hin
      · exact Or.inl (List.mem_cons_of_mem m hin)
      · rcases mem_put.mp hin with rfl | ⟨hin, -⟩
        · exact Or.inl List.mem_cons_self
        · exact Or.inr hin

theorem mem_update_of_mem {ms d : List (κ × α)} {n : κ × α} (hn : n ∈ d)
    (hnot : ∀ m ∈ ms, m.1 ≠ n.1) : n ∈ update d ms := by
  induction ms generalizing d with
  | nil => exact hn
  | cons m ms ih =>
      refine ih (mem_put.mpr (Or.inr ⟨hn, ?_⟩)) fun m' hm' => hnot m' (List.mem_cons_of_mem m hm')
      exact (hnot m List.mem_cons_self).symm

theorem mem_update_of_key {ms d : List (κ × α)} {n : κ × α} (hn : n ∈ ms) :
    ∃ m ∈ update d ms, m.1 = n.1 := by
  induction ms using List.reverseRecOn generalizing d with
  | nil => cases hn
  | append_singleton ms m ih =>
      rw [update, List.foldl_append, List.foldl_cons, List.foldl_nil]
      rcases List.mem_append.mp hn with hn | hn
      · obtain ⟨m', hm', hkey⟩ := ih (d := d) hn
        by_cases heq : m'.1 = m.1
        · exact ⟨m, mem_put.mpr (Or.inl rfl), heq.symm.trans hkey⟩
        · exact ⟨m', mem_put.mpr (Or.inr ⟨hm', heq⟩), hkey⟩
      · exact ⟨m, mem_put.mpr (Or.inl rfl), by rw [List.mem_singleton.mp hn]⟩

theorem update_append (d ms ns : List (κ × α)) :
    update d (ms ++ ns) = update (update d ms) ns := List.foldl_append

/-- **The last items stand**, when their keys are distinct. -/
theorem mem_update_append {d ms ns : List (κ × α)} {n : κ × α}
    (hnd : (ns.map Prod.fst).Nodup) (hn : n ∈ ns) : n ∈ update d (ms ++ ns) := by
  obtain ⟨before, after, rfl⟩ := List.append_of_mem hn
  rw [List.map_append, List.map_cons, List.nodup_append] at hnd
  have hafter := (List.nodup_cons.mp hnd.2.1).1
  rw [update_append, update_append, update, List.foldl_cons, ← update]
  refine mem_update_of_mem (mem_put.mpr (Or.inl rfl)) fun m hm hkey => ?_
  exact hafter (hkey ▸ List.mem_map_of_mem hm)

/-- Items with distinct keys are a dict as they are. -/
theorem update_of_nodup {ms : List (κ × α)} (hnd : (ms.map Prod.fst).Nodup) :
    ∀ {d : List (κ × α)}, (∀ m ∈ ms, m.1 ∉ d.map Prod.fst) → update d ms = d ++ ms := by
  induction ms with
  | nil => intro d _; exact (List.append_nil d).symm
  | cons m ms ih =>
      intro d hnew
      rw [List.map_cons, List.nodup_cons] at hnd
      have hput : put d m = d ++ [m] := if_neg (hnew m List.mem_cons_self)
      have hrest : ∀ m' ∈ ms, m'.1 ∉ (d ++ [m]).map Prod.fst := by
        intro m' hm' hin
        rw [List.map_append, List.mem_append] at hin
        rcases hin with hin | hin
        · exact hnew m' (List.mem_cons_of_mem m hm') hin
        · exact hnd.1 (List.mem_singleton.mp hin ▸ List.mem_map_of_mem hm')
      rw [update, List.foldl_cons, ← update, hput, ih hnd.2 hrest, List.append_assoc,
        List.singleton_append]

theorem ofItems_of_nodup {ms : List (κ × α)} (hnd : (ms.map Prod.fst).Nodup) :
    ofItems ms = ms :=
  (update_of_nodup hnd fun _ _ => List.not_mem_nil).trans (List.nil_append ms)

/-- **An item stands** when every later one of its key is the same. -/
theorem mem_update_of_agree {ms d : List (κ × α)} {n : κ × α} (hn : n ∈ ms)
    (hagree : ∀ m ∈ ms, m.1 = n.1 → m = n) : n ∈ update d ms := by
  induction ms generalizing d with
  | nil => cases hn
  | cons m ms ih =>
      have hrest : ∀ m' ∈ ms, m'.1 = n.1 → m' = n := fun m' hm' =>
        hagree m' (List.mem_cons_of_mem m hm')
      by_cases hlater : n ∈ ms
      · exact ih hlater hrest
      · obtain rfl : n = m := (List.mem_cons.mp hn).resolve_right hlater
        have hin : n ∈ put d n := mem_put.mpr (Or.inl rfl)
        rw [update, List.foldl_cons, ← update]
        exact mem_update_of_mem hin fun m' hm' hkey => hlater (hrest m' hm' hkey ▸ hm')

/-- A comprehension whose values follow from the keys holds what it was given. -/
theorem mem_ofItems_iff {ms : List (κ × α)} (hagree : ∀ m ∈ ms, ∀ n ∈ ms, m.1 = n.1 → m = n)
    {n : κ × α} : n ∈ ofItems ms ↔ n ∈ ms := by
  constructor
  · intro h
    exact (mem_of_mem_update h).resolve_right List.not_mem_nil
  · intro h
    exact mem_update_of_agree h fun m hm => hagree m hm n h

theorem nodup_keys_put {d : List (κ × α)} (hnd : (d.map Prod.fst).Nodup) (m : κ × α) :
    ((put d m).map Prod.fst).Nodup := by
  rw [put]
  split
  · have hkeys : (d.map fun n => if n.1 = m.1 then m else n).map Prod.fst = d.map Prod.fst := by
      rw [List.map_map]
      refine List.map_congr_left fun n _ => ?_
      rw [Function.comp_apply]
      split
      · rename_i hkey
        exact hkey.symm
      · rfl
    rw [hkeys]
    exact hnd
  · rename_i hnot
    rw [List.map_append, List.map_singleton, List.nodup_append]
    refine ⟨hnd, List.pairwise_singleton _ _, fun k hk k' hk' heq => hnot ?_⟩
    rw [← List.mem_singleton.mp hk', ← heq]
    exact hk

theorem nodup_keys_update {ms d : List (κ × α)} (hnd : (d.map Prod.fst).Nodup) :
    ((update d ms).map Prod.fst).Nodup := by
  induction ms generalizing d with
  | nil => exact hnd
  | cons m ms ih => exact ih (nodup_keys_put hnd m)

/-! ## Grouping -/

/-- `d.get(k, [])`. -/
def get (d : List (κ × List α)) (k : κ) : List α := (d.lookup k).getD []

/-- `d.setdefault(k, []).append(x)`. -/
def append (d : List (κ × List α)) (k : κ) (x : α) : List (κ × List α) :=
  put d (k, get d k ++ [x])

/-- The elements by their key, each group in the order they come. -/
def group (key : α → κ) (xs : List α) : List (κ × List α) :=
  xs.foldl (fun d x => append d (key x) x) []

theorem group_append (key : α → κ) (xs : List α) (x : α) :
    group key (xs ++ [x]) = append (group key xs) (key x) x := by
  rw [group, List.foldl_append, ← group, List.foldl_cons, List.foldl_nil]

theorem mem_of_lookup {d : List (κ × α)} {k : κ} {v : α} (h : d.lookup k = some v) :
    (k, v) ∈ d := by
  obtain ⟨l₁, l₂, rfl, -⟩ := List.lookup_eq_some_iff.mp h
  exact List.mem_append_right l₁ List.mem_cons_self

theorem lookup_eq_none_iff {d : List (κ × α)} {k : κ} :
    d.lookup k = none ↔ k ∉ d.map Prod.fst := by
  rw [List.lookup_eq_none_iff, List.mem_map]
  constructor
  · rintro h ⟨m, hm, rfl⟩
    exact absurd (h m hm) (by simp)
  · intro h m hm
    exact bne_iff_ne.mpr fun hk => h ⟨m, hm, hk.symm⟩

theorem lookup_ne_none {d : List (κ × α)} {m : κ × α} (hm : m ∈ d) : d.lookup m.1 ≠ none :=
  fun h => lookup_eq_none_iff.mp h (List.mem_map_of_mem hm)

theorem lookup_of_mem {d : List (κ × α)} (hnd : (d.map Prod.fst).Nodup) {m : κ × α}
    (hm : m ∈ d) : d.lookup m.1 = some m.2 := by
  cases hl : d.lookup m.1 with
  | none => exact absurd hl (lookup_ne_none hm)
  | some v => rw [← List.inj_on_of_nodup_map hnd (mem_of_lookup hl) hm rfl]

theorem lookup_put (d : List (κ × α)) (m : κ × α) (k : κ) :
    (put d m).lookup k = if k = m.1 then some m.2 else d.lookup k := by
  rw [put]
  split
  · rename_i hin
    induction d with
    | nil => cases hin
    | cons n d ih =>
        rw [List.map_cons]
        by_cases hn : n.1 = m.1
        · rw [if_pos hn, List.lookup_cons, List.lookup_cons, hn]
          by_cases hk : k = m.1
          · rw [if_pos hk, hk, beq_self_eq_true]
          · rw [if_neg hk, beq_eq_false_iff_ne.mpr hk]
            by_cases hin' : m.1 ∈ d.map Prod.fst
            · rw [ih hin', if_neg hk]
            · have hsame : d.map (fun n => if n.1 = m.1 then m else n) = d :=
                (List.map_congr_left fun n' hn' => if_neg fun he =>
                  hin' (List.mem_map.mpr ⟨n', hn', he⟩)).trans (List.map_id d)
              rw [hsame]
        · have hin' : m.1 ∈ d.map Prod.fst := by
            rcases List.mem_cons.mp hin with he | hin'
            · exact absurd he.symm hn
            · exact hin'
          rw [if_neg hn, List.lookup_cons, List.lookup_cons, ih hin']
          by_cases hk : k = n.1
          · subst hk
            simp only [if_neg hn, beq_self_eq_true]
          · rw [beq_eq_false_iff_ne.mpr hk]
  · rename_i hnot
    rw [List.lookup_append]
    by_cases hk : k = m.1
    · rw [if_pos hk, hk, List.lookup_eq_none_iff.mpr]
      · rw [Option.none_or, List.lookup_cons, beq_self_eq_true]
      · intro n hn
        exact bne_iff_ne.mpr fun he => hnot (List.mem_map.mpr ⟨n, hn, he.symm⟩)
    · rw [if_neg hk, List.lookup_cons, beq_eq_false_iff_ne.mpr hk, List.lookup_nil, Option.or_none]

/-- An update of which all items of a key have one value. -/
theorem lookup_update {ms d : List (κ × α)} {k : κ} {v : α}
    (hagree : ∀ m ∈ ms, m.1 = k → m.2 = v) :
    (update d ms).lookup k = if k ∈ ms.map Prod.fst then some v else d.lookup k := by
  induction ms using List.reverseRecOn with
  | nil => rfl
  | append_singleton ms m ih =>
      have hrest : ∀ m' ∈ ms, m'.1 = k → m'.2 = v := fun m' hm' =>
        hagree m' (List.mem_append_left _ hm')
      rw [update_append, update, List.foldl_cons, List.foldl_nil, lookup_put, ih hrest]
      by_cases hk : k = m.1
      · have hv : m.2 = v := hagree m (List.mem_append_right _ (List.mem_singleton.mpr rfl)) hk.symm
        rw [if_pos hk, if_pos (by simp [hk]), hv]
      · rw [if_neg hk]
        refine if_congr ?_ rfl rfl
        rw [List.map_append, List.mem_append, List.map_singleton, List.mem_singleton,
          or_iff_left hk]

/-- What a comprehension whose values follow from the keys gives for a key. -/
theorem lookup_ofItems {ms : List (κ × α)} (hagree : ∀ m ∈ ms, ∀ n ∈ ms, m.1 = n.1 → m = n)
    {k : κ} {v : α} : (ofItems ms).lookup k = some v ↔ (k, v) ∈ ms := by
  have hnd : ((ofItems ms).map Prod.fst).Nodup := nodup_keys_update List.nodup_nil
  rw [← mem_ofItems_iff hagree]
  exact ⟨mem_of_lookup, lookup_of_mem hnd⟩

/-- A dict that holds the non-empty values of `f` gives `f` back. -/
theorem get_eq {d : List (κ × List α)} {f : κ → List α}
    (h : ∀ k ys, (k, ys) ∈ d ↔ ys = f k ∧ ys ≠ []) (k : κ) : get d k = f k := by
  unfold get
  cases hl : d.lookup k with
  | some v => exact ((h k v).mp (mem_of_lookup hl)).1
  | none =>
      by_contra hne
      exact lookup_ne_none ((h k (f k)).mpr ⟨rfl, fun hnil => hne hnil.symm⟩) hl

/-- A group is all the elements of its key, and no group is empty. -/
theorem mem_group {key : α → κ} {xs ys : List α} {k : κ} :
    (k, ys) ∈ group key xs ↔ ys = xs.filter (key · = k) ∧ ys ≠ [] := by
  induction xs using List.reverseRecOn generalizing k ys with
  | nil => simp [group]
  | append_singleton xs x ih =>
      have hfound : get (group key xs) (key x) = xs.filter (key · = key x) :=
        get_eq (fun _ _ => ih) (key x)
      rw [group_append, append, mem_put, hfound, Prod.mk.injEq, ih, List.filter_append]
      by_cases hk : key x = k
      · subst hk
        simp +contextual
      · have hk' : ¬k = key x := fun h => hk h.symm
        simp [hk, hk']

theorem nodup_keys_group (key : α → κ) (xs : List α) :
    ((group key xs).map Prod.fst).Nodup := by
  induction xs using List.reverseRecOn with
  | nil => exact List.nodup_nil
  | append_singleton xs x ih =>
      rw [group_append]
      exact nodup_keys_put ih _

theorem group_of_forall_eq {key : α → κ} {xs : List α} {k : κ} (hne : xs ≠ [])
    (h : ∀ x ∈ xs, key x = k) : group key xs = [(k, xs)] := by
  induction xs using List.reverseRecOn with
  | nil => exact absurd rfl hne
  | append_singleton xs x ih =>
      have hx : key x = k := h x (List.mem_append_right xs List.mem_cons_self)
      rw [group_append, hx]
      rcases List.eq_nil_or_concat xs with rfl | ⟨ys, y, rfl⟩
      · rfl
      · rw [ih (by simp) fun z hz => h z (List.mem_append_left [x] hz)]
        simp [append, put, get]

theorem group_map {β : Type} {key : α → κ} {key' : β → κ} {f : α → β} {xs : List α}
    (h : ∀ x ∈ xs, key' (f x) = key x) :
    group key' (xs.map f) = (group key xs).map fun p => (p.1, p.2.map f) := by
  induction xs using List.reverseRecOn with
  | nil => rfl
  | append_singleton xs x ih =>
      have hx : key' (f x) = key x := h x (List.mem_append_right xs List.mem_cons_self)
      have hget : get ((group key xs).map fun p => (p.1, p.2.map f)) (key x) =
          (get (group key xs) (key x)).map f := by
        generalize group key xs = d
        rw [get, get]
        induction d with
        | nil => rfl
        | cons p d ihd =>
            rw [List.map_cons, List.lookup_cons, List.lookup_cons]
            cases key x == p.1 with
            | true => rfl
            | false => exact ihd
      have hkeys : ((group key xs).map fun p => (p.1, p.2.map f)).map Prod.fst =
          (group key xs).map Prod.fst := by
        rw [List.map_map]
        rfl
      rw [List.map_append, List.map_singleton, group_append, group_append, hx,
        ih fun y hy => h y (List.mem_append_left [x] hy), append, append, hget, put, put, hkeys]
      split
      · rw [List.map_map, List.map_map]
        refine List.map_congr_left fun p _ => ?_
        rw [Function.comp_apply, Function.comp_apply]
        split
        · rw [List.map_append, List.map_singleton]
        · rfl
      · rw [List.map_append, List.map_singleton, List.map_append, List.map_singleton]

theorem get_group (key : α → κ) (xs : List α) (k : κ) :
    get (group key xs) k = xs.filter (key · = k) :=
  get_eq (fun _ _ => mem_group) k

/-! ## Sorting by key -/

section Sorted

variable {ι : Type} [LinearOrder ι]

/-- `sorted(d.items())`, where no two items have one key. -/
def sortedItems (d : List (ι × α)) : List (ι × α) := d.insertionSort fun a b => a.1 ≤ b.1

theorem perm_sortedItems (d : List (ι × α)) : (sortedItems d).Perm d :=
  List.perm_insertionSort _ _

theorem pairwise_sortedItems (d : List (ι × α)) :
    (sortedItems d).Pairwise fun a b => a.1 ≤ b.1 := by
  have : IsTrans (ι × α) fun a b => a.1 ≤ b.1 := ⟨fun _ _ _ => le_trans⟩
  have : Std.Total fun a b : ι × α => a.1 ≤ b.1 := ⟨fun a b => le_total a.1 b.1⟩
  exact List.pairwise_insertionSort _ _

/-- **Items sorted by their keys** are the only sorted list of these items. -/
theorem sortedItems_eq {d sorted : List (ι × α)} (hperm : d.Perm sorted)
    (hsorted : (sorted.map Prod.fst).Pairwise (· < ·)) : sortedItems d = sorted := by
  have hp : (sortedItems d).Perm sorted := (perm_sortedItems d).trans hperm
  have hnd : (sorted.map Prod.fst).Nodup := hsorted.imp fun h => ne_of_lt h
  refine hp.eq_of_pairwise (fun a b ha hb hab hba => ?_) (pairwise_sortedItems d)
    ((List.pairwise_map.mp hsorted).imp fun h => le_of_lt h)
  exact List.inj_on_of_nodup_map hnd (hp.mem_iff.mp ha) hb (le_antisymm hab hba)

end Sorted

end LmResiliency.Dict
