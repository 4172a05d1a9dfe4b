/-
# Bfs — breadth-first search for a shortest path

A queue of nodes whose neighbours are still to be looked at, and for every node
that was found the node from which it was found.  The search stops when it finds
the goal; the path is then read backwards.

A node that waits in the queue is at the distance of the head, or one further.
That is why a node is found at its distance, and why the path is a shortest one.
-/
import LmResiliency.Lib.Dict
import Mathlib.Data.List.Chain
import Mathlib.Data.List.Perm.Subperm

namespace LmResiliency.Bfs

variable {α : Type} [DecidableEq α]

/-- What was found, each node with the one it was found from, and the queue. -/
structure State (α : Type) where
  prev : List (α × Option α)
  queue : List α

/-- The neighbours of a node, one after another: where the search goes on, or what was found
when the goal is among them. -/
def scan (goal u : α) : List α → State α → Except (List (α × Option α)) (State α)
  | [], s => .ok s
  | v :: vs, s =>
      if (s.prev.lookup v).isSome then scan goal u vs s
      else if v = goal then .error (s.prev ++ [(v, some u)])
      else scan goal u vs ⟨s.prev ++ [(v, some u)], s.queue ++ [v]⟩

/-- The search, with a bound on how many nodes leave the queue. -/
def search (neighbours : α → List α) (goal : α) : Nat → State α → Option (List (α × Option α))
  | 0, _ => none
  | fuel + 1, s =>
      match s.queue with
      | [] => none
      | u :: queue =>
          match scan goal u (neighbours u) ⟨s.prev, queue⟩ with
          | .error prev => some prev
          | .ok s' => search neighbours goal fuel s'

/-- The way back from a node, with a bound on its length. -/
def back (prev : List (α × Option α)) : Nat → α → List α
  | 0, _ => []
  | n + 1, v =>
      v :: match prev.lookup v with
        | some (some u) => back prev n u
        | _ => []

/-- A path to the goal, or nothing. -/
def shortestPath (neighbours : α → List α) (nodes : Nat) (start goal : α) : List α :=
  if start = goal then [start]
  else
    match search neighbours goal (nodes + 1) ⟨[(start, none)], [start]⟩ with
    | some prev => (back prev prev.length goal).reverse
    | none => []

/-! ## Paths -/

/-- A path from one node to another. -/
structure IsPath (neighbours : α → List α) (start goal : α) (path : List α) : Prop where
  chain : path.IsChain fun u v => v ∈ neighbours u
  head : path.head? = some start
  last : path.getLast? = some goal

/-- Some steps lead from one node to another. -/
inductive Steps (neighbours : α → List α) (start : α) : α → Nat → Prop where
  | refl : Steps neighbours start start 0
  | next {u v : α} {n : Nat} (h : Steps neighbours start u n) (hv : v ∈ neighbours u) :
      Steps neighbours start v (n + 1)

variable {neighbours : α → List α} {start goal : α}

omit [DecidableEq α] in
/-- A path is as many steps as it has nodes, but one. -/
theorem IsPath.steps {path : List α} (h : IsPath neighbours start goal path) :
    Steps neighbours start goal (path.length - 1) := by
  induction path using List.reverseRecOn generalizing goal with
  | nil => cases h.head
  | append_singleton path v ih =>
      obtain rfl : v = goal := by simpa using h.last
      rcases List.eq_nil_or_concat path with rfl | ⟨before, u, rfl⟩
      · obtain rfl : v = start := by simpa using h.head
        exact .refl
      · rw [List.concat_eq_append] at h ih ⊢
        have hstep : v ∈ neighbours u := by
          have hchain := h.chain
          rw [List.append_assoc, List.isChain_append] at hchain
          exact (List.isChain_pair).mp hchain.2.1
        have hpath : IsPath neighbours start u (before ++ [u]) :=
          ⟨(List.isChain_append.mp h.chain).1, by simpa using h.head, by simp⟩
        simpa using (ih hpath).next hstep

omit [DecidableEq α] in
theorem IsPath.concat {path : List α} {u v : α} (h : IsPath neighbours start u path)
    (hv : v ∈ neighbours u) : IsPath neighbours start v (path ++ [v]) := by
  refine ⟨List.isChain_append.mpr ⟨h.chain, .singleton _, fun x hx y hy => ?_⟩, ?_, by simp⟩
  · rw [h.last] at hx
    cases hx
    cases hy
    exact hv
  · rw [List.head?_append, h.head]
    rfl

omit [DecidableEq α] in
theorem Steps.path {n : Nat} (h : Steps neighbours start goal n) :
    ∃ path, IsPath neighbours start goal path ∧ path.length = n + 1 := by
  induction h with
  | refl => exact ⟨[start], ⟨.singleton _, rfl, rfl⟩, rfl⟩
  | @next u v n _ hv ih =>
      obtain ⟨path, hpath, hlength⟩ := ih
      exact ⟨path ++ [v], hpath.concat hv, by rw [List.length_append, hlength]; rfl⟩

/-! ## Where the nodes were found -/

/-- A node was found after so many steps. -/
inductive Depth (prev : List (α × Option α)) : α → Nat → Prop where
  | root {v : α} (h : prev.lookup v = some none) : Depth prev v 0
  | next {v u : α} {n : Nat} (h : prev.lookup v = some (some u)) (hu : Depth prev u n) :
      Depth prev v (n + 1)

variable {prev : List (α × Option α)}

theorem Depth.unique {v : α} {n m : Nat} (hn : Depth prev v n) (hm : Depth prev v m) : n = m := by
  induction hn generalizing m with
  | root h =>
      cases hm with
      | root _ => rfl
      | next h' _ =>
          rw [h] at h'
          cases h'
  | next h _ ih =>
      cases hm with
      | root h' =>
          rw [h] at h'
          cases h'
      | next h' hu' =>
          rw [h] at h'
          cases h'
          rw [ih hu']

theorem lookup_append_of_some {v w : α} {parent : Option α} {found : Option α}
    (h : prev.lookup v = some found) : (prev ++ [(w, parent)]).lookup v = some found := by
  rw [List.lookup_append, h]
  rfl

theorem Depth.append {v w : α} {parent : Option α} {n : Nat} (h : Depth prev v n) :
    Depth (prev ++ [(w, parent)]) v n := by
  induction h with
  | root h => exact .root (lookup_append_of_some h)
  | next h _ ih => exact .next (lookup_append_of_some h) ih

/-! ## The invariant -/

/-- What was found, apart from what was looked at: the goal is not there, every node was found
at a neighbour, and so many steps after the start. -/
structure Found (neighbours : α → List α) (start goal : α) (prev : List (α × Option α)) :
    Prop where
  nodup : (prev.map Prod.fst).Nodup
  goal : goal ∉ prev.map Prod.fst
  root : ∀ v, prev.lookup v = some none ↔ v = start
  edge : ∀ v u, prev.lookup v = some (some u) → v ∈ neighbours u
  depth : ∀ v ∈ prev.map Prod.fst, ∃ n, Depth prev v n

/-- Its neighbours were found, at most one step after it. -/
def Expanded (neighbours : α → List α) (prev : List (α × Option α)) (v : α) : Prop :=
  ∀ n, Depth prev v n → ∀ w ∈ neighbours v, ∃ k ≤ n + 1, Depth prev w k

/-- The nodes in the queue are so many steps from the start, or the later ones one more. -/
def Level (prev : List (α × Option α)) (m : Nat) (queue : List α) : Prop :=
  ∃ near far, queue = near ++ far ∧ (∀ v ∈ near, Depth prev v m) ∧ ∀ v ∈ far, Depth prev v (m + 1)

/-- While the neighbours of a node are looked at. -/
structure Scanning (neighbours : α → List α) (start goal u : α) (m : Nat) (seen : List α)
    (s : State α) : Prop where
  found : Found neighbours start goal s.prev
  here : Depth s.prev u m
  level : Level s.prev m s.queue
  near : ∀ w ∈ s.prev.map Prod.fst, ∃ k ≤ m + 1, Depth s.prev w k
  seen : ∀ w ∈ seen, w ∈ s.prev.map Prod.fst
  expanded : ∀ v ∈ s.prev.map Prod.fst, v ∉ s.queue → v ≠ u → Expanded neighbours s.prev v

/-- Between two nodes. -/
structure Inv (neighbours : α → List α) (start goal : α) (s : State α) : Prop where
  found : Found neighbours start goal s.prev
  level : ∃ m, Level s.prev m s.queue ∧ ∀ w ∈ s.prev.map Prod.fst, ∃ k ≤ m + 1, Depth s.prev w k
  expanded : ∀ v ∈ s.prev.map Prod.fst, v ∉ s.queue → Expanded neighbours s.prev v

theorem mem_keys_of_lookup {v : α} {x : Option α} (h : prev.lookup v = some x) :
    v ∈ prev.map Prod.fst := List.mem_map_of_mem (f := Prod.fst) (Dict.mem_of_lookup h)

theorem lookup_of_not_mem {v : α} (h : v ∉ prev.map Prod.fst) : prev.lookup v = none := by
  cases hl : prev.lookup v with
  | none => rfl
  | some x => exact absurd (mem_keys_of_lookup hl) h

theorem lookup_append_new {v w : α} {parent : Option α} (h : v ∉ prev.map Prod.fst) :
    (prev ++ [(v, parent)]).lookup w = if w = v then some parent else prev.lookup w := by
  rw [List.lookup_append]
  by_cases hw : w = v
  · subst hw
    rw [lookup_of_not_mem h, if_pos rfl, Option.none_or, List.lookup_cons_self]
  · rw [if_neg hw, List.lookup_cons, beq_eq_false_iff_ne.mpr hw]
    exact Option.or_none

theorem Depth.mem {v : α} {n : Nat} (h : Depth prev v n) : v ∈ prev.map Prod.fst := by
  cases h with
  | root h => exact mem_keys_of_lookup h
  | next h _ => exact mem_keys_of_lookup h

/-- **Near the start nothing is missing.**  When every node nearer than `m` steps is expanded,
whatever so many steps lead to was found in as many. -/
theorem depth_le_of_steps {m : Nat} (hf : Found neighbours start goal prev)
    (hexpanded : ∀ v n, Depth prev v n → n < m → Expanded neighbours prev v) {v : α} {n : Nat}
    (h : Steps neighbours start v n) (hn : n ≤ m) : ∃ k ≤ n, Depth prev v k := by
  induction h with
  | refl => exact ⟨0, le_rfl, .root ((hf.root start).mpr rfl)⟩
  | next _ hv ih =>
      obtain ⟨k, hk, hdepth⟩ := ih (by omega)
      obtain ⟨j, hj, hw⟩ := hexpanded _ k hdepth (by omega) k hdepth _ hv
      exact ⟨j, by omega, hw⟩

/-! ## One more node -/

section Extend

variable {u v : α} {m : Nat}

theorem Found.depth_of_append (hf : Found neighbours start goal prev) {w : α}
    (hw : w ∈ prev.map Prod.fst) {parent : Option α} {n : Nat}
    (h : Depth (prev ++ [(v, parent)]) w n) : Depth prev w n := by
  obtain ⟨k, hk⟩ := hf.depth w hw
  obtain rfl := h.unique hk.append
  exact hk

theorem Found.expanded_append (hf : Found neighbours start goal prev) {w : α}
    (hw : w ∈ prev.map Prod.fst) (h : Expanded neighbours prev w) {parent : Option α} :
    Expanded neighbours (prev ++ [(v, parent)]) w := by
  intro n hn x hx
  obtain ⟨k, hk, hdepth⟩ := h n (hf.depth_of_append hw hn) x hx
  exact ⟨k, hk, hdepth.append⟩

theorem Level.append {queue : List α} (h : Level prev m queue) {parent : Option α} :
    Level (prev ++ [(v, parent)]) m queue := by
  obtain ⟨near, far, rfl, hnear, hfar⟩ := h
  exact ⟨near, far, rfl, fun w hw => (hnear w hw).append, fun w hw => (hfar w hw).append⟩

theorem depth_new (hv : v ∉ prev.map Prod.fst) (hu : Depth prev u m) :
    Depth (prev ++ [(v, some u)]) v (m + 1) := by
  refine .next ?_ hu.append
  rw [lookup_append_new hv, if_pos rfl]

/-- A neighbour that was not found yet and is not the goal. -/
theorem Found.extend (hf : Found neighbours start goal prev) (hv : v ∉ prev.map Prod.fst)
    (hu : Depth prev u m) (hvu : v ∈ neighbours u) (hgoal : v ≠ goal) :
    Found neighbours start goal (prev ++ [(v, some u)]) where
  nodup := by
    rw [List.map_append, List.nodup_append]
    refine ⟨hf.nodup, List.nodup_singleton v, ?_⟩
    rintro w hw x hx rfl
    obtain rfl := List.mem_singleton.mp hx
    exact hv hw
  goal := by
    rw [List.map_append, List.mem_append]
    rintro (hin | hin)
    · exact hf.goal hin
    · exact hgoal (List.mem_singleton.mp hin).symm
  root w := by
    rw [lookup_append_new hv]
    by_cases hw : w = v
    · subst hw
      rw [if_pos rfl]
      refine iff_of_false (fun h => by cases h) fun h => hv (mem_keys_of_lookup ((hf.root w).mpr h))
    · rw [if_neg hw]
      exact hf.root w
  edge w x hx := by
    rw [lookup_append_new hv] at hx
    by_cases hw : w = v
    · subst hw
      rw [if_pos rfl] at hx
      cases hx
      exact hvu
    · rw [if_neg hw] at hx
      exact hf.edge w x hx
  depth w hw := by
    rw [List.map_append, List.mem_append] at hw
    rcases hw with hw | hw
    · obtain ⟨n, hn⟩ := hf.depth w hw
      exact ⟨n, hn.append⟩
    · obtain rfl := List.mem_singleton.mp hw
      exact ⟨m + 1, depth_new hv hu⟩

theorem Scanning.skip {seen : List α} {s : State α}
    (h : Scanning neighbours start goal u m seen s) (hv : v ∈ s.prev.map Prod.fst) :
    Scanning neighbours start goal u m (seen ++ [v]) s :=
  { h with
    seen := by
      intro w hw
      rcases List.mem_append.mp hw with hw | hw
      · exact h.seen w hw
      · obtain rfl := List.mem_singleton.mp hw
        exact hv }

theorem Scanning.extend {seen : List α} {s : State α}
    (h : Scanning neighbours start goal u m seen s) (hv : v ∉ s.prev.map Prod.fst)
    (hvu : v ∈ neighbours u) (hgoal : v ≠ goal) :
    Scanning neighbours start goal u m (seen ++ [v])
      ⟨s.prev ++ [(v, some u)], s.queue ++ [v]⟩ where
  found := h.found.extend hv h.here hvu hgoal
  here := h.here.append
  level := by
    obtain ⟨near, far, hqueue, hnear, hfar⟩ := h.level
    refine ⟨near, far ++ [v], ?_, fun w hw => (hnear w hw).append, fun w hw => ?_⟩
    · dsimp only
      rw [hqueue, List.append_assoc]
    · rcases List.mem_append.mp hw with hw | hw
      · exact (hfar w hw).append
      · obtain rfl := List.mem_singleton.mp hw
        exact depth_new hv h.here
  near := by
    intro w hw
    rw [List.map_append, List.mem_append] at hw
    rcases hw with hw | hw
    · obtain ⟨k, hk, hdepth⟩ := h.near w hw
      exact ⟨k, hk, hdepth.append⟩
    · obtain rfl := List.mem_singleton.mp hw
      exact ⟨m + 1, le_rfl, depth_new hv h.here⟩
  seen := by
    intro w hw
    rw [List.map_append]
    rcases List.mem_append.mp hw with hw | hw
    · exact List.mem_append_left _ (h.seen w hw)
    · exact List.mem_append_right _ hw
  expanded := by
    intro w hw hqueue hne
    rw [List.mem_append, not_or] at hqueue
    rw [List.map_append, List.mem_append] at hw
    rcases hw with hw | hw
    · exact h.found.expanded_append hw (h.expanded w hw hqueue.1 hne)
    · exact absurd hw hqueue.2

end Extend

/-! ## The neighbours of a node -/

section Scan

variable {u : α} {m : Nat}

theorem isSome_lookup_iff {v : α} : (prev.lookup v).isSome ↔ v ∈ prev.map Prod.fst := by
  constructor
  · intro h
    obtain ⟨x, hx⟩ := Option.isSome_iff_exists.mp h
    exact mem_keys_of_lookup hx
  · intro h
    by_contra hnone
    obtain ⟨item, hitem, rfl⟩ := List.mem_map.mp h
    exact Dict.lookup_ne_none hitem (Option.not_isSome_iff_eq_none.mp hnone)

/-- Where the search goes on, all the neighbours were looked at, and every one that was found
waits. -/
theorem scan_ok {vs seen : List α} {s s' : State α}
    (h : Scanning neighbours start goal u m seen s) (hvs : ∀ v ∈ vs, v ∈ neighbours u)
    (hscan : scan goal u vs s = .ok s') :
    Scanning neighbours start goal u m (seen ++ vs) s' ∧
      s'.prev.length + s.queue.length = s.prev.length + s'.queue.length := by
  induction vs generalizing seen s with
  | nil =>
      cases hscan
      rw [List.append_nil]
      exact ⟨h, rfl⟩
  | cons v vs ih =>
      have hrest := fun w hw => hvs w (List.mem_cons_of_mem v hw)
      rw [List.append_cons]
      rw [scan] at hscan
      split at hscan
      · rename_i hthere
        exact ih (h.skip (isSome_lookup_iff.mp hthere)) hrest hscan
      · rename_i hnew
        split at hscan
        · cases hscan
        · rename_i hgoal
          obtain ⟨hnext, hlength⟩ := ih (h.extend (fun hv => hnew (isSome_lookup_iff.mpr hv))
            (hvs v List.mem_cons_self) hgoal) hrest hscan
          refine ⟨hnext, ?_⟩
          simp only [List.length_append, List.length_singleton] at hlength
          omega

/-- Where the search ends, the goal is a neighbour, and was not found before. -/
theorem scan_error {vs seen : List α} {s : State α} {prev : List (α × Option α)}
    (h : Scanning neighbours start goal u m seen s) (hvs : ∀ v ∈ vs, v ∈ neighbours u)
    (hscan : scan goal u vs s = .error prev) :
    ∃ seen' s', Scanning neighbours start goal u m seen' s' ∧ goal ∈ neighbours u ∧
      prev = s'.prev ++ [(goal, some u)] := by
  induction vs generalizing seen s with
  | nil => cases hscan
  | cons v vs ih =>
      have hrest := fun w hw => hvs w (List.mem_cons_of_mem v hw)
      rw [scan] at hscan
      split at hscan
      · rename_i hthere
        exact ih (h.skip (isSome_lookup_iff.mp hthere)) hrest hscan
      · rename_i hnew
        split at hscan
        · rename_i hgoal
          subst hgoal
          cases hscan
          exact ⟨seen, s, h, hvs v List.mem_cons_self, rfl⟩
        · rename_i hgoal
          exact ih (h.extend (fun hv => hnew (isSome_lookup_iff.mpr hv))
            (hvs v List.mem_cons_self) hgoal) hrest hscan

/-- What is nearer than the node that is looked at is expanded. -/
theorem Scanning.expanded_of_lt {seen : List α} {s : State α}
    (h : Scanning neighbours start goal u m seen s) {v : α} {n : Nat} (hv : Depth s.prev v n)
    (hn : n < m) : Expanded neighbours s.prev v := by
  obtain ⟨near, far, hqueue, hnear, hfar⟩ := h.level
  refine h.expanded v hv.mem (fun hin => ?_) fun heq => ?_
  · rw [hqueue, List.mem_append] at hin
    rcases hin with hin | hin
    · have := hv.unique (hnear v hin)
      omega
    · have := hv.unique (hfar v hin)
      omega
  · subst heq
    have := hv.unique h.here
    omega

/-- **The goal is no nearer than where it is found.** -/
theorem Scanning.le_of_steps {seen : List α} {s : State α}
    (h : Scanning neighbours start goal u m seen s) {n : Nat}
    (hn : Steps neighbours start goal n) : m + 1 ≤ n := by
  by_contra hlt
  obtain ⟨k, -, hk⟩ := depth_le_of_steps h.found (fun v n hv hn => h.expanded_of_lt hv hn) hn
    (by omega : n ≤ m)
  exact h.found.goal hk.mem

/-- After the last neighbour the node is expanded. -/
theorem Scanning.inv {s : State α} (h : Scanning neighbours start goal u m (neighbours u) s) :
    Inv neighbours start goal s where
  found := h.found
  level := ⟨m, h.level, h.near⟩
  expanded v hv hqueue := by
    by_cases heq : v = u
    · subst heq
      intro n hn w hw
      obtain rfl := hn.unique h.here
      exact h.near w (h.seen w hw)
    · exact h.expanded v hv hqueue heq

theorem Inv.scanning {s : State α} (h : Inv neighbours start goal s) {queue : List α}
    (hqueue : s.queue = u :: queue) :
    ∃ m, Scanning neighbours start goal u m [] ⟨s.prev, queue⟩ := by
  obtain ⟨m, ⟨near, far, hsplit, hnear, hfar⟩, hbound⟩ := h.level
  have hexpanded : ∀ v ∈ s.prev.map Prod.fst, v ∉ queue → v ≠ u →
      Expanded neighbours s.prev v := fun v hv hnot hne =>
    h.expanded v hv (by rw [hqueue, List.mem_cons, not_or]; exact ⟨hne, hnot⟩)
  rw [hqueue] at hsplit
  cases near with
  | cons u' near =>
      obtain ⟨rfl, rfl⟩ := List.cons.inj hsplit
      exact ⟨m, h.found, hnear _ List.mem_cons_self,
        ⟨near, far, rfl, fun v hv => hnear v (List.mem_cons_of_mem _ hv), hfar⟩, hbound,
        fun w hw => (List.not_mem_nil hw).elim, hexpanded⟩
  | nil =>
      rw [List.nil_append] at hsplit
      subst hsplit
      refine ⟨m + 1, h.found, hfar _ List.mem_cons_self,
        ⟨queue, [], (List.append_nil _).symm, fun v hv => hfar v (List.mem_cons_of_mem _ hv),
          fun v hv => (List.not_mem_nil hv).elim⟩, fun w hw => ?_,
        fun w hw => (List.not_mem_nil hw).elim, hexpanded⟩
      obtain ⟨k, hk, hdepth⟩ := hbound w hw
      exact ⟨k, by omega, hdepth⟩

end Scan

/-! ## The search -/

/-- Nodes that no step leaves. -/
structure Closed (neighbours : α → List α) (start : α) (nodes : List α) : Prop where
  start : start ∈ nodes
  next : ∀ u ∈ nodes, ∀ v ∈ neighbours u, v ∈ nodes

theorem Found.length_le (hf : Found neighbours start goal prev) {nodes : List α}
    (hclosed : Closed neighbours start nodes) : prev.length ≤ nodes.length := by
  have hdepth : ∀ {v n}, Depth prev v n → v ∈ nodes := by
    intro v n h
    induction h with
    | root h =>
        rw [(hf.root _).mp h]
        exact hclosed.start
    | next h _ ih => exact hclosed.next _ ih _ (hf.edge _ _ h)
  have hsubset : prev.map Prod.fst ⊆ nodes := fun v hv => by
    obtain ⟨n, hn⟩ := hf.depth v hv
    exact hdepth hn
  have hlength := (List.subperm_of_subset hf.nodup hsubset).length_le
  rwa [List.length_map] at hlength

/-- What the search has when it finds the goal. -/
structure Reached (neighbours : α → List α) (start goal : α) (prev : List (α × Option α)) :
    Prop where
  root : ∀ v, prev.lookup v = some none → v = start
  edge : ∀ v u, prev.lookup v = some (some u) → v ∈ neighbours u
  depth : ∃ n, Depth prev goal n ∧ ∀ k, Steps neighbours start goal k → n ≤ k

theorem Scanning.reached {u : α} {m : Nat} {seen : List α} {s : State α}
    (h : Scanning neighbours start goal u m seen s) (hgoal : goal ∈ neighbours u) :
    Reached neighbours start goal (s.prev ++ [(goal, some u)]) where
  root v hv := by
    rw [lookup_append_new h.found.goal] at hv
    split at hv
    · cases hv
    · exact (h.found.root v).mp hv
  edge v w hw := by
    rw [lookup_append_new h.found.goal] at hw
    split at hw
    · rename_i heq
      cases hw
      rwa [heq]
    · exact h.found.edge v w hw
  depth := ⟨m + 1, depth_new h.found.goal h.here, fun _ hk => h.le_of_steps hk⟩

/-- The search finds the goal at its distance, or there is no way to it. -/
theorem search_spec {nodes : List α} (hclosed : Closed neighbours start nodes) {fuel : Nat}
    {s : State α} (h : Inv neighbours start goal s)
    (hfuel : nodes.length + s.queue.length < fuel + s.prev.length) :
    (∃ prev, search neighbours goal fuel s = some prev ∧ Reached neighbours start goal prev) ∨
      search neighbours goal fuel s = none ∧ ∀ n, ¬Steps neighbours start goal n := by
  induction fuel generalizing s with
  | zero =>
      have hle := h.found.length_le hclosed
      omega
  | succ fuel ih =>
      rw [search]
      cases hqueue : s.queue with
      | nil =>
          refine Or.inr ⟨rfl, fun n hn => ?_⟩
          have hexpanded : ∀ v k, Depth s.prev v k → k < n → Expanded neighbours s.prev v :=
            fun v k hv _ => h.expanded v hv.mem (by rw [hqueue]; exact List.not_mem_nil)
          obtain ⟨k, -, hk⟩ := depth_le_of_steps h.found hexpanded hn le_rfl
          exact h.found.goal hk.mem
      | cons u queue =>
          obtain ⟨m, hscanning⟩ := h.scanning hqueue
          dsimp only
          cases hscan : scan goal u (neighbours u) ⟨s.prev, queue⟩ with
          | error prev =>
              obtain ⟨seen, s', hs', hgoal, rfl⟩ := scan_error hscanning (fun _ hv => hv) hscan
              exact Or.inl ⟨_, rfl, hs'.reached hgoal⟩
          | ok s' =>
              obtain ⟨hnext, hlength⟩ := scan_ok hscanning (fun _ hv => hv) hscan
              refine ih (Scanning.inv hnext) ?_
              rw [hqueue, List.length_cons] at hfuel
              dsimp only at hlength
              omega

/-! ## The way back -/

/-- The way back from a node is the path to it, backwards. -/
theorem back_spec (hroot : ∀ v, prev.lookup v = some none → v = start)
    (hedge : ∀ v u, prev.lookup v = some (some u) → v ∈ neighbours u) {v : α} {n : Nat}
    (h : Depth prev v n) {fuel : Nat} (hfuel : n < fuel) :
    IsPath neighbours start v (back prev fuel v).reverse ∧
      (back prev fuel v).length = n + 1 := by
  induction h generalizing fuel with
  | @root v h =>
      obtain ⟨fuel, rfl⟩ := Nat.exists_eq_add_one_of_ne_zero (Nat.ne_zero_of_lt hfuel)
      obtain rfl := hroot v h
      rw [back, h]
      exact ⟨⟨.singleton _, rfl, rfl⟩, rfl⟩
  | @next v u n h _ ih =>
      obtain ⟨fuel, rfl⟩ := Nat.exists_eq_add_one_of_ne_zero (Nat.ne_zero_of_lt hfuel)
      have hlt : n < fuel := by omega
      obtain ⟨hpath, hlength⟩ := ih hlt
      rw [back, h]
      dsimp only
      rw [List.reverse_cons, List.length_cons, hlength]
      exact ⟨hpath.concat (hedge v u h), rfl⟩

/-- A node is found after fewer steps than nodes were found. -/
theorem Depth.lt_length {v : α} {n : Nat} (h : Depth prev v n) : n < prev.length := by
  have hway : ∃ way : List α, way.length = n + 1 ∧ way.Nodup ∧ way ⊆ prev.map Prod.fst ∧
      ∀ w ∈ way, ∃ k ≤ n, Depth prev w k := by
    induction h with
    | @root v h =>
        refine ⟨[v], rfl, List.nodup_singleton v, ?_, ?_⟩
        · intro w hw
          obtain rfl := List.mem_singleton.mp hw
          exact mem_keys_of_lookup h
        · intro w hw
          obtain rfl := List.mem_singleton.mp hw
          exact ⟨0, le_rfl, .root h⟩
    | @next v u n h hu ih =>
        obtain ⟨way, hlength, hnodup, hsubset, hdepth⟩ := ih
        have hv : Depth prev v (n + 1) := .next h hu
        refine ⟨v :: way, by rw [List.length_cons, hlength], List.nodup_cons.mpr ⟨?_, hnodup⟩,
          List.cons_subset.mpr ⟨hv.mem, hsubset⟩, ?_⟩
        · intro hin
          obtain ⟨k, hk, hk'⟩ := hdepth v hin
          have := hv.unique hk'
          omega
        · intro w hw
          rcases List.mem_cons.mp hw with rfl | hw
          · exact ⟨n + 1, le_rfl, hv⟩
          · obtain ⟨k, hk, hk'⟩ := hdepth w hw
            exact ⟨k, by omega, hk'⟩
  obtain ⟨way, hlength, hnodup, hsubset, -⟩ := hway
  have hle := (List.subperm_of_subset hnodup hsubset).length_le
  rw [List.length_map] at hle
  omega

theorem inv_start (hne : start ≠ goal) :
    Inv neighbours start goal ⟨[(start, none)], [start]⟩ := by
  have hlookup : ∀ v x, [(start, (none : Option α))].lookup v = some x ↔ v = start ∧ x = none := by
    intro v x
    rw [List.lookup_cons]
    by_cases hv : v = start
    · rw [beq_iff_eq.mpr hv]
      exact ⟨fun h => ⟨hv, (Option.some.inj h).symm⟩, fun h => congrArg some h.2.symm⟩
    · rw [beq_eq_false_iff_ne.mpr hv]
      exact iff_of_false (fun h => by cases h) fun h => hv h.1
  have hdepth : Depth [(start, (none : Option α))] start 0 := .root ((hlookup _ _).mpr ⟨rfl, rfl⟩)
  have hkeys : ∀ v ∈ [(start, (none : Option α))].map Prod.fst, v = start := fun v hv =>
    List.mem_singleton.mp hv
  refine ⟨⟨List.nodup_singleton _, ?_, ?_, ?_, ?_⟩, ⟨0, ⟨[start], [], rfl, ?_, ?_⟩, ?_⟩, ?_⟩
  · exact fun h => hne (hkeys _ h).symm
  · exact fun v => (hlookup v none).trans (and_iff_left rfl)
  · exact fun v u h => absurd ((hlookup _ _).mp h).2 (Option.some_ne_none u)
  · intro v hv
    rw [hkeys v hv]
    exact ⟨0, hdepth⟩
  · intro v hv
    rw [List.mem_singleton.mp hv]
    exact hdepth
  · exact fun v hv => (List.not_mem_nil hv).elim
  · intro v hv
    rw [hkeys v hv]
    exact ⟨0, Nat.zero_le _, hdepth⟩
  · exact fun v hv hnot => absurd (hkeys v hv ▸ List.mem_singleton.mpr rfl) hnot

/-- **A shortest path, or none where there is none.** -/
theorem shortestPath_spec {nodes : List α} (hclosed : Closed neighbours start nodes) (goal : α) :
    (shortestPath neighbours nodes.length start goal ≠ [] →
      IsPath neighbours start goal (shortestPath neighbours nodes.length start goal) ∧
      ∀ path, IsPath neighbours start goal path →
        (shortestPath neighbours nodes.length start goal).length ≤ path.length) ∧
    (shortestPath neighbours nodes.length start goal = [] ↔
      ¬∃ path, IsPath neighbours start goal path) := by
  have hnonempty : ∀ {path}, IsPath neighbours start goal path → path ≠ [] := by
    rintro path h rfl
    cases h.head
  unfold shortestPath
  by_cases hsame : start = goal
  · subst hsame
    have hpath : IsPath neighbours start start [start] := ⟨.singleton _, rfl, rfl⟩
    rw [if_pos rfl]
    refine ⟨fun _ => ⟨hpath, fun path h => ?_⟩, ?_⟩
    · exact List.length_pos_iff.mpr (hnonempty h)
    · exact iff_of_false (List.cons_ne_nil _ _) fun h => h ⟨_, hpath⟩
  · rw [if_neg hsame]
    have hinv : Inv neighbours start goal ⟨[(start, none)], [start]⟩ := inv_start hsame
    rcases search_spec hclosed hinv
        (by simp : nodes.length + 1 < nodes.length + 1 + 1) with
      ⟨prev, hsearch, hroot, hedge, n, hdepth, hleast⟩ | ⟨hsearch, hnone⟩
    · rw [hsearch]
      dsimp only
      obtain ⟨hpath, hlength⟩ := back_spec hroot hedge hdepth hdepth.lt_length
      refine ⟨fun _ => ⟨hpath, fun path h => ?_⟩, ?_⟩
      · have hle := hleast _ h.steps
        have hpos := List.length_pos_iff.mpr (hnonempty h)
        rw [List.length_reverse, hlength]
        omega
      · exact iff_of_false (hnonempty hpath) fun h => h ⟨_, hpath⟩
    · rw [hsearch]
      exact ⟨fun h => absurd rfl h, iff_of_true rfl fun ⟨path, h⟩ => hnone _ h.steps⟩

end LmResiliency.Bfs
