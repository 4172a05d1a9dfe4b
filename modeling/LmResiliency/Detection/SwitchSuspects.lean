/-
# SwitchSuspects — what a named switch explains, and for how long

A switch is named when it alone meets both thresholds.  With the default ones
it may miss a slow group from a thousand slow groups on, and lie on a healthy
one from a thousand million healthy groups on; below that it explains the round.
A confirmed switch has been named in each of the last calls, except past one
that raised.

The main result is `named_explains_iff`; the sizes are where the share
thresholds of the source stop being all or nothing.
-/
import LmResiliency.Detection.SwitchLocalizer
import LmResiliency.Detection.Suspect
import Mathlib.Algebra.Order.Field.Basic
import Mathlib.Tactic.NormNum
import Mathlib.Tactic.FieldSimp

namespace LmResiliency.Detection.SwitchLocalizer

open LmResiliency.Outcome

variable (L : SwitchLocalizer)

/-! ## The conditions, on the round alone -/

/-- `switches_on_path`, of a group whose nodes are known. -/
def path (m : GroupMeasurement) : List String :=
  (L.topology.switchesOnPath m.members).toOption.getD []

/-- The nodes of the group are in the topology. -/
def Known (m : GroupMeasurement) : Prop :=
  ∀ node ∈ m.members, node ∈ L.topology.nodeLeaf.map Prod.fst

/-- There are slow groups, and no node is in all of them. -/
def Searched (r : SwitchRound) : Prop :=
  L.slow r ≠ [] ∧ ∀ node, ∃ m ∈ L.slow r, node ∉ m.members

/-- The call raises: a path is asked for that is not known. -/
def Raises (r : SwitchRound) : Prop :=
  L.Searched r ∧ ¬∀ m ∈ L.slow r ++ L.fast r, L.Known m

/-- The thresholds, met by the numbers of paths through a switch. -/
def Meets (r : SwitchRound) (s : String) : Prop :=
  (∃ m ∈ L.slow r, s ∈ L.path m) ∧
    L.meets ((L.slow r).map L.path) ((L.fast r).map L.path) s = true

/-- The switch is the only one that meets the thresholds. -/
structure Alone (r : SwitchRound) (s : String) : Prop where
  searched : L.Searched r
  known : ∀ m ∈ L.slow r ++ L.fast r, L.Known m
  sole : ∀ s', L.Meets r s' ↔ s' = s

/-- The switch is on every slow path and on no fast one. -/
def Explains (r : SwitchRound) (s : String) : Prop :=
  (∀ m ∈ L.slow r, s ∈ L.path m) ∧ ∀ m ∈ L.fast r, s ∉ L.path m

/-- The only switch that meets the thresholds misses a slow path or is on a fast one. -/
def Misled (r : SwitchRound) : Prop :=
  ∃ s, L.Alone r s ∧ ((∃ m ∈ L.slow r, s ∉ L.path m) ∨ ∃ m ∈ L.fast r, s ∈ L.path m)

open Classical in
/-- The calls that do not raise. -/
noncomputable def answered (calls : List SwitchRound) : List SwitchRound :=
  calls.filter fun r => ¬L.Raises r

/-- One of the last calls raised, and the calls around it that did not single
the same switch out often enough. -/
def Bridged (r : SwitchRound) (earlier : List SwitchRound) : Prop :=
  ∃ s, L.Alone r s ∧ L.persistence.toNat ≤ (L.answered (r :: earlier)).length ∧
    (∀ q ∈ (L.answered (r :: earlier)).take L.persistence.toNat, L.Alone q s) ∧
    ∃ q ∈ earlier.take (L.persistence.toNat - 1), L.Raises q

/-! ## Runs -/

/-- What a call leaves behind: nothing new when it raises. -/
def after (state : Streak.Count String) (r : SwitchRound) : Streak.Count String :=
  match L.observe r state with
  | .ok (_, state') => state'
  | .error _ => state

/-- The count of a localizer after the rounds, the last one first. -/
def run : List SwitchRound → Streak.Count String
  | [] => .reset
  | r :: earlier => L.after (run earlier) r

/-- After the earlier rounds, the call on `r` names the switch. -/
def Reports (r : SwitchRound) (earlier : List SwitchRound) (s : String) : Prop :=
  ∃ v state, L.observe r (L.run earlier) = .ok (v, state) ∧ v.kind = some .fabricSwitch ∧
    v.suspect = some s

/-- Each of the last `n` calls named the switch. -/
def ReportedFor (n : Nat) (calls : List SwitchRound) (s : String) : Prop :=
  n ≤ calls.length ∧ ∀ later r earlier, calls = later ++ r :: earlier → later.length < n →
    L.Reports r earlier s

/-- A named switch explains the round, and a confirmed one has been named in
each of the last `persistence` calls. -/
def Holds (r : SwitchRound) (earlier : List SwitchRound) : Prop :=
  ∀ v state, L.observe r (L.run earlier) = .ok (v, state) → v.kind = some .fabricSwitch →
    ∃ s, v.suspect = some s ∧ L.Explains r s ∧
      (v.confirmed = true → L.ReportedFor L.persistence.toNat (r :: earlier) s)

/-! ## One call -/

/-- What a call names, by the branch that it takes. -/
def named (r : SwitchRound) : Option (Option String) :=
  if L.slow r = [] then some none
  else
    match commonNodes (L.slow r) with
    | _ :: _ => some none
    | [] =>
        match L.hittingSet (L.slow r) (L.fast r) with
        | .error _ => none
        | .ok [suspect] => some (some suspect)
        | .ok _ => some none

variable {L}

/-- **What a call does** with the count, and what it says. -/
theorem observe_spec (r : SwitchRound) (state : Streak.Count String) :
    (L.named r = none ∧ ∃ e, L.observe r state = .error e) ∨
    (L.named r = some none ∧ ∃ v, L.observe r state = .ok (v, .reset) ∧
      v.kind ≠ some .fabricSwitch) ∨
    ∃ s, L.named r = some (some s) ∧ ∃ v, L.observe r state = .ok (v, state.next s) ∧
      v.kind = some .fabricSwitch ∧ v.suspect = some s ∧
      (v.confirmed = true ↔ L.persistence ≤ (state.next s).streak) := by
  unfold observe named
  dsimp only
  split
  · refine Or.inr (Or.inl ⟨rfl, _, rfl, ?_⟩)
    exact fun h => by cases h
  · cases commonNodes (L.slow r) with
    | cons node rest =>
        refine Or.inr (Or.inl ⟨rfl, _, rfl, ?_⟩)
        exact fun h => by cases h
    | nil =>
        cases L.hittingSet (L.slow r) (L.fast r) with
        | error e => exact Or.inl ⟨rfl, e, rfl⟩
        | ok candidates =>
            match candidates with
            | [] =>
                refine Or.inr (Or.inl ⟨rfl, _, rfl, ?_⟩)
                exact fun h => by cases h
            | [s] =>
                refine Or.inr (Or.inr ⟨s, rfl, _, rfl, rfl, rfl, ?_⟩)
                exact decide_eq_true_iff
            | _ :: _ :: _ =>
                refine Or.inr (Or.inl ⟨rfl, _, rfl, ?_⟩)
                exact fun h => by cases h

theorem after_eq (state : Streak.Count String) (r : SwitchRound) :
    L.after state r = state.after (L.named r) := by
  rw [after]
  rcases observe_spec (L := L) r state with ⟨hn, e, ho⟩ | ⟨hn, v, ho, -⟩ | ⟨s, hn, v, ho, -⟩ <;>
    rw [hn, ho] <;> rfl

theorem run_eq : ∀ calls : List SwitchRound, L.run calls = Streak.run L.named calls
  | [] => rfl
  | r :: earlier => by rw [run, after_eq, run_eq earlier, Streak.run]

theorem reports_iff {r : SwitchRound} {earlier : List SwitchRound} {s : String} :
    L.Reports r earlier s ↔ L.named r = some (some s) := by
  rcases observe_spec (L := L) r (L.run earlier) with
    ⟨hn, e, ho⟩ | ⟨hn, v, ho, hkind⟩ | ⟨s', hn, v, ho, hkind, hsuspect, -⟩
  · rw [hn]
    refine iff_of_false ?_ (fun h => by cases h)
    rintro ⟨v, state, h, -⟩
    rw [ho] at h
    cases h
  · rw [hn]
    refine iff_of_false ?_ (fun h => by cases h)
    rintro ⟨v', state, h, hkind', -⟩
    rw [ho] at h
    cases h
    exact hkind hkind'
  · rw [hn, Option.some.injEq]
    constructor
    · rintro ⟨v', state, h, -, hs⟩
      rw [ho] at h
      cases h
      exact hsuspect.symm.trans hs
    · rintro h
      exact ⟨v, _, ho, hkind, hsuspect.trans h⟩

/-! ## The conditions, met by the code -/

theorem leafOf_ok_iff {node leaf : String} :
    L.topology.leafOf node = .ok leaf ↔ L.topology.nodeLeaf.lookup node = some leaf := by
  rw [FabricTopology.leafOf]
  cases L.topology.nodeLeaf.lookup node with
  | none => exact iff_of_false (fun h => by cases h) fun h => by cases h
  | some leaf' => rw [Except.ok.injEq, Option.some.injEq]

/-- A path can be asked for exactly when the nodes are known. -/
theorem known_iff {m : GroupMeasurement} :
    L.Known m ↔ L.topology.switchesOnPath m.members = .ok (L.path m) := by
  have hleaf : ∀ node, node ∈ L.topology.nodeLeaf.map Prod.fst ↔
      ∃ leaf, L.topology.leafOf node = .ok leaf := by
    intro node
    simp only [leafOf_ok_iff]
    constructor
    · intro hin
      obtain ⟨entry, hentry, rfl⟩ := List.mem_map.mp hin
      exact Option.ne_none_iff_exists'.mp (Dict.lookup_ne_none hentry)
    · rintro ⟨leaf, hlookup⟩
      exact List.mem_map.mpr ⟨_, Dict.mem_of_lookup hlookup, rfl⟩
  constructor
  · intro h
    obtain ⟨leaves, hleaves⟩ := mapM_total fun node hnode => (hleaf node).mp (h node hnode)
    rw [path, FabricTopology.switchesOnPath, hleaves]
    rfl
  · intro h node hnode
    obtain ⟨leaves, hleaves, -⟩ := bind_ok_iff.mp h
    obtain ⟨leaf, -, hok⟩ := (mem_of_forall₂ (mapM_ok_iff.mp hleaves)).1 node hnode
    exact (hleaf node).mpr ⟨leaf, hok⟩

theorem commonNodes_nil_iff {slow : List GroupMeasurement} (hne : slow ≠ []) :
    commonNodes slow = [] ↔ ∀ node, ∃ m ∈ slow, node ∉ m.members := by
  have hmem : ∀ node, node ∈ commonNodes slow ↔ ∀ m ∈ slow, node ∈ m.members := by
    intro node
    rw [commonNodes, sortedTexts, List.mem_insertionSort, List.mem_dedup,
      CommunicationLocalizer.mem_intersection]
    simp only [List.forall_mem_map]
    exact and_iff_right fun h => hne (List.map_eq_nil_iff.mp h)
  rw [List.eq_nil_iff_forall_not_mem]
  refine forall_congr' fun node => ?_
  rw [hmem]
  simp only [not_forall, exists_prop]

theorem mapM_path {ms : List GroupMeasurement} (h : ∀ m ∈ ms, L.Known m) :
    (ms.mapM fun m => L.topology.switchesOnPath m.members) = .ok (ms.map L.path) :=
  mapM_eq_map fun m hm => known_iff.mp (h m hm)

/-- What `_hitting_set` finds, when the paths are known. -/
theorem hittingSet_eq {r : SwitchRound} (h : ∀ m ∈ L.slow r ++ L.fast r, L.Known m) :
    ∃ candidates, L.hittingSet (L.slow r) (L.fast r) = .ok candidates ∧ candidates.Nodup ∧
      ∀ s, s ∈ candidates ↔ L.Meets r s := by
  have hslow := mapM_path fun m hm => h m (List.mem_append_left _ hm)
  have hfast := mapM_path fun m hm => h m (List.mem_append_right _ hm)
  have hset : L.hittingSet (L.slow r) (L.fast r) =
      .ok (((L.slow r).map L.path).flatten.dedup.filter
        (L.meets ((L.slow r).map L.path) ((L.fast r).map L.path))) := by
    rw [hittingSet, hslow, hfast]
    rfl
  refine ⟨_, hset, (List.nodup_dedup _).filter _, fun s => ?_⟩
  · rw [List.mem_filter, List.mem_dedup, List.mem_flatten, Meets]
    refine and_congr_left fun _ => ?_
    simp only [List.mem_map]
    constructor
    · rintro ⟨_, ⟨m, hm, rfl⟩, hs⟩
      exact ⟨m, hm, hs⟩
    · rintro ⟨m, hm, hs⟩
      exact ⟨_, ⟨m, hm, rfl⟩, hs⟩

theorem hittingSet_error_of {r : SwitchRound} (h : ¬∀ m ∈ L.slow r ++ L.fast r, L.Known m) :
    ∃ e, L.hittingSet (L.slow r) (L.fast r) = .error e := by
  cases hset : L.hittingSet (L.slow r) (L.fast r) with
  | error e => exact ⟨e, rfl⟩
  | ok candidates =>
      refine absurd (fun m hm => ?_) h
      obtain ⟨slowPaths, hslow, hrest⟩ := bind_ok_iff.mp hset
      obtain ⟨fastPaths, hfast, -⟩ := bind_ok_iff.mp hrest
      have hpath : ∃ p, L.topology.switchesOnPath m.members = .ok p := by
        rcases List.mem_append.mp hm with hm | hm
        · obtain ⟨p, -, hp⟩ := (mem_of_forall₂ (mapM_ok_iff.mp hslow)).1 m hm
          exact ⟨p, hp⟩
        · obtain ⟨p, -, hp⟩ := (mem_of_forall₂ (mapM_ok_iff.mp hfast)).1 m hm
          exact ⟨p, hp⟩
      obtain ⟨p, hp⟩ := hpath
      rw [known_iff, path, hp]
      rfl

theorem named_of_not_searched {r : SwitchRound} (h : ¬L.Searched r) : L.named r = some none := by
  rw [named]
  split
  · rfl
  · rename_i hne
    cases hcommon : commonNodes (L.slow r) with
    | cons node rest => rfl
    | nil => exact absurd ⟨hne, (commonNodes_nil_iff hne).mp hcommon⟩ h

theorem named_of_searched {r : SwitchRound} (h : L.Searched r) :
    L.named r = match L.hittingSet (L.slow r) (L.fast r) with
      | .error _ => none
      | .ok [suspect] => some (some suspect)
      | .ok _ => some none := by
  rw [named, if_neg h.1, (commonNodes_nil_iff h.1).mpr h.2]

/-- **A call raises** when a path it asks for is not known. -/
theorem named_eq_none_iff {r : SwitchRound} : L.named r = none ↔ L.Raises r := by
  by_cases hs : L.Searched r
  · rw [named_of_searched hs]
    by_cases hk : ∀ m ∈ L.slow r ++ L.fast r, L.Known m
    · obtain ⟨candidates, hset, -⟩ := hittingSet_eq hk
      rw [hset]
      refine iff_of_false ?_ fun h => h.2 hk
      match candidates with
      | [] => exact fun h => by cases h
      | [s] => exact fun h => by cases h
      | _ :: _ :: _ => exact fun h => by cases h
    · obtain ⟨e, hset⟩ := hittingSet_error_of hk
      rw [hset]
      exact iff_of_true rfl ⟨hs, hk⟩
  · rw [named_of_not_searched hs]
    exact iff_of_false (fun h => by cases h) fun h => hs h.1

/-- **A call names the switch** that alone meets the thresholds. -/
theorem named_eq_some_iff {r : SwitchRound} {s : String} :
    L.named r = some (some s) ↔ L.Alone r s := by
  by_cases hs : L.Searched r
  · by_cases hk : ∀ m ∈ L.slow r ++ L.fast r, L.Known m
    · obtain ⟨candidates, hset, hnodup, hmem⟩ := hittingSet_eq hk
      have hsingle : L.named r = some (some s) ↔ candidates = [s] := by
        rw [named_of_searched hs, hset]
        match candidates with
        | [] => exact iff_of_false (fun h => by cases h) fun h => by cases h
        | [s'] =>
            rw [Option.some.injEq, Option.some.injEq, List.cons.injEq, and_iff_left rfl]
        | _ :: _ :: _ => exact iff_of_false (fun h => by cases h) fun h => by cases h
      rw [hsingle]
      constructor
      · rintro rfl
        exact ⟨hs, hk, fun s' => (hmem s').symm.trans List.mem_singleton⟩
      · intro h
        refine List.perm_singleton.mp ((List.perm_ext_iff_of_nodup hnodup
          (List.nodup_singleton s)).mpr fun s' => ?_)
        rw [hmem, h.sole, List.mem_singleton]
    · obtain ⟨e, hset⟩ := hittingSet_error_of hk
      rw [named_of_searched hs, hset]
      exact iff_of_false (fun h => by cases h) fun h => hk h.known
  · rw [named_of_not_searched hs]
    exact iff_of_false (fun h => by cases h) fun h => hs h.searched

/-! ## The default thresholds -/

/-- A localizer with the default thresholds. -/
def ofTopology (topology : FabricTopology) (persistence : Int) : SwitchLocalizer where
  topology := topology
  persistence := persistence

theorem meets_ofTopology_iff {topology : FabricTopology} {persistence : Int}
    {slowPaths fastPaths : List (List String)} (hslow : slowPaths ≠ []) {s : String} :
    (ofTopology topology persistence).meets slowPaths fastPaths s = true ↔
      999 * slowPaths.length ≤ 1000 * crossings s slowPaths ∧
        1000000000 * crossings s fastPaths ≤ fastPaths.length := by
  have hpos : (0 : ℚ) < slowPaths.length := by
    exact_mod_cast List.length_pos_iff.mpr hslow
  refine decide_eq_true_iff.trans (and_congr ?_ ?_)
  · change (999 / 1000 : ℚ) ≤ crossings s slowPaths / slowPaths.length ↔ _
    rw [div_le_div_iff₀ (by norm_num) hpos]
    rw [mul_comm _ (1000 : ℚ)]
    exact_mod_cast Iff.rfl
  · change (if fastPaths = [] then 0 else (crossings s fastPaths / fastPaths.length : ℚ)) ≤
      1 / 1000000000 ↔ _
    by_cases hfast : fastPaths = []
    · subst hfast
      rw [if_pos rfl]
      refine iff_of_true (by norm_num) ?_
      rw [crossings, List.countP_nil, List.length_nil]
    · have hpos' : (0 : ℚ) < fastPaths.length := by
        exact_mod_cast List.length_pos_iff.mpr hfast
      rw [if_neg hfast, div_le_div_iff₀ hpos' (by norm_num), one_mul,
        mul_comm _ (1000000000 : ℚ)]
      exact_mod_cast Iff.rfl

theorem crossings_map {ms : List GroupMeasurement} {s : String} (h : ∃ m ∈ ms, s ∉ L.path m) :
    crossings s (ms.map L.path) < ms.length := by
  have hle : crossings s (ms.map L.path) ≤ (ms.map L.path).length := List.countP_le_length
  rw [List.length_map] at hle
  refine lt_of_le_of_ne hle fun heq => ?_
  obtain ⟨m, hm, hs⟩ := h
  rw [crossings, ← @List.length_map _ _ ms L.path, List.countP_eq_length] at heq
  exact hs (of_decide_eq_true (heq _ (List.mem_map_of_mem hm)))

/-- **Only a round of a thousand slow groups, or of a thousand million healthy
ones, can mislead** the default thresholds. -/
theorem misled_only_large {topology : FabricTopology} {persistence : Int} {r : SwitchRound}
    (h : (ofTopology topology persistence).Misled r) :
    1000 ≤ ((ofTopology topology persistence).slow r).length ∨
      1000000000 ≤ ((ofTopology topology persistence).fast r).length := by
  obtain ⟨s, halone, hmiss⟩ := h
  obtain ⟨-, hmeets⟩ := (halone.sole s).mpr rfl
  rw [meets_ofTopology_iff fun hnil => halone.searched.1 (List.map_eq_nil_iff.mp hnil),
    List.length_map, List.length_map] at hmeets
  rcases hmiss with hmiss | ⟨m, hm, hs⟩
  · have hlt := crossings_map hmiss
    exact Or.inl (by omega)
  · have hpos : 0 < crossings s (((ofTopology topology persistence).fast r).map
        (ofTopology topology persistence).path) :=
      List.countP_pos_iff.mpr ⟨_, List.mem_map_of_mem hm, decide_eq_true hs⟩
    exact Or.inr (by omega)

/-! ## What a named switch explains -/

open Classical in
theorem answered_eq (calls : List SwitchRound) :
    L.answered calls = Streak.answers L.named calls := by
  refine List.filter_congr fun r _ => ?_
  rw [Bool.eq_iff_iff, decide_eq_true_iff, Option.isSome_iff_ne_none, ne_eq, named_eq_none_iff]

theorem reportedFor_iff {n : Nat} {calls : List SwitchRound} {s : String} :
    L.ReportedFor n calls s ↔
      n ≤ calls.length ∧ ∀ r ∈ calls.take n, L.named r = some (some s) := by
  refine and_congr_right fun _ => ⟨fun h r hr => ?_, fun h later r earlier heq hlater => ?_⟩
  · obtain ⟨later, earlier, heq, hlater⟩ := Streak.mem_take_iff.mp hr
    exact reports_iff.mp (h later r earlier heq hlater)
  · exact reports_iff.mpr (h r (Streak.mem_take_iff.mpr ⟨later, earlier, heq, hlater⟩))

/-- A named switch is confirmed when the count says so. -/
theorem confirmed_iff {r : SwitchRound} {earlier : List SwitchRound} {s : String}
    (hr : L.named r = some (some s)) :
    L.persistence ≤ ((L.run earlier).next s).streak ↔
      Streak.Held L.named L.persistence.toNat (r :: earlier) s := by
  have hrun : Streak.run L.named (r :: earlier) = (L.run earlier).next s := by
    rw [Streak.run, hr, run_eq]
    rfl
  rcases Nat.eq_zero_or_pos L.persistence.toNat with hzero | hpos
  · rw [hzero]
    refine iff_of_true (by omega) ⟨Nat.zero_le _, fun q hq => ?_⟩
    rw [List.take_zero] at hq
    cases hq
  · rw [← Streak.count_iff hpos, hrun]
    refine ⟨fun h => ⟨rfl, by omega⟩, fun h => by omega⟩

/-- What is bridged, in terms of what the calls name. -/
theorem bridged_iff {r : SwitchRound} {earlier : List SwitchRound} :
    L.Bridged r earlier ↔ ∃ s, L.named r = some (some s) ∧
      Streak.Held L.named L.persistence.toNat (r :: earlier) s ∧
      ∃ q ∈ earlier.take (L.persistence.toNat - 1), L.named q = none := by
  unfold Bridged Streak.Held
  simp only [named_eq_some_iff, named_eq_none_iff, answered_eq, and_assoc]

/-- The two parts of `Holds` fail in one way each. -/
theorem holds_iff {r : SwitchRound} {earlier : List SwitchRound} :
    L.Holds r earlier ↔ ¬L.Misled r ∧ ¬L.Bridged r earlier := by
  rw [bridged_iff]
  rcases observe_spec (L := L) r (L.run earlier) with
    ⟨hn, e, ho⟩ | ⟨hn, v, ho, hkind⟩ | ⟨s, hn, v, ho, hkind, hsuspect, hconfirmed⟩
  · -- The call raises, and names nothing.
    refine iff_of_true (fun v state h => ?_) ⟨?_, ?_⟩
    · rw [ho] at h
      cases h
    · rintro ⟨s, halone, -⟩
      rw [named_eq_some_iff.mpr halone] at hn
      cases hn
    · rintro ⟨s, hs, -⟩
      rw [hs] at hn
      cases hn
  · refine iff_of_true (fun v' state h hk => ?_) ⟨?_, ?_⟩
    · rw [ho] at h
      cases h
      exact absurd hk hkind
    · rintro ⟨s, halone, -⟩
      rw [named_eq_some_iff.mpr halone] at hn
      cases hn
    · rintro ⟨s, hs, -⟩
      rw [hs] at hn
      cases hn
  · -- The call names `s`: each part of `Holds` fails in one of the two ways.
    have halone := named_eq_some_iff.mp hn
    have hsame : ∀ s', L.named r = some (some s') → s' = s := fun s' hs' => by
      rw [hn] at hs'
      exact (Option.some.inj (Option.some.inj hs')).symm
    have hexplains : L.Explains r s ↔ ¬L.Misled r := by
      constructor
      · rintro ⟨hall, hnone⟩ ⟨s', halone', hmiss⟩
        obtain rfl := hsame s' (named_eq_some_iff.mpr halone')
        rcases hmiss with ⟨m, hm, hs⟩ | ⟨m, hm, hs⟩
        · exact hs (hall m hm)
        · exact hnone m hm hs
      · intro hmisled
        constructor
        · intro m hm
          by_contra hs
          exact hmisled ⟨s, halone, Or.inl ⟨m, hm, hs⟩⟩
        · intro m hm hs
          exact hmisled ⟨s, halone, Or.inr ⟨m, hm, hs⟩⟩
    have hreported : (v.confirmed = true → L.ReportedFor L.persistence.toNat (r :: earlier) s) ↔
        ¬∃ s, L.named r = some (some s) ∧
          Streak.Held L.named L.persistence.toNat (r :: earlier) s ∧
          ∃ q ∈ earlier.take (L.persistence.toNat - 1), L.named q = none := by
      rw [hconfirmed, confirmed_iff hn, reportedFor_iff]
      rcases Nat.eq_zero_or_pos L.persistence.toNat with hzero | hpos
      · rw [hzero]
        refine iff_of_true (fun _ => ⟨Nat.zero_le _, fun q hq => ?_⟩) ?_
        · rw [List.take_zero] at hq
          cases hq
        · rintro ⟨_, -, -, q, hq, -⟩
          rw [Nat.zero_sub, List.take_zero] at hq
          cases hq
      · rw [Streak.take_named_iff hpos hn]
        constructor
        · rintro h ⟨s', hs', hheld, q, hq, hraised⟩
          obtain rfl := hsame s' hs'
          exact (h hheld).2 q hq hraised
        · intro h hheld
          refine ⟨hheld, fun q hq hraised => h ⟨s, hn, hheld, q, hq, hraised⟩⟩
    constructor
    · intro h
      obtain ⟨s', hs', hex, hrep⟩ := h v _ ho hkind
      obtain rfl := Option.some.inj (hsuspect.symm.trans hs')
      exact ⟨hexplains.mp hex, hreported.mp hrep⟩
    · rintro ⟨hmisled, hbridged⟩ v' state h _
      rw [ho] at h
      cases h
      exact ⟨s, hsuspect, hexplains.mpr hmisled, hreported.mpr hbridged⟩

/-- **A named switch explains the round, and a confirmed one has been named in
each of the last calls, except in a misled round or past a call that raised.**
With the default thresholds only a thousand slow groups, or a thousand million
healthy ones, can mislead. -/
theorem named_explains_iff (topology : FabricTopology) (persistence : Int) (r : SwitchRound)
    (earlier : List SwitchRound) :
    ((ofTopology topology persistence).Holds r earlier ↔
      ¬(ofTopology topology persistence).Misled r ∧
        ¬(ofTopology topology persistence).Bridged r earlier) ∧
    ((ofTopology topology persistence).Misled r →
      1000 ≤ ((ofTopology topology persistence).slow r).length ∨
        1000000000 ≤ ((ofTopology topology persistence).fast r).length) :=
  ⟨holds_iff, misled_only_large⟩

/-! ## A thousand slow groups -/

/-- Two nodes on different leaves. -/
def twoLeaves : FabricTopology where
  nodeLeaf := [("x", "leaf0"), ("y", "leaf1")]
  spineRoute := []

/-- A group of one node whose collective failed. -/
def failedGroup (node : String) : GroupMeasurement where
  groupId := node
  members := [node]
  collective := "all_reduce"
  latencyS := .finite 0
  failed := true

/-- All but one of the thousand groups are on the first leaf. -/
def thousandGroups : SwitchRound where
  measurements := List.replicate 999 (failedGroup "x") ++ [failedGroup "y"]

theorem sortedGroups_failed {r : SwitchRound} {c : String} (hne : r.measurements ≠ [])
    (hclass : ∀ m ∈ r.measurements, m.collective = c)
    (hfailed : ∀ m ∈ r.measurements, m.failed = true) (hstragglers : r.computeStragglers = []) :
    L.slow r = r.measurements ∧ L.fast r = [] := by
  have hgroups : L.sortedGroups r = r.measurements.map fun m => (m, some true) := by
    rw [sortedGroups, Dict.group_of_forall_eq hne hclass, List.flatMap_cons, List.flatMap_nil,
      List.append_nil]
    refine List.map_congr_left fun m hm => ?_
    have hexplained : isExplained r.computeStragglers m = false := by
      rw [hstragglers, isExplained]
      exact List.any_eq_false.mpr fun _ _ => by simp
    rw [sorted, isSlow, hfailed m hm, hexplained]
    rfl
  constructor
  · have hall : (r.measurements.map fun m => (m, some true)).filter (·.2 = some true) =
        r.measurements.map fun m => (m, some true) := by
      refine List.filter_eq_self.mpr fun p hp => ?_
      obtain ⟨m, -, rfl⟩ := List.mem_map.mp hp
      exact decide_eq_true rfl
    rw [slow, hgroups, hall, List.map_map]
    exact List.map_id _
  · rw [fast, hgroups, List.map_eq_nil_iff, List.filter_eq_nil_iff]
    intro p hp
    obtain ⟨m, -, rfl⟩ := List.mem_map.mp hp
    simp

theorem thousandGroups_mem {m : GroupMeasurement} (h : m ∈ thousandGroups.measurements) :
    m = failedGroup "x" ∨ m = failedGroup "y" := by
  rcases List.mem_append.mp h with h | h
  · exact Or.inl (List.eq_of_mem_replicate h)
  · exact Or.inr (List.mem_singleton.mp h)

/-- The first leaf is named although the last group is not on it. -/
theorem thousandGroups_misled : ¬(ofTopology twoLeaves 3).Holds thousandGroups [] := by
  obtain ⟨hslow, hfast⟩ := sortedGroups_failed (L := ofTopology twoLeaves 3)
    (r := thousandGroups) (c := "all_reduce")
    (List.append_ne_nil_of_right_ne_nil _ (List.cons_ne_nil _ _))
    (fun m hm => by rcases thousandGroups_mem hm with rfl | rfl <;> rfl)
    (fun m hm => by rcases thousandGroups_mem hm with rfl | rfl <;> rfl) rfl
  have hx : failedGroup "x" ∈ thousandGroups.measurements :=
    List.mem_append_left _ (List.mem_replicate.mpr ⟨by decide, rfl⟩)
  have hy : failedGroup "y" ∈ thousandGroups.measurements :=
    List.mem_append_right _ (List.mem_singleton.mpr rfl)
  have hpathx : (ofTopology twoLeaves 3).path (failedGroup "x") = ["leaf0"] := by decide
  have hpathy : (ofTopology twoLeaves 3).path (failedGroup "y") = ["leaf1"] := by decide
  have hcount : ∀ s, crossings s (thousandGroups.measurements.map (ofTopology twoLeaves 3).path) =
      (if s = "leaf0" then 999 else 0) + if s = "leaf1" then 1 else 0 := by
    intro s
    rw [thousandGroups, crossings, List.map_append, List.map_replicate, List.map_singleton,
      hpathx, hpathy, List.countP_append, List.countP_replicate, List.countP_singleton]
    simp
  have hlength : (thousandGroups.measurements.map (ofTopology twoLeaves 3).path).length = 1000 := by
    rw [List.length_map, thousandGroups, List.length_append, List.length_replicate,
      List.length_singleton]
  refine fun h => (holds_iff.mp h).1 ⟨"leaf0", ⟨⟨?_, fun node => ?_⟩, fun m hm => ?_, fun s => ?_⟩,
    Or.inl ⟨failedGroup "y", hslow ▸ hy, by rw [hpathy]; decide⟩⟩
  · rw [hslow]
    exact List.ne_nil_of_mem hx
  · rw [hslow]
    by_cases hnode : node = "x"
    · exact ⟨_, hy, by rw [hnode]; decide⟩
    · exact ⟨_, hx, fun hmem => hnode (List.mem_singleton.mp hmem)⟩
  · rw [hslow, hfast, List.append_nil] at hm
    rcases thousandGroups_mem hm with rfl | rfl
    · unfold Known
      decide
    · unfold Known
      decide
  · rw [Meets, hslow, hfast, List.map_nil, meets_ofTopology_iff (List.ne_nil_of_mem
      (List.mem_map_of_mem hx)), hcount, hlength]
    constructor
    · rintro ⟨-, hcover, -⟩
      by_contra hs
      rw [if_neg hs] at hcover
      split at hcover <;> omega
    · rintro rfl
      exact ⟨⟨_, hx, by rw [hpathx]; decide⟩, by decide, by decide⟩

end LmResiliency.Detection.SwitchLocalizer
