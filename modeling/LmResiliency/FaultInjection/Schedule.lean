/-
# Schedule — the incidents that begin or end at an iteration

A cursor keeps the next time of every incident in a heap, so that a query only
moves the incidents that lie behind it.  Earlier answers are cached, and a query
behind the highest one so far is answered by the plain test.

The heap is the sorted list of its entries; the smallest one is popped first.

The main result is `make_answers`, for queries in any order.
-/
import LmResiliency.FaultInjection.Config
import LmResiliency.Lib.Dict
import LmResiliency.Lib.Progression
import Mathlib.Data.List.Sort

namespace LmResiliency.FaultInjection

/-! ## The next trigger -/

def triggerContainsIteration (incident : FaultIncident) (iteration : Int) : Bool :=
  match incident.trigger.range with
  | some range => range.matchesAt iteration
  | none =>
      incident.trigger.exactAt[bisectLeft incident.trigger.exactAt iteration]? = some iteration

def nextTriggerAtOrAfter (incident : FaultIncident) (iteration : Int) : Option Int :=
  match incident.trigger.range with
  | none => incident.trigger.exactAt[bisectLeft incident.trigger.exactAt iteration]?
  | some range =>
      if iteration ≤ range.start then some range.start
      else
        let steps := (iteration - range.start + range.every - 1) / range.every
        let candidate := range.start + steps * range.every
        if candidate ≤ range.endAt then some candidate else none

theorem getElem?_bisectLeft (xs : List Int) (x : Int) :
    xs[bisectLeft xs x]? = (xs.dropWhile (· < x)).head? := by
  rw [bisectLeft]
  induction xs with
  | nil => rfl
  | cons y ys ih =>
      rw [List.takeWhile_cons, List.dropWhile_cons]
      split
      · rw [List.length_cons, List.getElem?_cons_succ, ih]
      · rfl

theorem head?_dropWhile_lt {xs : List Int} (h : xs.Pairwise (· < ·)) (x : Int) :
    (∀ n, (xs.dropWhile (· < x)).head? = some n →
      n ∈ xs ∧ x ≤ n ∧ ∀ t ∈ xs, x ≤ t → n ≤ t) ∧
    ((xs.dropWhile (· < x)).head? = none → ∀ t ∈ xs, t < x) := by
  induction xs with
  | nil => exact ⟨fun n hn => (by cases hn), fun _ t ht => (by cases ht)⟩
  | cons y ys ih =>
      rw [List.pairwise_cons] at h
      obtain ⟨hsome, hnone⟩ := ih h.2
      rw [List.dropWhile_cons]
      split
      · rename_i hy
        have hlt : y < x := of_decide_eq_true hy
        refine ⟨fun n hn => ?_, fun hn t ht => ?_⟩
        · obtain ⟨hin, hle, hleast⟩ := hsome n hn
          refine ⟨List.mem_cons_of_mem y hin, hle, fun t ht hxt => ?_⟩
          rcases List.mem_cons.mp ht with rfl | ht
          · omega
          · exact hleast t ht hxt
        · rcases List.mem_cons.mp ht with rfl | ht
          · exact hlt
          · exact hnone hn t ht
      · rename_i hy
        have hle : x ≤ y := Int.not_lt.mp fun hlt => hy (decide_eq_true hlt)
        refine ⟨fun n hn => ?_, fun hn => by cases hn⟩
        obtain rfl : y = n := Option.some.inj hn
        refine ⟨List.mem_cons_self, hle, fun t ht _ => ?_⟩
        rcases List.mem_cons.mp ht with rfl | ht
        · exact le_refl _
        · exact (h.1 t ht).le

/-- The candidates of a range are its start and whole steps from there. -/
theorem IterationRange.matchesAt_iff {range : IterationRange} {i : Int} :
    range.matchesAt i = true ↔ Progression.Member range.start range.endAt range.every i := by
  rw [matchesAt, decide_eq_true_iff, Progression.member_iff range.every_pos,
    Int.dvd_iff_emod_eq_zero]

theorem IncidentTrigger.matchesAt_exact {trigger : IncidentTrigger} (h : trigger.range = none)
    {t : Int} : trigger.matchesAt t = true ↔ t ∈ trigger.exactAt := by
  rw [matchesAt, h, decide_eq_true_iff, getElem?_bisectLeft]
  obtain ⟨hsome, hnone⟩ := head?_dropWhile_lt trigger.at_sorted t
  constructor
  · exact fun h => (hsome t h).1
  · intro h
    cases hhead : (trigger.exactAt.dropWhile (· < t)).head? with
    | none => exact absurd (hnone hhead t h) (lt_irrefl t)
    | some n =>
        obtain ⟨-, hle, hleast⟩ := hsome n hhead
        rw [le_antisymm (hleast t h (le_refl t)) hle]

theorem IncidentTrigger.matchesAt_range {trigger : IncidentTrigger} {range : IterationRange}
    (h : trigger.range = some range) {t : Int} : trigger.matchesAt t = true ↔
      Progression.Member range.start range.endAt range.every t := by
  rw [matchesAt, h]
  exact IterationRange.matchesAt_iff

/-- The next trigger is the first one from there on. -/
theorem nextTriggerAtOrAfter_spec (incident : FaultIncident) (i : Int) :
    (∀ n, nextTriggerAtOrAfter incident i = some n →
      incident.trigger.matchesAt n = true ∧ i ≤ n ∧
        ∀ t, incident.trigger.matchesAt t = true → i ≤ t → n ≤ t) ∧
    (nextTriggerAtOrAfter incident i = none →
      ∀ t, incident.trigger.matchesAt t = true → t < i) := by
  unfold nextTriggerAtOrAfter
  cases hrange : incident.trigger.range with
  | none =>
      simp only [IncidentTrigger.matchesAt_exact hrange]
      rw [getElem?_bisectLeft]
      exact head?_dropWhile_lt incident.trigger.at_sorted i
  | some range =>
      have hevery := range.every_pos
      have hbounds := range.start_le
      simp only [IncidentTrigger.matchesAt_range hrange, Progression.member_iff hevery]
      split
      · rename_i hle
        refine ⟨fun n hn => ?_, fun hn => by cases hn⟩
        obtain rfl := Option.some.inj hn
        exact ⟨⟨le_refl _, hbounds, by simp⟩, hle, fun t ht _ => ht.1⟩
      · rename_i hlt
        obtain ⟨hreach, hdvd, hleast⟩ := Progression.alignUp_spec hevery range.start i
        split
        · rename_i hend
          refine ⟨fun n hn => ?_, fun hn => by cases hn⟩
          obtain rfl := Option.some.inj hn
          exact ⟨⟨(Int.not_le.mp hlt).le.trans hreach, hend, hdvd⟩, hreach,
            fun t ht hit => hleast t hit ht.2.2⟩
        · rename_i hend
          refine ⟨fun n hn => (by cases hn), fun _ t ht => ?_⟩
          by_contra hit
          have := hleast t (Int.not_lt.mp hit) ht.2.2
          exact hend (this.trans ht.2.1)

theorem IncidentTrigger.matchesAt_pos {trigger : IncidentTrigger} {t : Int}
    (h : trigger.matchesAt t = true) : 0 < t := by
  unfold IncidentTrigger.matchesAt at h
  split at h
  · rename_i range _
    have hstart := range.start_pos
    rw [IterationRange.matchesAt, decide_eq_true_iff] at h
    omega
  · exact trigger.at_pos t (List.mem_of_getElem? (of_decide_eq_true h))

theorem triggerContainsIteration_eq (incident : FaultIncident) (i : Int) :
    triggerContainsIteration incident i = incident.trigger.matchesAt i := rfl

/-! ## The cursor -/

/-- An entry of the heap: a time, the place of the incident, and how much later than its trigger
the time is. -/
structure Slot where
  scheduled : Int
  order : Nat
  offset : Int
deriving DecidableEq

/-- The order of the entries. -/
def Slot.before (a b : Slot) : Prop :=
  a.scheduled < b.scheduled ∨ a.scheduled = b.scheduled ∧
    (a.order < b.order ∨ a.order = b.order ∧ a.offset ≤ b.offset)

instance : DecidableRel Slot.before := fun a b => by
  unfold Slot.before
  infer_instance

instance : Std.Total Slot.before where
  total a b := by
    unfold Slot.before
    omega

instance : IsTrans Slot Slot.before where
  trans a b c := by
    unfold Slot.before
    omega

def heapPush (heap : List Slot) (slot : Slot) : List Slot := heap.orderedInsert Slot.before slot

/-- `_ScheduleCursor` -/
structure ScheduleCursor where
  incidents : List FaultIncident
  expiration : Bool
  heap : List Slot
  cache : List (Int × List (FaultIncident × Int))
  highWater : Int

/-- How much later than its trigger an incident is looked for, if it is. -/
def offsetOf (expiration : Bool) (incident : FaultIncident) : Option Int :=
  if expiration then incident.lifetime.iterationCount.map (· - 1) else some 0

/-- The first entry of an incident. -/
def firstSlot (expiration : Bool) (item : FaultIncident × Nat) : Option Slot :=
  (offsetOf expiration item.1).bind fun offset =>
    (nextTriggerAtOrAfter item.1 1).map fun first => ⟨first + offset, item.2, offset⟩

/-- The entries that lie behind an iteration. -/
def behind (iteration : Int) (heap : List Slot) : Nat := heap.countP (·.scheduled < iteration)

theorem behind_cons_lt {iteration : Int} {slot : Slot} (rest : List Slot)
    (h : slot.scheduled < iteration) : behind iteration rest < behind iteration (slot :: rest) := by
  simp [behind, h]

theorem behind_push {iteration : Int} {slot : Slot} (heap : List Slot)
    (h : iteration ≤ slot.scheduled) : behind iteration (heapPush heap slot) =
      behind iteration heap := by
  rw [behind, heapPush, (List.perm_orderedInsert _ _ _).countP_eq, List.countP_cons]
  simp [behind, h]

/-- The loop that moves the entries behind an iteration. -/
def catchUp (incidents : List FaultIncident) (iteration : Int) (heap : List Slot) : List Slot :=
  match heap with
  | [] => []
  | slot :: rest =>
      if slot.scheduled < iteration then
        match _hnext : incidents[slot.order]?.bind
            (nextTriggerAtOrAfter · (iteration - slot.offset)) with
        | none => catchUp incidents iteration rest
        | some nextStart =>
            catchUp incidents iteration
              (heapPush rest ⟨nextStart + slot.offset, slot.order, slot.offset⟩)
      else slot :: rest
termination_by behind iteration heap
decreasing_by
  · exact behind_cons_lt rest ‹_›
  · obtain ⟨incident, -, hnext⟩ := Option.bind_eq_some_iff.mp _hnext
    have hle := ((nextTriggerAtOrAfter_spec incident _).1 _ hnext).2.1
    rw [behind_push rest (by dsimp only; omega)]
    exact behind_cons_lt rest ‹_›

namespace ScheduleCursor

/-- `_ScheduleCursor(incidents, expiration)` -/
def make (incidents : List FaultIncident) (expiration : Bool) : ScheduleCursor where
  incidents := incidents
  expiration := expiration
  heap := (incidents.zipIdx.filterMap (firstSlot expiration)).foldl heapPush []
  cache := []
  highWater := 0

/-- The plain test, for a query behind the highest one. -/
def past (cursor : ScheduleCursor) (iteration : Int) : List (FaultIncident × Int) :=
  cursor.incidents.filterMap fun incident =>
    (offsetOf cursor.expiration incident).bind fun offset =>
      if 0 < iteration - offset ∧ triggerContainsIteration incident (iteration - offset) then
        some (incident, iteration - offset)
      else none

/-- `at` -/
def atIteration (cursor : ScheduleCursor) (iteration : Int) :
    ScheduleCursor × List (FaultIncident × Int) :=
  match cursor.cache.lookup iteration with
  | some cached => (cursor, cached)
  | none =>
      if iteration < cursor.highWater then (cursor, cursor.past iteration)
      else
        let heap := catchUp cursor.incidents iteration cursor.heap
        let matched := heap.takeWhile (·.scheduled = iteration)
        let heap := matched.foldl heapPush (heap.dropWhile (·.scheduled = iteration))
        let result := matched.filterMap fun slot =>
          cursor.incidents[slot.order]?.map fun incident => (incident, iteration - slot.offset)
        let cache := cursor.cache ++ [(iteration, result)]
        ({ cursor with
            heap := heap
            highWater := iteration
            cache := cache.drop (cache.length - 8) }, result)

/-- The answers to some queries, one after another. -/
def answers : ScheduleCursor → List Int → List (List (FaultIncident × Int))
  | _, [] => []
  | cursor, iteration :: queries =>
      (cursor.atIteration iteration).2 :: answers (cursor.atIteration iteration).1 queries

end ScheduleCursor

/-- The incidents whose trigger matches an iteration; when they expire, those with an
occurrence that began so many iterations before. -/
def scheduledAt (incidents : List FaultIncident) (expiration : Bool) (iteration : Int) :
    List (FaultIncident × Int) :=
  incidents.filterMap fun incident =>
    (offsetOf expiration incident).bind fun offset =>
      if incident.trigger.matchesAt (iteration - offset) then
        some (incident, iteration - offset)
      else none

/-- The incidents whose trigger matches an iteration. -/
def beginningAt (incidents : List FaultIncident) (iteration : Int) : List (FaultIncident × Int) :=
  (incidents.filter (·.trigger.matchesAt iteration)).map fun incident => (incident, iteration)

/-- The incidents that last a number of iterations and have an occurrence that ends at an
iteration, with the start of that occurrence. -/
def endingAt (incidents : List FaultIncident) (iteration : Int) : List (FaultIncident × Int) :=
  incidents.filterMap fun incident =>
    match incident.lifetime.iterationCount with
    | none => none
    | some count =>
        let start := iteration - (count - 1)
        if incident.trigger.matchesAt start then some (incident, start) else none

theorem scheduledAt_false (incidents : List FaultIncident) (iteration : Int) :
    scheduledAt incidents false iteration = beginningAt incidents iteration := by
  rw [beginningAt, ← List.filterMap_eq_map, List.filterMap_filter]
  refine List.filterMap_congr fun incident _ => ?_
  simp [offsetOf]

theorem scheduledAt_true (incidents : List FaultIncident) (iteration : Int) :
    scheduledAt incidents true iteration = endingAt incidents iteration := by
  refine List.filterMap_congr fun incident _ => ?_
  cases hcount : incident.lifetime.iterationCount <;> simp [offsetOf, hcount]

/-! ## What the heap holds -/

/-- The heap holds, for every incident that is looked for, its first time from `level` on. -/
structure Tracks (incidents : List FaultIncident) (expiration : Bool) (level : Int)
    (heap : List Slot) : Prop where
  sorted : heap.Pairwise Slot.before
  orders : (heap.map Slot.order).Nodup
  slots : ∀ slot ∈ heap, ∃ incident, incidents[slot.order]? = some incident ∧
    offsetOf expiration incident = some slot.offset ∧
    incident.trigger.matchesAt (slot.scheduled - slot.offset) = true ∧
    ∀ t, incident.trigger.matchesAt t = true → level ≤ t + slot.offset →
      slot.scheduled ≤ t + slot.offset
  complete : ∀ order incident offset t, incidents[order]? = some incident →
    offsetOf expiration incident = some offset → incident.trigger.matchesAt t = true →
    level ≤ t + offset → ∃ slot ∈ heap, slot.order = order

section Tracks

variable {incidents : List FaultIncident} {expiration : Bool} {level : Int} {heap rest : List Slot}
variable {slot : Slot}

theorem Tracks.raise (h : Tracks incidents expiration level heap) {above : Int}
    (hle : level ≤ above) : Tracks incidents expiration above heap := by
  refine ⟨h.sorted, h.orders, fun slot hslot => ?_, ?_⟩
  · obtain ⟨incident, hin, hoffset, hmatch, hleast⟩ := h.slots slot hslot
    exact ⟨incident, hin, hoffset, hmatch, fun t ht hlevel => hleast t ht (hle.trans hlevel)⟩
  · exact fun order incident offset t hin hoffset ht hlevel =>
      h.complete order incident offset t hin hoffset ht (hle.trans hlevel)

theorem Tracks.perm (h : Tracks incidents expiration level heap) {heap' : List Slot}
    (hperm : heap'.Perm heap) (hsorted : heap'.Pairwise Slot.before) :
    Tracks incidents expiration level heap' := by
  refine ⟨hsorted, (hperm.map Slot.order).nodup_iff.mpr h.orders, fun slot hslot =>
    h.slots slot (hperm.mem_iff.mp hslot), fun order incident offset t hin hoffset ht hlevel => ?_⟩
  obtain ⟨slot, hslot, horder⟩ := h.complete order incident offset t hin hoffset ht hlevel
  exact ⟨slot, hperm.mem_iff.mpr hslot, horder⟩

theorem perm_heapPush (heap : List Slot) (slot : Slot) :
    (heapPush heap slot).Perm (slot :: heap) := List.perm_orderedInsert _ _ _

theorem sorted_heapPush (h : heap.Pairwise Slot.before) (slot : Slot) :
    (heapPush heap slot).Pairwise Slot.before := List.Pairwise.orderedInsert slot heap h

/-- An entry without a trigger from the level on is dropped. -/
theorem Tracks.drop (h : Tracks incidents expiration level (slot :: rest))
    (hnone : incidents[slot.order]?.bind (nextTriggerAtOrAfter · (level - slot.offset)) = none) :
    Tracks incidents expiration level rest := by
  obtain ⟨incident, hin, hoffset, -, -⟩ := h.slots slot List.mem_cons_self
  refine ⟨(List.pairwise_cons.mp h.sorted).2, (List.nodup_cons.mp h.orders).2,
    fun s hs => h.slots s (List.mem_cons_of_mem _ hs), ?_⟩
  intro order incident' offset t hin' hoffset' ht hlevel
  obtain ⟨s, hs, rfl⟩ := h.complete order incident' offset t hin' hoffset' ht hlevel
  rcases List.mem_cons.mp hs with rfl | hs
  · obtain rfl := Option.some.inj (hin.symm.trans hin')
    obtain rfl := Option.some.inj (hoffset.symm.trans hoffset')
    rw [hin, Option.bind_some] at hnone
    have hlt := (nextTriggerAtOrAfter_spec incident _).2 hnone t ht
    omega
  · exact ⟨s, hs, rfl⟩

/-- An entry is moved to its first trigger from the level on. -/
theorem Tracks.move (h : Tracks incidents expiration level (slot :: rest)) {nextStart : Int}
    (hnext : incidents[slot.order]?.bind (nextTriggerAtOrAfter · (level - slot.offset)) =
      some nextStart) :
    Tracks incidents expiration level
      (heapPush rest ⟨nextStart + slot.offset, slot.order, slot.offset⟩) := by
  obtain ⟨incident, hin, hoffset, -, -⟩ := h.slots slot List.mem_cons_self
  rw [hin, Option.bind_some] at hnext
  obtain ⟨hmatch, hle, hleast⟩ := (nextTriggerAtOrAfter_spec incident _).1 _ hnext
  have hperm := perm_heapPush rest ⟨nextStart + slot.offset, slot.order, slot.offset⟩
  refine ⟨sorted_heapPush (List.pairwise_cons.mp h.sorted).2 _,
    (hperm.map Slot.order).nodup_iff.mpr h.orders, fun s hs => ?_, ?_⟩
  · rcases List.mem_cons.mp (hperm.mem_iff.mp hs) with rfl | hs
    · refine ⟨incident, hin, hoffset, by rwa [add_sub_cancel_right], fun t ht hlevel => ?_⟩
      dsimp only at hlevel ⊢
      have := hleast t ht (by omega)
      omega
    · exact h.slots s (List.mem_cons_of_mem _ hs)
  · intro order incident' offset t hin' hoffset' ht hlevel
    obtain ⟨s, hs, rfl⟩ := h.complete order incident' offset t hin' hoffset' ht hlevel
    rcases List.mem_cons.mp hs with rfl | hs
    · exact ⟨_, hperm.mem_iff.mpr List.mem_cons_self, rfl⟩
    · exact ⟨s, hperm.mem_iff.mpr (List.mem_cons_of_mem _ hs), rfl⟩

/-- The loop leaves no entry behind. -/
theorem tracks_catchUp (h : Tracks incidents expiration level heap) :
    Tracks incidents expiration level (catchUp incidents level heap) ∧
      ∀ slot ∈ catchUp incidents level heap, level ≤ slot.scheduled := by
  induction heap using catchUp.induct incidents level with
  | case1 =>
      rw [catchUp]
      exact ⟨h, fun slot hslot => (List.not_mem_nil hslot).elim⟩
  | case2 slot rest hlt hnone ih =>
      rw [catchUp, if_pos hlt]
      split
      · exact ih (h.drop hnone)
      · rename_i hsome
        rw [hnone] at hsome
        cases hsome
  | case3 slot rest hlt nextStart hnext ih =>
      rw [catchUp, if_pos hlt]
      split
      · rename_i hnone
        rw [hnext] at hnone
        cases hnone
      · rename_i nextStart' hsome
        obtain rfl := Option.some.inj (hnext.symm.trans hsome)
        exact ih (h.move hnext)
  | case4 slot rest hnot =>
      rw [catchUp, if_neg hnot]
      refine ⟨h, fun s hs => ?_⟩
      rcases List.mem_cons.mp hs with rfl | hs
      · exact Int.not_lt.mp hnot
      · have hbefore := (List.pairwise_cons.mp h.sorted).1 s hs
        unfold Slot.before at hbefore
        omega

end Tracks

/-! ## One query -/

section Query

variable {incidents : List FaultIncident} {expiration : Bool} {level : Int} {heap : List Slot}

theorem takeWhile_eq_filter (hsorted : heap.Pairwise Slot.before)
    (hle : ∀ slot ∈ heap, level ≤ slot.scheduled) :
    heap.takeWhile (·.scheduled = level) = heap.filter (·.scheduled = level) := by
  induction heap with
  | nil => rfl
  | cons slot rest ih =>
      obtain ⟨hbefore, hrest⟩ := List.pairwise_cons.mp hsorted
      rw [List.takeWhile_cons, List.filter_cons]
      split
      · rw [ih hrest fun s hs => hle s (List.mem_cons_of_mem _ hs)]
      · rename_i hne
        have hlt : level < slot.scheduled := by
          have := hle slot List.mem_cons_self
          have : slot.scheduled ≠ level := fun h => hne (decide_eq_true h)
          omega
        refine (List.filter_eq_nil_iff.mpr fun s hs h => ?_).symm
        have := hbefore s hs
        have := of_decide_eq_true h
        unfold Slot.before at *
        omega

/-- The test of one incident at an iteration. -/
def occurrenceAt (expiration : Bool) (iteration : Int) (incident : FaultIncident) :
    Option (FaultIncident × Int) :=
  (offsetOf expiration incident).bind fun offset =>
    if incident.trigger.matchesAt (iteration - offset) then
      some (incident, iteration - offset)
    else none

theorem occurrenceAt_eq_some {incident : FaultIncident} {iteration : Int}
    {found : FaultIncident × Int} : occurrenceAt expiration iteration incident = some found ↔
    ∃ offset, offsetOf expiration incident = some offset ∧
      incident.trigger.matchesAt (iteration - offset) = true ∧
      found = (incident, iteration - offset) := by
  rw [occurrenceAt, Option.bind_eq_some_iff]
  refine exists_congr fun offset => and_congr_right fun _ => ?_
  split <;> rename_i hmatch
  · exact ⟨fun h => ⟨hmatch, (Option.some.inj h).symm⟩, fun h => by rw [h.2]⟩
  · exact ⟨fun h => (by cases h), fun h => absurd h.1 hmatch⟩

theorem filterMap_range {α β : Type} (f : α → Option β) (xs : List α) :
    (List.range xs.length).filterMap (fun k => xs[k]?.bind f) = xs.filterMap f := by
  induction xs with
  | nil => rfl
  | cons x xs ih =>
      rw [List.length_cons, List.range_succ_eq_map, List.filterMap_cons, List.filterMap_map,
        List.filterMap_cons, ← ih]
      rfl

/-- The orders of the entries at the lowest level are the incidents that are looked for. -/
theorem Tracks.orders_eq (h : Tracks incidents expiration level heap)
    (hle : ∀ slot ∈ heap, level ≤ slot.scheduled) :
    (heap.filter (·.scheduled = level)).map Slot.order =
      (List.range incidents.length).filter fun order =>
        (incidents[order]?.bind (occurrenceAt expiration level)).isSome := by
  refine List.Pairwise.eq_of_mem_iff (r := (· < ·)) ?_
    (List.Pairwise.filter _ List.pairwise_lt_range) fun order => ?_
  · rw [List.pairwise_map]
    have hne := (List.pairwise_map.mp h.orders).filter (·.scheduled = level)
    refine ((h.sorted.filter _).and hne).imp_of_mem fun {a b} ha hb hab => ?_
    have ha := of_decide_eq_true (List.mem_filter.mp ha).2
    have hb := of_decide_eq_true (List.mem_filter.mp hb).2
    obtain ⟨hbefore, hne⟩ := hab
    unfold Slot.before at hbefore
    omega
  · rw [List.mem_filter, List.mem_range, List.mem_map]
    constructor
    · rintro ⟨slot, hslot, rfl⟩
      obtain ⟨hmem, hat⟩ := List.mem_filter.mp hslot
      obtain rfl := of_decide_eq_true hat
      obtain ⟨incident, hin, hoffset, hmatch, -⟩ := h.slots slot hmem
      refine ⟨(List.getElem?_eq_some_iff.mp hin).1, ?_⟩
      rw [hin, Option.bind_some, Option.isSome_iff_exists]
      exact ⟨_, occurrenceAt_eq_some.mpr ⟨slot.offset, hoffset, hmatch, rfl⟩⟩
    · rintro ⟨-, hsome⟩
      obtain ⟨found, hfound⟩ := Option.isSome_iff_exists.mp hsome
      obtain ⟨incident, hin, hfound⟩ := Option.bind_eq_some_iff.mp hfound
      obtain ⟨offset, hoffset, hmatch, -⟩ := occurrenceAt_eq_some.mp hfound
      obtain ⟨slot, hslot, rfl⟩ :=
        h.complete order incident offset _ hin hoffset hmatch (by omega)
      refine ⟨slot, List.mem_filter.mpr ⟨hslot, decide_eq_true ?_⟩, rfl⟩
      obtain ⟨incident', hin', hoffset', -, hleast⟩ := h.slots slot hslot
      obtain rfl := Option.some.inj (hin.symm.trans hin')
      obtain rfl := Option.some.inj (hoffset.symm.trans hoffset')
      have := hleast _ hmatch (by omega)
      have := hle slot hslot
      omega

/-- **The entries of the lowest level** name the incidents scheduled there. -/
theorem Tracks.result_eq (h : Tracks incidents expiration level heap)
    (hle : ∀ slot ∈ heap, level ≤ slot.scheduled) :
    (heap.takeWhile (·.scheduled = level)).filterMap (fun slot =>
        incidents[slot.order]?.map fun incident => (incident, level - slot.offset)) =
      scheduledAt incidents expiration level := by
  rw [takeWhile_eq_filter h.sorted hle]
  have hslots : ∀ slot ∈ heap.filter (·.scheduled = level),
      (incidents[slot.order]?.map fun incident => (incident, level - slot.offset)) =
        incidents[slot.order]?.bind (occurrenceAt expiration level) := by
    intro slot hslot
    obtain ⟨hmem, hat⟩ := List.mem_filter.mp hslot
    obtain rfl := of_decide_eq_true hat
    obtain ⟨incident, hin, hoffset, hmatch, -⟩ := h.slots slot hmem
    rw [hin, Option.map_some, Option.bind_some]
    exact (occurrenceAt_eq_some.mpr ⟨slot.offset, hoffset, hmatch, rfl⟩).symm
  rw [List.filterMap_congr hslots]
  have horders := h.orders_eq hle
  calc (heap.filter (·.scheduled = level)).filterMap
        (fun slot => incidents[slot.order]?.bind (occurrenceAt expiration level))
      = ((heap.filter (·.scheduled = level)).map Slot.order).filterMap
          (fun order => incidents[order]?.bind (occurrenceAt expiration level)) := by
        rw [List.filterMap_map]
        rfl
    _ = (List.range incidents.length).filterMap
          (fun order => incidents[order]?.bind (occurrenceAt expiration level)) := by
        rw [horders, List.filterMap_filter]
        refine List.filterMap_congr fun order _ => ?_
        cases incidents[order]?.bind (occurrenceAt expiration level) <;> rfl
    _ = scheduledAt incidents expiration level :=
        filterMap_range (occurrenceAt expiration level) incidents

theorem ScheduleCursor.past_eq (cursor : ScheduleCursor) (iteration : Int) :
    cursor.past iteration = scheduledAt cursor.incidents cursor.expiration iteration := by
  refine List.filterMap_congr fun incident _ => ?_
  refine Option.bind_congr fun offset _ => if_congr ?_ rfl rfl
  rw [triggerContainsIteration_eq]
  exact ⟨And.right, fun h => ⟨IncidentTrigger.matchesAt_pos h, h⟩⟩

end Query

/-! ## Every run -/

theorem perm_pushes (slots heap : List Slot) :
    (slots.foldl heapPush heap).Perm (slots ++ heap) := by
  induction slots generalizing heap with
  | nil => exact List.Perm.refl heap
  | cons slot slots ih =>
      refine (ih (heapPush heap slot)).trans ?_
      refine ((perm_heapPush heap slot).append_left slots).trans ?_
      exact List.perm_middle

theorem sorted_pushes (slots : List Slot) {heap : List Slot} (h : heap.Pairwise Slot.before) :
    (slots.foldl heapPush heap).Pairwise Slot.before := by
  induction slots generalizing heap with
  | nil => exact h
  | cons slot slots ih => exact ih (sorted_heapPush h slot)

theorem mem_firstSlots {incidents : List FaultIncident} {expiration : Bool} {slot : Slot} :
    slot ∈ incidents.zipIdx.filterMap (firstSlot expiration) ↔
      ∃ incident first, incidents[slot.order]? = some incident ∧
        offsetOf expiration incident = some slot.offset ∧
        nextTriggerAtOrAfter incident 1 = some first ∧
        slot.scheduled = first + slot.offset := by
  rw [List.mem_filterMap]
  constructor
  · rintro ⟨⟨incident, order⟩, hmem, hslot⟩
    obtain ⟨offset, hoffset, hslot⟩ := Option.bind_eq_some_iff.mp hslot
    obtain ⟨first, hfirst, rfl⟩ := Option.map_eq_some_iff.mp hslot
    exact ⟨incident, first, List.mem_zipIdx_iff_getElem?.mp hmem, hoffset, hfirst, rfl⟩
  · rintro ⟨incident, first, hin, hoffset, hfirst, hscheduled⟩
    refine ⟨(incident, slot.order), List.mem_zipIdx_iff_getElem?.mpr hin, ?_⟩
    rw [firstSlot, hoffset, Option.bind_some, hfirst, Option.map_some, ← hscheduled]

theorem tracks_make (incidents : List FaultIncident) (expiration : Bool) :
    Tracks incidents expiration 0 (ScheduleCursor.make incidents expiration).heap := by
  set slots := incidents.zipIdx.filterMap (firstSlot expiration) with hslots
  have hperm : (ScheduleCursor.make incidents expiration).heap.Perm slots := by
    rw [← List.append_nil slots]
    exact perm_pushes slots []
  refine ⟨sorted_pushes slots List.Pairwise.nil, (hperm.map Slot.order).nodup_iff.mpr ?_,
    fun slot hslot => ?_, fun order incident offset t hin hoffset ht _ => ?_⟩
  · rw [List.Nodup, List.pairwise_map]
    have hidx : (incidents.zipIdx.map Prod.snd).Nodup := by
      rw [List.zipIdx_map_snd]
      exact List.nodup_range'
    rw [List.Nodup, List.pairwise_map] at hidx
    refine List.Pairwise.filterMap _ (fun a a' hne b hb b' hb' => ?_) hidx
    obtain ⟨_, -, hb⟩ := Option.bind_eq_some_iff.mp hb
    obtain ⟨_, -, rfl⟩ := Option.map_eq_some_iff.mp hb
    obtain ⟨_, -, hb'⟩ := Option.bind_eq_some_iff.mp hb'
    obtain ⟨_, -, rfl⟩ := Option.map_eq_some_iff.mp hb'
    exact hne
  · obtain ⟨incident, first, hin, hoffset, hfirst, hscheduled⟩ :=
      mem_firstSlots.mp (hperm.mem_iff.mp hslot)
    obtain ⟨hmatch, -, hleast⟩ := (nextTriggerAtOrAfter_spec incident 1).1 first hfirst
    refine ⟨incident, hin, hoffset, by rwa [hscheduled, add_sub_cancel_right], fun t ht _ => ?_⟩
    have := hleast t ht (IncidentTrigger.matchesAt_pos ht)
    omega
  · cases hfirst : nextTriggerAtOrAfter incident 1 with
    | none =>
        have := (nextTriggerAtOrAfter_spec incident 1).2 hfirst t ht
        have := IncidentTrigger.matchesAt_pos ht
        omega
    | some first =>
        refine ⟨⟨first + offset, order, offset⟩, hperm.mem_iff.mpr ?_, rfl⟩
        exact mem_firstSlots.mpr ⟨incident, first, hin, hoffset, hfirst, rfl⟩

namespace ScheduleCursor

/-- What the cursor keeps: the heap at the highest query, and right answers. -/
structure Valid (cursor : ScheduleCursor) : Prop where
  tracks : Tracks cursor.incidents cursor.expiration cursor.highWater cursor.heap
  cached : ∀ entry ∈ cursor.cache,
    entry.2 = scheduledAt cursor.incidents cursor.expiration entry.1

theorem valid_make (incidents : List FaultIncident) (expiration : Bool) :
    (make incidents expiration).Valid :=
  ⟨tracks_make incidents expiration, fun _ h => (List.not_mem_nil h).elim⟩

/-- **One query** answers the plain test and keeps the cursor valid. -/
theorem valid_atIteration {cursor : ScheduleCursor} (h : cursor.Valid) (iteration : Int) :
    (cursor.atIteration iteration).2 =
        scheduledAt cursor.incidents cursor.expiration iteration ∧
      (cursor.atIteration iteration).1.incidents = cursor.incidents ∧
      (cursor.atIteration iteration).1.expiration = cursor.expiration ∧
      (cursor.atIteration iteration).1.Valid := by
  unfold atIteration
  split
  · rename_i cached hcached
    exact ⟨h.cached _ (Dict.mem_of_lookup hcached), rfl, rfl, h⟩
  · split
    · exact ⟨cursor.past_eq iteration, rfl, rfl, h⟩
    · rename_i hlevel
      obtain ⟨htracks, hle⟩ := tracks_catchUp (h.tracks.raise (Int.not_lt.mp hlevel))
      have hresult := htracks.result_eq hle
      refine ⟨hresult, rfl, rfl, ?_, fun entry hentry => ?_⟩
      · refine htracks.perm ((perm_pushes _ _).trans ?_) (sorted_pushes _ ?_)
        · rw [List.takeWhile_append_dropWhile]
        · exact htracks.sorted.sublist (List.dropWhile_sublist _)
      · rcases List.mem_append.mp (List.mem_of_mem_drop hentry) with hentry | hentry
        · exact h.cached entry hentry
        · rw [List.mem_singleton.mp hentry]
          exact hresult

theorem answers_eq {cursor : ScheduleCursor} (h : cursor.Valid) (queries : List Int) :
    cursor.answers queries =
      queries.map (scheduledAt cursor.incidents cursor.expiration) := by
  induction queries generalizing cursor with
  | nil => rfl
  | cons iteration queries ih =>
      obtain ⟨hresult, hincidents, hexpiration, hvalid⟩ := valid_atIteration h iteration
      rw [answers, hresult, ih hvalid, hincidents, hexpiration, List.map_cons]

/-- **The cursor** answers any queries, in any order and with repeats, as the plain trigger test
does. -/
theorem make_answers (incidents : List FaultIncident) (queries : List Int) :
    (make incidents false).answers queries = queries.map (beginningAt incidents) ∧
      (make incidents true).answers queries = queries.map (endingAt incidents) := by
  constructor
  · rw [answers_eq (valid_make incidents false)]
    exact List.map_congr_left fun iteration _ => scheduledAt_false incidents iteration
  · rw [answers_eq (valid_make incidents true)]
    exact List.map_congr_left fun iteration _ => scheduledAt_true incidents iteration

end ScheduleCursor

end LmResiliency.FaultInjection
