/-
# ShapeCycle — one result for a cycle of replay shapes

A checkpoint is certified by one result, made of those of every configured
shape (`_aggregate_shape_cycle`) or, for a dense model, of every recipe
(`_aggregate_dense_recipe_results`).  C3 results are collected in a dict under
names that say where they come from, so a later one can take the place of an
earlier one of the same name.  That never costs the verdict: a sweep over the
shapes ends with the first result that has one, and the names of the recipes
keep their results apart.

The main result is `aggregate_keeps_verdict`.  The results are those the replays
gave; that every rank aggregates the same ones is not shown here.
-/
import LmResiliency.Detection.ReplayMerge

namespace LmResiliency.Detection

open Outcome

variable {D τ : Type}

/-! ## Aggregation -/

/-- `max(values)` of the naturals it is taken of. -/
def maxOf (values : List Nat) : Nat := values.foldl max 0

/-- `_aggregate_shape_cycle`.  The first result is updated in place, so its
straggler bitmap is the merged one when the spatial bitmaps are merged. -/
def aggregateShapeCycle (results : List (Replay D τ)) (expected : Nat) :
    Except MergeError (Replay D τ) :=
  match results with
  | [] => .error (.valueError "cannot aggregate an empty replay shape cycle")
  | first :: rest => do
      let width := first.sdcBitmap.length
      if results.any fun r => r.sdcBitmap.length ≠ width ∨ r.stragglerBitmap.length ≠ width then
        .error (.runtimeError "replay shape results have incompatible peer-group widths")
      else do
        let sources ← unionSources width (results.map Replay.sdcSourceBitmaps)
        let sdcBitmap ← unionBitmaps width (results.map fun r => r.sdcBitmap)
        let straggler ← unionBitmaps width (results.map Replay.stragglerBitmap)
        let spatial ← unionBitmaps width
          (({ first with stragglerBitmap := straggler } :: rest).map fun r =>
            orElse r.spatialStragglerBitmap r.stragglerBitmap)
        let temporal ← unionBitmaps width
          (results.map fun r => orElse r.temporalStragglerBitmap (List.replicate width 0))
        let timingVectors := (results.map Replay.replayTimesMs).filter (·.length = width)
        return { first with
          sdcSourceBitmaps := sources
          sdcBitmap := sdcBitmap
          sdcSources := flaggedSources sources
          c3Results := Dict.ofItems (results.flatMap fun r =>
            r.c3Results.map fun e => (r.replayShapeId ++ "." ++ e.1, e.2))
          checkedRecipeIds := results.flatMap Replay.checkedRecipeIds
          stragglerBitmap := straggler
          spatialStragglerBitmap := spatial
          temporalStragglerBitmap := temporal
          temporalGroupSlowdown := results.any Replay.temporalGroupSlowdown
          stragglerConfirmations := maxOf (results.map Replay.stragglerConfirmations)
          stragglerDetail := results.findSome? Replay.stragglerDetail
          collectiveTimings := results.flatMap Replay.collectiveTimings
          replayTimeMs := (results.map Replay.replayTimeMs).sum
          replayTimesMs :=
            if timingVectors.length = results.length then
              (List.range width).map fun index =>
                (timingVectors.map fun vector => vector.getD index 0).sum
            else first.replayTimesMs
          replayShapeId := "shape-cycle"
          replayShape := none
          checkedShapeIds := results.flatMap fun r => r.checkedShapeIds
          checkedShapes := results.flatMap Replay.checkedShapes
          shapeCycleSize := expected
          completedShapeCycle := results.length = expected
          completedScheduledCycle := results.any fun r => r.completedScheduledCycle
          scheduledCycle := maxOf (results.map Replay.scheduledCycle)
          replayMode := if 1 < expected then "shape_cycle" else first.replayMode }

def annotateRecipeResult (result : Replay D τ) (recipeId : String) : Replay D τ :=
  let sources := Dict.ofItems
    (result.sdcSourceBitmaps.map fun source => (recipeId ++ "." ++ source.1, source.2))
  let c3Results := Dict.ofItems
    (result.c3Results.map fun e => (recipeId ++ "." ++ e.1, e.2))
  { result with
    checkedRecipeIds := [recipeId]
    sdcSourceBitmaps := sources
    sdcSources := flaggedSources sources
    c3Results :=
      match result.timingC3Result with
      | some timing => Dict.put c3Results (recipeId ++ ".timing", timing)
      | none => c3Results
    replayMode := recipeId ++ ":" ++ result.replayMode }

def aggregateDenseRecipeResults (results : List (Replay D τ)) :
    Except MergeError (Replay D τ) := do
  let aggregate ← aggregateShapeCycle results results.length
  return { aggregate with
    checkedRecipeIds := results.flatMap Replay.checkedRecipeIds
    c3Results := Dict.ofItems (results.flatMap fun r => r.c3Results)
    replayShapeId := "captured"
    replayShape := none
    checkedShapeIds := ["captured"]
    checkedShapes := [none]
    shapeCycleSize := 1
    completedShapeCycle := true
    completedScheduledCycle := true
    denseReplay := true
    replayMode :=
      match results with
      | [result] => result.replayMode
      | _ => "dense_recipe_set" }

/-! ## The sweep -/

/-- `ReplayShape`. -/
structure ReplayShape where
  shapeId : String
  dimensions : Option (List Nat)
  nonempty : shapeId ≠ ""

/-- `ReplayShapePlan`: at least one shape, under different names. -/
structure ReplayShapePlan where
  shapes : List ReplayShape
  nonempty : shapes ≠ []
  unique : (shapes.map ReplayShape.shapeId).Nodup

def ReplayShapePlan.dense : ReplayShapePlan where
  shapes := [{ shapeId := "captured", dimensions := none, nonempty := by decide }]
  nonempty := List.cons_ne_nil _ _
  unique := by decide

/-- `ReplayShapeScheduler`: the shape whose turn it is, and the cycles completed. -/
structure Scheduler (plan : ReplayShapePlan) where
  position : Nat
  cycle : Nat
  valid : position < plan.shapes.length

namespace Scheduler

variable {plan : ReplayShapePlan}

def currentShape (s : Scheduler plan) : ReplayShape := plan.shapes.get ⟨s.position, s.valid⟩

def advance (s : Scheduler plan) : Scheduler plan :=
  if h : s.position + 1 = plan.shapes.length then
    ⟨0, s.cycle + 1, List.length_pos_iff.mpr plan.nonempty⟩
  else ⟨s.position + 1, s.cycle, by have := s.valid; omega⟩

end Scheduler

/-- `_check_current_shape`, after the replay and the optimizer step have been
compared: the result is stamped with the shape and the scheduler moves on. -/
def checkCurrentShape {plan : ReplayShapePlan} (s : Scheduler plan) (found : Replay D τ) :
    Replay D τ :=
  { found with
    replayShapeId := s.currentShape.shapeId
    replayShape := s.currentShape.dimensions
    checkedShapeIds := [s.currentShape.shapeId]
    checkedShapes := [s.currentShape.dimensions]
    shapeCycleSize := plan.shapes.length
    completedShapeCycle := plan.shapes.length = 1
    completedScheduledCycle := s.cycle < s.advance.cycle
    scheduledCycle := s.advance.cycle }

/-- The loop of `check_shape_cycle` over the shapes that are left: it ends with
the first result that has a verdict.  `found` gives what each replay finds. -/
def sweepShapes {plan : ReplayShapePlan} (found : Nat → Replay D τ) :
    Nat → Scheduler plan → List (Replay D τ)
  | 0, _ => []
  | n + 1, s =>
      let result := checkCurrentShape s (found n)
      if replayResultHasSdc (some result.toReplayResult) then [result]
      else result :: sweepShapes found n s.advance

/-- The results that `check_shape_cycle` aggregates. -/
def shapeCycleResults {plan : ReplayShapePlan} (found : Nat → Replay D τ)
    (s : Scheduler plan) : List (Replay D τ) :=
  sweepShapes found plan.shapes.length s

/-- The recipes of a dense model, in the order they are replayed. -/
def denseRecipes : List String := ["embedding", "hidden", "output"]

/-- `_replay_dense_module`: no scheduler stamps the result, and the fields are left at
the defaults of a `ReplayResult`. -/
def replayDenseModule (found : Replay D τ) : Replay D τ :=
  { found with
    replayShapeId := "captured"
    replayShape := none
    checkedShapeIds := ["captured"]
    checkedShapes := [none]
    shapeCycleSize := 1
    completedShapeCycle := true
    completedScheduledCycle := false
    scheduledCycle := 0 }

/-- One turn of the loop of `_check_dense_recipes`: a recipe, and what its replay
finds.  The hidden layer is checked as the current shape of the plan. -/
def checkDenseRecipe (s : Scheduler ReplayShapePlan.dense) (recipe : String × Replay D τ) :
    Replay D τ :=
  annotateRecipeResult
    (if recipe.1 = "hidden" then checkCurrentShape s recipe.2 else replayDenseModule recipe.2)
    recipe.1

/-- The results that a dense replay aggregates: one for each recipe that is due. -/
def denseResults (s : Scheduler ReplayShapePlan.dense) (due : List (String × Replay D τ)) :
    List (Replay D τ) := due.map (checkDenseRecipe s)

/-! ## What an aggregate says -/

/-- A C3 result under the name of the shape it is of. -/
def shapeNamed (r : Replay D τ) : List (String × C3Result) :=
  r.c3Results.map fun e => (r.replayShapeId ++ "." ++ e.1, e.2)

/-- The fields of the aggregate that certify a checkpoint. -/
theorem aggregateShapeCycle_ok {results : List (Replay D τ)} {expected : Nat}
    {a : Replay D τ} (h : aggregateShapeCycle results expected = .ok a) :
    ∃ width, (∀ r ∈ results, r.sdcBitmap.length = width) ∧
      unionBitmaps width (results.map fun r => r.sdcBitmap) = .ok a.sdcBitmap ∧
      a.c3Results = Dict.ofItems (results.flatMap shapeNamed) ∧
      a.checkedShapeIds = (results.flatMap fun r => r.checkedShapeIds) ∧
      a.completedShapeCycle = decide (results.length = expected) ∧ results ≠ [] := by
  cases results with
  | nil => cases h
  | cons first rest =>
      obtain ⟨hwidth, h⟩ := check_ok_iff.mp h
      obtain ⟨_, -, h⟩ := bind_ok_iff.mp h
      obtain ⟨bitmap, hbitmap, h⟩ := bind_ok_iff.mp h
      obtain ⟨_, -, h⟩ := bind_ok_iff.mp h
      obtain ⟨_, -, h⟩ := bind_ok_iff.mp h
      obtain ⟨_, -, h⟩ := bind_ok_iff.mp h
      obtain rfl := Except.ok.inj h
      refine ⟨first.sdcBitmap.length, fun r hr => ?_, hbitmap, rfl, rfl, rfl,
        List.cons_ne_nil _ _⟩
      by_contra hne
      exact hwidth (List.any_eq_true.mpr ⟨r, hr, decide_eq_true (Or.inl hne)⟩)

/-- The bitmaps of a result of a group of `width` peers. -/
structure OfWidth (width : Nat) (r : Replay D τ) : Prop where
  sdc : r.sdcBitmap.length = width
  straggler : r.stragglerBitmap.length = width
  sources : ∀ source ∈ r.sdcSourceBitmaps, source.2.length = width
  spatial : r.spatialStragglerBitmap = [] ∨ r.spatialStragglerBitmap.length = width
  temporal : r.temporalStragglerBitmap = [] ∨ r.temporalStragglerBitmap.length = width

theorem length_orElse {xs ys : List Int} {width : Nat} (hxs : xs = [] ∨ xs.length = width)
    (hys : ys.length = width) : (orElse xs ys).length = width := by
  rcases hxs with rfl | hxs
  · exact hys
  · rw [orElse]
    split <;> assumption

/-- The results of one group are aggregated. -/
theorem aggregateShapeCycle_returns {results : List (Replay D τ)} {width : Nat}
    (expected : Nat) (hne : results ≠ []) (hwide : ∀ r ∈ results, OfWidth width r) :
    ∃ a, aggregateShapeCycle results expected = .ok a := by
  obtain ⟨first, rest, rfl⟩ := List.exists_cons_of_ne_nil hne
  obtain rfl := (hwide first List.mem_cons_self).sdc
  have hunion : ∀ f : Replay D τ → List Int,
      (∀ r ∈ first :: rest, (f r).length = first.sdcBitmap.length) →
      ∃ union, unionBitmaps first.sdcBitmap.length ((first :: rest).map f) = .ok union := by
    intro f hf
    refine unionBitmaps_returns fun bitmap hin => ?_
    obtain ⟨r, hr, rfl⟩ := List.mem_map.mp hin
    exact hf r hr
  obtain ⟨sources, hsources⟩ : ∃ union, unionSources first.sdcBitmap.length
      ((first :: rest).map Replay.sdcSourceBitmaps) = .ok union := by
    refine unionSources_returns fun s hs source hsource => ?_
    obtain ⟨r, hr, rfl⟩ := List.mem_map.mp hs
    exact (hwide r hr).sources source hsource
  obtain ⟨bitmap, hbitmap⟩ := hunion (fun r => r.sdcBitmap) fun r hr => (hwide r hr).sdc
  obtain ⟨straggler, hstraggler⟩ := hunion _ fun r hr => (hwide r hr).straggler
  have hlength := (unionBitmaps_ok hstraggler).1
  obtain ⟨spatial, hspatial⟩ : ∃ union, unionBitmaps first.sdcBitmap.length
      (({ first with stragglerBitmap := straggler } :: rest).map fun r =>
        orElse r.spatialStragglerBitmap r.stragglerBitmap) = .ok union := by
    refine unionBitmaps_returns fun bitmap hin => ?_
    obtain ⟨r, hr, rfl⟩ := List.mem_map.mp hin
    rcases List.mem_cons.mp hr with rfl | hr
    · exact length_orElse (hwide first List.mem_cons_self).spatial hlength
    · have hr := hwide r (List.mem_cons_of_mem first hr)
      exact length_orElse hr.spatial hr.straggler
  obtain ⟨temporal, htemporal⟩ := hunion
    (fun r => orElse r.temporalStragglerBitmap (List.replicate first.sdcBitmap.length 0))
    fun r hr => length_orElse (hwide r hr).temporal List.length_replicate
  refine ⟨_, check_ok_iff.mpr ⟨fun hany => ?_, bind_ok_iff.mpr ⟨_, hsources, bind_ok_iff.mpr
    ⟨_, hbitmap, bind_ok_iff.mpr ⟨_, hstraggler, bind_ok_iff.mpr ⟨_, hspatial,
      bind_ok_iff.mpr ⟨_, htemporal, rfl⟩⟩⟩⟩⟩⟩⟩
  obtain ⟨r, hr, hother⟩ := List.any_eq_true.mp hany
  rcases of_decide_eq_true hother with hother | hother
  · exact hother (hwide r hr).sdc
  · exact hother (hwide r hr).straggler

/-- The flagged peers are those of the inputs. -/
theorem aggregateShapeCycle_flags {results : List (Replay D τ)} {expected : Nat}
    {a : Replay D τ} (h : aggregateShapeCycle results expected = .ok a) (peer : Nat) :
    a.sdcBitmap.getD peer 0 ≠ 0 ↔ ∃ r ∈ results, r.sdcBitmap.getD peer 0 ≠ 0 := by
  obtain ⟨width, hwidth, hbitmap, -⟩ := aggregateShapeCycle_ok h
  obtain ⟨hlen, hbits⟩ := unionBitmaps_ok hbitmap
  by_cases hp : peer < width
  · rw [hbits peer hp]
    constructor
    · rintro ⟨bitmap, hin, hbit⟩
      obtain ⟨r, hr, rfl⟩ := List.mem_map.mp hin
      exact ⟨r, hr, hbit⟩
    · rintro ⟨r, hr, hbit⟩
      exact ⟨r.sdcBitmap, List.mem_map_of_mem hr, hbit⟩
  · refine iff_of_false (fun hne => hp (hlen ▸ lt_length_of_flag hne)) ?_
    rintro ⟨r, hr, hne⟩
    exact hp (hwidth r hr ▸ lt_length_of_flag hne)

/-- A bitmap flags somebody when it flags some peer. -/
theorem anyFlag_iff_exists {bitmap : List Int} :
    anyFlag bitmap = true ↔ ∃ peer, bitmap.getD peer 0 ≠ 0 := by
  rw [anyFlag_iff rfl]
  constructor
  · rintro ⟨peer, -, hne⟩
    exact ⟨peer, hne⟩
  · rintro ⟨peer, hne⟩
    exact ⟨peer, lt_length_of_flag hne, hne⟩

theorem aggregateShapeCycle_anyFlag {results : List (Replay D τ)} {expected : Nat}
    {a : Replay D τ} (h : aggregateShapeCycle results expected = .ok a) :
    anyFlag a.sdcBitmap = true ↔ ∃ r ∈ results, anyFlag r.sdcBitmap = true := by
  simp only [anyFlag_iff_exists, aggregateShapeCycle_flags h]
  constructor
  · rintro ⟨peer, r, hr, hne⟩
    exact ⟨r, hr, peer, hne⟩
  · rintro ⟨r, hr, peer, hne⟩
    exact ⟨peer, r, hr, hne⟩

/-- The C3 results of a result are a dict: each name stands once. -/
def NamedOnce (r : Replay D τ) : Prop := (r.c3Results.map Prod.fst).Nodup

/-- An inconclusive result in a collection of items is one of somebody's. -/
theorem inconclusive_of_collected {results : List (Replay D τ)}
    {named : Replay D τ → List (String × C3Result)}
    (hnamed : ∀ r, ∀ e ∈ named r, ∃ e' ∈ r.c3Results, e'.2 = e.2) {e : String × C3Result}
    (hin : e ∈ Dict.ofItems (results.flatMap named)) (hinc : e.2.status = .inconclusive) :
    ∃ r ∈ results, Inconclusive r := by
  rcases Dict.mem_of_mem_update hin with hin | hin
  · obtain ⟨r, hr, he⟩ := List.mem_flatMap.mp hin
    obtain ⟨e', he', heq⟩ := hnamed r e he
    exact ⟨r, hr, e', he', heq ▸ hinc⟩
  · exact absurd hin List.not_mem_nil

/-! ## The sweep over the shapes -/

section Sweep

variable {plan : ReplayShapePlan} {found : Nat → Replay D τ}

theorem sweepShapes_of_sdc {n : Nat} {s : Scheduler plan}
    (h : HasSdc (checkCurrentShape s (found n))) :
    sweepShapes found (n + 1) s = [checkCurrentShape s (found n)] := by
  rw [sweepShapes]
  exact if_pos h

theorem sweepShapes_of_clean {n : Nat} {s : Scheduler plan}
    (h : ¬HasSdc (checkCurrentShape s (found n))) :
    sweepShapes found (n + 1) s =
      checkCurrentShape s (found n) :: sweepShapes found n s.advance := by
  rw [sweepShapes]
  exact if_neg h

/-- Only the last result of a sweep can have a verdict. -/
theorem sweepShapes_clean : ∀ (n : Nat) (s : Scheduler plan), n ≠ 0 →
    ∃ before last, sweepShapes found n s = before ++ [last] ∧ ∀ r ∈ before, ¬HasSdc r
  | 0, _, h => absurd rfl h
  | n + 1, s, _ => by
      by_cases hsdc : HasSdc (checkCurrentShape s (found n))
      · exact ⟨[], _, sweepShapes_of_sdc hsdc, fun r hr => absurd hr List.not_mem_nil⟩
      · have hstep := sweepShapes_of_clean hsdc
        by_cases hn : n = 0
        · subst hn
          exact ⟨[], _, hstep, fun r hr => absurd hr List.not_mem_nil⟩
        · obtain ⟨before, last, heq, hclean⟩ := sweepShapes_clean n s.advance hn
          refine ⟨_ :: before, last, by rw [hstep, heq]; rfl, ?_⟩
          rintro r hr
          rcases List.mem_cons.mp hr with rfl | hr
          · exact hsdc
          · exact hclean r hr

/-- Every result of a sweep is what a replay found, stamped. -/
theorem mem_sweepShapes {r : Replay D τ} : ∀ {n : Nat} {s : Scheduler plan},
    r ∈ sweepShapes found n s →
      ∃ i, ∃ s' : Scheduler plan, r = checkCurrentShape s' (found i)
  | 0, _, h => absurd h List.not_mem_nil
  | n + 1, s, h => by
      rw [sweepShapes] at h
      split at h
      · exact ⟨n, s, List.mem_singleton.mp h⟩
      · rcases List.mem_cons.mp h with h | h
        · exact ⟨n, s, h⟩
        · exact mem_sweepShapes h

theorem shapeCycleResults_ne_nil (s : Scheduler plan) : shapeCycleResults found s ≠ [] := by
  have hpos : plan.shapes.length ≠ 0 := fun hz =>
    plan.nonempty (List.length_eq_zero_iff.mp hz)
  obtain ⟨before, last, heq, -⟩ :
      ∃ before last, sweepShapes found plan.shapes.length s = before ++ [last] ∧
        ∀ r ∈ before, ¬HasSdc r := sweepShapes_clean plan.shapes.length s hpos
  rw [shapeCycleResults, heq]
  exact List.append_ne_nil_of_right_ne_nil _ (List.cons_ne_nil _ _)

theorem nodup_prefixed {items : List (String × C3Result)} (h : (items.map Prod.fst).Nodup)
    (pre : String) :
    ((items.map fun e => (pre ++ "." ++ e.1, e.2)).map Prod.fst).Nodup := by
  have hmap : (items.map fun e => (pre ++ "." ++ e.1, e.2)).map Prod.fst =
      (items.map Prod.fst).map fun name => pre ++ "." ++ name := by
    rw [List.map_map, List.map_map]
    rfl
  rw [hmap]
  refine h.map fun a b hab => ?_
  have hlist := congrArg String.toList hab
  rw [String.toList_append, String.toList_append, String.toList_append, String.toList_append]
    at hlist
  exact String.toList_inj.mp (List.append_cancel_left hlist)

/-- The verdict of a sweep is kept: the names of the last result are assigned
last. -/
theorem hasSdc_shapeCycle (hfound : ∀ n, NamedOnce (found n)) {s : Scheduler plan}
    {expected : Nat} {a : Replay D τ}
    (h : aggregateShapeCycle (shapeCycleResults found s) expected = .ok a) :
    HasSdc a ↔ ∃ r ∈ shapeCycleResults found s, HasSdc r := by
  obtain ⟨-, -, -, hc3, -⟩ := aggregateShapeCycle_ok h
  have hflag := aggregateShapeCycle_anyFlag h
  have hpos : plan.shapes.length ≠ 0 := fun hz =>
    plan.nonempty (List.length_eq_zero_iff.mp hz)
  obtain ⟨before, last, heq, hclean⟩ :
      ∃ before last, sweepShapes found plan.shapes.length s = before ++ [last] ∧
        ∀ r ∈ before, ¬HasSdc r := sweepShapes_clean plan.shapes.length s hpos
  constructor
  · intro hsdc
    rcases hasSdc_iff.mp hsdc with hbit | ⟨e, he, hinc⟩
    · obtain ⟨r, hr, hbit⟩ := hflag.mp hbit
      exact ⟨r, hr, hasSdc_iff.mpr (Or.inl hbit)⟩
    · rw [hc3] at he
      obtain ⟨r, hr, hinc⟩ := inconclusive_of_collected (fun r e he => by
        obtain ⟨e', he', rfl⟩ := List.mem_map.mp he
        exact ⟨e', he', rfl⟩) he hinc
      exact ⟨r, hr, hasSdc_iff.mpr (Or.inr hinc)⟩
  · rintro ⟨r, hr, hsdc⟩
    rw [hasSdc_iff]
    rcases hasSdc_iff.mp hsdc with hbit | ⟨e, he, hinc⟩
    · exact Or.inl (hflag.mpr ⟨r, hr, hbit⟩)
    · right
      have hlast : r = last := by
        have hr' := hr
        rw [shapeCycleResults, heq, List.mem_append, List.mem_singleton] at hr'
        exact hr'.resolve_left fun hb => hclean r hb hsdc
      subst hlast
      have hnamed : NamedOnce r := by
        obtain ⟨i, s', rfl⟩ := mem_sweepShapes hr
        exact hfound i
      refine ⟨(r.replayShapeId ++ "." ++ e.1, e.2), ?_, hinc⟩
      have hitems : (shapeCycleResults found s).flatMap shapeNamed =
          before.flatMap shapeNamed ++ shapeNamed r := by
        rw [shapeCycleResults, heq, List.flatMap_append, List.flatMap_singleton]
      rw [hc3, hitems]
      exact Dict.mem_update_append
        (nodup_prefixed hnamed r.replayShapeId)
        (List.mem_map_of_mem he)

/-! ### Which shapes are checked -/

/-- The name of the shape at a position, counted round and round. -/
def idAt (plan : ReplayShapePlan) (position : Nat) : String :=
  (plan.shapes.map ReplayShape.shapeId).getD (position % plan.shapes.length) ""

theorem idAt_position (s : Scheduler plan) : idAt plan s.position = s.currentShape.shapeId := by
  rw [idAt, Nat.mod_eq_of_lt s.valid, List.getD_eq_getElem?_getD, List.getElem?_map,
    List.getElem?_eq_getElem s.valid]
  rfl

theorem idAt_advance (s : Scheduler plan) (i : Nat) :
    idAt plan (s.advance.position + i) = idAt plan (s.position + (i + 1)) := by
  rw [idAt, idAt]
  congr 1
  rw [Scheduler.advance]
  split
  · rename_i hwrap
    have hshift : s.position + (i + 1) = plan.shapes.length + i := by omega
    rw [hshift, Nat.add_mod_left]
    simp
  · congr 1
    simp only
    omega

theorem checked_sweepShapes : ∀ (n : Nat) (s : Scheduler plan),
    ((sweepShapes found n s).flatMap fun r => r.checkedShapeIds) =
      (List.range (sweepShapes found n s).length).map fun i => idAt plan (s.position + i)
  | 0, _ => rfl
  | n + 1, s => by
      have hhead : (checkCurrentShape s (found n)).checkedShapeIds =
          [idAt plan (s.position + 0)] := by
        rw [Nat.add_zero, idAt_position]
        rfl
      by_cases hsdc : HasSdc (checkCurrentShape s (found n))
      · rw [sweepShapes_of_sdc hsdc, List.flatMap_singleton, hhead]
        rfl
      · rw [sweepShapes_of_clean hsdc, List.flatMap_cons, hhead, checked_sweepShapes n s.advance,
          List.length_cons, List.range_succ_eq_map, List.map_cons, List.map_map]
        simp only [idAt_advance]
        rfl

theorem length_sweepShapes_le : ∀ (n : Nat) (s : Scheduler plan),
    (sweepShapes found n s).length ≤ n
  | 0, _ => le_refl 0
  | n + 1, s => by
      by_cases hsdc : HasSdc (checkCurrentShape s (found n))
      · rw [sweepShapes_of_sdc hsdc, List.length_singleton]
        omega
      · rw [sweepShapes_of_clean hsdc, List.length_cons]
        exact Nat.succ_le_succ (length_sweepShapes_le n s.advance)

/-- A sweep is complete exactly when every shape was checked. -/
theorem length_shapeCycle_iff {s : Scheduler plan} :
    (shapeCycleResults found s).length = plan.shapes.length ↔
      ∀ shape ∈ plan.shapes, shape.shapeId ∈
        (shapeCycleResults found s).flatMap fun r => r.checkedShapeIds := by
  have hchecked : ((shapeCycleResults found s).flatMap fun r => r.checkedShapeIds) =
      (List.range (shapeCycleResults found s).length).map fun i => idAt plan (s.position + i) :=
    checked_sweepShapes plan.shapes.length s
  have hle : (shapeCycleResults found s).length ≤ plan.shapes.length :=
    length_sweepShapes_le plan.shapes.length s
  constructor
  · intro hlen shape hshape
    obtain ⟨j, hj, rfl⟩ := List.getElem_of_mem hshape
    have hp := s.valid
    rw [hchecked, hlen]
    -- The turn of the shape, counted from where the sweep starts.
    refine List.mem_map.mpr ⟨(j + (plan.shapes.length - s.position)) % plan.shapes.length,
      List.mem_range.mpr (Nat.mod_lt _ (by omega)), ?_⟩
    have hturn : (s.position + (j + (plan.shapes.length - s.position)) % plan.shapes.length) %
        plan.shapes.length = j := by
      rw [Nat.add_mod_mod]
      have hsum : s.position + (j + (plan.shapes.length - s.position)) =
          plan.shapes.length + j := by omega
      rw [hsum, Nat.add_mod_left, Nat.mod_eq_of_lt hj]
    rw [idAt, hturn, List.getD_eq_getElem?_getD, List.getElem?_map, List.getElem?_eq_getElem hj]
    rfl
  · intro hall
    have hsub : plan.shapes.map ReplayShape.shapeId ⊆
        (shapeCycleResults found s).flatMap fun r => r.checkedShapeIds := by
      intro id hid
      obtain ⟨shape, hshape, rfl⟩ := List.mem_map.mp hid
      exact hall shape hshape
    have hlen := (List.subperm_of_subset plan.unique hsub).length_le
    rw [List.length_map, hchecked, List.length_map, List.length_range] at hlen
    omega

end Sweep

/-! ## The recipes of a dense model -/

section Dense

theorem toList_prefixed (recipeId name : String) :
    (recipeId ++ "." ++ name).toList = recipeId.toList ++ '.' :: name.toList := by
  rw [String.toList_append, String.toList_append, List.append_assoc]
  rfl

/-- A name tells the recipe it is of: the part before the first dot. -/
theorem recipe_of_name {r r' name name' : String} (hr : '.' ∉ r.toList) (hr' : '.' ∉ r'.toList)
    (h : r ++ "." ++ name = r' ++ "." ++ name') : r = r' := by
  have htake : ∀ {t n : String}, '.' ∉ t.toList →
      (t ++ "." ++ n).toList.takeWhile (· ≠ '.') = t.toList := by
    intro t n ht
    have hall : ∀ c ∈ t.toList, decide (c ≠ '.') = true := by
      intro c hc
      refine decide_eq_true ?_
      rintro rfl
      exact ht hc
    rw [toList_prefixed, List.takeWhile_append_of_pos hall]
    simp
  have heq : (r ++ "." ++ name).toList.takeWhile (· ≠ '.') = r.toList := htake hr
  rw [h, htake hr'] at heq
  exact String.toList_inj.mp heq.symm

/-- After the annotation, every name starts with the recipe. -/
theorem annotated_name {r : Replay D τ} {recipeId : String} {e : String × C3Result}
    (h : e ∈ (annotateRecipeResult r recipeId).c3Results) :
    ∃ name, e.1 = recipeId ++ "." ++ name := by
  have hitems : ∀ e ∈ Dict.ofItems (r.c3Results.map fun e => (recipeId ++ "." ++ e.1, e.2)),
      ∃ name, e.1 = recipeId ++ "." ++ name := by
    intro e he
    rcases Dict.mem_of_mem_update he with he | he
    · obtain ⟨e', -, rfl⟩ := List.mem_map.mp he
      exact ⟨e'.1, rfl⟩
    · exact absurd he List.not_mem_nil
  rw [annotateRecipeResult] at h
  simp only at h
  split at h
  · rcases Dict.mem_put.mp h with rfl | ⟨h, -⟩
    · exact ⟨"timing", by rw [String.append_assoc]; rfl⟩
    · exact hitems e h
  · exact hitems e h

theorem namedOnce_annotate (r : Replay D τ) (recipeId : String) :
    NamedOnce (annotateRecipeResult r recipeId) := by
  have hitems : ((Dict.ofItems (r.c3Results.map fun e => (recipeId ++ "." ++ e.1, e.2))).map
      Prod.fst).Nodup := Dict.nodup_keys_update List.nodup_nil
  rw [NamedOnce, annotateRecipeResult]
  simp only
  split
  · exact Dict.nodup_keys_put hitems _
  · exact hitems

/-- The recipes that are due, each once and in their order. -/
def Due (due : List (String × Replay D τ)) : Prop := (due.map Prod.fst).Sublist denseRecipes

instance (due : List (String × Replay D τ)) : Decidable (Due due) :=
  inferInstanceAs (Decidable (List.Sublist _ _))

/-- What a result assigns stands to the end: the later results have other names. -/
theorem mem_collected_dense {s : Scheduler ReplayShapePlan.dense}
    {due : List (String × Replay D τ)} (hdue : Due due)
    {r : Replay D τ} (hr : r ∈ denseResults s due) {e : String × C3Result}
    (he : e ∈ r.c3Results) :
    e ∈ Dict.ofItems ((denseResults s due).flatMap fun r => r.c3Results) := by
  obtain ⟨p, hp, rfl⟩ := List.mem_map.mp hr
  obtain ⟨before, after, rfl⟩ := List.append_of_mem hp
  have hnodot : ∀ recipe ∈ denseRecipes, '.' ∉ recipe.toList := by decide
  have hnd : ((before ++ p :: after).map Prod.fst).Nodup :=
    hdue.nodup (by decide)
  rw [List.map_append, List.map_cons, List.nodup_append] at hnd
  have hother := (List.nodup_cons.mp hnd.2.1).1
  have hsplit : (denseResults s (before ++ p :: after)).flatMap (fun r => r.c3Results) =
      ((denseResults s before).flatMap (fun r => r.c3Results) ++
        (checkDenseRecipe s p).c3Results) ++
        (denseResults s after).flatMap fun r => r.c3Results := by
    simp only [denseResults, List.map_append, List.map_cons, List.flatMap_append,
      List.flatMap_cons, List.append_assoc]
  rw [hsplit, Dict.ofItems, Dict.update_append]
  refine Dict.mem_update_of_mem
    (Dict.mem_update_append (namedOnce_annotate _ p.1) he) fun m hm hkey => ?_
  obtain ⟨r', hr', hm⟩ := List.mem_flatMap.mp hm
  obtain ⟨q, hq, rfl⟩ := List.mem_map.mp hr'
  obtain ⟨name, hname⟩ := annotated_name hm
  obtain ⟨name', hname'⟩ := annotated_name he
  have hmem : ∀ x ∈ before ++ p :: after, x.1 ∈ denseRecipes := fun x hx =>
    hdue.subset (List.mem_map_of_mem hx)
  have hsame : q.1 = p.1 := recipe_of_name
    (hnodot _ (hmem q (List.mem_append_right _ (List.mem_cons_of_mem p hq))))
    (hnodot _ (hmem p (List.mem_append_right _ List.mem_cons_self)))
    (hname.symm.trans (hkey.trans hname'))
  exact hother (hsame ▸ List.mem_map_of_mem hq)

theorem aggregateDense_ok {results : List (Replay D τ)} {a : Replay D τ}
    (h : aggregateDenseRecipeResults results = .ok a) :
    ∃ a₀, aggregateShapeCycle results results.length = .ok a₀ ∧ a.sdcBitmap = a₀.sdcBitmap ∧
      a.c3Results = Dict.ofItems (results.flatMap fun r => r.c3Results) ∧
      a.completedShapeCycle = true ∧ a.checkedShapeIds = ["captured"] ∧ results ≠ [] := by
  obtain ⟨a₀, h₀, heq⟩ := bind_ok_iff.mp h
  obtain rfl := Except.ok.inj heq
  obtain ⟨-, -, -, -, -, -, hne⟩ := aggregateShapeCycle_ok h₀
  exact ⟨a₀, h₀, rfl, rfl, rfl, rfl, hne⟩

/-- **The verdict of the recipes is kept.** -/
theorem hasSdc_dense {s : Scheduler ReplayShapePlan.dense} {due : List (String × Replay D τ)}
    (hdue : Due due) {a : Replay D τ}
    (h : aggregateDenseRecipeResults (denseResults s due) = .ok a) :
    HasSdc a ↔ ∃ r ∈ denseResults s due, HasSdc r := by
  obtain ⟨a₀, h₀, hbitmap, hc3, -⟩ := aggregateDense_ok h
  have hflag := aggregateShapeCycle_anyFlag h₀
  rw [← hbitmap] at hflag
  constructor
  · intro hsdc
    rcases hasSdc_iff.mp hsdc with hbit | ⟨e, he, hinc⟩
    · obtain ⟨r, hr, hbit⟩ := hflag.mp hbit
      exact ⟨r, hr, hasSdc_iff.mpr (Or.inl hbit)⟩
    · rw [hc3] at he
      obtain ⟨r, hr, hinc⟩ := inconclusive_of_collected (fun r e he => ⟨e, he, rfl⟩) he hinc
      exact ⟨r, hr, hasSdc_iff.mpr (Or.inr hinc)⟩
  · rintro ⟨r, hr, hsdc⟩
    rw [hasSdc_iff]
    rcases hasSdc_iff.mp hsdc with hbit | ⟨e, he, hinc⟩
    · exact Or.inl (hflag.mpr ⟨r, hr, hbit⟩)
    · exact Or.inr ⟨e, hc3 ▸ mem_collected_dense hdue hr he, hinc⟩

theorem OfWidth.checkDenseRecipe {width : Nat} {s : Scheduler ReplayShapePlan.dense}
    {p : String × Replay D τ} (h : OfWidth width p.2) :
    OfWidth width (checkDenseRecipe s p) := by
  have hfound : OfWidth width
      (if p.1 = "hidden" then checkCurrentShape s p.2 else replayDenseModule p.2) := by
    split <;> exact ⟨h.sdc, h.straggler, h.sources, h.spatial, h.temporal⟩
  refine ⟨hfound.sdc, hfound.straggler, fun source hsource => ?_, hfound.spatial,
    hfound.temporal⟩
  rcases Dict.mem_of_mem_update hsource with hsource | hsource
  · obtain ⟨source', hsource', rfl⟩ := List.mem_map.mp hsource
    exact hfound.sources source' hsource'
  · exact absurd hsource List.not_mem_nil

/-- Every recipe of a dense model is replayed on the one shape of its plan. -/
theorem checked_checkDenseRecipe (s : Scheduler ReplayShapePlan.dense)
    (p : String × Replay D τ) : (checkDenseRecipe s p).checkedShapeIds = ["captured"] := by
  have hposition : s.position = 0 := Nat.lt_one_iff.mp s.valid
  rw [checkDenseRecipe]
  split
  · show [s.currentShape.shapeId] = _
    rw [← idAt_position, hposition]
    rfl
  · rfl

/-- **The one shape of a dense plan is checked** if any recipe is due. -/
theorem dense_checked_iff {s : Scheduler ReplayShapePlan.dense}
    {due : List (String × Replay D τ)} :
    (∀ shape ∈ ReplayShapePlan.dense.shapes, shape.shapeId ∈
      (denseResults s due).flatMap fun r => r.checkedShapeIds) ↔ denseResults s due ≠ [] := by
  have hshapes : ∀ shape ∈ ReplayShapePlan.dense.shapes, shape.shapeId = "captured" := by
    intro shape hshape
    obtain rfl := List.mem_singleton.mp hshape
    rfl
  constructor
  · intro h hnil
    obtain ⟨shape, hshape⟩ := List.exists_mem_of_ne_nil _ ReplayShapePlan.dense.nonempty
    have hin := h shape hshape
    rw [hnil] at hin
    exact List.not_mem_nil hin
  · intro hne shape hshape
    obtain ⟨r, hr⟩ := List.exists_mem_of_ne_nil _ hne
    obtain ⟨p, -, rfl⟩ := List.mem_map.mp hr
    refine List.mem_flatMap.mpr ⟨_, hr, ?_⟩
    rw [checked_checkDenseRecipe, hshapes shape hshape]
    exact List.mem_singleton_self _

end Dense

/-- **What is aggregated is not lost.**  For a sweep over the shapes of a plan,
whatever the replays find, and for the recipes of a dense model: the results of
one group have an aggregate, which has a verdict when one of its inputs has; its
flagged peers and its checked shapes are theirs, and it is complete exactly when
they have checked every shape of the plan. -/
theorem aggregate_keeps_verdict (plan : ReplayShapePlan) (s : Scheduler plan)
    (found : Nat → Replay D τ) (hfound : ∀ n, NamedOnce (found n))
    (sDense : Scheduler ReplayShapePlan.dense) (due : List (String × Replay D τ))
    (hdue : Due due) :
    (∀ width, (∀ n, OfWidth width (found n)) →
      ∃ a, aggregateShapeCycle (shapeCycleResults found s) plan.shapes.length = .ok a) ∧
    (∀ a, aggregateShapeCycle (shapeCycleResults found s) plan.shapes.length = .ok a →
      (HasSdc a ↔ ∃ r ∈ shapeCycleResults found s, HasSdc r) ∧
      (∀ peer, a.sdcBitmap.getD peer 0 ≠ 0 ↔
        ∃ r ∈ shapeCycleResults found s, r.sdcBitmap.getD peer 0 ≠ 0) ∧
      a.checkedShapeIds = ((shapeCycleResults found s).flatMap fun r => r.checkedShapeIds) ∧
      (a.completedShapeCycle = true ↔ ∀ shape ∈ plan.shapes, shape.shapeId ∈
        (shapeCycleResults found s).flatMap fun r => r.checkedShapeIds)) ∧
    (∀ width, due ≠ [] → (∀ p ∈ due, OfWidth width p.2) →
      ∃ a, aggregateDenseRecipeResults (denseResults sDense due) = .ok a) ∧
    ∀ a, aggregateDenseRecipeResults (denseResults sDense due) = .ok a →
      (HasSdc a ↔ ∃ r ∈ denseResults sDense due, HasSdc r) ∧
      (∀ peer, a.sdcBitmap.getD peer 0 ≠ 0 ↔
        ∃ r ∈ denseResults sDense due, r.sdcBitmap.getD peer 0 ≠ 0) ∧
      (∀ id, id ∈ a.checkedShapeIds ↔
        id ∈ (denseResults sDense due).flatMap fun r => r.checkedShapeIds) ∧
      (a.completedShapeCycle = true ↔ ∀ shape ∈ ReplayShapePlan.dense.shapes, shape.shapeId ∈
        (denseResults sDense due).flatMap fun r => r.checkedShapeIds) := by
  refine ⟨fun width hwidth => ?_, fun a h => ?_, fun width hne hwidth => ?_, fun a h => ?_⟩
  · have hwide : ∀ r ∈ shapeCycleResults found s, OfWidth width r := by
      intro r hr
      obtain ⟨i, s', rfl⟩ := mem_sweepShapes hr
      have hi := hwidth i
      exact ⟨hi.sdc, hi.straggler, hi.sources, hi.spatial, hi.temporal⟩
    exact aggregateShapeCycle_returns plan.shapes.length (shapeCycleResults_ne_nil s) hwide
  · obtain ⟨-, -, -, -, hchecked, hcompleted, -⟩ := aggregateShapeCycle_ok h
    refine ⟨hasSdc_shapeCycle hfound h, aggregateShapeCycle_flags h, hchecked, ?_⟩
    rw [hcompleted, decide_eq_true_eq]
    exact length_shapeCycle_iff
  · have hwide : ∀ r ∈ denseResults sDense due, OfWidth width r := by
      intro r hr
      obtain ⟨p, hp, rfl⟩ := List.mem_map.mp hr
      exact (hwidth p hp).checkDenseRecipe
    obtain ⟨a, ha⟩ := aggregateShapeCycle_returns (denseResults sDense due).length
      (fun hnil => hne (List.map_eq_nil_iff.mp hnil)) hwide
    exact ⟨_, bind_ok_iff.mpr ⟨a, ha, rfl⟩⟩
  · obtain ⟨a₀, h₀, hbitmap, -, hcompleted, hchecked, hne⟩ := aggregateDense_ok h
    refine ⟨hasSdc_dense hdue h, fun peer => ?_, fun id => ?_,
      iff_of_true hcompleted (dense_checked_iff.mpr hne)⟩
    · rw [hbitmap]
      exact aggregateShapeCycle_flags h₀ peer
    · rw [hchecked, List.mem_singleton]
      constructor
      · rintro rfl
        exact dense_checked_iff.mpr hne _ List.mem_cons_self
      · intro hin
        obtain ⟨r, hr, hin⟩ := List.mem_flatMap.mp hin
        obtain ⟨p, -, rfl⟩ := List.mem_map.mp hr
        rw [checked_checkDenseRecipe] at hin
        exact List.mem_singleton.mp hin

/-- A plan of two shapes. -/
def samplePlan : ReplayShapePlan where
  shapes := [⟨"shape-0-8", some [8], by decide⟩, ⟨"shape-1-16", some [16], by decide⟩]
  nonempty := List.cons_ne_nil _ _
  unique := by decide

/-- The scheduler of that plan, before its second shape. -/
def sampleScheduler : Scheduler samplePlan := ⟨1, 0, by decide⟩

/-- The scheduler of a dense plan. -/
def denseScheduler : Scheduler ReplayShapePlan.dense := ⟨0, 0, by decide⟩

theorem sampleRound_ofWidth (status : C3Status) : OfWidth 2 (sampleRound status) :=
  ⟨rfl, rfl, by intro source hsource; obtain rfl := List.mem_singleton.mp hsource; rfl,
    .inr rfl, .inl rfl⟩

/-- A hidden layer that is inconclusive and an output layer that agrees. -/
def sampleDue : List (String × Replay Unit Unit) :=
  [("hidden", sampleRound .inconclusive), ("output", sampleRound .agree)]

/-- A sweep of two clean shapes is complete and has no verdict; those layers have one. -/
theorem aggregate_keeps_verdict_sample :
    (∃ a, aggregateShapeCycle
        (shapeCycleResults (fun _ => sampleRound .agree) sampleScheduler) 2 = .ok a ∧
      ¬ HasSdc a ∧ a.completedShapeCycle = true) ∧
    ∃ a, aggregateDenseRecipeResults (denseResults denseScheduler sampleDue) = .ok a ∧
      HasSdc a ∧ a.completedShapeCycle = true := by
  have hnamed : ∀ status, NamedOnce (sampleRound status) := fun status =>
    List.nodup_cons.mpr ⟨List.not_mem_nil, List.nodup_nil⟩
  obtain ⟨hreturns, hkeeps, hreturnsDense, hkeepsDense⟩ := aggregate_keeps_verdict samplePlan
    sampleScheduler (fun _ => sampleRound .agree) (fun _ => hnamed .agree) denseScheduler
    sampleDue (by decide)
  constructor
  · obtain ⟨a, ha⟩ := hreturns 2 fun _ => sampleRound_ofWidth .agree
    obtain ⟨hsdc, -, -, hcompleted⟩ := hkeeps a ha
    refine ⟨a, ha, fun h => ?_, hcompleted.mpr (by decide)⟩
    obtain ⟨r, hr, hverdict⟩ := hsdc.mp h
    obtain ⟨i, s', rfl⟩ := mem_sweepShapes hr
    exact Bool.false_ne_true hverdict
  · obtain ⟨a, ha⟩ := hreturnsDense 2 (List.cons_ne_nil _ _) (by
      rintro p hp
      rcases List.mem_cons.mp hp with rfl | hp
      · exact sampleRound_ofWidth .inconclusive
      · obtain rfl := List.mem_singleton.mp hp
        exact sampleRound_ofWidth .agree)
    obtain ⟨hsdc, -, -, hcompleted⟩ := hkeepsDense a ha
    exact ⟨a, ha, hsdc.mpr ⟨_, List.mem_cons_self, rfl⟩, hcompleted.mpr (by decide)⟩

end LmResiliency.Detection
