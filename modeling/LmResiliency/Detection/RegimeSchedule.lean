/-
# RegimeSchedule — the rotation through the recipes of a catalog

At every step that is due a replay takes the next recipe.  Two schedulers rotate:
one over the catalog, one over the shape plan that is built from it.  Both are
saved and restored as a position and a count of cycles, bound to what they
rotate over.

The main result is `schedule_covers_recipes`.  It counts replays that are due;
when a step is due is the trigger's business.
-/
import LmResiliency.Detection.MoECatalog
import LmResiliency.Detection.ShapeCycle
import LmResiliency.Lib.Rotation

namespace LmResiliency.Detection.MoE

open LmResiliency.Outcome
open LmResiliency.Rotation

variable (digest : String → String) (C : Conversions)

/-! ## The scheduler of a catalog -/

/-- `ScheduledReplay`. -/
structure ScheduledReplay where
  recipe : ReplayRecipe
  position : Nat
  cycle : Nat
  completesCycle : Bool

/-- `MoEReplayScheduler`. -/
structure MoEReplayScheduler where
  catalog : MoERegimeCatalog
  replayInterval : Int
  firstReplayStep : Int
  position : Nat
  cycle : Nat

namespace MoEReplayScheduler

/-- The constructor. -/
def make (catalog : MoERegimeCatalog) (replayInterval : Int) (firstReplayStep : Option Int) :
    Except Error MoEReplayScheduler := do
  raiseIf (replayInterval < 1) (.valueError "replay_interval must be positive")
  let firstReplayStep := firstReplayStep.getD replayInterval
  raiseIf (firstReplayStep < 1) (.valueError "first_replay_step must be positive")
  return { catalog, replayInterval, firstReplayStep, position := 0, cycle := 0 }

def nextRecipe (s : MoEReplayScheduler) : Except Error (ScheduledReplay × MoEReplayScheduler) := do
  let recipes ← s.catalog.replayRecipes digest
  let completesCycle := decide ((s.position : Int) = recipes.length - 1)
  match recipes[s.position]? with
  | none => .error .indexError
  | some recipe =>
      return ({ recipe, position := s.position, cycle := s.cycle, completesCycle },
        { s with
          position := (s.position + 1) % recipes.length
          cycle := if completesCycle then s.cycle + 1 else s.cycle })

def recipeForStep (s : MoEReplayScheduler) (step : Int) :
    Except Error (Option ScheduledReplay × MoEReplayScheduler) :=
  if step < s.firstReplayStep then .ok (none, s)
  else if (step - s.firstReplayStep) % s.replayInterval ≠ 0 then .ok (none, s)
  else do
    let (replay, s) ← s.nextRecipe digest
    return (some replay, s)

def stateDict (s : MoEReplayScheduler) : List (String × Json) :=
  [("catalog_id", .str (s.catalog.identifier digest)), ("position", .int s.position),
   ("cycle", .int s.cycle)]

def loadStateDict (s : MoEReplayScheduler) (state : List (String × Json)) :
    Except Error MoEReplayScheduler := do
  let same : Bool := match itemOr state "catalog_id" .null with
    | .str saved => saved = s.catalog.identifier digest
    | _ => false
  raiseIf (¬same) (.catalogEnvironmentMismatch
    "cannot restore MoE replay position into a different catalog")
  let position ← C.int (← item state "position")
  let cycle ← C.int (← item state "cycle")
  let cycleSize ← s.catalog.cycleSize digest
  raiseIf (¬(0 ≤ position ∧ position < cycleSize) ∨ cycle < 0)
    (.valueError "invalid MoE replay scheduler state")
  return { s with position := position.toNat, cycle := cycle.toNat }

end MoEReplayScheduler

/-! ## The plan of a catalog -/

/-- `ReplayShape(shape_id=…, dimensions=(dimension,))`. -/
def makeShape (shapeId : String) (dimension : Int) : Except Error ReplayShape :=
  if h : shapeId = "" then .error (.valueError "replay shape_id cannot be empty")
  else if dimension < 0 then
    .error (.valueError "replay shape dimensions must be non-negative")
  else .ok { shapeId, dimensions := some [dimension.toNat], nonempty := h }

/-- A plan with the source it is built from. -/
structure SourcedPlan where
  plan : ReplayShapePlan
  sourceId : String
  named : sourceId ≠ ""

/-- `ReplayShapePlan(shapes=…, source_id=…)`. -/
def makePlan (shapes : List ReplayShape) (sourceId : String) : Except Error SourcedPlan :=
  if h : shapes = [] then .error (.valueError "replay shape plan cannot be empty")
  else if hu : ¬(shapes.map ReplayShape.shapeId).Nodup then
    .error (.valueError "replay shape IDs must be unique")
  else if hs : sourceId = "" then
    .error (.valueError "replay shape plan source_id cannot be empty")
  else .ok ⟨⟨shapes, h, not_not.mp hu⟩, sourceId, hs⟩

/-- The name of the shape of a recipe. -/
def ReplayRecipe.shapeId (recipe : ReplayRecipe) : String :=
  recipe.executionClass ++ ":" ++ recipe.regimeId ++ ":n_exec=" ++ toString recipe.nExec ++ ":" ++
    shortened recipe.fingerprintId

def fromMoECatalog (catalog : MoERegimeCatalog) : Except Error SourcedPlan := do
  let recipes ← catalog.replayRecipes digest
  raiseIf (recipes = []) (.valueError "MoE catalog has no replay recipes")
  let shapes ← recipes.mapM fun recipe => makeShape recipe.shapeId recipe.nExec
  makePlan shapes ("moe-catalog:" ++ catalog.identifier digest)

namespace SourcedPlan

def identifier (p : SourcedPlan) : String :=
  digestOf digest (.obj [("source_id", .str p.sourceId),
    ("shapes", .arr (p.plan.shapes.map fun shape =>
      .obj [("shape_id", .str shape.shapeId),
        ("dimensions", match shape.dimensions with
          | none => .null
          | some dimensions => numbers (dimensions.map Int.ofNat))]))])

def stateDict (p : SourcedPlan) (s : Scheduler p.plan) : List (String × Json) :=
  [("plan_id", .str (p.identifier digest)), ("position", .int s.position), ("cycle", .int s.cycle)]

def loadStateDict (p : SourcedPlan) (s : Scheduler p.plan) (state : List (String × Json)) :
    Except Error (Scheduler p.plan) :=
  if state = [] then .ok s
  else do
    let same : Bool := match itemOr state "plan_id" .null with
      | .str saved => saved = p.identifier digest
      | _ => false
    raiseIf (¬same) (.replayShapePlanMismatch
      "cannot restore replay position into a different shape plan")
    let position ← C.int (← item state "position")
    let cycle ← C.int (← item state "cycle")
    if h : (0 ≤ position ∧ position < p.plan.shapes.length) ∧ 0 ≤ cycle then
      return { position := position.toNat, cycle := cycle.toNat, valid := by omega }
    else .error (.valueError "invalid replay shape scheduler state")

/-- `ReplayShapeScheduler(plan)`. -/
def newScheduler (p : SourcedPlan) : Scheduler p.plan :=
  ⟨0, 0, List.length_pos_iff.mpr p.plan.nonempty⟩

end SourcedPlan

/-! ## Training steps -/

/-- A training run that asks the scheduler at every step, from the first one on.  A
restored run makes its scheduler anew. -/
def catalogMachine (catalog : MoERegimeCatalog) (replayInterval : Int)
    (firstReplayStep : Option Int) (start : Int) :
    Machine Error MoEReplayScheduler (List (String × Json)) (Option ScheduledReplay) where
  step k s := s.recipeForStep digest (start + k)
  save s := s.stateDict digest
  restore state := do
    (← MoEReplayScheduler.make catalog replayInterval firstReplayStep).loadStateDict digest C state

/-- A training run that replays the current shape at the steps that are due, and then
advances. -/
def planMachine (p : SourcedPlan) (replayInterval first start : Int) :
    Machine Error (Scheduler p.plan) (List (String × Json)) (Option ReplayShape) where
  step k s :=
    if IsDue first replayInterval (start + k) then .ok (some s.currentShape, s.advance)
    else .ok (none, s)
  save s := p.stateDict digest s
  restore state := p.loadStateDict digest C p.newScheduler state

/-! ## Turn after turn -/

section Turns

variable {digest : String → String} {C : Conversions} {first interval start : Int}

theorem turns_zero : turns first interval start 0 = 0 := Nat.count_zero _

theorem turns_succ (k : Nat) : turns first interval start (k + 1) =
    turns first interval start k + if IsDue first interval (start + k) then 1 else 0 :=
  Nat.count_succ _ _

theorem next_turn {n : Nat} (hn : 0 < n) (q : Nat) :
    (q + 1) % n = (q % n + 1) % n ∧
      (q + 1) / n = if q % n + 1 = n then q / n + 1 else q / n := by
  refine ⟨(Nat.mod_add_mod q n 1).symm, ?_⟩
  have hdvd : n ∣ q + 1 ↔ q % n + 1 = n := by
    have hlt := Nat.mod_lt q hn
    rw [Nat.dvd_iff_mod_eq_zero, ← Nat.mod_add_mod]
    constructor
    · intro h
      by_contra hne
      rw [Nat.mod_eq_of_lt (by omega)] at h
      omega
    · intro h
      rw [h, Nat.mod_self]
  rw [Nat.succ_div]
  simp only [hdvd]
  split <;> rfl

/-! ### Over the catalog -/

/-- The scheduler after some turns. -/
def catalogState (catalog : MoERegimeCatalog) (recipes : List ReplayRecipe)
    (first interval : Int) (q : Nat) : MoEReplayScheduler :=
  ⟨catalog, interval, first, q % recipes.length, q / recipes.length⟩

/-- What is replayed at a turn. -/
def catalogOutput (recipes : List ReplayRecipe) (q : Nat) : Option ScheduledReplay :=
  recipes[q % recipes.length]?.map fun recipe =>
    { recipe, position := q % recipes.length, cycle := q / recipes.length
      completesCycle := decide (((q % recipes.length : Nat) : Int) = recipes.length - 1) }

variable (first interval) in
theorem nextRecipe_catalogState {catalog : MoERegimeCatalog} {recipes : List ReplayRecipe}
    (hrecipes : catalog.replayRecipes digest = .ok recipes) (hne : recipes ≠ []) (q : Nat) :
    ∃ replay, catalogOutput recipes q = some replay ∧
      (catalogState catalog recipes first interval q).nextRecipe digest =
        .ok (replay, catalogState catalog recipes first interval (q + 1)) := by
  have hpos := List.length_pos_iff.mpr hne
  have hget := List.getElem?_eq_getElem (Nat.mod_lt q hpos)
  obtain ⟨hplace, hcycle⟩ := next_turn hpos q
  have hlast : ((q % recipes.length : Nat) : Int) = recipes.length - 1 ↔
      q % recipes.length + 1 = recipes.length := by omega
  refine ⟨_, by rw [catalogOutput, hget]; rfl, ?_⟩
  simp only [MoEReplayScheduler.nextRecipe, catalogState, hrecipes, bind, Except.bind, hget, pure,
    Except.pure, hplace, hcycle, hlast, decide_eq_true_eq]

theorem recipeForStep_catalogState {catalog : MoERegimeCatalog} {recipes : List ReplayRecipe}
    (hrecipes : catalog.replayRecipes digest = .ok recipes) (hne : recipes ≠ []) (q : Nat)
    (step : Int) :
    (catalogState catalog recipes first interval q).recipeForStep digest step =
      if IsDue first interval step then
        .ok (catalogOutput recipes q, catalogState catalog recipes first interval (q + 1))
      else .ok (none, catalogState catalog recipes first interval q) := by
  obtain ⟨replay, houtput, hnext⟩ :=
    nextRecipe_catalogState first interval hrecipes hne q
  change (if step < first then _ else if (step - first) % interval ≠ 0 then _ else _) = _
  by_cases hbefore : step < first
  · rw [if_pos hbefore, if_neg fun h => absurd h.1 (not_le.mpr hbefore)]
  · rw [if_neg hbefore]
    by_cases hmod : (step - first) % interval = 0
    · rw [if_neg (not_not.mpr hmod), if_pos ⟨not_lt.mp hbefore, hmod⟩, hnext, houtput]
      rfl
    · rw [if_pos hmod, if_neg fun h => hmod h.2]

theorem restore_catalogState {catalog : MoERegimeCatalog} {recipes : List ReplayRecipe}
    {firstReplayStep : Option Int} (hrecipes : catalog.replayRecipes digest = .ok recipes)
    (hne : recipes ≠ [])
    (hmake : MoEReplayScheduler.make catalog interval firstReplayStep =
      .ok (catalogState catalog recipes first interval 0)) (q : Nat) :
    (catalogMachine digest C catalog interval firstReplayStep start).restore
      ((catalogState catalog recipes first interval q).stateDict digest) =
        .ok (catalogState catalog recipes first interval q) := by
  have hlt := Nat.mod_lt q (List.length_pos_iff.mpr hne)
  have hsize : catalog.cycleSize digest = .ok recipes.length := by
    rw [MoERegimeCatalog.cycleSize, hrecipes]
    rfl
  generalize hstate : (catalogState catalog recipes first interval q).stateDict digest = state
  have hid : itemOr state "catalog_id" .null = .str (catalog.identifier digest) := by
    rw [← hstate]
    rfl
  have hposition : item state "position" = .ok (.int ((q % recipes.length : Nat) : Int)) := by
    rw [← hstate]
    rfl
  have hcycle : item state "cycle" = .ok (.int ((q / recipes.length : Nat) : Int)) := by
    rw [← hstate]
    rfl
  have hin : ¬(¬((0 : Int) ≤ (q % recipes.length : Nat) ∧
      ((q % recipes.length : Nat) : Int) < (recipes.length : Nat)) ∨
        ((q / recipes.length : Nat) : Int) < 0) := by
    rintro (h | h)
    · exact h ⟨Int.natCast_nonneg _, Int.ofNat_lt.mpr hlt⟩
    · exact absurd (Int.natCast_nonneg _) (not_le.mpr h)
  change (MoEReplayScheduler.make catalog interval firstReplayStep >>= fun s =>
    s.loadStateDict digest C state) = _
  rw [hmake]
  change MoEReplayScheduler.loadStateDict digest C _ state = _
  rw [MoEReplayScheduler.loadStateDict]
  simp only [hid, hposition, hcycle, C.int_int, hsize, catalogState, bind,
    Except.bind, raiseIf]
  rw [if_neg (by decide), if_neg hin]
  rfl

variable (C start) in
theorem follows_catalog {catalog : MoERegimeCatalog} {recipes : List ReplayRecipe}
    {firstReplayStep : Option Int} (hrecipes : catalog.replayRecipes digest = .ok recipes)
    (hne : recipes ≠ [])
    (hmake : MoEReplayScheduler.make catalog interval firstReplayStep =
      .ok (catalogState catalog recipes first interval 0)) :
    (catalogMachine digest C catalog interval firstReplayStep start).Follows
      (fun k => catalogState catalog recipes first interval (turns first interval start k))
      (fun k => if IsDue first interval (start + k) then
        catalogOutput recipes (turns first interval start k) else none) where
  step k := by
    refine (recipeForStep_catalogState hrecipes hne _ _).trans ?_
    rw [turns_succ]
    split <;> rfl
  restore k := restore_catalogState hrecipes hne hmake _

theorem recipe_catalogOutput (recipes : List ReplayRecipe) (k : Nat) :
    Option.map ScheduledReplay.recipe (if IsDue first interval (start + k) then
      catalogOutput recipes (turns first interval start k) else none) =
      turnOf recipes first interval start 0 k := by
  rw [turnOf, Nat.zero_add]
  split
  · rw [catalogOutput, Option.map_map]
    exact Option.map_id'
  · rfl

/-! ### Over a plan -/

/-- The scheduler of a plan after some turns. -/
def planState (plan : ReplayShapePlan) (q : Nat) : Scheduler plan :=
  ⟨q % plan.shapes.length, q / plan.shapes.length,
    Nat.mod_lt q (List.length_pos_iff.mpr plan.nonempty)⟩

theorem currentShape_planState (plan : ReplayShapePlan) (q : Nat) :
    some (planState plan q).currentShape = plan.shapes[q % plan.shapes.length]? :=
  (List.getElem?_eq_getElem (planState plan q).valid).symm

theorem scheduler_eq {plan : ReplayShapePlan} {s t : Scheduler plan}
    (hposition : s.position = t.position) (hcycle : s.cycle = t.cycle) : s = t := by
  cases s
  cases t
  cases hposition
  cases hcycle
  rfl

theorem advance_planState (plan : ReplayShapePlan) (q : Nat) :
    (planState plan q).advance = planState plan (q + 1) := by
  have hpos := List.length_pos_iff.mpr plan.nonempty
  obtain ⟨hplace, hcycle⟩ := next_turn hpos q
  have hlt := Nat.mod_lt q hpos
  by_cases hwrap : q % plan.shapes.length + 1 = plan.shapes.length
  · have hadvance : (planState plan q).advance =
        ⟨0, (planState plan q).cycle + 1, hpos⟩ := dif_pos hwrap
    rw [hadvance]
    rw [hwrap, Nat.mod_self] at hplace
    rw [if_pos hwrap] at hcycle
    exact scheduler_eq hplace.symm hcycle.symm
  · have hadvance : (planState plan q).advance =
        ⟨(planState plan q).position + 1, (planState plan q).cycle, _⟩ := dif_neg hwrap
    rw [hadvance]
    rw [Nat.mod_eq_of_lt (a := q % plan.shapes.length + 1) (by omega)] at hplace
    rw [if_neg hwrap] at hcycle
    exact scheduler_eq hplace.symm hcycle.symm

theorem restore_planState (p : SourcedPlan) (q : Nat) :
    p.loadStateDict digest C p.newScheduler (p.stateDict digest (planState p.plan q)) =
      .ok (planState p.plan q) := by
  have hlt := (planState p.plan q).valid
  generalize hstate : p.stateDict digest (planState p.plan q) = state
  have hid : itemOr state "plan_id" .null = .str (p.identifier digest) := by
    rw [← hstate]
    rfl
  have hposition : item state "position" =
      .ok (.int (((planState p.plan q).position : Nat) : Int)) := by
    rw [← hstate]
    rfl
  have hcycle : item state "cycle" = .ok (.int (((planState p.plan q).cycle : Nat) : Int)) := by
    rw [← hstate]
    rfl
  have hne : state ≠ [] := hstate ▸ List.cons_ne_nil _ _
  rw [SourcedPlan.loadStateDict, if_neg hne]
  simp only [hid, hposition, hcycle, C.int_int, bind, Except.bind, raiseIf]
  rw [if_neg (by decide)]
  dsimp only
  rw [dif_pos ⟨⟨Int.natCast_nonneg _, Int.ofNat_lt.mpr hlt⟩, Int.natCast_nonneg _⟩]
  rfl

variable (digest C first interval start) in
theorem follows_plan (p : SourcedPlan) :
    (planMachine digest C p interval first start).Follows
      (fun k => planState p.plan (turns first interval start k))
      (turnOf p.plan.shapes first interval start 0) where
  step k := by
    change (if IsDue first interval (start + k) then _ else _) = _
    rw [turnOf, turns_succ, Nat.zero_add]
    split
    · rw [currentShape_planState, advance_planState]
    · rfl
  restore k := restore_planState p _

/-! ## The two schedulers -/

/-- The shape of a recipe. -/
def ShapeOf (replay : ScheduledReplay) (shape : ReplayShape) : Prop :=
  makeShape replay.recipe.shapeId replay.recipe.nExec = .ok shape

theorem shapes_fromMoECatalog {catalog : MoERegimeCatalog} {recipes : List ReplayRecipe}
    {p : SourcedPlan} (hrecipes : catalog.replayRecipes digest = .ok recipes)
    (h : fromMoECatalog digest catalog = .ok p) :
    List.Forall₂ (fun recipe shape => makeShape recipe.shapeId recipe.nExec = .ok shape) recipes
      p.plan.shapes := by
  rw [fromMoECatalog, hrecipes] at h
  obtain ⟨-, h⟩ := raiseIf_bind_ok_iff.mp h
  obtain ⟨shapes, hshapes, h⟩ := bind_ok_iff.mp h
  have hplan : p.plan.shapes = shapes := by
    rw [makePlan] at h
    split at h
    · cases h
    · split at h
      · cases h
      · split at h
        · cases h
        · rw [← Except.ok.inj h]
  exact hplan ▸ mapM_ok_iff.mp hshapes

/-- At every turn the plan has the shape of the catalog's recipe. -/
theorem same_turn {recipes : List ReplayRecipe} {shapes : List ReplayShape}
    (h : List.Forall₂ (fun recipe shape => makeShape recipe.shapeId recipe.nExec = .ok shape)
      recipes shapes) (q : Nat) :
    Option.Rel ShapeOf (catalogOutput recipes q) shapes[q % shapes.length]? := by
  rw [catalogOutput, ← h.length_eq]
  generalize q % recipes.length = place
  generalize q / recipes.length = cycle
  by_cases hlt : place < recipes.length
  · have hlt' : place < shapes.length := h.length_eq ▸ hlt
    rw [List.getElem?_eq_getElem hlt, List.getElem?_eq_getElem hlt']
    exact .some (h.get hlt hlt')
  · have hlt' : ¬place < shapes.length := h.length_eq ▸ hlt
    rw [List.getElem?_eq_none (not_lt.mp hlt), List.getElem?_eq_none (not_lt.mp hlt')]
    exact .none

/-- A replay's recipes among the steps of a window. -/
def recipesIn (done : List (Option ScheduledReplay)) (from_ length : Nat) : List ReplayRecipe :=
  window (done.map (Option.map ScheduledReplay.recipe)) from_ length

/-- **Every recipe has its turn.**  In a run with any saves and restores, each window of a
full cycle from the first replay on has every recipe once, and every shape of a plan; over
the plan of the catalog both schedulers take the same recipe at every step. -/
theorem schedule_covers_recipes {catalog : MoERegimeCatalog} (hvalid : catalog.Valid digest C)
    {interval : Int} {firstReplayStep : Option Int} {s : MoEReplayScheduler}
    (hmake : MoEReplayScheduler.make catalog interval firstReplayStep = .ok s) (start : Int)
    (events : List Event) :
    ∃ recipes tape, catalog.replayRecipes digest = .ok recipes ∧
      (catalogMachine digest C catalog interval firstReplayStep start).run (.start s) events =
        .ok tape ∧
      (∀ a : Nat, s.firstReplayStep ≤ start + a →
        a + recipes.length * interval.toNat ≤ tape.done.length →
        (recipesIn tape.done a (recipes.length * interval.toNat)).Perm recipes) ∧
      ∀ p : SourcedPlan, ∃ tape',
        (planMachine digest C p interval s.firstReplayStep start).run (.start p.newScheduler)
          events = .ok tape' ∧
        (∀ a : Nat, s.firstReplayStep ≤ start + a →
          a + p.plan.shapes.length * interval.toNat ≤ tape'.done.length →
          (window tape'.done a (p.plan.shapes.length * interval.toNat)).Perm p.plan.shapes) ∧
        (fromMoECatalog digest catalog = .ok p →
          List.Forall₂ (Option.Rel ShapeOf) tape.done tape'.done) := by
  obtain ⟨recipes, hrecipes, hne⟩ := hvalid.replayRecipes
  obtain ⟨hinterval, hstate⟩ : 0 < interval ∧
      s = catalogState catalog recipes s.firstReplayStep interval 0 := by
    obtain ⟨hinterval, h⟩ := raiseIf_bind_ok_iff.mp hmake
    obtain ⟨-, h⟩ := raiseIf_bind_ok_iff.mp h
    refine ⟨by omega, ?_⟩
    rw [← Except.ok.inj h, catalogState, Nat.zero_mod, Nat.zero_div]
  have hfollows := follows_catalog C start hrecipes hne (hstate ▸ hmake)
  obtain ⟨tape, hrun, htrack⟩ := Machine.run_onTrack hfollows events Machine.onTrack_start
  rw [turns_zero, ← hstate] at hrun
  refine ⟨recipes, tape, hrecipes, hrun, fun a ha hL => ?_, fun p => ?_⟩
  · have hmap : (Option.map ScheduledReplay.recipe) ∘ (fun k : Nat =>
        if IsDue s.firstReplayStep interval (start + k) then
          catalogOutput recipes (turns s.firstReplayStep interval start k) else none) =
        turnOf recipes s.firstReplayStep interval start 0 :=
      funext fun k => recipe_catalogOutput recipes k
    rw [recipesIn, htrack.done, List.map_map, hmap]
    exact window_perm hinterval ha hL
  · obtain ⟨tape', hrun', htrack'⟩ := Machine.run_onTrack
      (follows_plan digest C s.firstReplayStep interval start p) events Machine.onTrack_start
    have hnew : planState p.plan 0 = p.newScheduler :=
      scheduler_eq (Nat.zero_mod _) (Nat.zero_div _)
    rw [turns_zero, hnew] at hrun'
    refine ⟨tape', hrun', fun a ha hL => ?_, fun hplan => ?_⟩
    · rw [htrack'.done]
      exact window_perm hinterval ha hL
    · have hshapes := shapes_fromMoECatalog hrecipes hplan
      rw [htrack.done, htrack'.done, Machine.length_done_eq hrun hrun',
        List.forall₂_map_left_iff, List.forall₂_map_right_iff, List.forall₂_same]
      intro k _
      rw [turnOf, Nat.zero_add]
      split
      · exact same_turn hshapes _
      · exact .none

end Turns

/-- What happens in a run with a save and a restore, of two full cycles in the end. -/
def sampleEvents : List Event :=
  [.step, .step, .save, .step, .step, .restore 0, .step, .step, .step, .step, .step, .step, .step]

/-- Two recipes take turns at every second step. -/
theorem schedule_covers_recipes_sample :
    sampleCatalog.replayRecipes paddedDigest =
      .ok [sampleRecipe "stream_k" 8, sampleRecipe "split_k" 32] ∧
    ∃ recipes tape, sampleCatalog.replayRecipes paddedDigest = .ok recipes ∧
      (catalogMachine paddedDigest plainConversions sampleCatalog 2 none 1).run
        (.start ⟨sampleCatalog, 2, 2, 0, 0⟩) sampleEvents = .ok tape ∧
      (∀ a : Nat, 2 ≤ (1 : Int) + a → a + recipes.length * 2 ≤ tape.done.length →
        (recipesIn tape.done a (recipes.length * 2)).Perm recipes) ∧
      ∀ p : SourcedPlan, ∃ tape',
        (planMachine paddedDigest plainConversions p 2 2 1).run
          (.start p.newScheduler) sampleEvents = .ok tape' ∧
        (∀ a : Nat, 2 ≤ (1 : Int) + a → a + p.plan.shapes.length * 2 ≤ tape'.done.length →
          (window tape'.done a (p.plan.shapes.length * 2)).Perm p.plan.shapes) ∧
        (fromMoECatalog paddedDigest sampleCatalog = .ok p →
          List.Forall₂ (Option.Rel ShapeOf) tape.done tape'.done) :=
  ⟨replayRecipes_sampleCatalog, schedule_covers_recipes valid_sampleCatalog
    (s := ⟨sampleCatalog, 2, 2, 0, 0⟩) rfl 1 sampleEvents⟩

end LmResiliency.Detection.MoE
