/-
# StateRetirement — what completion leaves of a state fault

The target elements are different elements of the tensor, so that each one is restored from
its own values.  An element that has been updated since is the injected value plus the
updates; taking the difference out leaves the original plus the updates.

The main result is `complete_keeps_updates`, in exact arithmetic: the rounding of
the real subtraction is not modelled.
-/
import LmResiliency.FaultInjection.StateFault
import Mathlib.Algebra.BigOperators.Group.List.Lemmas
import Mathlib.Tactic.Ring

namespace LmResiliency.FaultInjection.StateFault

open LmResiliency.FaultInjection.Manifest (FaultScope)
open LmResiliency.Outcome

/-! ## Places -/

theorem linearCoordinates_eq (index : Nat) (shape : List Nat) :
    linearCoordinates index shape = RowMajor.coordinates shape index := by
  have hfold : ∀ (ds : List Nat) (n : Nat) (cs : List Nat),
      (ds.foldl (fun (s : Nat × List Nat) d => (s.1 / d, s.2 ++ [s.1 % d])) (n, cs)).2 =
        cs ++ RowMajor.digits n ds := by
    intro ds
    induction ds with
    | nil => exact fun n cs => (List.append_nil cs).symm
    | cons d ds ih =>
        intro n cs
        rw [List.foldl_cons, ih, RowMajor.digits, List.append_assoc, List.singleton_append]
  rw [linearCoordinates, RowMajor.coordinates]
  exact congrArg List.reverse ((hfold _ _ _).trans (List.nil_append _))

/-- The element with this index. -/
def Tensor.at (tensor : Tensor) (index : Nat) : PyFloat :=
  tensor.element (linearCoordinates index tensor.shape)

/-- Indices of different elements of the tensor, at least one. -/
structure Placed (tensor : Tensor) (indices : List Nat) : Prop where
  nodup : indices.Nodup
  lt : ∀ index ∈ indices, index < tensor.numel
  ne : indices ≠ []

namespace Placed

variable {tensor : Tensor} {indices : List Nat} (h : Placed tensor indices)
include h

/-- A tensor without dimensions has one place, and the indices name it. -/
theorem places_eq :
    tensor.places indices = indices.map (RowMajor.coordinates tensor.shape) := by
  rw [Tensor.places]
  split
  · rename_i hshape
    have hzero : ∀ index ∈ indices, index = 0 := fun index hmem =>
      Nat.lt_one_iff.mp (by simpa [Tensor.numel, hshape] using h.lt index hmem)
    obtain ⟨index, rest, rfl⟩ := List.exists_cons_of_ne_nil h.ne
    have hrest : rest = [] := by
      refine List.eq_nil_iff_forall_not_mem.mpr fun other hother => ?_
      have hnot := (List.nodup_cons.mp h.nodup).1
      rw [hzero index List.mem_cons_self, ← hzero other (List.mem_cons_of_mem _ hother)] at hnot
      exact hnot hother
    rw [hrest, hshape]
    rfl
  · exact List.map_congr_left fun index _ => linearCoordinates_eq index _

theorem length_places : (tensor.places indices).length = indices.length := by
  rw [h.places_eq, List.length_map]

theorem nodup_places : (tensor.places indices).Nodup := by
  rw [h.places_eq]
  exact RowMajor.nodup_coordinates h.nodup h.lt

theorem length_read : (readLinear tensor indices).length = indices.length := by
  rw [readLinear, List.length_map, h.length_places]

/-- What is read is the elements with the indices. -/
theorem getElem_read {k : Nat} (hk : k < indices.length)
    (hk' : k < (readLinear tensor indices).length) :
    (readLinear tensor indices)[k] = tensor.at indices[k] := by
  simp only [readLinear, h.places_eq, List.getElem_map, Tensor.at, linearCoordinates_eq]

theorem at_write {values : List PyFloat} (hlength : values.length = indices.length) {k : Nat}
    (hk : k < indices.length) :
    (writeLinear tensor indices values).at indices[k] = values.get ⟨k, hlength ▸ hk⟩ := by
  have hplaces : values.length = (tensor.places indices).length :=
    hlength.trans h.length_places.symm
  have hwritten := RowMajor.scatter_getElem (a := tensor.element) h.nodup_places hplaces
    (h.length_places.symm ▸ hk)
  simpa only [h.places_eq, List.getElem_map, Tensor.at, writeLinear, linearCoordinates_eq]
    using hwritten

theorem at_write_of_not_mem {values : List PyFloat} {index : Nat} (hindex : index < tensor.numel)
    (hmem : index ∉ indices) :
    (writeLinear tensor indices values).at index = tensor.at index := by
  rw [Tensor.at, Tensor.at, writeLinear]
  refine RowMajor.scatter_zip_of_not_mem ?_
  rw [h.places_eq, linearCoordinates_eq, RowMajor.mem_coordinates_iff hindex h.lt]
  exact hmem

end Placed

/-! ## Target indices -/

theorem getLastD_le_prod {shape : List Nat} (hpos : 0 < shape.prod) (hne : shape ≠ []) :
    0 < shape.getLastD 0 ∧ shape.getLastD 0 ≤ shape.prod := by
  have hlast : shape.getLastD 0 ∈ shape := by
    rw [List.getLastD_eq_getLast?, List.getLast?_eq_getLast_of_ne_nil hne]
    exact List.getLast_mem hne
  have hdvd := List.dvd_prod hlast
  exact ⟨Nat.pos_of_dvd_of_pos hdvd hpos, Nat.le_of_dvd hpos hdvd⟩

theorem placed_range {tensor : Tensor} {count : Nat} (hpos : 0 < count)
    (hle : count ≤ tensor.numel) : Placed tensor (List.range count) where
  nodup := List.nodup_range
  lt index hmem := (List.mem_range.mp hmem).trans_le hle
  ne hnil := by
    rw [List.range_eq_nil] at hnil
    omega

/-- **The target indices are different elements of the tensor.** -/
theorem placed_targetIndices {tensor : Tensor} (hne : tensor.numel ≠ 0) (scope : FaultScope) :
    Placed tensor (targetIndices tensor scope) := by
  have hpos : 0 < tensor.numel := Nat.pos_of_ne_zero hne
  have hspread : ∀ count, 0 < count → Placed tensor
      (if count = tensor.numel then List.range tensor.numel
      else ((List.range tensor.numel).filter fun index =>
        index % max 1 (tensor.numel / count) = 0).take count) := by
    intro count hcount
    split
    · exact placed_range hpos le_rfl
    · refine ⟨(List.nodup_range.filter _).sublist (List.take_sublist _ _), ?_, ?_⟩
      · intro index hmem
        exact List.mem_range.mp (List.mem_filter.mp (List.mem_of_mem_take hmem)).1
      · have hzero : 0 ∈ (List.range tensor.numel).filter fun index =>
            index % max 1 (tensor.numel / count) = 0 :=
          List.mem_filter.mpr ⟨List.mem_range.mpr hpos, decide_eq_true (Nat.zero_mod _)⟩
        rw [Ne, List.take_eq_nil_iff, not_or]
        exact ⟨hcount.ne', List.ne_nil_of_mem hzero⟩
  cases scope with
  | single =>
      refine ⟨List.nodup_singleton _, fun index hmem => ?_, List.cons_ne_nil _ _⟩
      rw [List.mem_singleton.mp hmem]
      exact Nat.div_lt_self hpos Nat.one_lt_two
  | row =>
      rw [targetIndices]
      split
      · rename_i hdims
        have hlast := getLastD_le_prod hpos (by rintro h; rw [h] at hdims; cases hdims)
        exact placed_range hlast.1 hlast.2
      · exact placed_range (by omega) (min_le_right _ _)
  | percent1 => exact hspread _ (by omega)
  | percent10 => exact hspread _ (by omega)
  | full => exact hspread _ hpos

/-! ## Preparation -/

section Prepare

variable {randn : Int → Nat → PyFloat} {request : FaultExecutionRequest}
  {history : Option History} {tensor : Tensor}

theorem length_flipBits {dtype : Dtype} {magnitude : Manifest.FaultMagnitude} {count : Nat}
    {selected values : List PyFloat} (h : flipBits dtype magnitude count selected = .ok values) :
    values.length = selected.length := by
  unfold flipBits at h
  split at h
  · cases h
  · rw [← Except.ok.inj h, List.length_map]

theorem length_applyCorruption {dtype : Dtype} {selected values : List PyFloat}
    (h : applyCorruption randn dtype request selected = .ok values) :
    values.length = selected.length := by
  simp only [applyCorruption, bind_ok_iff] at h
  obtain ⟨operation, -, magnitude, -, h⟩ := h
  cases operation with
  | singleBitflip => exact length_flipBits h
  | multiBitflip => exact length_flipBits h
  | setValue =>
      obtain ⟨value, -, h⟩ := bind_ok_iff.mp h
      obtain ⟨-, h⟩ := raiseIf_bind_ok_iff.mp h
      rw [← Except.ok.inj h, List.length_map]
  | scale =>
      obtain ⟨factor, -, h⟩ := bind_ok_iff.mp h
      rw [← Except.ok.inj h, List.length_map]
  | noise =>
      obtain ⟨standardDeviation, -, h⟩ := bind_ok_iff.mp h
      rw [← Except.ok.inj h, List.length_mapIdx]
  | signFlip => rw [← Except.ok.inj h, List.length_map]

/-- The values observed before are one for each index. -/
theorem length_staleValues {indices : List Nat} {values : List PyFloat}
    (hplaced : Placed tensor indices) (h : staleValues tensor indices history = .ok values) :
    values.length = indices.length := by
  unfold staleValues at h
  split at h
  · cases h
  · split at h
    · cases h
    · split at h
      · cases h
      · rename_i previous _
        rw [check_ok_iff] at h
        obtain ⟨-, h⟩ := h
        dsimp only at h
        split at h
        · rename_i hshape
          have hplaces : previous.places indices = tensor.places indices := by
            rw [Tensor.places, Tensor.places, hshape]
          rw [← Except.ok.inj h, readLinear, List.length_map]
          exact (congrArg List.length hplaces).trans hplaced.length_places
        · split at h
          · rename_i hshape
            have hplaces : (previous.places (List.range (tensor.places indices).length)).length =
                (tensor.places indices).length := by
              rw [Tensor.places, hshape, if_neg (List.cons_ne_nil _ _), List.length_map,
                List.length_range]
            rw [← Except.ok.inj h, readLinear, List.length_map]
            exact hplaces.trans hplaced.length_places
          · cases h

/-- What is prepared: the target indices, their values, and as many other values. -/
theorem prepareStateValues_spec {indices : List Nat} {original transformed : List PyFloat}
    (h : prepareStateValues randn tensor request history =
      .ok (indices, original, transformed)) :
    ∃ scope, faultScope request.fault = .ok scope ∧ indices = targetIndices tensor scope ∧
      original = readLinear tensor indices ∧ Placed tensor indices ∧
      transformed.length = indices.length := by
  simp only [prepareStateValues, raiseIf_ok_iff, bind_ok_iff] at h
  obtain ⟨-, hne, -, -, scope, hscope, transformed', htransformed, -, -, h⟩ := h
  obtain ⟨rfl, rfl, rfl⟩ : targetIndices tensor scope = indices ∧
      readLinear tensor (targetIndices tensor scope) = original ∧ transformed' = transformed := by
    simpa using Except.ok.inj h
  have hplaced := placed_targetIndices hne scope
  refine ⟨scope, hscope, rfl, rfl, hplaced, ?_⟩
  unfold transformedValues at htransformed
  split at htransformed
  · exact (length_applyCorruption htransformed).trans hplaced.length_read
  · split at htransformed
    · exact length_staleValues hplaced htransformed
    · cases htransformed

end Prepare

/-! ## Retirement of one element -/

/-- The sum of the updates of an element. -/
def total (events : List Event) (c : List Nat) : ℚ :=
  (events.map fun event => match event with
    | .update amount => amount c
    | .optimizerStep => 0).sum

theorem updated_finite (events : List Event) (c : List Nat) (q : ℚ) :
    updated events c (.finite q) = .finite (q + total events c) := by
  induction events generalizing q with
  | nil => simp [updated, total]
  | cons event events ih =>
      rw [updated, List.foldl_cons, ← updated, total, List.map_cons, List.sum_cons, ← total]
      cases event with
      | update amount =>
          dsimp only
          rw [PyFloat.add_finite, ih, add_assoc]
      | optimizerStep =>
          dsimp only
          rw [ih, zero_add]

/-- **An element that is restored keeps its updates**, unless it is at its original value. -/
theorem restoreElement_updated {original transformed : PyFloat} (events : List Event)
    (c : List Nat) (hfinite : (transformed.sub original).isFinite = true) :
    restoreElement false false original transformed (updated events c transformed) =
      if updated events c transformed = original then original else updated events c original := by
  obtain ⟨t, o, rfl, rfl⟩ := PyFloat.finite_of_sub hfinite
  rw [updated_finite, updated_finite]
  generalize total events c = u
  have hdelta : PyFloat.isFinite (.finite (t - o)) = true := rfl
  simp only [restoreElement, PyFloat.sub_finite, hdelta, PyFloat.finite.injEq, add_eq_left,
    Bool.false_eq_true, if_false, not_true_eq_false, not_false_eq_true, and_true, true_and,
    false_and]
  by_cases halready : t + u = o
  · simp only [halready, not_true_eq_false, and_false, false_and, if_false, if_true]
  · by_cases hstill : u = 0
    · -- no update has changed it: the original is put back
      subst hstill
      simp only [add_zero] at halready ⊢
      simp [halready]
    · -- the difference is taken out of the updated value
      simp only [halready, hstill, not_false_eq_true, and_true, if_false, if_true]
      rw [PyFloat.sub_finite]
      congr 1
      ring

/-! ## Retirement of the tensor -/

section Retirement

variable {randn : Int → Nat → PyFloat} {request : FaultExecutionRequest}
  {history : Option History} {context context' : Context} {effect effect' : LocalFaultEffect}

theorem shape_run (context : Context) (events : List Event) :
    (context.run events).tensor.shape = context.tensor.shape := by
  induction events generalizing context with
  | nil => rfl
  | cons event events ih =>
      refine (ih (context.step event)).trans ?_
      cases event <;> rfl

theorem at_run (context : Context) (events : List Event) (index : Nat) :
    (context.run events).tensor.at index =
      updated events (linearCoordinates index context.tensor.shape) (context.tensor.at index) := by
  induction events generalizing context with
  | nil => rfl
  | cons event events ih =>
      refine (ih (context.step event)).trans ?_
      cases event <;> rfl

theorem Placed.of_shape {tensor tensor' : Tensor} {indices : List Nat} (h : Placed tensor indices)
    (hshape : tensor'.shape = tensor.shape) : Placed tensor' indices where
  nodup := h.nodup
  lt index hmem := by
    rw [Tensor.numel, hshape]
    exact h.lt index hmem
  ne := h.ne

theorem mutateStateTensor_spec {count : Nat}
    (h : mutateStateTensor randn history request context effect =
      .ok (count, context', effect')) :
    ∃ scope r, faultScope request.fault = .ok scope ∧
      r.changedIndices = targetIndices context.tensor scope ∧
      r.original = readLinear context.tensor r.changedIndices ∧
      Placed context.tensor r.changedIndices ∧
      r.transformed.length = r.changedIndices.length ∧
      r.activationOptimizerStep = context.successfulOptimizerSteps ∧
      context' = { context with
        tensor := writeLinear context.tensor r.changedIndices r.transformed } ∧
      effect' = { effect with cleanupCallbacks := effect.cleanupCallbacks ++ [r] } := by
  simp only [mutateStateTensor, bind_ok_iff] at h
  obtain ⟨⟨indices, original, transformed⟩, hprepared, -, -, resynchronizes, -, h⟩ := h
  obtain ⟨scope, hscope, hindices, horiginal, hplaced, hlength⟩ :=
    prepareStateValues_spec hprepared
  obtain ⟨-, rfl, rfl⟩ : _ ∧ _ = context' ∧ _ = effect' := by
    simpa only [Prod.mk.injEq] using Except.ok.inj h
  exact ⟨scope, ⟨indices, original, transformed, resynchronizes, _⟩, hscope, hindices, horiginal,
    hplaced, hlength, rfl, rfl, rfl⟩

/-- The optimizer has written the parameter anew since the activation. -/
def LocalFaultEffect.Resynchronized (effect : LocalFaultEffect) (context : Context) : Prop :=
  ∃ r ∈ effect.cleanupCallbacks, r.optimizerResynchronizes = true ∧
    r.activationOptimizerStep < context.successfulOptimizerSteps

theorem at_restore {r : Restoration} {index : Nat}
    (hplaced : Placed context.tensor r.changedIndices)
    (horiginal : r.original.length = r.changedIndices.length)
    (htransformed : r.transformed.length = r.changedIndices.length)
    (hsynchronized : ¬ (r.optimizerResynchronizes = true ∧
      r.activationOptimizerStep < context.successfulOptimizerSteps))
    {k : Nat} (hk : k < r.changedIndices.length) (hindex : r.changedIndices[k] = index) :
    (r.restore false false context).tensor.at index =
      restoreElement false false (r.original.get ⟨k, horiginal ▸ hk⟩)
        (r.transformed.get ⟨k, htransformed ▸ hk⟩) (context.tensor.at index) := by
  have hresynchronized : (r.optimizerResynchronizes &&
      decide (r.activationOptimizerStep < context.successfulOptimizerSteps)) = false := by
    rw [Bool.eq_false_iff, Ne, Bool.and_eq_true, decide_eq_true_eq]
    exact hsynchronized
  have hread := hplaced.length_read
  rw [Restoration.restore, if_neg Bool.false_ne_true]
  dsimp only
  subst hindex
  rw [hresynchronized, hplaced.at_write (by simp [hread, horiginal, htransformed]) hk]
  simp only [List.get_eq_getElem, List.getElem_map, List.getElem_zip, hplaced.getElem_read hk]

/-- **Retiring a state fault keeps the training updates.**  Whatever was added to the tensor
between activation and completion: every element is its original value with its own updates,
except that a target element that is at its original value stays there. -/
theorem complete_keeps_updates {count : Nat}
    (h : mutateStateTensor randn history request context effect = .ok (count, context', effect'))
    (hnew : effect.cleanupCallbacks = []) (hactive : effect.done = false)
    (hreplaced : effect.stateReplaced = false) (events : List Event)
    (hsynchronized : ¬ effect'.Resynchronized (context'.run events)) :
    ∃ scope, faultScope request.fault = .ok scope ∧
      ((∀ index ∈ targetIndices context.tensor scope,
          ((context'.tensor.at index).sub (context.tensor.at index)).isFinite = true) →
        ∀ index < context.tensor.numel,
          (complete false effect' (context'.run events)).1.tensor.at index =
            if index ∈ targetIndices context.tensor scope ∧
                (context'.run events).tensor.at index = context.tensor.at index then
              context.tensor.at index
            else updated events (linearCoordinates index context.tensor.shape)
              (context.tensor.at index)) := by
  obtain ⟨scope, r, hscope, hindices, horiginal, hplaced, htransformed, -, rfl, rfl⟩ :=
    mutateStateTensor_spec h
  refine ⟨scope, hscope, fun hfinite index hindex => ?_⟩
  rw [← hindices] at hfinite ⊢
  set written := { context with
    tensor := writeLinear context.tensor r.changedIndices r.transformed } with hwritten
  have hshape : (written.run events).tensor.shape = context.tensor.shape :=
    (shape_run written events).trans rfl
  have hplaced' : Placed (written.run events).tensor r.changedIndices := hplaced.of_shape hshape
  have hcomplete : (complete false
      { effect with cleanupCallbacks := effect.cleanupCallbacks ++ [r] }
        (written.run events)).1 = r.restore false false (written.run events) := by
    rw [complete, if_neg (by rw [hactive]; exact Bool.false_ne_true), hnew, List.nil_append]
    simp only [cleanup, List.reverse_singleton, List.foldl_cons, List.foldl_nil, hreplaced]
  rw [hcomplete]
  by_cases hmem : index ∈ r.changedIndices
  · obtain ⟨k, hk, rfl⟩ := List.mem_iff_getElem.mp hmem
    have hlength : r.original.length = r.changedIndices.length := by
      rw [horiginal, hplaced.length_read]
    have hinjected : written.tensor.at r.changedIndices[k] =
        r.transformed.get ⟨k, htransformed ▸ hk⟩ := hplaced.at_write htransformed hk
    have hkept : r.original.get ⟨k, hlength ▸ hk⟩ = context.tensor.at r.changedIndices[k] := by
      simp only [horiginal, List.get_eq_getElem]
      exact hplaced.getElem_read hk _
    rw [at_restore hplaced' hlength htransformed
      (fun hsync => hsynchronized ⟨r, by simp, hsync⟩) hk rfl, hkept, ← hinjected, at_run]
    have hdelta := hfinite _ hmem
    rw [restoreElement_updated events _ hdelta]
    simp only [hmem, true_and]
    rfl
  · have hother : (r.restore false false (written.run events)).tensor.at index =
        (written.run events).tensor.at index := by
      refine hplaced'.at_write_of_not_mem ?_ hmem
      rw [Tensor.numel, hshape]
      exact hindex
    rw [if_neg fun hboth => hmem hboth.1, hother, at_run,
      hplaced.at_write_of_not_mem hindex hmem]
    rfl

end Retirement

/-- The first row of a weight is scaled by two. -/
def scaledRow : Manifest.FaultSpec where
  faultId := "scaled-row"
  type := .tensorCorruption
  target := {
    surface := .weight
    modulePath := some "layer"
    metadata := .empty
    rank_nonneg := by simp
    component_named := named_none
    modulePath_named := by intro text h; cases h; decide
    resource_named := named_none
    located := by simp
    modelPart_nonneg := Manifest.first_part
    index_nonneg := Manifest.noIndex_nonneg
    index_component := Manifest.noIndex_component
    operation_named := named_none
    path_named := named_none }
  parameters :=
    { items := [(⟨"operation", "operation"⟩, .str "scale"),
        (⟨"magnitude", "magnitude"⟩, .str "subtle"), (⟨"scope", "scope"⟩, .str "row")]
      strict := ⟨show ["operation", "magnitude", "scope"].Nodup by decide, trivial, trivial,
        trivial, trivial⟩ }
  id_named := by decide
  effect_allowed := by simp
  parameters_valid := rfl

/-- A weight of two rows. -/
def weight : Tensor where
  dtype := ⟨"torch.float32", true, some 32, fun _ value => value, -1000, 1000, id⟩
  shape := [2, 3]
  element c := .finite (1 + c.sum)

/-- Training of that weight, whose optimizer keeps no copy. -/
def training : Context := ⟨weight, 5, fun _ _ => .ok false⟩

/-- What its activation writes, and keeps for its end. -/
theorem mutateStateTensor_weight (h : 0 < (2 : Int)) :
    mutateStateTensor (fun _ _ => .nan) none ⟨0, .iterations 2 h, scaledRow⟩ training {} =
      .ok (3,
        { training with
          tensor := writeLinear weight [0, 1, 2] ([2, 4, 6].map PyFloat.finite) },
        { cleanupCallbacks := [⟨[0, 1, 2], [1, 2, 3].map PyFloat.finite,
            [2, 4, 6].map PyFloat.finite, false, 5⟩] }) := by
  with_unfolding_all rfl

/-- The row is scaled for two iterations, in which every element is incremented. -/
theorem complete_keeps_updates_sample :
    ∃ context' effect', mutateStateTensor (fun _ _ => .nan) none
        ⟨0, .iterations 2 (by decide), scaledRow⟩ training {} = .ok (3, context', effect') ∧
      ∀ index < 6, (complete false effect'
          (context'.run [.update fun _ => 1, .optimizerStep])).1.tensor.at index =
        (weight.at index).add (.finite 1) := by
  refine ⟨_, _, mutateStateTensor_weight _, fun index hindex => ?_⟩
  obtain ⟨scope, hscope, hkeeps⟩ := complete_keeps_updates (mutateStateTensor_weight (by decide))
    rfl rfl rfl [.update fun _ => 1, .optimizerStep] (by
      rintro ⟨r, hr, hsynchronized, -⟩
      rw [List.mem_singleton.mp hr] at hsynchronized
      cases hsynchronized)
  obtain rfl : FaultScope.row = scope := Except.ok.inj hscope
  have hfinite : ∀ index ∈ [0, 1, 2],
      ((Tensor.at (writeLinear weight [0, 1, 2] ([2, 4, 6].map PyFloat.finite)) index).sub
        (weight.at index)).isFinite = true := by decide +kernel
  have hchanged : ∀ index ∈ [0, 1, 2],
      (Tensor.at ((Context.mk (writeLinear weight [0, 1, 2] ([2, 4, 6].map PyFloat.finite)) 5
        fun _ _ => .ok false).run [.update fun _ => 1, .optimizerStep]).tensor index) ≠
        weight.at index := by decide +kernel
  rw [hkeeps hfinite index hindex, if_neg fun hboth => hchanged index hboth.1 hboth.2]
  rfl

end LmResiliency.FaultInjection.StateFault
