/-
# Consensus — the verdict on what the peers of a group report

`C3.classify_evidence` looks at one value a peer.  In exact mode the peers
that differ from a strict majority are to blame; in statistical mode those
whose distance from the median exceeds a multiple of a robust scale.

The numbers are rationals: an integer or a finite float is one, and nothing
is rounded.

The main results are `classifyEvidence_exact_spec` and
`classifyEvidence_statistical_minority`; the second says that a flagged set is
a minority, not that every outlier is flagged.
-/
import Mathlib.Algebra.Order.Floor.Defs
import Mathlib.Data.List.MinMax
import Mathlib.Data.List.Sort
import Mathlib.Data.Rat.Floor
import Mathlib.Tactic.Linarith
import Mathlib.Tactic.NormNum
import Mathlib.Tactic.FieldSimp
import LmResiliency.Detection.Replay

namespace LmResiliency.Detection

/-- `C3Mode`. -/
inductive C3Mode where
  | exact
  | statistical
deriving DecidableEq

/-- A `C3Result` with the evidence it was derived from. -/
structure Classified extends C3Result where
  evidence : List ℚ

/-- `Counter(values).most_common(1)[0]`: the first value with the greatest count,
and that count. -/
def mostCommon (values : List ℚ) : Option (ℚ × Nat) :=
  (values.eraseDups.argmax values.count).map fun v => (v, values.count v)

/-- The exact verdict. -/
def classifyExact (values : List ℚ) : Classified :=
  let agree : Classified := ⟨⟨.agree, List.replicate values.length 0⟩, values⟩
  if values.eraseDups.length ≤ 1 then agree
  else
    match mostCommon values with
    | none => agree
    | some (majorityValue, majorityCount) =>
        if majorityCount ≤ values.length / 2 then
          ⟨⟨.inconclusive, List.replicate values.length 0⟩, values⟩
        else
          ⟨⟨.attributed, values.map fun v => if v ≠ majorityValue then 1 else 0⟩, values⟩

/-- `sorted(values)`. -/
def sorted (values : List ℚ) : List ℚ := values.insertionSort (· ≤ ·)

def linearPercentile (sortedVals : List ℚ) (quantile : ℚ) : ℚ :=
  let position : ℚ := ((sortedVals.length : ℚ) - 1) * quantile
  let lower := ⌊position⌋.toNat
  let upper := ⌈position⌉.toNat
  if lower = upper then sortedVals.getD lower 0
  else
    let weight := position - lower
    sortedVals.getD lower 0 * (1 - weight) + sortedVals.getD upper 0 * weight

/-- `_robust_scale`: the median absolute deviation, else the interquartile range,
else a share of the range; none when all values are effectively identical. -/
def robustScale (sortedVals : List ℚ) (median thresholdSigma : ℚ) : Option ℚ :=
  let absDevs := sorted (sortedVals.map fun v => |v - median|)
  let mad := absDevs.getD (sortedVals.length / 2) 0
  if 1 / 10 ^ 12 ≤ mad then some mad
  else
    let iqr := linearPercentile sortedVals (3 / 4) - linearPercentile sortedVals (1 / 4)
    if 1 / 10 ^ 12 ≤ iqr then some iqr
    else
      let valueRange := sortedVals.getD (sortedVals.length - 1) 0 - sortedVals.getD 0 0
      if valueRange < 1 / 10 ^ 9 then none
      else some (valueRange / (2 * thresholdSigma))

/-- The statistical verdict. -/
def classifyStatistical (values : List ℚ) (thresholdSigma : ℚ) : Classified :=
  let agree : Classified := ⟨⟨.agree, List.replicate values.length 0⟩, values⟩
  if values.length ≤ 1 then agree
  else
    let sortedVals := sorted values
    let median := sortedVals.getD (values.length / 2) 0
    match robustScale sortedVals median thresholdSigma with
    | none => agree
    | some scale =>
        let bitmap : List Int :=
          values.map fun v => if thresholdSigma * scale < |v - median| then 1 else 0
        ⟨⟨if bitmap.any (· ≠ 0) then .attributed else .agree, bitmap⟩, values⟩

def classifyEvidence (values : List ℚ) (mode : C3Mode) (thresholdSigma : ℚ) :
    Except String Classified :=
  if values.length = 0 then .error "C3 evidence must contain at least one peer value"
  else if mode = .statistical ∧ thresholdSigma ≤ 0 then
    .error "statistical C3 threshold_sigma must be positive"
  else
    match mode with
    | .exact => .ok (classifyExact values)
    | .statistical => .ok (classifyStatistical values thresholdSigma)

/-! ## Exact mode -/

/-- All peers report the same value. -/
def Unanimous (values : List ℚ) : Prop := ∀ v ∈ values, ∀ w ∈ values, v = w

/-- More than half of the peers report `m`. -/
def Majority (values : List ℚ) (m : ℚ) : Prop := values.length < 2 * values.count m

theorem length_eraseDups_le_one_iff {values : List ℚ} :
    values.eraseDups.length ≤ 1 ↔ Unanimous values := by
  constructor
  · intro h v hv w hw
    rw [← List.mem_eraseDups] at hv hw
    match hd : values.eraseDups, h with
    | [], _ => rw [hd] at hv; exact absurd hv List.not_mem_nil
    | [x], _ =>
        rw [hd, List.mem_singleton] at hv hw
        exact hv.trans hw.symm
  · intro h
    cases values with
    | nil => simp
    | cons a rest =>
        have hrest : (rest.filter fun b => !b == a) = [] := by
          rw [List.filter_eq_nil_iff]
          intro b hb
          simp [h b (List.mem_cons_of_mem _ hb) a List.mem_cons_self]
        rw [List.eraseDups_cons, hrest]
        simp

theorem unanimous_perm {values values' : List ℚ} (hp : values.Perm values') :
    Unanimous values ↔ Unanimous values' := by
  simp only [Unanimous, hp.mem_iff]

theorem majority_perm {values values' : List ℚ} (hp : values.Perm values') (m : ℚ) :
    Majority values m ↔ Majority values' m := by
  rw [Majority, Majority, hp.length_eq, hp.count_eq]

/-- The peers that report something else are the rest. -/
theorem count_add_countP_ne (values : List ℚ) (m : ℚ) :
    values.count m + values.countP (· ≠ m) = values.length := by
  rw [List.count, List.length_eq_countP_add_countP (· == m)]
  congr 1
  exact List.countP_congr fun v _ => by simp

/-- Two values cannot both be held by more than half of the peers. -/
theorem majority_unique {values : List ℚ} {m m' : ℚ} (h : Majority values m)
    (h' : Majority values m') : m = m' := by
  by_contra hne
  have hsum := count_add_countP_ne values m
  have hle : values.count m' ≤ values.countP (· ≠ m) := by
    rw [List.count]
    refine List.countP_mono_left fun v _ hv => ?_
    rw [beq_iff_eq] at hv
    simpa [hv] using Ne.symm hne
  rw [Majority] at h h'
  omega

/-- The most common value is in the list, and no value is more frequent. -/
theorem mostCommon_spec {values : List ℚ} (h : values ≠ []) :
    ∃ m, mostCommon values = some (m, values.count m) ∧ ∀ v ∈ values,
      values.count v ≤ values.count m := by
  have hne : values.eraseDups ≠ [] := by
    obtain ⟨v, rest, rfl⟩ := List.exists_cons_of_ne_nil h
    rw [List.eraseDups_cons]
    exact List.cons_ne_nil _ _
  cases hm : values.eraseDups.argmax values.count with
  | none => exact absurd (List.argmax_eq_none.mp hm) hne
  | some m =>
      refine ⟨m, by rw [mostCommon, hm]; rfl, fun v hv => ?_⟩
      exact List.le_of_mem_argmax (List.mem_eraseDups.mpr hv) hm

theorem mostCommon_of_majority {values : List ℚ} {m : ℚ} (h : Majority values m) :
    mostCommon values = some (m, values.count m) := by
  have hmem : m ∈ values := by
    rw [← List.count_pos_iff]
    rw [Majority] at h
    omega
  obtain ⟨c, hc, hmax⟩ := mostCommon_spec (List.ne_nil_of_mem hmem)
  have hcm : c = m := majority_unique (lt_of_lt_of_le h (Nat.mul_le_mul_left 2 (hmax m hmem))) h
  rw [hc, hcm]

theorem classifyExact_agree {values : List ℚ} (h : Unanimous values) :
    classifyExact values = ⟨⟨.agree, List.replicate values.length 0⟩, values⟩ :=
  if_pos (length_eraseDups_le_one_iff.mpr h)

theorem classifyExact_attributed {values : List ℚ} (h : ¬Unanimous values) {m : ℚ}
    (hm : Majority values m) : classifyExact values =
      ⟨⟨.attributed, values.map fun v => if v ≠ m then 1 else 0⟩, values⟩ := by
  rw [Majority] at hm
  simp only [classifyExact, length_eraseDups_le_one_iff, h, if_false, mostCommon_of_majority hm]
  rw [if_neg (by omega)]

theorem classifyExact_inconclusive {values : List ℚ} (h : ¬Unanimous values)
    (hm : ∀ m, ¬Majority values m) :
    classifyExact values = ⟨⟨.inconclusive, List.replicate values.length 0⟩, values⟩ := by
  have hne : values ≠ [] := by
    rintro rfl
    exact h fun v hv => absurd hv List.not_mem_nil
  obtain ⟨c, hc, -⟩ := mostCommon_spec hne
  have hcount := hm c
  rw [Majority] at hcount
  simp only [classifyExact, length_eraseDups_le_one_iff, h, if_false, hc]
  rw [if_pos (by omega)]

theorem classifyEvidence_exact {values : List ℚ} (h : values ≠ []) (thresholdSigma : ℚ) :
    classifyEvidence values .exact thresholdSigma = .ok (classifyExact values) := by
  rw [classifyEvidence, if_neg fun hlen => h (List.length_eq_zero_iff.mp hlen),
    if_neg fun hmode => absurd hmode.1 (by decide)]

/-! ### Reordering the peers -/

/-- The values of the peers in another order. -/
def reorder (order : List Nat) (values : List ℚ) : List ℚ := order.map fun i => values.getD i 0

section Reorder

variable {values : List ℚ} {order : List Nat} (hp : order.Perm (List.range values.length))
include hp

theorem reorder_perm : (reorder order values).Perm values := by
  have hself : (List.range values.length).map (fun i => values.getD i 0) = values := by
    refine List.ext_getElem (by simp) fun i h₁ h₂ => ?_
    simp [h₂]
  exact (hp.map fun i => values.getD i 0).trans (.of_eq hself)

theorem lt_of_mem_order {i : Nat} (h : i ∈ order) : i < values.length :=
  List.mem_range.mp (hp.mem_iff.mp h)

theorem reorder_replicate : List.replicate (reorder order values).length (0 : Int) =
    order.map fun i => (List.replicate values.length (0 : Int)).getD i 0 := by
  have hzero : ∀ i ∈ order, (List.replicate values.length (0 : Int)).getD i 0 = 0 := by
    intro i hi
    simp [lt_of_mem_order hp hi]
  rw [List.map_congr_left hzero, List.map_const', reorder, List.length_map]

theorem reorder_marks (m : ℚ) : ((reorder order values).map fun v => if v ≠ m then (1 : Int) else 0) =
    order.map fun i => (values.map fun v => if v ≠ m then (1 : Int) else 0).getD i 0 := by
  rw [reorder, List.map_map]
  refine List.map_congr_left fun i hi => ?_
  simp [lt_of_mem_order hp hi]

theorem classifyExact_reorder :
    (classifyExact (reorder order values)).status = (classifyExact values).status ∧
      (classifyExact (reorder order values)).bitmap =
        order.map fun i => (classifyExact values).bitmap.getD i 0 := by
  have hperm := reorder_perm hp
  by_cases hu : Unanimous values
  · rw [classifyExact_agree hu, classifyExact_agree ((unanimous_perm hperm).mpr hu)]
    exact ⟨rfl, reorder_replicate hp⟩
  · have hu' : ¬Unanimous (reorder order values) := fun h => hu ((unanimous_perm hperm).mp h)
    by_cases hm : ∃ m, Majority values m
    · obtain ⟨m, hm⟩ := hm
      rw [classifyExact_attributed hu hm,
        classifyExact_attributed hu' ((majority_perm hperm m).mpr hm)]
      exact ⟨rfl, reorder_marks hp m⟩
    · have hnone : ∀ m, ¬Majority values m := not_exists.mp hm
      rw [classifyExact_inconclusive hu hnone,
        classifyExact_inconclusive hu' fun m h => hnone m ((majority_perm hperm m).mp h)]
      exact ⟨rfl, reorder_replicate hp⟩

end Reorder

/-- **Exactly the strict minority is blamed.**  The peers agree when all report
one value; they are attributed when they do not and one value is held by more
than half, with exactly the others marked, fewer than half; and the verdict is
open otherwise.  Reordering the peers reorders the bitmap only. -/
theorem classifyEvidence_exact_spec (values : List ℚ) (thresholdSigma : ℚ)
    (hlen : 2 ≤ values.length) :
    ∃ r, classifyEvidence values .exact thresholdSigma = .ok r ∧ r.evidence = values ∧
      (r.status = .agree ↔ Unanimous values) ∧
      (r.status = .attributed ↔ ¬Unanimous values ∧ ∃ m, Majority values m) ∧
      (r.status = .inconclusive ↔ ¬Unanimous values ∧ ¬∃ m, Majority values m) ∧
      (r.status ≠ .attributed → r.bitmap = List.replicate values.length 0) ∧
      (r.status = .attributed → ∀ m, Majority values m →
        r.bitmap = (values.map fun v => if v ≠ m then 1 else 0) ∧
          2 * r.bitmap.countP (· ≠ 0) < values.length) ∧
      ∀ order : List Nat, order.Perm (List.range values.length) →
        ∃ r', classifyEvidence (reorder order values) .exact thresholdSigma = .ok r' ∧
          r'.status = r.status ∧ r'.bitmap = order.map fun i => r.bitmap.getD i 0 := by
  have hne : values ≠ [] := by
    rintro rfl
    exact absurd hlen (by decide)
  have hreorder : ∀ order : List Nat, order.Perm (List.range values.length) →
      ∃ r', classifyEvidence (reorder order values) .exact thresholdSigma = .ok r' ∧
        r'.status = (classifyExact values).status ∧
        r'.bitmap = order.map fun i => (classifyExact values).bitmap.getD i 0 := by
    intro order hp
    have hne' : reorder order values ≠ [] := fun h => hne (by
      have hperm := reorder_perm hp
      rw [h] at hperm
      exact hperm.nil_eq.symm)
    exact ⟨_, classifyEvidence_exact hne' thresholdSigma, classifyExact_reorder hp⟩
  refine ⟨classifyExact values, classifyEvidence_exact hne thresholdSigma, ?_⟩
  by_cases hu : Unanimous values
  · rw [classifyExact_agree hu] at hreorder ⊢
    simp only [hu, reduceCtorEq, not_true_eq_false, false_and, true_and, ne_eq, not_false_eq_true,
      forall_const, false_imp_iff]
    exact hreorder
  · by_cases hm : ∃ m, Majority values m
    · obtain ⟨m, hm⟩ := hm
      have hmarked : (values.map fun v => if v ≠ m then (1 : Int) else 0).countP (· ≠ 0) =
          values.countP (· ≠ m) := by
        rw [List.countP_map]
        refine List.countP_congr fun v _ => ?_
        by_cases hv : v = m <;> simp [hv]
      have hsum := count_add_countP_ne values m
      have hmaj := hm
      rw [Majority] at hmaj
      rw [classifyExact_attributed hu hm] at hreorder ⊢
      refine ⟨rfl, iff_of_false (by simp) hu, iff_of_true rfl ⟨hu, m, hm⟩,
        iff_of_false (by simp) fun h => h.2 ⟨m, hm⟩, fun h => absurd rfl h, fun _ m' hm' => ?_,
        hreorder⟩
      obtain rfl := majority_unique hm hm'
      refine ⟨rfl, ?_⟩
      simp only [hmarked]
      omega
    · rw [classifyExact_inconclusive hu (not_exists.mp hm)] at hreorder ⊢
      exact ⟨rfl, iff_of_false (by simp) hu, iff_of_false (by simp) fun h => hm h.2,
        iff_of_true rfl ⟨hu, hm⟩, fun _ => rfl, fun h => absurd h (by simp), hreorder⟩

theorem classifyEvidence_exact_spec_sample :
    ∃ r, classifyEvidence [1, 2, 1] .exact 3 = .ok r ∧ r.evidence = [1, 2, 1] ∧
      (r.status = .agree ↔ Unanimous [1, 2, 1]) ∧
      (r.status = .attributed ↔ ¬Unanimous [1, 2, 1] ∧ ∃ m, Majority [1, 2, 1] m) ∧
      (r.status = .inconclusive ↔ ¬Unanimous [1, 2, 1] ∧ ¬∃ m, Majority [1, 2, 1] m) ∧
      (r.status ≠ .attributed → r.bitmap = List.replicate 3 0) ∧
      (r.status = .attributed → ∀ m, Majority [1, 2, 1] m →
        r.bitmap = (([1, 2, 1] : List ℚ).map fun v => if v ≠ m then 1 else 0) ∧
          2 * r.bitmap.countP (· ≠ 0) < 3) ∧
      ∀ order : List Nat, order.Perm (List.range 3) →
        ∃ r', classifyEvidence (reorder order [1, 2, 1]) .exact 3 = .ok r' ∧
          r'.status = r.status ∧ r'.bitmap = order.map fun i => r.bitmap.getD i 0 :=
  classifyEvidence_exact_spec [1, 2, 1] 3 (by decide)

/-! ## Statistical mode -/

/-- Of a sorted list, at most the items behind a position exceed the item there. -/
theorem countP_lt_getElem {l : List ℚ} (h : l.Pairwise (· ≤ ·)) {k : Nat} (hk : k < l.length) :
    l.countP (fun x => l[k] < x) ≤ l.length - (k + 1) := by
  have hsplit : l.countP (fun x => l[k] < x) =
      (l.take (k + 1)).countP (fun x => l[k] < x) +
        (l.drop (k + 1)).countP (fun x => l[k] < x) := by
    rw [← List.countP_append, List.take_append_drop]
  have hfront : (l.take (k + 1)).countP (fun x => l[k] < x) = 0 := by
    rw [List.countP_eq_zero]
    intro x hx
    obtain ⟨i, hi, rfl⟩ := List.mem_take_iff_getElem.mp hx
    have hik : i < k + 1 := lt_of_lt_of_le hi (min_le_left _ _)
    have hle : l[i] ≤ l[k] := by
      rcases Nat.lt_or_ge i k with hlt | hge
      · exact List.pairwise_iff_getElem.mp h i k (hlt.trans hk) hk hlt
      · obtain rfl : i = k := by omega
        exact le_refl _
    simpa using hle
  have hback := List.countP_le_length (p := fun x => decide (l[k] < x)) (l := l.drop (k + 1))
  rw [List.length_drop] at hback
  omega

theorem pairwise_sorted (values : List ℚ) : (sorted values).Pairwise (· ≤ ·) :=
  List.pairwise_insertionSort _ values

theorem sorted_perm (values : List ℚ) : (sorted values).Perm values :=
  List.perm_insertionSort _ values

/-- The median absolute deviation, as `_robust_scale` computes it. -/
def medianDeviation (sortedVals : List ℚ) (median : ℚ) : ℚ :=
  (sorted (sortedVals.map fun v => |v - median|)).getD (sortedVals.length / 2) 0

/-- **Whichever estimate it is, a multiple of the scale reaches the median
deviation**: the two fallbacks are only used when that deviation is tiny. -/
theorem medianDeviation_le {sortedVals : List ℚ} {median thresholdSigma scale : ℚ}
    (hσ : 1 ≤ thresholdSigma) (h : robustScale sortedVals median thresholdSigma = some scale) :
    medianDeviation sortedVals median ≤ thresholdSigma * scale := by
  have hmul : ∀ x : ℚ, 0 ≤ x → x ≤ thresholdSigma * x := fun x hx =>
    le_mul_of_one_le_left hx hσ
  simp only [robustScale] at h
  rw [← medianDeviation] at h
  split at h
  · rename_i hmad
    obtain rfl := Option.some.inj h
    exact hmul _ (le_trans (by norm_num) hmad)
  · rename_i hmad
    rw [not_le] at hmad
    split at h
    · rename_i hiqr
      obtain rfl := Option.some.inj h
      have hle : medianDeviation sortedVals median ≤ _ := le_trans hmad.le hiqr
      exact hle.trans (hmul _ (le_trans (by norm_num) hiqr))
    · split at h
      · cases h
      · rename_i hrange
        rw [not_lt] at hrange
        obtain rfl := Option.some.inj h
        -- The multiple is half of the range, which is not small.
        generalize sortedVals.getD (sortedVals.length - 1) 0 - sortedVals.getD 0 0 = range
          at hrange ⊢
        have hpos : thresholdSigma ≠ 0 := by linarith
        have hhalf : thresholdSigma * (range / (2 * thresholdSigma)) = range / 2 := by
          field_simp
        rw [hhalf]
        have hsmall : (1 : ℚ) / 10 ^ 12 ≤ 1 / 10 ^ 9 / 2 := by norm_num
        linarith

/-- Fewer than half of the peers are farther from the median than the median
deviation. -/
theorem countP_deviation_lt {values : List ℚ} (h : values ≠ []) {threshold median : ℚ}
    (hmad : medianDeviation (sorted values) median ≤ threshold) :
    2 * values.countP (fun v => threshold < |v - median|) < values.length := by
  have hlen : (sorted values).length = values.length := (sorted_perm values).length_eq
  have hpos : 0 < values.length := List.length_pos_iff.mpr h
  have hperm : (sorted ((sorted values).map fun v => |v - median|)).Perm
      (values.map fun v => |v - median|) :=
    (sorted_perm _).trans ((sorted_perm values).map _)
  have hdevlen : (sorted ((sorted values).map fun v => |v - median|)).length = values.length := by
    rw [hperm.length_eq, List.length_map]
  have hk : values.length / 2 < (sorted ((sorted values).map fun v => |v - median|)).length := by
    omega
  have hcount := countP_lt_getElem (pairwise_sorted ((sorted values).map fun v => |v - median|)) hk
  have hmad' : (sorted ((sorted values).map fun v => |v - median|))[values.length / 2] ≤
      threshold := by
    rw [medianDeviation, hlen, List.getD_eq_getElem?_getD, List.getElem?_eq_getElem hk] at hmad
    exact hmad
  have hle : values.countP (fun v => threshold < |v - median|) ≤
      (sorted ((sorted values).map fun v => |v - median|)).countP
        (fun x => (sorted ((sorted values).map fun v => |v - median|))[values.length / 2] < x) := by
    rw [hperm.countP_eq, List.countP_map]
    refine List.countP_mono_left fun v _ hv => ?_
    simp only [decide_eq_true_eq, Function.comp_apply] at hv ⊢
    exact lt_of_le_of_lt hmad' hv
  rw [hdevlen] at hcount
  omega

/-- **A majority is never blamed**: with a threshold of at least one sigma,
fewer than half of the peers are flagged. -/
theorem classifyEvidence_statistical_minority (values : List ℚ) (thresholdSigma : ℚ)
    (hne : values ≠ []) (hσ : 1 ≤ thresholdSigma) :
    ∃ r, classifyEvidence values .statistical thresholdSigma = .ok r ∧
      2 * r.bitmap.countP (· ≠ 0) < values.length := by
  have hpos : 0 < values.length := List.length_pos_iff.mpr hne
  have hnone : ∀ n, (List.replicate n (0 : Int)).countP (· ≠ 0) = 0 := fun n => by
    rw [List.countP_replicate]
    simp
  refine ⟨classifyStatistical values thresholdSigma, ?_, ?_⟩
  · rw [classifyEvidence, if_neg (by omega), if_neg fun h => absurd h.2 (by linarith)]
  · simp only [classifyStatistical]
    split
    · rw [hnone]
      omega
    · split
      · rw [hnone]
        omega
      · rename_i scale hscale
        have hcount := countP_deviation_lt hne (medianDeviation_le hσ hscale)
        have hmarked : ∀ l : List ℚ, (l.map fun v => if thresholdSigma * scale <
            |v - (sorted values).getD (values.length / 2) 0| then (1 : Int) else 0).countP
              (· ≠ 0) = l.countP fun v => thresholdSigma * scale <
                |v - (sorted values).getD (values.length / 2) 0| := by
          intro l
          rw [List.countP_map]
          refine List.countP_congr fun v _ => ?_
          simp only [Function.comp_apply]
          split <;> simp_all
        rw [hmarked]
        exact hcount

theorem classifyEvidence_statistical_minority_sample :
    ∃ r, classifyEvidence [1, 2, 1] .statistical 3 = .ok r ∧
      2 * r.bitmap.countP (· ≠ 0) < 3 :=
  classifyEvidence_statistical_minority [1, 2, 1] 3 (by decide) (by norm_num)

end LmResiliency.Detection
