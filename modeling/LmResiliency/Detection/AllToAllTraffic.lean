/-
# AllToAllTraffic — the generated matrices are balanced and bounded

Each matrix of the policy has the same sum in every row and column.  For the
permutation and for the remainder of the balanced rows this is one counting
argument: a shift around the ring reaches every place from exactly one.

The main result is `generate_representative`.  Which of the policies finds a
fault is not a question of the model.
-/
import LmResiliency.Detection.AllToAllReplay
import LmResiliency.Lib.Outcome
import Mathlib.Algebra.BigOperators.Ring.Finset
import Mathlib.Algebra.BigOperators.Group.Finset.Sigma
import Mathlib.Algebra.Group.Action.Defs

namespace LmResiliency.Detection

open LmResiliency.Outcome

/-! ## Matrices given by their entries -/

/-- `output_splits`: what a destination gets from each source. -/
def outputSplits (splits : List (List Nat)) (destination : Nat) : List Nat :=
  splits.map fun row => row.getD destination 0

/-- Every rank sends and receives the same number of rows. -/
structure Balanced (splits : List (List Nat)) (worldSize units : Nat) : Prop where
  height : splits.length = worldSize
  width : ∀ row ∈ splits, row.length = worldSize
  rows : ∀ row ∈ splits, row.sum = units
  columns : ∀ destination < worldSize, (outputSplits splits destination).sum = units

/-- The matrix with the given entries. -/
def matrixOf (worldSize : Nat) (entry : Nat → Nat → Nat) : List (List Nat) :=
  (List.range worldSize).map fun source => (List.range worldSize).map (entry source)

theorem sum_map_range (n : Nat) (f : Nat → Nat) :
    ((List.range n).map f).sum = ∑ i ∈ Finset.range n, f i := rfl

theorem getD_map_range {n : Nat} (f : Nat → Nat) {d : Nat} (hd : d < n) :
    ((List.range n).map f).getD d 0 = f d := by
  rw [List.getD_eq_getElem?_getD, List.getElem?_map, List.getElem?_range hd]
  rfl

theorem balanced_matrixOf {worldSize units : Nat} {entry : Nat → Nat → Nat}
    (hrow : ∀ s < worldSize, ∑ d ∈ Finset.range worldSize, entry s d = units)
    (hcolumn : ∀ d < worldSize, ∑ s ∈ Finset.range worldSize, entry s d = units) :
    Balanced (matrixOf worldSize entry) worldSize units where
  height := by rw [matrixOf, List.length_map, List.length_range]
  width := by
    intro row hmem
    obtain ⟨s, -, rfl⟩ := List.mem_map.mp hmem
    rw [List.length_map, List.length_range]
  rows := by
    intro row hmem
    obtain ⟨s, hs, rfl⟩ := List.mem_map.mp hmem
    rw [sum_map_range]
    exact hrow s (List.mem_range.mp hs)
  columns := by
    intro d hd
    rw [outputSplits, matrixOf, List.map_map]
    simp only [Function.comp_def, getD_map_range _ hd]
    rw [sum_map_range]
    exact hcolumn d hd

/-! ## Shifts around the ring -/

theorem add_mod_of_lt {n s k : Nat} (hs : s < n) (hk : k < n) :
    (s + k) % n = if s + k < n then s + k else s + k - n := by
  split
  · rename_i h
    exact Nat.mod_eq_of_lt h
  · rename_i h
    rw [Nat.mod_eq_sub_mod (not_lt.mp h), Nat.mod_eq_of_lt (by omega)]

/-- **A shift around the ring reaches every place from exactly one.** -/
theorem card_shift {n : Nat} (shift : Nat) {d : Nat} (hd : d < n) :
    ((Finset.range n).filter fun s => (s + shift) % n = d).card = 1 := by
  have hshift := Nat.mod_lt shift (show 0 < n by omega)
  rw [Finset.card_eq_one]
  refine ⟨if shift % n ≤ d then d - shift % n else d + n - shift % n, Finset.ext fun s => ?_⟩
  rw [Finset.mem_filter, Finset.mem_range, Finset.mem_singleton, ← Nat.add_mod_mod]
  constructor
  · rintro ⟨hs, heq⟩
    rw [add_mod_of_lt hs hshift] at heq
    split at heq <;> split <;> omega
  · intro heq
    have hs : s < n := by split at heq <;> omega
    refine ⟨hs, ?_⟩
    rw [add_mod_of_lt hs hshift]
    split at heq <;> split <;> omega

/-- The rows that are added to an entry of a balanced row. -/
def extra (units worldSize start destination : Nat) : Nat :=
  ((Finset.range (units % worldSize)).filter fun index =>
    (start + index) % worldSize = destination).card

/-- An entry of a balanced row. -/
def balancedEntry (units worldSize start destination : Nat) : Nat :=
  units / worldSize + extra units worldSize start destination

theorem getElem?_increments (worldSize start : Nat) (row : List Nat) (d : Nat) : ∀ n,
    ((List.range n).foldl (fun row index => row.modify ((start + index) % worldSize) (· + 1))
      row)[d]? = row[d]?.map
        (· + ((Finset.range n).filter fun index => (start + index) % worldSize = d).card)
  | 0 => by simp
  | n + 1 => by
      rw [List.range_succ, List.foldl_append, List.foldl_cons, List.foldl_nil,
        List.getElem?_modify, getElem?_increments worldSize start row d n, Finset.range_add_one,
        Finset.filter_insert]
      by_cases h : (start + n) % worldSize = d
      · simp only [h, if_true]
        rw [Finset.card_insert_of_notMem (by simp)]
        cases row[d]? <;> rfl
      · simp only [h, if_false]
        cases row[d]? <;> rfl

theorem balancedRow_eq (units worldSize start : Nat) :
    balancedRow units worldSize start =
      (List.range worldSize).map (balancedEntry units worldSize start) := by
  refine List.ext_getElem? fun d => ?_
  rw [balancedRow, getElem?_increments, List.getElem?_map]
  by_cases hd : d < worldSize
  · rw [List.getElem?_replicate, if_pos hd, List.getElem?_range hd]
    rfl
  · have hnone : (List.range worldSize)[d]? = none :=
      List.getElem?_eq_none (by rw [List.length_range]; omega)
    rw [List.getElem?_replicate, if_neg hd, hnone]
    rfl

theorem extra_le_one (units worldSize start destination : Nat) :
    extra units worldSize start destination ≤ 1 := by
  rcases Nat.eq_zero_or_pos worldSize with rfl | hpos
  · rw [extra]
    refine Finset.card_le_one.mpr fun a ha b hb => ?_
    have ha := (Finset.mem_filter.mp ha).2
    have hb := (Finset.mem_filter.mp hb).2
    rw [Nat.mod_zero] at ha hb
    omega
  · rcases Nat.lt_or_ge destination worldSize with hd | hd
    · rw [← card_shift start hd, extra]
      refine Finset.card_le_card fun index hindex => ?_
      have hrange := Finset.mem_range.mp (Finset.mem_filter.mp hindex).1
      have hlt := Nat.mod_lt units hpos
      rw [Finset.mem_filter, Finset.mem_range, Nat.add_comm index]
      exact ⟨by omega, (Finset.mem_filter.mp hindex).2⟩
    · have hnone : (Finset.range (units % worldSize)).filter
          (fun index => (start + index) % worldSize = destination) = ∅ := by
        refine Finset.filter_eq_empty_iff.mpr fun index _ heq => ?_
        have := Nat.mod_lt (start + index) hpos
        omega
      rw [extra, hnone]
      decide

/-! ## The balanced matrix -/

/-- Each row of the remainder reaches a destination from one source. -/
theorem sum_extra_sources (units : Nat) {worldSize : Nat} (sequence : Nat) {d : Nat}
    (hd : d < worldSize) :
    ∑ s ∈ Finset.range worldSize, extra units worldSize ((s + sequence) % worldSize) d =
      units % worldSize := by
  simp only [extra, Finset.card_filter]
  rw [Finset.sum_comm]
  have hone : ∀ index, (∑ s ∈ Finset.range worldSize,
      if ((s + sequence) % worldSize + index) % worldSize = d then 1 else 0) = 1 := by
    intro index
    rw [← Finset.card_filter, ← card_shift (sequence + index) hd]
    simp only [Nat.mod_add_mod, Nat.add_assoc]
  simp only [hone, Finset.sum_const, Finset.card_range, smul_eq_mul, Nat.mul_one]

section Sums

variable {worldSize : Nat} (units : Nat) (hpos : 0 < worldSize)
include hpos

/-- Each row of the remainder falls on one destination. -/
theorem sum_extra (start : Nat) :
    ∑ d ∈ Finset.range worldSize, extra units worldSize start d = units % worldSize := by
  simp only [extra, Finset.card_filter]
  rw [Finset.sum_comm]
  have hone : ∀ index, (∑ d ∈ Finset.range worldSize,
      if (start + index) % worldSize = d then 1 else 0) = 1 := by
    intro index
    rw [Finset.sum_ite_eq, if_pos (Finset.mem_range.mpr (Nat.mod_lt _ hpos))]
  simp only [hone, Finset.sum_const, Finset.card_range, smul_eq_mul, Nat.mul_one]

theorem balancedSplits_balanced (sequence : Nat) :
    Balanced (balancedSplits units worldSize sequence) worldSize units := by
  have hmatrix : balancedSplits units worldSize sequence =
      matrixOf worldSize fun source =>
        balancedEntry units worldSize ((source + sequence) % worldSize) := by
    simp only [balancedSplits, matrixOf, balancedRow_eq]
  have htotal : worldSize * (units / worldSize) + units % worldSize = units :=
    Nat.div_add_mod units worldSize
  rw [hmatrix]
  refine balanced_matrixOf (fun s _ => ?_) fun d hd => ?_
  · simp only [balancedEntry, Finset.sum_add_distrib, Finset.sum_const, Finset.card_range,
      smul_eq_mul, sum_extra units hpos]
    exact htotal
  · simp only [balancedEntry, Finset.sum_add_distrib, Finset.sum_const, Finset.card_range,
      smul_eq_mul, sum_extra_sources units sequence hd]
    exact htotal

/-! ## The permutation -/

theorem permutationSplits_balanced (offset : Nat) :
    Balanced (permutationSplits units worldSize offset) worldSize units := by
  refine balanced_matrixOf (fun s _ => ?_) fun d hd => ?_
  · rw [Finset.sum_ite_eq', if_pos (Finset.mem_range.mpr (Nat.mod_lt _ hpos))]
  · rw [← Finset.sum_filter, Finset.sum_const, smul_eq_mul]
    have hcard := card_shift offset hd
    simp only [eq_comm (b := d)] at hcard ⊢
    rw [hcard, Nat.one_mul]

end Sums

/-- Two entries of a balanced row differ by at most one. -/
theorem balancedSplits_even {units worldSize sequence : Nat} {row : List Nat}
    (hrow : row ∈ balancedSplits units worldSize sequence) :
    ∀ x ∈ row, ∀ y ∈ row, x ≤ y + 1 := by
  obtain ⟨s, -, rfl⟩ := List.mem_map.mp hrow
  rw [balancedRow_eq]
  intro x hx y hy
  obtain ⟨d, -, rfl⟩ := List.mem_map.mp hx
  obtain ⟨d', -, rfl⟩ := List.mem_map.mp hy
  have hle := extra_le_one units worldSize ((s + sequence) % worldSize) d
  simp only [balancedEntry]
  omega

/-- An offset that is no multiple of the group size sends nothing home. -/
theorem permutationSplits_diagonal {units worldSize offset rank : Nat} (hrank : rank < worldSize)
    (hoffset : 0 < offset) (hlt : offset < worldSize) :
    ((permutationSplits units worldSize offset).getD rank []).getD rank 0 = 0 := by
  have hrow : (permutationSplits units worldSize offset).getD rank [] =
      (List.range worldSize).map fun destination =>
        if destination = (rank + offset) % worldSize then units else 0 := by
    rw [permutationSplits, List.getD_eq_getElem?_getD, List.getElem?_map,
      List.getElem?_range hrank]
    rfl
  rw [hrow, getD_map_range _ hrank, if_neg]
  rw [add_mod_of_lt hrank hlt]
  split <;> omega

/-! ## The policy -/

theorem trafficMatrix_ok {name : String} {splits : List (List Nat)} {worldSize units : Nat}
    (hname : name ≠ "") (hworld : 0 < worldSize) (hunits : 0 < units)
    (h : Balanced splits worldSize units) : trafficMatrix name splits = .ok ⟨name, splits⟩ := by
  have hne : splits ≠ [] := by
    intro hnil
    have hheight := h.height
    rw [hnil, List.length_nil] at hheight
    omega
  have hsquare : ¬(splits.any fun row => row.length ≠ splits.length) = true := by
    simp only [List.any_eq_true, not_exists, decide_eq_true_eq, not_and, not_not]
    intro row hrow
    rw [h.height]
    exact h.width row hrow
  have htraffic : (splits.any fun row => row.any (· ≠ 0)) = true := by
    obtain ⟨row, hrow⟩ := List.exists_mem_of_ne_nil splits hne
    refine List.any_eq_true.mpr ⟨row, hrow, ?_⟩
    by_contra hzero
    have hsum := h.rows row hrow
    rw [List.sum_eq_zero fun x hx => ?_] at hsum
    · omega
    · by_contra hx0
      exact hzero (List.any_eq_true.mpr ⟨x, hx, by simpa using hx0⟩)
  rw [trafficMatrix, if_neg (not_or.mpr ⟨hname, hne⟩), if_neg hsquare, htraffic]
  rfl

/-- What a generated matrix is to be: balanced, bounded, its rows even or its
diagonal empty. -/
structure Representative (policy : BalancedAndPermutationPolicy) (capture : AllToAllCapture)
    (matrix : AllToAllTrafficMatrix) : Prop where
  balanced : Balanced matrix.splits capture.groupSize (policy.units capture)
  /-- the bytes that a rank sends -/
  bounded : ∀ row ∈ matrix.splits,
    row.sum * capture.bytesPerUnit ≤ max policy.maxPayloadBytesPerRank capture.bytesPerUnit
  even : matrix.name = "balanced" → ∀ row ∈ matrix.splits, ∀ x ∈ row, ∀ y ∈ row, x ≤ y + 1
  derangement : matrix.name ≠ "balanced" → 1 < capture.groupSize →
    ∀ rank < capture.groupSize, (matrix.splits.getD rank []).getD rank 0 = 0

/-- A rank sends at most the limit, or one row when not even that fits. -/
theorem units_bytes_le (policy : BalancedAndPermutationPolicy) (capture : AllToAllCapture) :
    policy.units capture * capture.bytesPerUnit ≤
      max policy.maxPayloadBytesPerRank capture.bytesPerUnit := by
  rw [BalancedAndPermutationPolicy.units, max_mul, Nat.one_mul]
  refine max_le (le_max_right _ _) (le_trans ?_ (le_max_left _ _))
  exact Nat.div_mul_le_self _ _

theorem permutation_name_ne (offset : Nat) :
    "cyclic_permutation_" ++ toString offset ≠ "" ∧
      "cyclic_permutation_" ++ toString offset ≠ "balanced" := by
  constructor
  · intro h
    have hlist := congrArg String.toList h
    rw [String.toList_append] at hlist
    cases hlist
  · intro h
    have hlist := congrArg String.toList h
    rw [String.toList_append] at hlist
    cases hlist

/-- **Generated workloads are balanced and bounded**, for every capture and limit. -/
theorem generate_representative (policy : BalancedAndPermutationPolicy)
    (capture : AllToAllCapture) :
    ∃ matrices, policy.generate capture = .ok matrices ∧
      (∃ matrix ∈ matrices, matrix.name = "balanced") ∧
      ∀ matrix ∈ matrices, Representative policy capture matrix := by
  have hworld : 0 < capture.groupSize := capture.nonempty
  have hunits : 0 < policy.units capture := Nat.lt_of_lt_of_le Nat.one_pos (le_max_left _ _)
  have hbounded : ∀ {splits}, Balanced splits capture.groupSize (policy.units capture) →
      ∀ row ∈ splits, row.sum * capture.bytesPerUnit ≤
        max policy.maxPayloadBytesPerRank capture.bytesPerUnit := by
    intro splits h row hrow
    rw [h.rows row hrow]
    exact units_bytes_le policy capture
  have hbalanced := balancedSplits_balanced (policy.units capture) hworld capture.sequence
  have hfirst : Representative policy capture
      ⟨"balanced", balancedSplits (policy.units capture) capture.groupSize capture.sequence⟩ :=
    { balanced := hbalanced
      bounded := hbounded hbalanced
      even := fun _ _ hrow => balancedSplits_even hrow
      derangement := fun hname => absurd rfl hname }
  have hok := trafficMatrix_ok (show "balanced" ≠ "" by decide) hworld hunits hbalanced
  rw [BalancedAndPermutationPolicy.generate]
  simp only [hok, bind, Except.bind]
  split
  · rename_i hdiffer
    have hpermutation := permutationSplits_balanced (policy.units capture) hworld
      (cyclicOffset capture.groupSize capture.sequence)
    obtain ⟨hname, hother⟩ :=
      permutation_name_ne (cyclicOffset capture.groupSize capture.sequence)
    rw [trafficMatrix_ok hname hworld hunits hpermutation]
    refine ⟨_, rfl, ⟨_, List.mem_cons_self, rfl⟩, fun matrix hmem => ?_⟩
    rcases List.mem_pair.mp hmem with rfl | rfl
    · exact hfirst
    refine { balanced := hpermutation, bounded := hbounded hpermutation,
             even := fun h => absurd h hother, derangement := fun _ hone rank hrank => ?_ }
    have hmod := Nat.mod_lt capture.sequence (show 0 < capture.groupSize - 1 by omega)
    have hoffset : cyclicOffset capture.groupSize capture.sequence =
        1 + capture.sequence % (capture.groupSize - 1) := if_neg (by omega)
    exact permutationSplits_diagonal hrank (by omega) (by omega)
  · refine ⟨_, rfl, ⟨_, List.mem_singleton.mpr rfl, rfl⟩, fun matrix hmem => ?_⟩
    rw [List.mem_singleton.mp hmem]
    exact hfirst

theorem sampleRanks_nonempty : 1 ≤ [0, 4, 5].length := by decide

theorem sampleSplits_square :
    [[1, 0, 2], [0, 3, 0], [4, 0, 0]].length = [0, 4, 5].length ∧
      ∀ row ∈ [[1, 0, 2], [0, 3, 0], [4, 0, 0]], row.length = [0, 4, 5].length := by decide

theorem sampleRow_wide : 0 < [8].prod * 2 := by decide

/-- A capture of three ranks, whose rows take sixteen bytes. -/
def sampleCapture : AllToAllCapture where
  sequence := 2
  groupRanks := [0, 4, 5]
  trailingShape := [8]
  elementSize := 2
  observedSplits := [[1, 0, 2], [0, 3, 0], [4, 0, 0]]
  nonempty := sampleRanks_nonempty
  square := sampleSplits_square
  wide := sampleRow_wide

theorem sampleLimit_pos : 0 < 85 := by decide

/-- The limit leaves room for five rows. -/
def samplePolicy : BalancedAndPermutationPolicy := ⟨85, sampleLimit_pos⟩

theorem generate_representative_sample :
    samplePolicy.generate sampleCapture =
      .ok [⟨"balanced", [[2, 1, 2], [2, 2, 1], [1, 2, 2]]⟩,
        ⟨"cyclic_permutation_1", [[0, 5, 0], [0, 0, 5], [5, 0, 0]]⟩] ∧
    ∃ matrices, samplePolicy.generate sampleCapture = .ok matrices ∧
      (∃ matrix ∈ matrices, matrix.name = "balanced") ∧
      ∀ matrix ∈ matrices, Representative samplePolicy sampleCapture matrix :=
  ⟨rfl, generate_representative samplePolicy sampleCapture⟩

end LmResiliency.Detection
