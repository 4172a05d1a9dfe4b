/-
# AllToAllRouting — which misroutings the payload tells apart

Two segments of the same length have the same payload exactly when their seeds
agree modulo 97.  Below a group of 97 ranks the segments of two sources for one
destination, and those of one source for two destinations, always differ;
from 97 ranks on some are the same.  A segment between two other ranks can
pass for the right one from ten ranks on.

The main result, `misrouting_detected_iff`, is the exact bound.
-/
import LmResiliency.Detection.AllToAllReplay
import LmResiliency.Detection.AllToAllTraffic
import Mathlib.Data.List.Flatten
import Mathlib.Data.Nat.Prime.Basic
import Mathlib.Tactic.NormNum.Prime
import Mathlib.Tactic.Ring

namespace LmResiliency.Detection

variable {dtype : PayloadDtype}

/-! ## One segment -/

/-- The seed of a segment: its place in the matrix, row by row. -/
def seed (source destination worldSize : Nat) : Nat := source * worldSize + destination + 1

theorem length_payloadSegment (count source destination worldSize : Nat)
    (trailingShape : List Nat) :
    (payloadSegment dtype count source destination worldSize trailingShape).values.length =
      count * trailingShape.prod := by
  rw [payloadSegment]
  split
  · rename_i h
    exact h.symm
  · split <;> simp

theorem payloadSegment_congr {count s d s' d' worldSize : Nat} {trailingShape : List Nat}
    (h : seed s d worldSize % 97 = seed s' d' worldSize % 97) :
    payloadSegment dtype count s d worldSize trailingShape =
      payloadSegment dtype count s' d' worldSize trailingShape := by
  have hvalue : ∀ index, (index + seed s d worldSize * 17) % 97 =
      (index + seed s' d' worldSize * 17) % 97 := fun index => by omega
  rw [payloadSegment, payloadSegment, ← seed, ← seed]
  simp only [hvalue]

/-- When two segments are the same, for a dtype that is exact on the payload. -/
theorem payloadSegment_eq_iff (hexact : dtype.Exact) {count s d s' d' worldSize : Nat}
    {trailingShape : List Nat} (hsize : 0 < count * trailingShape.prod) :
    payloadSegment dtype count s d worldSize trailingShape =
        payloadSegment dtype count s' d' worldSize trailingShape ↔
      seed s d worldSize % 97 = seed s' d' worldSize % 97 := by
  refine ⟨fun h => ?_, payloadSegment_congr⟩
  have hhead : ∀ s d, (payloadSegment dtype count s d worldSize trailingShape).values[0]? =
      some (dtype.ofNat (seed s d worldSize * 17 % 97)) := by
    intro s d
    rw [payloadSegment, if_neg (by omega), hexact.1]
    simp only [Bool.false_eq_true, if_false, List.getElem?_map, List.getElem?_range hsize, seed,
      Option.map_some, Nat.zero_add]
  have hfirst := (hhead s d).symm.trans ((congrArg (·.values[0]?) h).trans (hhead s' d'))
  have heq := hexact.2 _ (by omega) _ (by omega) (Option.some.inj hfirst)
  omega

/-! ## The whole tensor -/

theorem values_concatenateSegments (segments : List (PayloadTensor dtype)) (trailingShape : List Nat) :
    (concatenateSegments segments trailingShape).values =
      (segments.map PayloadTensor.values).flatten := rfl

/-- The shape of a segment does not depend on where it is from. -/
theorem shape_payloadSegment (count source destination worldSize : Nat)
    (trailingShape : List Nat) :
    (payloadSegment dtype count source destination worldSize trailingShape).shape =
      count :: trailingShape := by
  rw [payloadSegment]
  split <;> rfl

/-- Segments of the right lengths are told apart one by one. -/
theorem replayCorrect_iff {splits : List Nat} {route : Nat → Nat × Nat}
    {destination worldSize : Nat} {trailingShape : List Nat} :
    ReplayCorrect dtype splits route destination worldSize trailingShape ↔
      ∀ source, ∀ h : source < splits.length,
        payloadSegment dtype splits[source] (route source).1 (route source).2 worldSize
            trailingShape =
          payloadSegment dtype splits[source] source destination worldSize trailingShape := by
  have hexpected : materializeOutput dtype splits destination worldSize trailingShape =
      delivered dtype splits (fun source => (source, destination)) worldSize trailingShape := rfl
  rw [ReplayCorrect, hexpected]
  constructor
  · intro heq source h
    have hvalues := congrArg PayloadTensor.values heq
    rw [delivered, delivered, values_concatenateSegments, values_concatenateSegments] at hvalues
    have hlengths : ((slotSegments dtype worldSize trailingShape route splits).map
        PayloadTensor.values).map List.length = ((slotSegments dtype worldSize trailingShape
          (fun source => (source, destination)) splits).map PayloadTensor.values).map List.length := by
      simp only [slotSegments, List.map_map, Function.comp_def, length_payloadSegment]
    have hlists := List.eq_iff_flatten_eq.mpr ⟨hvalues, hlengths⟩
    have hat := congrArg (·[source]?) hlists
    simp only [slotSegments, List.getElem?_map, List.getElem?_zipIdx,
      List.getElem?_eq_getElem h, Option.map_some, Option.some.injEq, Nat.zero_add] at hat
    exact PayloadTensor.ext (by rw [shape_payloadSegment, shape_payloadSegment]) hat
  · intro h
    have hslots : slotSegments dtype worldSize trailingShape route splits =
        slotSegments dtype worldSize trailingShape (fun source => (source, destination))
          splits := by
      refine List.ext_getElem (by simp [slotSegments]) fun source h₁ h₂ => ?_
      simp only [slotSegments, List.length_map, List.length_zipIdx] at h₁
      simp only [slotSegments, List.getElem_map, List.getElem_zipIdx, Nat.zero_add]
      exact h source h₁
    rw [delivered, delivered, hslots]

/-! ## A faithful exchange -/

/-- The rows for a destination are the segment that was made for it. -/
theorem sentTo_flatten {V : Type} (width : Nat) {d : Nat} :
    ∀ {splits : List Nat} {segments : List (List V)},
      segments.map List.length = splits.map (· * width) → ∀ h : d < segments.length,
      sentTo splits width segments.flatten d = segments.get ⟨d, h⟩ := by
  induction d with
  | zero =>
      intro splits segments hlengths h
      cases segments with
      | nil => cases h
      | cons first rest =>
          cases splits with
          | nil => cases hlengths
          | cons n ns =>
              have hfirst := (List.cons.inj hlengths).1
              simp only [sentTo, List.take_zero, List.sum_nil, Nat.zero_mul, List.drop_zero,
                List.getD_cons_zero, List.flatten_cons, ← hfirst, List.take_left]
              rfl
  | succ d ih =>
      intro splits segments hlengths h
      cases segments with
      | nil => cases h
      | cons first rest =>
          cases splits with
          | nil => cases hlengths
          | cons n ns =>
              obtain ⟨hfirst, hrest⟩ := List.cons.inj hlengths
              have hdrop : ((n :: ns).take (d + 1)).sum * width =
                  first.length + (ns.take d).sum * width := by
                rw [List.take_succ_cons, List.sum_cons, Nat.add_mul, hfirst]
              have hlater := ih hrest (Nat.lt_of_succ_lt_succ h)
              rw [sentTo, hdrop, List.flatten_cons, List.drop_length_add_append,
                List.getD_cons_succ]
              exact hlater

theorem sentTo_materializeInput {splits : List Nat} {source d worldSize : Nat}
    {trailingShape : List Nat} (hd : d < splits.length) :
    sentTo splits trailingShape.prod
        (materializeInput dtype splits source worldSize trailingShape).values d =
      (payloadSegment dtype (splits.getD d 0) source d worldSize trailingShape).values := by
  rw [materializeInput, values_concatenateSegments, sentTo_flatten]
  · simp only [slotSegments, List.get_eq_getElem, List.getElem_map, List.getElem_zipIdx,
      Nat.zero_add, List.getD_eq_getElem?_getD, List.getElem?_eq_getElem hd, Option.getD_some]
  · simp only [slotSegments, List.map_map, Function.comp_def, length_payloadSegment]
    have hsplit : splits.zipIdx.map (fun slot => slot.1 * trailingShape.prod) =
        (splits.zipIdx.map Prod.fst).map (· * trailingShape.prod) := by
      rw [List.map_map]
      rfl
    rw [hsplit, List.zipIdx_map_fst]
  · simpa only [slotSegments, List.length_map, List.length_zipIdx] using hd

/-- **A faithful exchange passes the verification**, whatever the matrix. -/
theorem exchanged_correct {matrix : List (List Nat)} {destination : Nat}
    {trailingShape : List Nat} (hsquare : ∀ row ∈ matrix, row.length = matrix.length)
    (hd : destination < matrix.length) :
    exchanged dtype matrix trailingShape destination =
      (materializeOutput dtype (outputSplits matrix destination) destination matrix.length
        trailingShape).values := by
  rw [exchanged, materializeOutput, values_concatenateSegments, List.flatMap]
  refine congrArg List.flatten (List.ext_getElem (by simp [slotSegments, outputSplits])
    fun source h₁ h₂ => ?_)
  simp only [List.length_map, List.length_zipIdx] at h₁
  simp only [slotSegments, outputSplits, List.getElem_map, List.getElem_zipIdx, Nat.zero_add]
  exact sentTo_materializeInput (by rw [hsquare _ (List.getElem_mem h₁)]; exact hd)

/-! ## Misroutings -/

/-- Segments of equal non-zero length differ: those that a destination receives
from two sources, and those that a source sends to two destinations. -/
def SegmentsDiffer (dtype : PayloadDtype) (worldSize : Nat) : Prop :=
  ∀ count trailingShape, 0 < count * trailingShape.prod →
    (∀ d < worldSize, ∀ s < worldSize, ∀ s' < worldSize, s ≠ s' →
      payloadSegment dtype count s d worldSize trailingShape ≠
        payloadSegment dtype count s' d worldSize trailingShape) ∧
    ∀ s < worldSize, ∀ d < worldSize, ∀ d' < worldSize, d ≠ d' →
      payloadSegment dtype count s d worldSize trailingShape ≠
        payloadSegment dtype count s d' worldSize trailingShape

/-- A segment delivered in place of another fails the verification, when the
two are related as said. -/
def Detects (dtype : PayloadDtype) (worldSize : Nat) (related : Nat × Nat → Nat × Nat → Prop) :
    Prop :=
  ∀ splits trailingShape destination route, splits.length = worldSize → destination < worldSize →
    (∀ source < worldSize, (route source).1 < worldSize ∧ (route source).2 < worldSize) →
    (∃ source < worldSize, 0 < splits.getD source 0 * trailingShape.prod ∧
      route source ≠ (source, destination) ∧ related (route source) (source, destination)) →
    ¬ReplayCorrect dtype splits route destination worldSize trailingShape

/-- Two segments with the source or the destination in common. -/
def Sharing (p q : Nat × Nat) : Prop := p.1 = q.1 ∨ p.2 = q.2

theorem seed_injective {s d s' d' worldSize : Nat} (hd : d < worldSize) (hd' : d' < worldSize)
    (h : seed s d worldSize = seed s' d' worldSize) : s = s' ∧ d = d' := by
  have hpos : 0 < worldSize := by omega
  have hplace : s * worldSize + d = s' * worldSize + d' := Nat.succ.inj h
  have hdiv : ∀ {s d}, d < worldSize → (s * worldSize + d) / worldSize = s := fun hlt => by
    rw [Nat.mul_comm, Nat.mul_add_div hpos, Nat.div_eq_of_lt hlt, Nat.add_zero]
  have hs : s = s' := by rw [← hdiv (s := s) hd, hplace, hdiv hd']
  subst hs
  exact ⟨rfl, Nat.add_left_cancel hplace⟩

/-- Below 97 ranks, two sources of one destination have different seeds modulo 97. -/
theorem seed_source_ne {s s' d worldSize : Nat} (hworld : worldSize < 97) (hs : s < worldSize)
    (hs' : s' < worldSize) (hne : s ≠ s') :
    seed s d worldSize % 97 ≠ seed s' d worldSize % 97 := by
  intro heq
  have hprime : Nat.Prime 97 := by norm_num
  -- The seeds differ by a multiple of the group size, and 97 divides neither factor.
  wlog hle : s ≤ s' generalizing s s'
  · exact this hs' hs hne.symm heq.symm (by omega)
  have hsub : seed s' d worldSize - seed s d worldSize = (s' - s) * worldSize := by
    rw [seed, seed, Nat.sub_mul]
    omega
  have hdvd : 97 ∣ (s' - s) * worldSize :=
    hsub ▸ Nat.dvd_of_mod_eq_zero (Nat.sub_mod_eq_zero_of_mod_eq heq.symm)
  rcases hprime.dvd_mul.mp hdvd with hdvd | hdvd
  · have hpos := Nat.le_of_dvd (by omega) hdvd
    omega
  · have hpos := Nat.le_of_dvd (by omega) hdvd
    omega

/-- Two destinations of one source have different seeds modulo 97, up to 97 ranks. -/
theorem seed_destination_ne {s d d' worldSize : Nat} (hworld : worldSize < 97)
    (hd : d < worldSize) (hd' : d' < worldSize) (hne : d ≠ d') :
    seed s d worldSize % 97 ≠ seed s d' worldSize % 97 := by
  rw [seed, seed]
  generalize s * worldSize = base
  omega

theorem seed_lt {s d worldSize : Nat} (hworld : worldSize < 10) (hs : s < worldSize)
    (hd : d < worldSize) : seed s d worldSize < 97 := by
  have hmul : s * worldSize ≤ 8 * 9 := Nat.mul_le_mul (by omega) (by omega)
  rw [seed]
  omega

/-- **The segments differ** exactly in groups of fewer than 97 ranks. -/
theorem segmentsDiffer_iff (hexact : dtype.Exact) {worldSize : Nat} :
    SegmentsDiffer dtype worldSize ↔ worldSize < 97 := by
  constructor
  · intro hdiffer
    by_contra hge
    -- The source whose seed is 97 more, or a multiple of it, than that of source 0.
    obtain ⟨s, hs, hpos, hmul⟩ : ∃ s < worldSize, 0 < s ∧ s * worldSize % 97 = 0 := by
      rcases Nat.eq_or_lt_of_le (not_lt.mp hge) with heq | hlt
      · exact ⟨1, by omega, by omega, by omega⟩
      · exact ⟨97, by omega, by omega, Nat.mul_mod_right 97 worldSize⟩
    refine (hdiffer 1 [] (by decide)).1 0 (by omega) 0 (by omega) s hs (by omega) ?_
    refine payloadSegment_congr ?_
    rw [seed, seed]
    omega
  · intro hworld count trailingShape hsize
    refine ⟨fun d hd s hs s' hs' hne heq => ?_, fun s _ d hd d' hd' hne heq => ?_⟩
    · exact seed_source_ne hworld hs hs' hne ((payloadSegment_eq_iff hexact hsize).mp heq)
    · exact seed_destination_ne hworld hd hd' hne ((payloadSegment_eq_iff hexact hsize).mp heq)

/-- A misrouting is found when the segments that are so related differ. -/
theorem detects_of_seeds (hexact : dtype.Exact) {worldSize : Nat}
    {related : Nat × Nat → Nat × Nat → Prop}
    (hseeds : ∀ s < worldSize, ∀ d < worldSize, ∀ s' < worldSize, ∀ d' < worldSize,
      (s, d) ≠ (s', d') → related (s, d) (s', d') →
      seed s d worldSize % 97 ≠ seed s' d' worldSize % 97) :
    Detects dtype worldSize related := by
  intro splits trailingShape d route hlen hd hroute ⟨s, hs, hsize, hne, hrelated⟩ hcorrect
  have hs' : s < splits.length := hlen ▸ hs
  have heq := replayCorrect_iff.mp hcorrect s hs'
  rw [List.getD_eq_getElem?_getD, List.getElem?_eq_getElem hs', Option.getD_some] at hsize
  exact hseeds _ (hroute s hs).1 _ (hroute s hs).2 s hs d hd hne hrelated
    ((payloadSegment_eq_iff hexact hsize).mp heq)

theorem detects_sharing (hexact : dtype.Exact) {worldSize : Nat} (hworld : worldSize < 97) :
    Detects dtype worldSize Sharing := by
  refine detects_of_seeds hexact fun s hs d hd s' hs' d' hd' hne hshare => ?_
  rcases hshare with hsource | hdestination
  · obtain rfl : s = s' := hsource
    exact seed_destination_ne hworld hd hd' fun heq => hne (by rw [heq])
  · obtain rfl : d = d' := hdestination
    exact seed_source_ne hworld hs hs' fun heq => hne (by rw [heq])

/-- Any segment in place of any other: the seeds must all be below 97. -/
theorem detects_any_iff (hexact : dtype.Exact) {worldSize : Nat} :
    Detects dtype worldSize (fun _ _ => True) ↔ worldSize < 10 := by
  constructor
  · intro hdetects
    by_contra hge
    -- The segment whose seed is 97 more than that of the first.
    have hsource : 97 / worldSize < worldSize :=
      (Nat.div_lt_iff_lt_mul (by omega)).mpr
        (Nat.lt_of_lt_of_le (by decide) (Nat.mul_le_mul (not_lt.mp hge) (not_lt.mp hge)))
    have hdestination := Nat.mod_lt 97 (show 0 < worldSize by omega)
    have hplace := Nat.div_add_mod' 97 worldSize
    refine hdetects (List.replicate worldSize 1) [] 0
      (fun slot => if slot = 0 then (97 / worldSize, 97 % worldSize) else (slot, 0))
      List.length_replicate (by omega) (fun s hs => ?_)
      ⟨0, by omega, ?_, fun heq => ?_, trivial⟩ (replayCorrect_iff.mpr fun s hs => ?_)
    · split
      · exact ⟨hsource, hdestination⟩
      · exact ⟨hs, by omega⟩
    · rw [List.getD_eq_getElem?_getD, List.getElem?_replicate, if_pos (by omega)]
      decide
    · rw [if_pos rfl, Prod.mk.injEq] at heq
      rw [heq.1, heq.2, Nat.zero_mul] at hplace
      omega
    · refine payloadSegment_congr ?_
      split
      · rename_i hzero
        rw [seed, seed, hplace, hzero]
        omega
      · rfl
  · intro hworld
    refine detects_of_seeds hexact fun s hs d hd s' hs' d' hd' hne _ heq => ?_
    rw [Nat.mod_eq_of_lt (seed_lt hworld hs hd), Nat.mod_eq_of_lt (seed_lt hworld hs' hd')] at heq
    obtain ⟨rfl, rfl⟩ := seed_injective hd hd' heq
    exact hne rfl

/-- **Which misroutings are detected.**  The segments of two sources for one
destination and of one source for two destinations differ, so that a misrouting
among them fails the verification, exactly in groups of fewer than 97 ranks; any
misrouting at all does exactly in groups of fewer than ten. -/
theorem misrouting_detected_iff (hexact : dtype.Exact) (worldSize : Nat) :
    (SegmentsDiffer dtype worldSize ∧ Detects dtype worldSize Sharing ↔ worldSize < 97) ∧
      (Detects dtype worldSize (fun _ _ => True) ↔ worldSize < 10) :=
  ⟨⟨fun h => (segmentsDiffer_iff hexact).mp h.1, fun h =>
    ⟨(segmentsDiffer_iff hexact).mpr h, detects_sharing hexact h⟩⟩, detects_any_iff hexact⟩

def int64 : PayloadDtype where
  Value := Int
  ofNat := Int.ofNat
  isBool := false

/-- In a group of eight every misrouting is found. -/
theorem misrouting_detected_sample : Detects int64 8 fun _ _ => True :=
  (misrouting_detected_iff ⟨rfl, fun _ _ _ _ h => Int.ofNat.inj h⟩ 8).2.mpr (by decide)

/-- With 97 ranks, all sources send the same payload to a destination: the first
rank's row delivered in place of the second's is not noticed. -/
theorem sources_alike : ¬SegmentsDiffer int64 97 ∧ ¬Detects int64 97 Sharing := by
  have hsame : payloadSegment int64 1 0 0 97 [] = payloadSegment int64 1 1 0 97 [] := rfl
  refine ⟨fun h => (h 1 [] (by decide)).1 0 (by decide) 0 (by decide) 1 (by decide)
    (by decide) hsame, fun h => ?_⟩
  refine h (List.replicate 97 1) [] 0 (fun slot => if slot = 1 then (0, 0) else (slot, 0)) rfl
    (by decide) (fun s hs => ?_) ⟨1, by decide, by decide, by decide, Or.inr rfl⟩
    (replayCorrect_iff.mpr fun s hs => ?_)
  · split
    · exact ⟨by decide, by decide⟩
    · exact ⟨hs, show 0 < 97 by decide⟩
  · split
    · rename_i hone
      subst hone
      exact hsame
    · rfl

end LmResiliency.Detection
