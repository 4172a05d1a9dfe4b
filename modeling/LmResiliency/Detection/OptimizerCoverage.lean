/-
# OptimizerCoverage — every element once for each invocation

Each invocation's cursor goes through the slices of all parameters in a circle,
one slice whenever it is the invocation's turn, and the turns go round the
invocations.  So any run of as many captured steps as there are pairs of a slice
and an invocation has captured each pair once, wherever the cursors stood before.

`steps_cover_elements` is the main result, from any history; its second part
says what each capture holds.  The replayed arithmetic of the optimizer itself
is not modelled.
-/
import LmResiliency.Detection.OptimizerReplay

namespace LmResiliency.Detection.OptimizerReplay

open LmResiliency.Rotation

/-! ## The circle of slices -/

/-- Where the slices of a parameter start. -/
def offsets (s n : Nat) : List Nat := (List.range ((n + s - 1) / s)).map (· * s)

/-- The slices of the parameters from a place on. -/
def slicesFrom (s : Nat) : Nat → List Nat → List (Nat × Nat)
  | _, [] => []
  | p, n :: ns => (offsets s n).map (fun offset => (p, offset)) ++ slicesFrom s (p + 1) ns

/-- All slices, each as its parameter and its offset. -/
def slices (s : Nat) (sizes : List Nat) : List (Nat × Nat) := slicesFrom s 0 sizes

/-- The slice covers the element of the parameter. -/
def covers (s p n i : Nat) (c : Nat × Nat) : Bool :=
  c.1 = p ∧ c.2 ≤ i ∧ i < c.2 + min s (n - c.2)

/-- The slice after this one, where the parameter has this size. -/
def sliceAfter (s n : Nat) (c : Nat × Nat) : Nat × Nat :=
  if c.2 + min s (n - c.2) < n then (c.1, c.2 + min s (n - c.2)) else (c.1 + 1, 0)

variable {s : Nat} {sizes : List Nat}

theorem length_slices : (slices s sizes).length = (sizes.map fun n => (n + s - 1) / s).sum := by
  rw [slices]
  generalize 0 = p
  induction sizes generalizing p with
  | nil => rfl
  | cons n ns ih =>
      rw [slicesFrom, List.length_append, List.length_map, offsets, List.length_map,
        List.length_range, ih, List.map_cons, List.sum_cons]

theorem lt_of_mem_offsets {s n o : Nat} (hs : 0 < s) (h : o ∈ offsets s n) : o < n := by
  obtain ⟨j, hj, rfl⟩ := List.mem_map.mp h
  have hlt := (Nat.lt_div_iff_mul_lt hs).mp (List.mem_range.mp hj)
  have hcomm : s * j = j * s := Nat.mul_comm s j
  omega

theorem mem_slicesFrom {p : Nat} {c : Nat × Nat} (hs : 0 < s) (h : c ∈ slicesFrom s p sizes) :
    p ≤ c.1 ∧ ∃ n, sizes[c.1 - p]? = some n ∧ c.2 < n := by
  induction sizes generalizing p with
  | nil => cases h
  | cons n ns ih =>
      rcases List.mem_append.mp h with h | h
      · obtain ⟨o, ho, rfl⟩ := List.mem_map.mp h
        refine ⟨le_rfl, n, ?_, lt_of_mem_offsets hs ho⟩
        rw [Nat.sub_self]
        rfl
      · obtain ⟨hle, n', hn', hlt⟩ := ih h
        refine ⟨by omega, n', ?_, hlt⟩
        rw [show c.1 - p = c.1 - (p + 1) + 1 by omega]
        exact hn'

theorem mem_slices {c : Nat × Nat} (hs : 0 < s) (h : c ∈ slices s sizes) :
    ∃ n, sizes[c.1]? = some n ∧ c.2 < n := by
  obtain ⟨-, n, hn, hlt⟩ := mem_slicesFrom hs h
  exact ⟨n, hn, hlt⟩

theorem countP_offsets {n i : Nat} (p : Nat) (hs : 0 < s) (hi : i < n) :
    ((offsets s n).map (fun offset => (p, offset))).countP (covers s p n i) = 1 := by
  rw [offsets, List.map_map, List.countP_map]
  have hsame : ∀ j ∈ List.range ((n + s - 1) / s),
      (covers s p n i ∘ (fun offset => (p, offset)) ∘ (· * s)) j = true ↔
        (j == i / s) = true := by
    intro j hj
    have hlt := lt_of_mem_offsets hs (List.mem_map_of_mem hj)
    have hdiv : j = i / s ↔ j * s ≤ i ∧ i < j * s + s := by
      rw [eq_comm, Nat.div_eq_iff hs, Nat.mul_comm]
      omega
    simp only [Function.comp_apply, covers, decide_eq_true_eq, true_and, beq_iff_eq, hdiv]
    omega
  rw [List.countP_congr hsame]
  refine List.count_eq_one_of_mem List.nodup_range (List.mem_range.mpr ?_)
  rw [Nat.div_lt_iff_lt_mul hs]
  have := Nat.div_add_mod (n + s - 1) s
  have := Nat.mod_lt (n + s - 1) hs
  rw [Nat.mul_comm]
  omega

theorem countP_other {p q n i : Nat} (hne : q ≠ p) (os : List Nat) :
    (os.map (fun offset => (q, offset))).countP (covers s p n i) = 0 := by
  rw [List.countP_eq_zero]
  intro c hc hcov
  obtain ⟨o, -, rfl⟩ := List.mem_map.mp hc
  exact hne (of_decide_eq_true hcov).1

theorem countP_later {p q n i : Nat} (hlt : p < q) (ns : List Nat) :
    (slicesFrom s q ns).countP (covers s p n i) = 0 := by
  induction ns generalizing q with
  | nil => rfl
  | cons m ns ih =>
      rw [slicesFrom, List.countP_append, countP_other (Nat.ne_of_gt hlt), ih (by omega)]

/-- One slice covers an element of a parameter. -/
theorem countP_slices {p n i : Nat} (hs : 0 < s) (hn : sizes[p]? = some n) (hi : i < n) :
    (slices s sizes).countP (covers s p n i) = 1 := by
  suffices hfrom : ∀ q, (slicesFrom s q sizes).countP (covers s (q + p) n i) = 1 by
    have hzero := hfrom 0
    rwa [Nat.zero_add] at hzero
  intro q
  induction sizes generalizing p q with
  | nil => cases hn
  | cons m ns ih =>
      rw [slicesFrom, List.countP_append]
      cases p with
      | zero =>
          cases hn
          rw [Nat.add_zero, countP_offsets q hs hi, countP_later (Nat.lt_succ_self q)]
      | succ p =>
          rw [countP_other (by omega), Nat.zero_add, Nat.add_comm p 1, ← Nat.add_assoc]
          exact ih hn (q + 1)

/-- The slice after the last is the first. -/
def nextSlice (s : Nat) (sizes : List Nat) (c : Nat × Nat) : Nat × Nat :=
  let after := sliceAfter s (sizes[c.1]?.getD 0) c
  (after.1 % sizes.length, after.2)

theorem offsets_getElem? {n j o : Nat} (h : (offsets s n)[j]? = some o) :
    o = j * s ∧ j < (n + s - 1) / s := by
  rw [offsets, List.getElem?_map] at h
  obtain ⟨k, hk, rfl⟩ := Option.map_eq_some_iff.mp h
  obtain ⟨hlt, rfl⟩ := List.getElem?_eq_some_iff.mp hk
  rw [List.getElem_range]
  rw [List.length_range] at hlt
  exact ⟨rfl, hlt⟩

/-- Whether a slice is the last of its parameter. -/
theorem lt_iff_succ_lt {n j : Nat} (hs : 0 < s) (hj : j < (n + s - 1) / s) :
    j * s + min s (n - j * s) < n ↔ j + 1 < (n + s - 1) / s := by
  have hlt := (Nat.lt_div_iff_mul_lt hs).mp hj
  rw [Nat.lt_div_iff_mul_lt hs, Nat.succ_mul]
  omega

/-- The slices from a place on start with its first one. -/
theorem slicesFrom_zero (hs : 0 < s) (hpos : ∀ n ∈ sizes, 0 < n) (q : Nat) :
    (slicesFrom s q sizes ++ [(q + sizes.length, 0)])[0]? = some (q, 0) := by
  cases sizes with
  | nil => rfl
  | cons n ns =>
      have hceil : 0 < (n + s - 1) / s := by
        have hn := hpos n List.mem_cons_self
        exact Nat.div_pos (by omega) hs
      obtain ⟨m, hm⟩ := Nat.exists_eq_succ_of_ne_zero (Nat.ne_of_gt hceil)
      rw [slicesFrom, offsets, hm, List.range_succ_eq_map]
      simp

theorem slicesFrom_succ (hs : 0 < s) (hpos : ∀ n ∈ sizes, 0 < n) {q i : Nat} {c : Nat × Nat}
    (h : (slicesFrom s q sizes)[i]? = some c) :
    (slicesFrom s q sizes ++ [(q + sizes.length, 0)])[i + 1]? =
      some (sliceAfter s (sizes[c.1 - q]?.getD 0) c) := by
  induction sizes generalizing q i with
  | nil => cases h
  | cons n ns ih =>
      have hpos' : ∀ m ∈ ns, 0 < m := fun m hm => hpos m (List.mem_cons_of_mem n hm)
      have hend : q + (n :: ns).length = q + 1 + ns.length := by
        rw [List.length_cons]
        omega
      have hlen : ((offsets s n).map (fun offset => (q, offset))).length = (n + s - 1) / s := by
        rw [List.length_map, offsets, List.length_map, List.length_range]
      rw [slicesFrom] at h
      rw [slicesFrom, List.append_assoc, hend]
      by_cases hi : i < (n + s - 1) / s
      · rw [List.getElem?_append_left (by omega), List.getElem?_map] at h
        obtain ⟨o, ho, rfl⟩ := Option.map_eq_some_iff.mp h
        obtain ⟨rfl, -⟩ := offsets_getElem? ho
        rw [Nat.sub_self, sliceAfter]
        dsimp only [List.getElem?_cons_zero, Option.getD_some]
        split
        · rename_i hlt
          have hnext := (lt_iff_succ_lt hs hi).mp hlt
          have hfull : min s (n - i * s) = s := by omega
          have hget : (offsets s n)[i + 1]? = some ((i + 1) * s) := by
            rw [offsets, List.getElem?_map, List.getElem?_range hnext]
            rfl
          rw [List.getElem?_append_left (by omega), List.getElem?_map, hget, hfull,
            Nat.succ_mul]
          rfl
        · rename_i hnot
          have hlast : i + 1 = (n + s - 1) / s := by
            have := mt (lt_iff_succ_lt hs hi).mpr hnot
            omega
          rw [List.getElem?_append_right (by omega), hlen, hlast, Nat.sub_self,
            slicesFrom_zero hs hpos']
      · rw [List.getElem?_append_right (by omega), hlen] at h
        obtain ⟨hle, -⟩ := mem_slicesFrom hs (List.mem_of_getElem? h)
        rw [List.getElem?_append_right (by omega), hlen,
          show i + 1 - (n + s - 1) / s = i - (n + s - 1) / s + 1 by omega, ih hpos' h,
          show c.1 - q = c.1 - (q + 1) + 1 by omega, List.getElem?_cons_succ]

/-- **The cursor goes round the slices.** -/
theorem slices_next (hs : 0 < s) (hpos : ∀ n ∈ sizes, 0 < n) {i : Nat} {c : Nat × Nat}
    (h : (slices s sizes)[i]? = some c) :
    (slices s sizes)[(i + 1) % (slices s sizes).length]? = some (nextSlice s sizes c) := by
  have hafter := slicesFrom_succ hs hpos h
  obtain ⟨hi, -⟩ := List.getElem?_eq_some_iff.mp h
  rw [Nat.sub_zero, Nat.zero_add] at hafter
  rw [← slices] at hafter
  rw [nextSlice]
  by_cases hlt : i + 1 < (slices s sizes).length
  · rw [List.getElem?_append_left hlt] at hafter
    obtain ⟨n, hn, -⟩ := mem_slices hs (List.mem_of_getElem? hafter)
    obtain ⟨hbound, -⟩ := List.getElem?_eq_some_iff.mp hn
    rw [Nat.mod_eq_of_lt hlt, hafter, Nat.mod_eq_of_lt hbound]
  · have hlast : i + 1 = (slices s sizes).length := by omega
    rw [hlast, List.getElem?_append_right le_rfl, Nat.sub_self] at hafter
    have hzero := slicesFrom_zero hs hpos 0
    rw [← slices, List.getElem?_append_left (by omega)] at hzero
    rw [hlast, Nat.mod_self, hzero, ← Option.some.inj hafter, Nat.mod_self]

/-! ## One invocation -/

variable {α β : Type}

namespace OptimizerStepReplay

/-- The cursors stand at slices. -/
structure OnSlices (s : Nat) (sizes : List Nat) (r : OptimizerStepReplay α β) : Prop where
  sliceNumel : r.sliceNumel = s
  cursor : ∀ k c, r.sliceCursors.lookup k = some c → c ∈ slices s sizes

variable {r : OptimizerStepReplay α β} {optimizer : Optimizer α β}

theorem OnSlices.pos (h : r.OnSlices s sizes) : 0 < s := h.sliceNumel ▸ r.positive

theorem OnSlices.cursor_mem (h : r.OnSlices s sizes) (hpos : ∀ n ∈ sizes, 0 < n)
    (hne : sizes ≠ []) (k : Nat) : r.cursor k ∈ slices s sizes := by
  rw [OptimizerStepReplay.cursor]
  cases hl : r.sliceCursors.lookup k with
  | some c => exact h.cursor k c hl
  | none =>
      have hzero := slicesFrom_zero h.pos hpos 0
      have hlen : 0 < (slicesFrom s 0 sizes).length := by
        obtain ⟨n, ns, rfl⟩ := List.exists_cons_of_ne_nil hne
        have hn := hpos n List.mem_cons_self
        have hceil : 0 < (n + s - 1) / s := Nat.div_pos (by have := h.pos; omega) h.pos
        rw [slicesFrom, List.length_append, List.length_map, offsets, List.length_map,
          List.length_range]
        omega
      rw [List.getElem?_append_left hlen] at hzero
      exact List.mem_of_getElem? hzero

theorem sizes_getElem? (i : Nat) :
    optimizer.sizes[i]? = optimizer.entries[i]?.map fun found => found.2.2.data.length :=
  List.getElem?_map

/-- The capture holds what its slice held at the invocation: of the parameter, of its dense
gradient and of its state, with the options of its group. -/
def SliceOf (optimizer : Optimizer α β) (capture : TransitionCapture α β) : Prop :=
  ∃ group index parameter gradient,
    optimizer.entries[capture.parameter]? = some (group, index, parameter) ∧
    parameter.grad = .dense gradient ∧ gradient.length = parameter.data.length ∧
    capture.parameterBefore =
      slice parameter.data capture.offset (capture.offset + capture.length) ∧
    capture.gradient = slice gradient capture.offset (capture.offset + capture.length) ∧
    capture.state = cloneStateItems parameter.data.length capture.offset
      (capture.offset + capture.length) parameter.state ∧
    cloneParameterGroup group index = .ok capture.group ∧
    capture.optimizerTensors = optimizer.tensors

/-- A capture that succeeds is of the slice it was asked for. -/
theorem captureSlice_eq_ok {entry offset length : Nat}
    {found : Group α β × Nat × Parameter α β} {capture : TransitionCapture α β}
    (hfound : optimizer.entries[entry]? = some found)
    (h : captureSlice optimizer entry found offset length = .ok capture) :
    capture.parameter = entry ∧ capture.offset = offset ∧ capture.length = length ∧
      SliceOf optimizer capture := by
  rw [captureSlice] at h
  obtain ⟨group, index, parameter⟩ := found
  dsimp only at h
  cases hgrad : parameter.grad with
  | none =>
      rw [hgrad] at h
      cases h
  | sparse =>
      rw [hgrad] at h
      cases h
  | dense gradient =>
      rw [hgrad] at h
      change (if gradient.length ≠ parameter.data.length then _ else _) = _ at h
      split at h
      · cases h
      · rename_i hsame
        cases hclone : cloneParameterGroup group index with
        | error e =>
            rw [hclone] at h
            cases h
        | ok cloned =>
            rw [hclone] at h
            cases h
            exact ⟨rfl, rfl, rfl, group, index, parameter, gradient, hfound, hgrad,
              not_not.mp hsame, rfl, rfl, rfl, hclone, rfl⟩

variable (optimizer) in
/-- A snapshot moves the cursor of its invocation to the next slice, and is of the slice at
which the cursor stood. -/
theorem snapshotTransition_eq (h : r.OnSlices s sizes) (hsizes : optimizer.sizes = sizes)
    (k : Nat) (hmem : r.cursor k ∈ slices s sizes) :
    (r.snapshotTransition optimizer k).2 =
        { r with sliceCursors :=
            Dict.put r.sliceCursors (k, nextSlice s sizes (r.cursor k)) } ∧
      ∀ capture, (r.snapshotTransition optimizer k).1 = .ok capture →
        (capture.parameter, capture.offset) = r.cursor k ∧
          capture.length = min s ((sizes[capture.parameter]?.getD 0) - capture.offset) ∧
          SliceOf optimizer capture := by
  obtain rfl := h.sliceNumel
  obtain ⟨n, hn, hlt⟩ := mem_slices h.pos hmem
  have hcount : optimizer.entries.length = sizes.length := by
    rw [← hsizes, Optimizer.sizes, List.length_map]
  have hentry : (r.cursor k).1 % optimizer.entries.length = (r.cursor k).1 := by
    obtain ⟨hbound, -⟩ := List.getElem?_eq_some_iff.mp hn
    rw [hcount, Nat.mod_eq_of_lt hbound]
  have hsize := hn
  rw [← hsizes, sizes_getElem?] at hsize
  obtain ⟨found, hfound, rfl⟩ := Option.map_eq_some_iff.mp hsize
  have hoffset : min (r.cursor k).2 (found.2.2.data.length - 1) = (r.cursor k).2 := by omega
  have hlookup : sizes[(r.cursor k).1]?.getD 0 = found.2.2.data.length := by
    rw [hn, Option.getD_some]
  rw [snapshotTransition]
  dsimp only
  rw [hentry, hfound]
  dsimp only
  rw [hoffset]
  constructor
  · rw [advanceSliceCursor, nextSlice, hlookup, sliceAfter, hcount]
    split
    · rename_i hmore
      have hbound := (List.getElem?_eq_some_iff.mp hn).choose
      rw [Nat.mod_eq_of_lt hbound]
    · rfl
  · intro capture hcapture
    obtain ⟨hparameter, hoff, hlength, hslice⟩ := captureSlice_eq_ok hfound hcapture
    rw [hparameter, hoff, hlength, hlookup]
    exact ⟨rfl, rfl, hslice⟩

theorem lookup_sliceCursors_put {k k' : Nat} {c : Nat × Nat} :
    (Dict.put r.sliceCursors (k, c)).lookup k' =
      if k' = k then some c else r.sliceCursors.lookup k' :=
  Dict.lookup_put r.sliceCursors (k, c) k'

/-- A cursor that has been moved on stands at a slice again. -/
theorem OnSlices.cursor_put (h : r.OnSlices s sizes) (hpos : ∀ n ∈ sizes, 0 < n) {k : Nat}
    (hmem : r.cursor k ∈ slices s sizes) (k' : Nat) (c : Nat × Nat)
    (hc : (Dict.put r.sliceCursors (k, nextSlice s sizes (r.cursor k))).lookup k' = some c) :
    c ∈ slices s sizes := by
  rw [lookup_sliceCursors_put] at hc
  split at hc
  · obtain rfl := Option.some.inj hc
    obtain ⟨i, hi⟩ := List.mem_iff_getElem?.mp hmem
    exact List.mem_of_getElem? (slices_next h.pos hpos hi)
  · exact h.cursor k' c hc

variable (optimizer) in
theorem OnSlices.snapshotTransition (h : r.OnSlices s sizes) (hpos : ∀ n ∈ sizes, 0 < n)
    (hsizes : optimizer.sizes = sizes) (k : Nat) :
    (r.snapshotTransition optimizer k).2.OnSlices s sizes := by
  by_cases hne : sizes = []
  · have hnone : optimizer.entries = [] := by
      rw [← List.length_eq_zero_iff, ← List.length_map, ← Optimizer.sizes, hsizes, hne,
        List.length_nil]
    rw [OptimizerStepReplay.snapshotTransition, hnone]
    exact h
  · have hmem := h.cursor_mem hpos hne k
    rw [(snapshotTransition_eq _ h hsizes k hmem).1]
    exact ⟨h.sliceNumel, h.cursor_put hpos hmem⟩

/-! ## Any history -/

/-- What happens to the replay. -/
inductive Event (α β : Type) where
  | arm
  | preStep (optimizer : Optimizer α β)
  | cancel
  | consume

/-- The state after an event. -/
def after (r : OptimizerStepReplay α β) : Event α β → OptimizerStepReplay α β
  | .arm => r.arm
  | .preStep optimizer => r.capturePreStep optimizer
  | .cancel => r.cancel
  | .consume => r.consume.2

theorem OnSlices.of_eq {r' : OptimizerStepReplay α β} (h : r.OnSlices s sizes)
    (hnumel : r'.sliceNumel = r.sliceNumel) (hcursors : r'.sliceCursors = r.sliceCursors) :
    r'.OnSlices s sizes :=
  ⟨hnumel.trans h.sliceNumel, fun k c hc => h.cursor k c (hcursors ▸ hc)⟩

theorem OnSlices.capturePreStep (h : r.OnSlices s sizes) (hpos : ∀ n ∈ sizes, 0 < n)
    (hsizes : optimizer.sizes = sizes) : (r.capturePreStep optimizer).OnSlices s sizes := by
  rw [OptimizerStepReplay.capturePreStep]
  split
  · exact h
  · dsimp only
    split
    · exact h.of_eq rfl rfl
    · have hsnap := OnSlices.snapshotTransition optimizer
        (r := { r with observedInvocations := r.observedInvocations + 1, armed := false })
        (h.of_eq rfl rfl) hpos hsizes r.observedInvocations
      split
      · rename_i heq
        rw [heq] at hsnap
        exact hsnap.of_eq rfl rfl
      · rename_i heq
        rw [heq] at hsnap
        exact hsnap.of_eq rfl rfl

theorem OnSlices.after (h : r.OnSlices s sizes) (hpos : ∀ n ∈ sizes, 0 < n) (event : Event α β)
    (hsizes : ∀ optimizer, event = .preStep optimizer → optimizer.sizes = sizes) :
    (r.after event).OnSlices s sizes := by
  cases event with
  | arm => exact h.of_eq rfl rfl
  | preStep optimizer => exact h.capturePreStep hpos (hsizes optimizer rfl)
  | cancel => exact h.of_eq rfl rfl
  | consume =>
      rw [OptimizerStepReplay.after, consume]
      split
      · exact h
      · dsimp only
        rw [advanceInvocationTarget]
        split
        · exact h.of_eq rfl rfl
        · exact h.of_eq rfl rfl

/-- **After any events the cursors stand at slices.** -/
theorem OnSlices.events (h : r.OnSlices s sizes) (hpos : ∀ n ∈ sizes, 0 < n)
    (events : List (Event α β))
    (hsizes : ∀ optimizer, Event.preStep optimizer ∈ events → optimizer.sizes = sizes) :
    (events.foldl OptimizerStepReplay.after r).OnSlices s sizes := by
  induction events generalizing r with
  | nil => exact h
  | cons event events ih =>
      refine ih (h.after hpos event ?_) fun o ho => hsizes o (List.mem_cons_of_mem event ho)
      rintro o rfl
      exact hsizes o List.mem_cons_self

variable (sizes) in
theorem onSlices_new (hs : 0 < s) : (new s hs : OptimizerStepReplay α β).OnSlices s sizes :=
  ⟨rfl, fun _ _ hc => by cases hc⟩

/-! ## A scheduled step -/

/-- The invocations of the base optimizer while a step is scheduled, and those after it is
consumed and before the next is scheduled. -/
structure ScheduledStep (α β : Type) where
  invocations : List (Optimizer α β)
  unscheduled : List (Optimizer α β)

/-- The hook runs before each invocation. -/
def observe (r : OptimizerStepReplay α β) (invocations : List (Optimizer α β)) :
    OptimizerStepReplay α β :=
  invocations.foldl capturePreStep r

/-- The invocation of the step before which the capture was taken. -/
def capturedAt (r : OptimizerStepReplay α β) (invocations : List (Optimizer α β)) : Option Nat :=
  (List.range invocations.length).find? fun k =>
    (observe r.arm (invocations.take (k + 1))).capture.isSome

/-- The step is armed, observed and consumed; what it captured, and before which
invocation. -/
def scheduledStep (r : OptimizerStepReplay α β) (step : ScheduledStep α β) :
    Option (Nat × TransitionCapture α β) × OptimizerStepReplay α β :=
  let (recipe, consumed) := (observe r.arm step.invocations).consume
  (do
    let capture ← (← recipe).capture
    let invocation ← capturedAt r step.invocations
    return (invocation, capture),
    observe consumed step.unscheduled)

/-- Consecutive scheduled steps. -/
def scheduledSteps (r : OptimizerStepReplay α β) :
    List (ScheduledStep α β) → List (Option (Nat × TransitionCapture α β))
  | [] => []
  | step :: steps => (r.scheduledStep step).1 :: scheduledSteps (r.scheduledStep step).2 steps

variable {invocations : List (Optimizer α β)}

theorem observe_of_not_scheduled (h : r.scheduled = false) (os : List (Optimizer α β)) :
    observe r os = r := by
  induction os with
  | nil => rfl
  | cons o os ih =>
      have hsame : r.capturePreStep o = r := by
        rw [capturePreStep, h]
        rfl
      rw [observe, List.foldl_cons, hsame]
      exact ih

theorem observe_append (os os' : List (Optimizer α β)) :
    observe r (os ++ os') = observe (observe r os) os' :=
  List.foldl_append

/-- The hook only counts, where it does not capture. -/
theorem capturePreStep_of_not (h : r.scheduled = true)
    (hnot : r.armed = false ∨ r.observedInvocations ≠ r.invocationTarget) :
    r.capturePreStep optimizer = { r with observedInvocations := r.observedInvocations + 1 } := by
  rw [capturePreStep, h]
  refine (if_neg (by decide)).trans (if_pos ?_)
  rcases hnot with hnot | hnot
  · exact Or.inl (by rw [hnot]; rfl)
  · exact Or.inr hnot

/-- Invocations without a capture are only counted. -/
theorem observe_counts (h : r.scheduled = true) (os : List (Optimizer α β))
    (hnot : r.armed = false ∨ r.observedInvocations + os.length ≤ r.invocationTarget) :
    observe r os = { r with observedInvocations := r.observedInvocations + os.length } := by
  induction os generalizing r with
  | nil => rfl
  | cons o os ih =>
      have hone : r.capturePreStep o =
          { r with observedInvocations := r.observedInvocations + 1 } := by
        refine capturePreStep_of_not h (hnot.imp_right fun hle => ?_)
        rw [List.length_cons] at hle
        omega
      rw [observe, List.foldl_cons, hone, ← observe,
        ih (r := { r with observedInvocations := r.observedInvocations + 1 }) h]
      · rw [List.length_cons]
        dsimp only
        rw [Nat.add_assoc, Nat.add_comm 1]
      · refine hnot.imp_right fun hle => ?_
        rw [List.length_cons] at hle
        dsimp only
        omega

/-- The state before the invocation whose turn it is, once the hook has run. -/
def taken (r : OptimizerStepReplay α β) (optimizer : Optimizer α β) : OptimizerStepReplay α β :=
  capturePreStep { r.arm with observedInvocations := r.invocationTarget } optimizer

variable (optimizer) in
/-- What the hook has done to the invocation whose turn it is. -/
theorem taken_spec (h : r.OnSlices s sizes) (hsizes : optimizer.sizes = sizes)
    (hmem : r.cursor r.invocationTarget ∈ slices s sizes) :
    (r.taken optimizer).scheduled = true ∧ (r.taken optimizer).armed = false ∧
      (r.taken optimizer).invocationTarget = r.invocationTarget ∧
      (r.taken optimizer).sliceNumel = s ∧
      (r.taken optimizer).observedInvocations = r.invocationTarget + 1 ∧
      (r.taken optimizer).sliceCursors = Dict.put r.sliceCursors
        (r.invocationTarget, nextSlice s sizes (r.cursor r.invocationTarget)) ∧
      ∀ capture, (r.taken optimizer).capture = some capture →
        (capture.parameter, capture.offset) = r.cursor r.invocationTarget ∧
          capture.length = min s ((sizes[capture.parameter]?.getD 0) - capture.offset) ∧
          SliceOf optimizer capture := by
  obtain ⟨hstate, hcapture⟩ := snapshotTransition_eq optimizer
    (r := { r.arm with observedInvocations := r.invocationTarget + 1, armed := false })
    (h.of_eq rfl rfl) hsizes r.invocationTarget hmem
  have hscheduled : ¬ (!(({ r.arm with observedInvocations := r.invocationTarget } :
      OptimizerStepReplay α β).scheduled)) = true := fun hc => Bool.false_ne_true hc
  have hdue : ¬ ((!(r.arm.armed)) = true ∨ r.invocationTarget ≠ r.arm.invocationTarget) := by
    rintro (hfalse | hne)
    · exact Bool.false_ne_true hfalse
    · exact hne rfl
  rw [taken, capturePreStep, if_neg hscheduled]
  dsimp only
  rw [if_neg hdue]
  generalize snapshotTransition
    { r.arm with observedInvocations := r.invocationTarget + 1, armed := false }
      optimizer r.invocationTarget = snap at hstate hcapture
  obtain ⟨result, state⟩ := snap
  obtain rfl := hstate
  cases result with
  | ok capture =>
      refine ⟨rfl, rfl, rfl, h.sliceNumel, rfl, rfl, fun c hc => ?_⟩
      obtain rfl := Option.some.inj hc
      exact hcapture capture rfl
  | error e => exact ⟨rfl, rfl, rfl, h.sliceNumel, rfl, rfl, fun c hc => by cases hc⟩

variable (invocations) in
/-- The invocations before the one whose turn it is. -/
theorem observe_arm_of_le {k : Nat} (hk : k ≤ r.invocationTarget) (hlen : k ≤ invocations.length) :
    observe r.arm (invocations.take k) = { r.arm with observedInvocations := k } := by
  rw [observe_counts rfl]
  · rw [List.length_take, Nat.min_eq_left hlen, arm, Nat.zero_add]
  · refine Or.inr ?_
    rw [List.length_take, Nat.min_eq_left hlen, arm, Nat.zero_add]
    exact hk

theorem observe_arm_of_lt (h : r.OnSlices s sizes) (hsizes : optimizer.sizes = sizes)
    (hmem : r.cursor r.invocationTarget ∈ slices s sizes)
    (hget : invocations[r.invocationTarget]? = some optimizer) {k : Nat}
    (hk : r.invocationTarget < k) (hlen : k ≤ invocations.length) :
    observe r.arm (invocations.take k) =
      { r.taken optimizer with observedInvocations := k } := by
  obtain ⟨hscheduled, harmed, -, -, hobserved, -, -⟩ := taken_spec _ h hsizes hmem
  have hsplit : invocations.take k = invocations.take r.invocationTarget ++ optimizer ::
      (invocations.drop (r.invocationTarget + 1)).take (k - (r.invocationTarget + 1)) := by
    obtain ⟨hbound, rfl⟩ := List.getElem?_eq_some_iff.mp hget
    obtain ⟨m, rfl⟩ := Nat.exists_eq_add_of_le hk
    rw [Nat.add_sub_cancel_left, List.take_add, ← List.take_append_getElem hbound,
      List.append_assoc, List.singleton_append]
  rw [hsplit, observe_append, observe_arm_of_le _ le_rfl (by omega)]
  change observe (r.taken optimizer) _ = _
  rw [observe_counts hscheduled _ (Or.inl harmed), hobserved, List.length_take,
    List.length_drop, Nat.min_eq_left (by omega), Nat.add_sub_cancel' hk]

/-- What the hook captures, it captures before the invocation whose turn it is. -/
theorem capturedAt_eq {capture : TransitionCapture α β} (h : r.OnSlices s sizes)
    (hsizes : optimizer.sizes = sizes) (hmem : r.cursor r.invocationTarget ∈ slices s sizes)
    (hget : invocations[r.invocationTarget]? = some optimizer)
    (hcap : (r.taken optimizer).capture = some capture) :
    r.capturedAt invocations = some r.invocationTarget := by
  have hlt := (List.getElem?_eq_some_iff.mp hget).choose
  rw [capturedAt, List.find?_range_eq_some]
  refine ⟨?_, List.mem_range.mpr hlt, fun j hj => ?_⟩
  · rw [observe_arm_of_lt h hsizes hmem hget (Nat.lt_succ_self _) hlt, hcap]
    rfl
  · rw [observe_arm_of_le _ hj (by omega)]
    rfl

theorem consume_of_scheduled (h : r.scheduled = true) :
    r.consume = (some { status := r.status, capture := r.capture },
      { r with scheduled := false, armed := false, capture := none }.advanceInvocationTarget) := by
  rw [consume, h]
  rfl

/-- A captured step has captured the slice at the cursor of the invocation whose turn it was,
has moved this cursor, and passes the turn on. -/
theorem scheduledStep_spec {step : ScheduledStep α β} {k : Nat} {capture : TransitionCapture α β}
    (h : r.OnSlices s sizes) (hpos : ∀ n ∈ sizes, 0 < n) (hne : sizes ≠ [])
    (hsizes : ∀ o ∈ step.invocations, o.sizes = sizes)
    (hsome : (r.scheduledStep step).1 = some (k, capture)) :
    k = r.invocationTarget ∧ k < step.invocations.length ∧
      (capture.parameter, capture.offset) = r.cursor k ∧
      capture.length = min s ((sizes[capture.parameter]?.getD 0) - capture.offset) ∧
      (∃ optimizer, step.invocations[k]? = some optimizer ∧ SliceOf optimizer capture) ∧
      (r.scheduledStep step).2.OnSlices s sizes ∧
      (r.scheduledStep step).2.invocationTarget = (k + 1) % step.invocations.length ∧
      ∀ k', (r.scheduledStep step).2.cursor k' =
        if k' = k then nextSlice s sizes (r.cursor k) else r.cursor k' := by
  have hmem := h.cursor_mem hpos hne r.invocationTarget
  have hall : step.invocations.take step.invocations.length = step.invocations :=
    List.take_length
  by_cases hlt : r.invocationTarget < step.invocations.length
  · obtain ⟨optimizer, hget⟩ : ∃ o, step.invocations[r.invocationTarget]? = some o :=
      ⟨_, List.getElem?_eq_getElem hlt⟩
    have hsize := hsizes optimizer (List.mem_of_getElem? hget)
    obtain ⟨hscheduled, -, htarget, hnumel, -, hcursors, hcapture⟩ :=
      taken_spec optimizer h hsize hmem
    have hobserve := observe_arm_of_lt h hsize hmem hget hlt le_rfl
    rw [hall] at hobserve
    have hconsume := consume_of_scheduled
      (r := { r.taken optimizer with observedInvocations := step.invocations.length }) hscheduled
    have hidle : ∀ os : List (Optimizer α β), observe (advanceInvocationTarget
          { r.taken optimizer with observedInvocations := step.invocations.length
                                   scheduled := false, armed := false, capture := none }) os =
        { r.taken optimizer with
          observedInvocations := step.invocations.length
          scheduled := false, armed := false, capture := none
          invocationTarget := (r.invocationTarget + 1) % step.invocations.length } := by
      intro os
      rw [advanceInvocationTarget, if_pos (show 0 < step.invocations.length by omega), htarget]
      exact observe_of_not_scheduled rfl os
    rw [scheduledStep, hobserve, hconsume] at hsome ⊢
    dsimp only at hsome ⊢
    rw [hidle]
    cases hcap : (r.taken optimizer).capture with
    | none =>
        rw [hcap] at hsome
        cases hsome
    | some c =>
        rw [hcap, capturedAt_eq h hsize hmem hget hcap] at hsome
        obtain ⟨rfl, rfl⟩ := Prod.mk.inj (Option.some.inj hsome)
        obtain ⟨hslice, hlength, hcontents⟩ := hcapture c hcap
        refine ⟨rfl, hlt, hslice, hlength, ⟨optimizer, hget, hcontents⟩,
          ⟨hnumel, fun k' c' hc' => h.cursor_put hpos hmem k' c' (hcursors ▸ hc')⟩, rfl,
          fun k' => ?_⟩
        · rw [OptimizerStepReplay.cursor]
          dsimp only
          rw [hcursors, lookup_sliceCursors_put]
          split
          · rfl
          · rfl
  · -- the turn is of an invocation that the step does not have
    have hobserve := observe_arm_of_le (r := r) step.invocations
      (Nat.not_lt.mp hlt) le_rfl
    rw [hall] at hobserve
    rw [scheduledStep, hobserve, consume_of_scheduled rfl] at hsome
    cases hsome

/-! ## A window of steps -/

/-- The slice that was captured for an invocation. -/
def sliceFor (k : Nat) (record : Nat × TransitionCapture α β) : Option (Nat × Nat) :=
  if record.1 = k then some (record.2.parameter, record.2.offset) else none

theorem isDue_iff {k K : Nat} (hk : k < K) (T : Nat) :
    IsDue ((k : Int) - K) K T ↔ T % K = k := by
  have hshift : (T : Int) - (k - K) = T - k + K := by omega
  have hsame : ((T : Int) - (k - K)) % K = 0 ↔ T % K = k := by
    rw [hshift, Int.add_emod_right, ← Int.emod_eq_emod_iff_emod_sub_eq_zero]
    rw [← Nat.mod_eq_of_lt hk]
    norm_cast
    rw [Nat.mod_mod]
  rw [IsDue, hsame]
  exact ⟨fun h => h.2, fun h => ⟨by omega, h⟩⟩

/-- What was captured in a step is a slice of the invocation it was captured before. -/
def CapturedIn (step : ScheduledStep α β) (record : Nat × TransitionCapture α β) : Prop :=
  ∃ optimizer, step.invocations[record.1]? = some optimizer ∧ SliceOf optimizer record.2

theorem scheduledSteps_captured {steps : List (ScheduledStep α β)}
    {records : List (Nat × TransitionCapture α β)} (hpos : ∀ n ∈ sizes, 0 < n)
    (hne : sizes ≠ []) (hsteps : ∀ step ∈ steps, ∀ o ∈ step.invocations, o.sizes = sizes)
    (h : r.OnSlices s sizes) (hrecords : r.scheduledSteps steps = records.map some) :
    List.Forall₂ CapturedIn steps records := by
  induction steps generalizing r records with
  | nil =>
      obtain rfl := List.map_eq_nil_iff.mp hrecords.symm
      exact .nil
  | cons step steps ih =>
      rw [scheduledSteps] at hrecords
      obtain ⟨record, records, rfl, hfirst, hrest⟩ := List.map_eq_cons_iff.mp hrecords.symm
      obtain ⟨-, -, -, -, hcontents, hon, -⟩ := scheduledStep_spec h hpos hne
        (hsteps step List.mem_cons_self) hfirst.symm
      exact .cons hcontents
        (ih (fun st hst => hsteps st (List.mem_cons_of_mem step hst)) hon hrest.symm)

/-- What the steps captured for an invocation: at its turns, the slices one after another
from the cursor's on. -/
theorem scheduledSteps_eq {K k : Nat} (hk : k < K) {steps : List (ScheduledStep α β)}
    {records : List (Nat × TransitionCapture α β)} (hpos : ∀ n ∈ sizes, 0 < n)
    (hne : sizes ≠ [])
    (hsteps : ∀ step ∈ steps, step.invocations.length = K ∧
      ∀ o ∈ step.invocations, o.sizes = sizes)
    (h : r.OnSlices s sizes) (hrecords : r.scheduledSteps steps = records.map some)
    {T position : Nat} (hT : r.invocationTarget = T % K)
    (hposition : (slices s sizes)[position % (slices s sizes).length]? = some (r.cursor k)) :
    records.map (sliceFor k) = (List.range steps.length).map
        (turnOf (slices s sizes) ((k : Int) - K) K T position) ∧
      ∀ record ∈ records, record.2.length =
        min s ((sizes[record.2.parameter]?.getD 0) - record.2.offset) := by
  induction steps generalizing r records T position with
  | nil =>
      obtain rfl := List.map_eq_nil_iff.mp hrecords.symm
      exact ⟨rfl, fun _ hrecord => absurd hrecord List.not_mem_nil⟩
  | cons step steps ih =>
      obtain ⟨hK, hstep⟩ := hsteps step List.mem_cons_self
      rw [scheduledSteps] at hrecords
      obtain ⟨record, records, rfl, hfirst, hrest⟩ := List.map_eq_cons_iff.mp hrecords.symm
      obtain ⟨hturn, -, hslice, hlength, -, hon, htarget, hcursor⟩ :=
        scheduledStep_spec h hpos hne hstep hfirst.symm
      have hnext : (r.scheduledStep step).2.invocationTarget = (T + 1) % K := by
        rw [htarget, hturn, hT, hK, Nat.mod_add_mod]
      have hmoved : (slices s sizes)[(position +
          if IsDue ((k : Int) - K) K T then 1 else 0) % (slices s sizes).length]? =
            some ((r.scheduledStep step).2.cursor k) := by
        rw [hcursor]
        by_cases hdue : IsDue ((k : Int) - K) K T
        · have hsame : k = record.1 := by
            rw [hturn, hT]
            exact ((isDue_iff hk T).mp hdue).symm
          rw [if_pos hdue, if_pos hsame, ← hsame, ← Nat.mod_add_mod]
          exact slices_next h.pos hpos hposition
        · have hother : k ≠ record.1 := by
            rw [hturn, hT]
            exact fun he => hdue ((isDue_iff hk T).mpr he.symm)
          rw [if_neg hdue, if_neg hother, Nat.add_zero]
          exact hposition
      obtain ⟨hlist, hlengths⟩ := ih (fun st hst => hsteps st (List.mem_cons_of_mem step hst))
        hon hrest.symm hnext hmoved
      refine ⟨?_, List.forall_mem_cons.mpr ⟨hlength, hlengths⟩⟩
      rw [List.length_cons, List.range_succ_eq_map, List.map_cons, List.map_cons, hlist,
        List.map_map]
      congr 1
      · rw [sliceFor, turnOf, turns, Nat.count_zero, Nat.cast_zero, Int.add_zero, Nat.add_zero,
          hposition]
        by_cases hdue : IsDue ((k : Int) - K) K T
        · have hsame : record.1 = k := by
            rw [hturn, hT]
            exact (isDue_iff hk T).mp hdue
          rw [if_pos hdue, if_pos hsame, hslice, hsame]
        · have hother : record.1 ≠ k := by
            rw [hturn, hT]
            exact fun he => hdue ((isDue_iff hk T).mpr he)
          rw [if_neg hdue, if_neg hother]
      · refine List.map_congr_left fun j _ => ?_
        rw [Function.comp_apply, Nat.succ_eq_add_one, turnOf_succ, Nat.cast_succ]

/-- The capture is of a slice with the element, before the invocation. -/
def capturesElement (k p i : Nat) (record : Nat × TransitionCapture α β) : Bool :=
  record.1 = k ∧ record.2.parameter = p ∧
    record.2.offset ≤ i ∧ i < record.2.offset + record.2.length

theorem slices_ne_nil (hs : 0 < s) {p n : Nat} (hn : sizes[p]? = some n) (hn' : 0 < n) :
    slices s sizes ≠ [] := by
  intro hnil
  have hone := countP_slices hs hn hn'
  rw [hnil] at hone
  cases hone

/-- **Every element is captured once for each invocation** in as many consecutive captured
steps as there are pairs of a slice and an invocation, whatever came before; each capture holds
what its slice held at its invocation. -/
theorem steps_cover_elements (hs : 0 < s) (hpos : ∀ n ∈ sizes, 0 < n)
    (events : List (Event α β))
    (hevents : ∀ optimizer, Event.preStep optimizer ∈ events → optimizer.sizes = sizes)
    {K : Nat} {steps : List (ScheduledStep α β)}
    (hsteps : ∀ step ∈ steps, step.invocations.length = K ∧
      ∀ o ∈ step.invocations, o.sizes = sizes)
    (hlength : steps.length = K * (sizes.map fun n => (n + s - 1) / s).sum)
    {records : List (Nat × TransitionCapture α β)}
    (hrecords : (events.foldl after (new s hs)).scheduledSteps steps = records.map some) :
    (∀ k < K, ∀ p n, sizes[p]? = some n → ∀ i < n,
      records.countP (capturesElement k p i) = 1) ∧
    List.Forall₂ CapturedIn steps records := by
  have hon := (onSlices_new sizes hs).events hpos events hevents
  generalize events.foldl after (new s hs) = r at hon hrecords
  by_cases hne : sizes = []
  · -- no parameter, no step
    subst hne
    obtain rfl := List.length_eq_zero_iff.mp hlength
    obtain rfl := List.map_eq_nil_iff.mp hrecords.symm
    exact ⟨fun _ _ _ _ hn => (by cases hn), .nil⟩
  refine ⟨fun k hk p n hn i hi => ?_,
    scheduledSteps_captured hpos hne (fun step hstep => (hsteps step hstep).2) hon hrecords⟩
  have hpositive : 0 < (slices s sizes).length :=
    List.length_pos_iff.mpr (slices_ne_nil hs hn (by omega))
  rw [← length_slices] at hlength
  -- the first step is captured, so the turn is of one of the invocations
  have hturn : r.invocationTarget < K := by
    cases steps with
    | nil =>
        rw [List.length_nil] at hlength
        rcases Nat.mul_eq_zero.mp hlength.symm with hzero | hzero
        · omega
        · omega
    | cons step steps =>
        obtain ⟨hK, hstep⟩ := hsteps step List.mem_cons_self
        rw [scheduledSteps] at hrecords
        obtain ⟨record, records, rfl, hfirst, -⟩ := List.map_eq_cons_iff.mp hrecords.symm
        obtain ⟨hat, hlt, -⟩ := scheduledStep_spec hon hpos hne hstep hfirst.symm
        rw [← hat, ← hK]
        exact hlt
  obtain ⟨position, hposition⟩ :=
    List.mem_iff_getElem?.mp (hon.cursor_mem hpos hne k)
  have hbound := (List.getElem?_eq_some_iff.mp hposition).choose
  rw [← Nat.mod_eq_of_lt hbound] at hposition
  obtain ⟨hlist, hlengths⟩ := scheduledSteps_eq hk hpos hne hsteps hon hrecords
    (Nat.mod_eq_of_lt hturn).symm hposition
  have hperm : ((records.map (sliceFor k)).filterMap id).Perm (slices s sizes) := by
    have hwindow := @window_perm _ (slices s sizes) ((k : Int) - K) K r.invocationTarget
      position (by omega) 0 steps.length (by omega)
      (by rw [Int.toNat_natCast, Nat.zero_add, Nat.mul_comm, hlength])
    rwa [window, List.drop_zero, List.take_of_length_le, ← hlist] at hwindow
    rw [List.length_map, List.length_range, Int.toNat_natCast, Nat.mul_comm, hlength]
  rw [← countP_slices hs hn hi, ← hperm.countP_eq, List.filterMap_map, List.countP_filterMap]
  refine List.countP_congr fun record hrecord => ?_
  rw [Function.comp_apply, id, sliceFor, capturesElement]
  by_cases hthis : record.1 = k
  · rw [if_pos hthis, Option.map_some, Option.getD_some, covers, decide_eq_true_eq,
      decide_eq_true_eq, hlengths record hrecord]
    constructor
    · rintro ⟨-, rfl, hle, hlt⟩
      rw [hn, Option.getD_some] at hlt
      exact ⟨rfl, hle, hlt⟩
    · rintro ⟨rfl, hle, hlt⟩
      rw [hn, Option.getD_some]
      exact ⟨hthis, rfl, hle, hlt⟩
  · rw [if_neg hthis, Option.map_none, Option.getD_none, decide_eq_true_eq]
    exact ⟨fun h => absurd h.1 hthis, fun h => absurd h Bool.false_ne_true⟩

/-! Two parameters, of three elements and of one. -/

def sampleOptimizer : Optimizer Nat Unit where
  paramGroups := [{
    params := [
      { isTensor := true, data := [1, 2, 3], grad := .dense [4, 5, 6]
        state := [("exp_avg", .tensor 1 [7, 8, 9])] },
      { isTensor := true, data := [1], grad := .dense [2], state := [] }]
    options := [("lr", .other ()), ("param_names", .list [.other (), .other ()])] }]
  tensors := []

def sampleStep : ScheduledStep Nat Unit where
  invocations := [sampleOptimizer, sampleOptimizer]
  unscheduled := [sampleOptimizer]

/-- One step of a single invocation came before. -/
def sampleEvents : List (Event Nat Unit) := [.arm, .preStep sampleOptimizer, .consume]

def sampleRecords : List (Nat × TransitionCapture Nat Unit) :=
  ((sampleEvents.foldl after (new 2 Nat.two_pos)).scheduledSteps
    (List.replicate 6 sampleStep)).filterMap id

theorem steps_cover_elements_sample :
    sampleRecords.length = 6 ∧ (∀ k < 2, ∀ p n, [3, 1][p]? = some n → ∀ i < n,
      sampleRecords.countP (capturesElement k p i) = 1) ∧
    List.Forall₂ CapturedIn (List.replicate 6 sampleStep) sampleRecords := by
  have hevents : ∀ optimizer, Event.preStep optimizer ∈ sampleEvents →
      optimizer.sizes = [3, 1] := by
    intro optimizer hmem
    simp only [sampleEvents, List.mem_cons, reduceCtorEq, Event.preStep.injEq, List.not_mem_nil,
      false_or, or_false] at hmem
    rw [hmem]
    rfl
  have hsteps : ∀ step ∈ List.replicate 6 sampleStep, step.invocations.length = 2 ∧
      ∀ o ∈ step.invocations, o.sizes = [3, 1] := by
    intro step hmem
    rw [List.eq_of_mem_replicate hmem]
    refine ⟨rfl, fun o ho => ?_⟩
    rcases List.mem_pair.mp ho with rfl | rfl
    · rfl
    · rfl
  exact ⟨rfl, steps_cover_elements Nat.two_pos (by decide) sampleEvents hevents hsteps rfl rfl⟩

end OptimizerStepReplay

end LmResiliency.Detection.OptimizerReplay
