/-
# FailedLatency — what the latency of a failed group can change

A failed group is slow whatever its latency, but the latency still takes part in
the baseline of its class.  The rest of the class is out of its reach when it
is fast for every baseline, and only then: a latency of zero makes every other
group of the class fast, and a small positive one makes a slow group of any
group with a positive latency.

The main result is `uninfluenced_iff`, for runs of any length.
-/
import LmResiliency.Detection.SwitchSuspects

namespace LmResiliency.Detection

/-! ## Rounds that differ in the latencies of failed groups -/

/-- Another latency for a failed group. -/
def GroupMeasurement.record (v : PyFloat) (m : GroupMeasurement) : GroupMeasurement :=
  if m.failed then { m with latencyS := v } else m

/-- Another latency for the failed groups of a round. -/
def SwitchRound.record (v : PyFloat) (r : SwitchRound) : SwitchRound :=
  { r with measurements := r.measurements.map (GroupMeasurement.record v) }

/-- All of a round but the latencies of its failed groups. -/
def SwitchRound.hidden : SwitchRound → SwitchRound := SwitchRound.record .nan

namespace GroupMeasurement

variable (v w : PyFloat) (m : GroupMeasurement)

@[simp] theorem record_failed : (m.record v).failed = m.failed := by
  unfold record
  split <;> rfl

@[simp] theorem record_members : (m.record v).members = m.members := by
  unfold record
  split <;> rfl

@[simp] theorem record_collective : (m.record v).collective = m.collective := by
  unfold record
  split <;> rfl

theorem record_record : (m.record v).record w = m.record w := by
  by_cases h : m.failed = true <;> simp [record, h]

variable {v m}

theorem record_of_failed (h : m.failed = true) : m.record v = { m with latencyS := v } :=
  if_pos h

theorem record_of_not_failed (h : m.failed = false) : m.record v = m := by
  rw [record, h]
  rfl

end GroupMeasurement

theorem SwitchRound.hidden_record (v : PyFloat) (r : SwitchRound) :
    (r.record v).hidden = r.hidden := by
  have hmap : (r.measurements.map (GroupMeasurement.record v)).map (GroupMeasurement.record .nan) =
      r.measurements.map (GroupMeasurement.record .nan) := by
    rw [List.map_map]
    exact List.map_congr_left fun m _ => m.record_record v .nan
  rw [hidden, record, record, hmap]
  rfl

namespace SwitchLocalizer

variable (L : SwitchLocalizer)

/-- The groups of a round that did not fail, and where each of them is put. -/
def others (r : SwitchRound) : List (GroupMeasurement × Option Bool) :=
  (L.sortedGroups r).filter (!·.1.failed)

/-- The suspects that a run reports, the last one first. -/
def suspects : List SwitchRound → List (Except TopologyError (Option String))
  | [] => []
  | r :: earlier => (L.observe r (L.run earlier)).map (·.1.suspect) :: suspects earlier

/-- Every run that differs from this one in the latencies of failed groups alone
puts the other groups where this one does, and reports the same suspects. -/
def Uninfluenced (calls : List SwitchRound) : Prop :=
  ∀ calls' : List SwitchRound, calls'.map SwitchRound.hidden = calls.map SwitchRound.hidden →
    calls'.map L.others = calls.map L.others ∧ L.suspects calls' = L.suspects calls

/-- A number above zero. -/
def Positive (m : GroupMeasurement) : Prop := PyFloat.lt (.finite 0) m.latencyS = true

/-- A class in which the groups that did not fail are fast for every baseline:
the first of the class has no number, or one of them is not above zero, or none is. -/
def Shielded (siblings : List GroupMeasurement) : Prop :=
  (∃ first ∈ siblings.head?, first.failed = false ∧ first.latencyS = .nan) ∨
  (∃ m ∈ siblings, m.failed = false ∧ m.latencyS ≠ .nan ∧ ¬Positive m) ∨
  ∀ m ∈ siblings, m.failed = false → ¬Positive m

/-- The class of a group. -/
def siblings (r : SwitchRound) (collective : String) : List GroupMeasurement :=
  r.measurements.filter (·.collective = collective)

/-- Every class with a failed group is shielded. -/
def Robust (r : SwitchRound) : Prop :=
  ∀ f ∈ r.measurements, f.failed = true → Shielded (siblings r f.collective)

/-! ## One class -/

/-- The fastest sibling, when the first one has a number. -/
theorem baseline_spec {first : GroupMeasurement} {rest : List GroupMeasurement}
    (h : first.latencyS ≠ .nan) :
    baseline (first :: rest) ≠ .nan ∧
      (∃ m ∈ first :: rest, baseline (first :: rest) = m.latencyS) ∧
      ∀ m ∈ first :: rest, m.latencyS ≠ .nan →
        (baseline (first :: rest)).place ≤ m.latencyS.place := by
  obtain ⟨hne, hmem, hle⟩ := PyFloat.minimum_spec h (rest.map GroupMeasurement.latencyS)
  rw [← List.map_cons, List.mem_map] at hmem
  obtain ⟨m, hm, heq⟩ := hmem
  refine ⟨hne, ⟨m, hm, heq.symm⟩, fun m hm => hle _ ?_⟩
  rw [← List.map_cons]
  exact List.mem_map_of_mem hm

theorem baseline_nan {first : GroupMeasurement} {rest : List GroupMeasurement}
    (h : first.latencyS = .nan) : baseline (first :: rest) = .nan := by
  rw [baseline, List.map_cons, h]
  exact PyFloat.minimum_nan _

variable {L}

theorem isSlow_of_not_failed {base : PyFloat} {m : GroupMeasurement} (h : m.failed = false) :
    L.isSlow base m = true ↔ PyFloat.lt (.finite 0) base = true ∧
      PyFloat.lt (base.scale L.slowFactor) m.latencyS = true := by
  rw [isSlow, h, Bool.false_or, Bool.and_eq_true]

/-- A sibling that is a number and not above zero makes every group fast. -/
theorem isSlow_false_of_sibling {ms : List GroupMeasurement} {n m : GroupMeasurement}
    (hn : n ∈ ms) (hnum : n.latencyS ≠ .nan) (hpos : ¬Positive n) (hm : m.failed = false) :
    L.isSlow (baseline ms) m = false := by
  refine Bool.eq_false_iff.mpr fun hslow => ?_
  obtain ⟨hbase, -⟩ := (isSlow_of_not_failed hm).mp hslow
  obtain ⟨hzero, hne⟩ := PyFloat.ne_nan_of_lt hbase
  cases ms with
  | nil => cases hn
  | cons first rest =>
      have hfirst : first.latencyS ≠ .nan := fun h => hne (baseline_nan h)
      have hle := (baseline_spec hfirst).2.2 n hn hnum
      rw [PyFloat.lt_iff hzero hne] at hbase
      exact hpos ((PyFloat.lt_iff hzero hnum).mpr (hbase.trans_le hle))

/-- In a shielded class only the failed groups are slow. -/
theorem isSlow_of_shielded {ms : List GroupMeasurement} (h : Shielded ms) {m : GroupMeasurement}
    (hm : m ∈ ms) : L.isSlow (baseline ms) m = m.failed := by
  cases hfailed : m.failed with
  | true => rw [isSlow, hfailed, Bool.true_or]
  | false =>
    rcases h with ⟨first, hfirst, -, hnan⟩ | ⟨n, hn, -, hnum, hpos⟩ | hnone
    · cases ms with
      | nil => cases hm
      | cons first' rest =>
          cases hfirst
          rw [isSlow, baseline_nan hnan, PyFloat.lt_nan, Bool.false_and, Bool.or_false, hfailed]
    · exact isSlow_false_of_sibling hn hnum hpos hfailed
    · refine Bool.eq_false_iff.mpr fun hslow => hnone m hm hfailed ?_
      -- the baseline is above zero, and the group stands no lower
      obtain ⟨hbase, habove⟩ := (isSlow_of_not_failed hfailed).mp hslow
      obtain ⟨hzero, hne⟩ := PyFloat.ne_nan_of_lt hbase
      obtain ⟨-, hnum⟩ := PyFloat.ne_nan_of_lt habove
      cases ms with
      | nil => cases hm
      | cons first rest =>
          have hfirst : first.latencyS ≠ .nan := fun h => hne (baseline_nan h)
          rw [PyFloat.lt_iff hzero hne] at hbase
          exact (PyFloat.lt_iff hzero hnum).mpr
            (hbase.trans_le ((baseline_spec hfirst).2.2 m hm hnum))

/-- What shields a class is not a latency of a failed group. -/
theorem shielded_record {v : PyFloat} {ms : List GroupMeasurement} :
    Shielded (ms.map (GroupMeasurement.record v)) ↔ Shielded ms := by
  have hsame : ∀ {m : GroupMeasurement}, m.failed = false → m.record v = m :=
    GroupMeasurement.record_of_not_failed
  refine or_congr ?_ (or_congr ?_ ?_)
  · cases ms with
    | nil => exact iff_of_false (by rintro ⟨_, h, -⟩; cases h) (by rintro ⟨_, h, -⟩; cases h)
    | cons first rest =>
        constructor
        · rintro ⟨_, ⟨⟩, hfailed, hnan⟩
          rw [GroupMeasurement.record_failed] at hfailed
          rw [hsame hfailed] at hnan
          exact ⟨first, rfl, hfailed, hnan⟩
        · rintro ⟨_, ⟨⟩, hfailed, hnan⟩
          refine ⟨first.record v, rfl, ?_, ?_⟩ <;> rw [hsame hfailed] <;> assumption
  · constructor
    · rintro ⟨_, hm, hfailed, hnum, hpos⟩
      obtain ⟨m, hmem, rfl⟩ := List.mem_map.mp hm
      rw [GroupMeasurement.record_failed] at hfailed
      rw [hsame hfailed] at hnum hpos
      exact ⟨m, hmem, hfailed, hnum, hpos⟩
    · rintro ⟨m, hmem, hfailed, hnum, hpos⟩
      exact ⟨m, List.mem_map.mpr ⟨m, hmem, hsame hfailed⟩, hfailed, hnum, hpos⟩
  · constructor
    · intro h m hmem hfailed
      exact h m (List.mem_map.mpr ⟨m, hmem, hsame hfailed⟩) hfailed
    · intro h _ hm hfailed
      obtain ⟨m, hmem, rfl⟩ := List.mem_map.mp hm
      rw [GroupMeasurement.record_failed] at hfailed
      rw [hsame hfailed]
      exact h m hmem hfailed

/-! ## One call -/

theorem siblings_record (v : PyFloat) (r : SwitchRound) (c : String) :
    siblings (r.record v) c = (siblings r c).map (GroupMeasurement.record v) := by
  rw [siblings, siblings, SwitchRound.record, List.filter_map]
  congr 2
  funext m
  rw [Function.comp_apply, GroupMeasurement.record_collective]

theorem robust_record {v : PyFloat} {r : SwitchRound} : Robust (r.record v) ↔ Robust r := by
  constructor
  · intro h f hf hfailed
    have hrecord := h (f.record v) (List.mem_map_of_mem hf) (by
      rw [GroupMeasurement.record_failed, hfailed])
    rw [siblings_record, shielded_record, GroupMeasurement.record_collective] at hrecord
    exact hrecord
  · intro h f' hf' hfailed
    obtain ⟨f, hf, rfl⟩ := List.mem_map.mp hf'
    rw [GroupMeasurement.record_failed] at hfailed
    rw [siblings_record, shielded_record, GroupMeasurement.record_collective]
    exact h f hf hfailed

/-- Other latencies of failed groups put every group of a robust round where it was. -/
theorem sortedGroups_record {r : SwitchRound} (h : Robust r) (v : PyFloat) :
    L.sortedGroups (r.record v) = (L.sortedGroups r).map fun p => (p.1.record v, p.2) := by
  have hgroup : Dict.group GroupMeasurement.collective (r.record v).measurements =
      (Dict.group GroupMeasurement.collective r.measurements).map
        fun p => (p.1, p.2.map (GroupMeasurement.record v)) :=
    Dict.group_map fun m _ => m.record_collective v
  rw [sortedGroups, sortedGroups, hgroup, List.flatMap_map, List.map_flatMap]
  refine List.flatMap_congr fun p hclass => ?_
  obtain ⟨c, ms⟩ := p
  obtain ⟨rfl, -⟩ := Dict.mem_group.mp hclass
  change List.map _ ((siblings r c).map (GroupMeasurement.record v)) = List.map _ (List.map _ _)
  rw [List.map_map, List.map_map]
  refine List.map_congr_left fun m hm => Prod.ext rfl ?_
  have hslow : L.isSlow (baseline ((siblings r c).map (GroupMeasurement.record v))) (m.record v) =
      L.isSlow (baseline (siblings r c)) m := by
    by_cases hclean : ∀ n ∈ siblings r c, n.failed = false
    · have hid : (siblings r c).map (GroupMeasurement.record v) = siblings r c :=
        (List.map_congr_left fun n hn => GroupMeasurement.record_of_not_failed (hclean n hn)).trans
          (List.map_id' _)
      rw [hid, GroupMeasurement.record_of_not_failed (hclean m hm)]
    · simp only [not_forall, Bool.not_eq_false] at hclean
      obtain ⟨f, hf, hfailed⟩ := hclean
      have hmem := List.mem_filter.mp hf
      have hshielded : Shielded (siblings r c) :=
        of_decide_eq_true hmem.2 ▸ h f hmem.1 hfailed
      rw [isSlow_of_shielded hshielded hm,
        isSlow_of_shielded (shielded_record.mpr hshielded) (List.mem_map_of_mem hm),
        GroupMeasurement.record_failed]
  have hexplained : isExplained r.computeStragglers (m.record v) =
      isExplained r.computeStragglers m := by
    rw [isExplained, isExplained, GroupMeasurement.record_members]
  change L.sorted (baseline ((siblings r c).map _)) r.computeStragglers (m.record v) =
    L.sorted (baseline (siblings r c)) r.computeStragglers m
  rw [sorted, sorted, hexplained, hslow]

theorem slow_record {r : SwitchRound} (h : Robust r) (v : PyFloat) :
    L.slow (r.record v) = (L.slow r).map (GroupMeasurement.record v) := by
  rw [slow, slow, sortedGroups_record h, List.filter_map, List.map_map, List.map_map]
  rfl

theorem fast_record {r : SwitchRound} (h : Robust r) (v : PyFloat) :
    L.fast (r.record v) = (L.fast r).map (GroupMeasurement.record v) := by
  rw [fast, fast, sortedGroups_record h, List.filter_map, List.map_map, List.map_map]
  rfl

theorem others_record {r : SwitchRound} (h : Robust r) (v : PyFloat) :
    L.others (r.record v) = L.others r := by
  have hfailed : ((fun p : GroupMeasurement × Option Bool => !p.1.failed) ∘
      fun p : GroupMeasurement × Option Bool => (p.1.record v, p.2)) = fun p => !p.1.failed := by
    funext p
    rw [Function.comp_apply, GroupMeasurement.record_failed]
  rw [others, others, sortedGroups_record h, List.filter_map, hfailed]
  refine (List.map_congr_left fun p hp => ?_).trans (List.map_id' _)
  have hp := (List.mem_filter.mp hp).2
  rw [Bool.not_eq_true'] at hp
  rw [GroupMeasurement.record_of_not_failed hp]

theorem hittingSet_record (v : PyFloat) (slow fast : List GroupMeasurement) :
    L.hittingSet (slow.map (GroupMeasurement.record v)) (fast.map (GroupMeasurement.record v)) =
      L.hittingSet slow fast := by
  have hpaths : ∀ ms : List GroupMeasurement,
      (ms.map (GroupMeasurement.record v)).mapM (fun m => L.topology.switchesOnPath m.members) =
        ms.mapM fun m => L.topology.switchesOnPath m.members := by
    intro ms
    rw [List.mapM_map]
    congr 1
    funext m
    rw [Function.comp_apply, GroupMeasurement.record_members]
  rw [hittingSet, hittingSet, hpaths, hpaths]

/-- **A call on a robust round** does the same whatever the latencies of failed groups are. -/
theorem observe_record {r : SwitchRound} (h : Robust r) (v : PyFloat)
    (state : Streak.Count String) : L.observe (r.record v) state = L.observe r state := by
  have hmembers : ((L.slow r).map (GroupMeasurement.record v)).map GroupMeasurement.members =
      (L.slow r).map GroupMeasurement.members := by
    rw [List.map_map]
    exact List.map_congr_left fun m _ => m.record_members v
  have hcommon : commonNodes ((L.slow r).map (GroupMeasurement.record v)) =
      commonNodes (L.slow r) := by
    rw [commonNodes, commonNodes, hmembers]
  simp only [observe, slow_record h, fast_record h, hcommon, hittingSet_record,
    List.map_eq_nil_iff, List.length_map]

/-! ## Two runs -/

/-- Rounds with the same hidden part do the same when one of them is robust. -/
theorem same_of_hidden {r r' : SwitchRound} (h : Robust r) (hr : r'.hidden = r.hidden) :
    L.others r' = L.others r ∧ ∀ state, L.observe r' state = L.observe r state := by
  have h' : Robust r' := robust_record.mp (hr ▸ robust_record.mpr h : Robust r'.hidden)
  constructor
  · rw [← others_record h' .nan, ← others_record h .nan]
    exact congrArg L.others hr
  · intro state
    rw [← observe_record h' .nan, ← observe_record h .nan]
    exact congrArg (L.observe · state) hr

theorem uninfluenced_of_robust {calls : List SwitchRound} (h : ∀ r ∈ calls, Robust r) :
    L.Uninfluenced calls := by
  have hrun : ∀ calls' : List SwitchRound,
      calls'.map SwitchRound.hidden = calls.map SwitchRound.hidden →
      L.run calls' = L.run calls ∧ calls'.map L.others = calls.map L.others ∧
        L.suspects calls' = L.suspects calls := by
    induction calls with
    | nil =>
        intro calls' hcalls
        obtain rfl := List.map_eq_nil_iff.mp hcalls
        exact ⟨rfl, rfl, rfl⟩
    | cons r earlier ih =>
        intro calls' hcalls
        obtain ⟨r', earlier', rfl, hr, hearlier⟩ := List.map_eq_cons_iff.mp hcalls
        obtain ⟨hrest, hothers, hsuspects⟩ :=
          ih (fun q hq => h q (List.mem_cons_of_mem r hq)) earlier' hearlier
        obtain ⟨hput, hobserve⟩ := same_of_hidden (L := L) (h r List.mem_cons_self) hr
        refine ⟨?_, ?_, ?_⟩
        · rw [run, run, hrest, after, after, hobserve]
        · rw [List.map_cons, List.map_cons, hput, hothers]
        · rw [suspects, suspects, hrest, hobserve, hsuspects]
  exact fun calls' hcalls => (hrun calls' hcalls).2

/-! ## A class that is not shielded -/

theorem mem_sortedGroups {r : SwitchRound} {p : GroupMeasurement × Option Bool} :
    p ∈ L.sortedGroups r ↔ p.1 ∈ r.measurements ∧
      p.2 = L.sorted (baseline (siblings r p.1.collective)) r.computeStragglers p.1 := by
  rw [sortedGroups, List.mem_flatMap]
  constructor
  · rintro ⟨⟨c, ms⟩, hclass, hp⟩
    obtain ⟨rfl, -⟩ := Dict.mem_group.mp hclass
    obtain ⟨m, hm, rfl⟩ := List.mem_map.mp hp
    have hmem := List.mem_filter.mp hm
    obtain rfl : m.collective = c := of_decide_eq_true hmem.2
    exact ⟨hmem.1, rfl⟩
  · rintro ⟨hm, hput⟩
    have hclass : p.1 ∈ siblings r p.1.collective :=
      List.mem_filter.mpr ⟨hm, decide_eq_true rfl⟩
    exact ⟨(p.1.collective, siblings r p.1.collective),
      Dict.mem_group.mpr ⟨rfl, List.ne_nil_of_mem hclass⟩,
      List.mem_map.mpr ⟨p.1, hclass, Prod.ext rfl hput.symm⟩⟩

theorem mem_others {r : SwitchRound} {m : GroupMeasurement} {put : Option Bool} :
    (m, put) ∈ L.others r ↔ m ∈ r.measurements ∧ m.failed = false ∧
      put = L.sorted (baseline (siblings r m.collective)) r.computeStragglers m := by
  rw [others, List.mem_filter, mem_sortedGroups, Bool.not_eq_true', and_assoc,
    and_comm (a := _ = L.sorted _ _ _)]

theorem sorted_eq_fast_iff {base : PyFloat} {stragglers : List String} {m : GroupMeasurement} :
    L.sorted base stragglers m = some false ↔ L.isSlow base m = false := by
  rw [sorted]
  cases L.isSlow base m <;> cases isExplained stragglers m <;> simp

/-- With a latency of zero for the failed groups, the others are fast. -/
theorem isSlow_record_zero {ms : List GroupMeasurement} {f m : GroupMeasurement} (hf : f ∈ ms)
    (hfailed : f.failed = true) (hm : m.failed = false) :
    L.isSlow (baseline (ms.map (GroupMeasurement.record (.finite 0)))) m = false := by
  have hrecord := GroupMeasurement.record_of_failed (v := .finite 0) hfailed
  refine isSlow_false_of_sibling (List.mem_map_of_mem hf) ?_ ?_ hm
  · rw [hrecord]
    exact PyFloat.noConfusion
  · rw [Positive, hrecord]
    exact of_decide_eq_false rfl

/-- A latency above zero that is slow against every baseline up to some bound. -/
theorem exists_slow_below (k : ℚ) {x : PyFloat} (h : PyFloat.lt (.finite 0) x = true) :
    ∃ ε : ℚ, 0 < ε ∧ ∀ b : ℚ, 0 < b → b ≤ ε →
      PyFloat.lt ((PyFloat.finite b).scale k) x = true := by
  cases x with
  | nan => cases h
  | inf negative =>
      cases negative with
      | true => cases h
      | false => exact ⟨1, one_pos, fun _ _ _ => rfl⟩
  | finite q =>
      have hq : 0 < q := of_decide_eq_true h
      have hk : 0 < |k| + 1 := by positivity
      refine ⟨q / (|k| + 1), div_pos hq hk, fun b hb hle => decide_eq_true ?_⟩
      calc k * b ≤ |k| * b := mul_le_mul_of_nonneg_right (le_abs_self k) hb.le
        _ < (|k| + 1) * b := mul_lt_mul_of_pos_right (lt_add_one _) hb
        _ ≤ (|k| + 1) * (q / (|k| + 1)) := mul_le_mul_of_nonneg_left hle hk.le
        _ = q := mul_div_cancel₀ q hk.ne'

/-- **In a class that is not shielded** some latency of its failed groups makes a slow
group of one that did not fail. -/
theorem exists_slow_of_not_shielded {ms : List GroupMeasurement} {f : GroupMeasurement}
    (hf : f ∈ ms) (hfailed : f.failed = true) (h : ¬Shielded ms) :
    ∃ m ∈ ms, m.failed = false ∧ ∃ v,
      L.isSlow (baseline (ms.map (GroupMeasurement.record v))) m = true := by
  simp only [Shielded, not_or, not_forall, not_not, not_exists, not_and, exists_prop] at h
  obtain ⟨hfirst, hnumbers, m, hm, hmfailed, hpos⟩ := h
  obtain ⟨ε, hε, hslow⟩ := exists_slow_below L.slowFactor hpos
  refine ⟨m, hm, hmfailed, .finite ε, ?_⟩
  -- every latency that is a number is above zero, the given one among them
  have hnumber : ∀ n ∈ ms.map (GroupMeasurement.record (.finite ε)), n.latencyS ≠ .nan →
      Positive n := by
    intro n hn hnum
    obtain ⟨n, hmem, rfl⟩ := List.mem_map.mp hn
    cases hnfailed : n.failed with
    | true =>
        rw [Positive, GroupMeasurement.record_of_failed hnfailed]
        exact decide_eq_true hε
    | false =>
        rw [GroupMeasurement.record_of_not_failed hnfailed] at hnum ⊢
        exact hnumbers n hmem hnfailed hnum
  have hgiven : f.record (.finite ε) ∈ ms.map (GroupMeasurement.record (.finite ε)) :=
    List.mem_map_of_mem hf
  cases ms with
  | nil => cases hf
  | cons first rest =>
      have hnum : (first.record (.finite ε)).latencyS ≠ .nan := by
        cases hnfailed : first.failed with
        | true =>
            rw [GroupMeasurement.record_of_failed hnfailed]
            exact PyFloat.noConfusion
        | false =>
            rw [GroupMeasurement.record_of_not_failed hnfailed]
            exact hfirst first rfl hnfailed
      rw [List.map_cons] at hnumber hgiven ⊢
      obtain ⟨hne, ⟨n, hn, heq⟩, hle⟩ := @baseline_spec _ (rest.map _) hnum
      have hbase := hnumber n hn (heq ▸ hne)
      rw [Positive, ← heq] at hbase
      have hbelow := hle _ hgiven (by
        rw [GroupMeasurement.record_of_failed hfailed]
        exact PyFloat.noConfusion)
      rw [GroupMeasurement.record_of_failed hfailed] at hbelow
      rw [isSlow_of_not_failed hmfailed]
      refine ⟨hbase, ?_⟩
      -- so the baseline is a finite number up to the given one
      generalize baseline (first.record (.finite ε) :: rest.map _) = base at hbase hbelow
      cases base with
      | nan => cases hbase
      | inf negative =>
          cases negative with
          | true => cases hbase
          | false => simp [PyFloat.place] at hbelow
      | finite b =>
          refine hslow b (of_decide_eq_true hbase) ?_
          simpa [PyFloat.place] using hbelow

theorem robust_of_uninfluenced {calls : List SwitchRound} (h : L.Uninfluenced calls) :
    ∀ r ∈ calls, Robust r := by
  intro r hr f hf hfailed
  by_contra hshielded
  -- two more runs, with these latencies for all failed groups
  have hmoved : ∀ v, L.others (r.record v) = L.others r := by
    intro v
    have hcalls := (h (calls.map (SwitchRound.record v)) (by
      rw [List.map_map]
      exact List.map_congr_left fun q _ => q.hidden_record v)).1
    rw [List.map_map] at hcalls
    exact List.map_inj_left.mp hcalls r hr
  have hclass : f ∈ siblings r f.collective := List.mem_filter.mpr ⟨hf, decide_eq_true rfl⟩
  obtain ⟨m, hm, hmfailed, v, hslow⟩ := exists_slow_of_not_shielded (L := L) hclass hfailed hshielded
  obtain ⟨hmem, hc⟩ := List.mem_filter.mp hm
  have hput : ∀ w, (m, L.sorted (baseline ((siblings r f.collective).map
      (GroupMeasurement.record w))) r.computeStragglers m) ∈ L.others r := by
    intro w
    rw [← hmoved w, mem_others, siblings_record, of_decide_eq_true hc]
    refine ⟨List.mem_map.mpr ⟨m, hmem, GroupMeasurement.record_of_not_failed hmfailed⟩,
      hmfailed, rfl⟩
  -- a group is put in one place
  have hzero := (mem_others.mp (hput (.finite 0))).2.2
  have hthat := (mem_others.mp (hput v)).2.2
  have hfast : L.sorted _ r.computeStragglers m = some false :=
    sorted_eq_fast_iff.mpr (isSlow_record_zero (L := L) hclass hfailed hmfailed)
  rw [hzero.trans hthat.symm, sorted_eq_fast_iff, hslow] at hfast
  cases hfast

/-- **A run is not influenced by the latencies of its failed groups** if and only if
every class with a failed group is shielded. -/
theorem uninfluenced_iff (L : SwitchLocalizer) (calls : List SwitchRound) :
    L.Uninfluenced calls ↔ ∀ r ∈ calls, Robust r :=
  ⟨robust_of_uninfluenced, uninfluenced_of_robust⟩

/-! ## A latency that moves the baseline -/

/-- A hang of the second node and a healthy group of the first. -/
def hangRound (latency : PyFloat) : SwitchRound where
  measurements := [{ groupId := "g0", members := ["y"], collective := "all_reduce",
                     latencyS := latency, failed := true },
                   { groupId := "g1", members := ["x"], collective := "all_reduce",
                     latencyS := .finite 1 }]

/-- With a hang recorded at a tenth of a second the healthy group is slow, and the
node of the hang is not the suspect any more. -/
theorem hangRound_influenced :
    ¬(ofTopology twoLeaves 3).Uninfluenced [hangRound (.finite 1)] := by
  intro h
  have hsuspects := (h [hangRound (.finite (1 / 10))] rfl).2
  revert hsuspects
  decide +kernel

end SwitchLocalizer

end LmResiliency.Detection
