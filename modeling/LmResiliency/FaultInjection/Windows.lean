/-
# Windows — when the faults of two incidents may be active together

An occurrence of an incident is active from a candidate of its trigger on, for as
long as the incident lasts.  Two incidents with a target in common must never be
active at the same iteration, so a campaign is checked for windows that meet: by
trying the candidates of the incident that has fewer of them, or with one
comparison of two progressions for each distance between the starts.

The main result is `overlap_exact`: the check never misses a common iteration,
and where it is exact it reports no other.
-/
import LmResiliency.FaultInjection.Schedule
import Mathlib.Data.List.Pairwise

namespace LmResiliency.FaultInjection

open Progression

/-! ## The code -/

/-- `_incident_iteration_duration`; `none` when there is no bound. -/
def iterationDuration (incident : FaultIncident) : Option Int :=
  match incident.lifetime with
  | .iterations count _ => some count
  | .matchingCalls calls _ => if 1 < calls then none else some 1
  | .permanent _ => none

def triggerCandidateCount (incident : FaultIncident) : Int :=
  match incident.trigger.range with
  | none => incident.trigger.exactAt.length
  | some range => 1 + (range.endAt - range.start) / range.every

def triggers (incident : FaultIncident) : List Int :=
  match incident.trigger.range with
  | none => incident.trigger.exactAt
  | some range => pyRange range.start (range.endAt + 1) range.every

/-- `x <= high`, where `none` is infinity. -/
def upTo (high : Option Int) (x : Int) : Bool :=
  match high with
  | none => true
  | some high => x ≤ high

def triggerHasCandidateBetween (incident : FaultIncident) (low : Int) (high : Option Int) : Bool :=
  match incident.trigger.range with
  | some range =>
      let candidate :=
        if range.start < low then
          range.start + (low - range.start + range.every - 1) / range.every * range.every
        else range.start
      candidate ≤ range.endAt && upTo high candidate
  | none =>
      match incident.trigger.exactAt[bisectLeft incident.trigger.exactAt low]? with
      | some candidate => upTo high candidate
      | none => false

def candidateWindowHitsIncident (iteration : Int) (owner other : FaultIncident) : Bool :=
  let low := match iterationDuration other with
    | none => 1
    | some duration => max 1 (iteration - duration + 1)
  let high := (iterationDuration owner).map (iteration + · - 1)
  triggerHasCandidateBetween other low high

/-- `_incident_window_bounds`; a trigger without a range has exact candidates. -/
def incidentWindowBounds (incident : FaultIncident) : Int × Option Int :=
  let first := match incident.trigger.range with
    | some range => range.start
    | none => incident.trigger.exactAt.headD 0
  let last := match incident.trigger.range with
    | some range => range.endAt
    | none => incident.trigger.exactAt.getLastD 0
  (first, (iterationDuration incident).map (last + · - 1))

def boundedProgressionsIntersect
    (leftStart leftEnd leftStep rightStart rightEnd rightStep : Int) : Bool :=
  let low := max leftStart rightStart
  let high := min leftEnd rightEnd
  if high < low then false
  else
    let divisor : Int := Int.gcd leftStep rightStep
    let difference := rightStart - leftStart
    if difference % divisor ≠ 0 then false
    else
      let leftReduced := leftStep / divisor
      let rightReduced := rightStep / divisor
      let multiplier :=
        if 1 < rightReduced then
          difference / divisor * modInverse leftReduced rightReduced % rightReduced
        else 0
      let candidate := leftStart + leftStep * multiplier
      let period := leftStep * rightReduced
      let candidate :=
        if candidate < low then candidate + (low - candidate + period - 1) / period * period
        else candidate
      candidate ≤ high

def incidentWindowsMayOverlap (left right : FaultIncident) : Bool :=
  let leftCount := triggerCandidateCount left
  let rightCount := triggerCandidateCount right
  if min leftCount rightCount ≤ 10000 then
    if leftCount ≤ rightCount then
      (triggers left).any fun value => candidateWindowHitsIncident value left right
    else (triggers right).any fun value => candidateWindowHitsIncident value right left
  else
    let (leftStart, leftEnd) := incidentWindowBounds left
    let (rightStart, rightEnd) := incidentWindowBounds right
    if !upTo rightEnd leftStart || !upTo leftEnd rightStart then false
    else
      match iterationDuration left, iterationDuration right, left.trigger.range,
          right.trigger.range with
      | some leftDuration, some rightDuration, some leftRange, some rightRange =>
          let offsetLow := -(rightDuration - 1)
          let offsetHigh := leftDuration - 1
          if offsetHigh - offsetLow ≤ 10000 then
            (pyRange offsetLow (offsetHigh + 1) 1).any fun offset =>
              boundedProgressionsIntersect
                leftRange.start leftRange.endAt leftRange.every
                (rightRange.start - offset) (rightRange.endAt - offset) rightRange.every
          else true
      | _, _, _, _ => true

/-! ## Windows -/

/-- An occurrence that begins at `start` is active at an iteration: for its iterations, or until
its calls are over, where a single call is over within its iteration, or without an end. -/
def ActiveAt (incident : FaultIncident) (start iteration : Int) : Prop :=
  start ≤ iteration ∧
    match incident.lifetime with
    | .iterations count _ => iteration < start + count
    | .matchingCalls calls _ => calls = 1 → iteration = start
    | .permanent _ => True

/-- A window of the one incident meets a window of the other. -/
def WindowsIntersect (left right : FaultIncident) : Prop :=
  ∃ s t iteration, left.trigger.matchesAt s = true ∧ right.trigger.matchesAt t = true ∧
    ActiveAt left s iteration ∧ ActiveAt right t iteration

/-- What the occurrences of an incident that begins at `s` may still see begin. -/
def Reaches (incident : FaultIncident) (s t : Int) : Prop :=
  ∀ duration, iterationDuration incident = some duration → t ≤ s + duration - 1

theorem iterationDuration_pos {incident : FaultIncident} {duration : Int}
    (h : iterationDuration incident = some duration) : 0 < duration := by
  unfold iterationDuration at h
  split at h
  · rename_i count pos _
    exact Option.some.inj h ▸ pos
  · split at h
    · cases h
    · rw [← Option.some.inj h]
      decide
  · cases h

theorem activeAt_iff {incident : FaultIncident} {start iteration : Int} :
    ActiveAt incident start iteration ↔ start ≤ iteration ∧
      ∀ duration, iterationDuration incident = some duration →
        iteration ≤ start + duration - 1 := by
  rw [ActiveAt]
  refine and_congr_right fun hstart => ?_
  unfold iterationDuration
  cases incident.lifetime with
  | iterations count pos =>
      constructor
      · rintro h duration ⟨⟩
        dsimp only at h
        omega
      · intro h
        have := h count rfl
        dsimp only
        omega
  | matchingCalls calls pos =>
      dsimp only
      split
      · rename_i hmany
        exact iff_of_true (fun hone => absurd hone hmany.ne') fun _ h => by cases h
      · constructor
        · rintro h duration ⟨⟩
          have := h (by omega)
          omega
        · intro h _
          have := h 1 rfl
          omega
  | permanent ends => exact iff_of_true trivial fun _ h => by cases h

/-- An occurrence that the session lets expire is active up to its expiration. -/
theorem activeAt_of_offset {incident : FaultIncident} {start iteration offset : Int}
    (h : offsetOf true incident = some offset) :
    ActiveAt incident start iteration ↔ start ≤ iteration ∧ iteration ≤ start + offset := by
  obtain ⟨count, hcount, rfl⟩ := Option.map_eq_some_iff.mp h
  rw [ActiveAt]
  refine and_congr_right fun _ => ?_
  cases hlifetime : incident.lifetime with
  | iterations n pos =>
      rw [hlifetime] at hcount
      obtain rfl := Option.some.inj hcount
      dsimp only
      omega
  | matchingCalls calls pos =>
      rw [hlifetime] at hcount
      cases hcount
  | permanent ends =>
      rw [hlifetime] at hcount
      cases hcount

/-- Two windows meet when neither ends before the other begins. -/
theorem exists_active_iff {left right : FaultIncident} {s t : Int} :
    (∃ iteration, ActiveAt left s iteration ∧ ActiveAt right t iteration) ↔
      Reaches left s t ∧ Reaches right t s := by
  simp only [activeAt_iff]
  constructor
  · rintro ⟨iteration, ⟨hs, hleft⟩, ht, hright⟩
    refine ⟨fun duration h => ?_, fun duration h => ?_⟩
    · have := hleft duration h
      omega
    · have := hright duration h
      omega
  · rintro ⟨hleft, hright⟩
    refine ⟨max s t, ⟨le_max_left s t, fun duration h => ?_⟩, le_max_right s t,
      fun duration h => ?_⟩
    · have := hleft duration h
      have := iterationDuration_pos h
      omega
    · have := hright duration h
      have := iterationDuration_pos h
      omega

theorem windowsIntersect_iff {left right : FaultIncident} : WindowsIntersect left right ↔
    ∃ s t, left.trigger.matchesAt s = true ∧ right.trigger.matchesAt t = true ∧
      Reaches left s t ∧ Reaches right t s := by
  refine exists_congr fun s => exists_congr fun t => ?_
  rw [← exists_active_iff]
  constructor
  · rintro ⟨iteration, hs, ht, hactive⟩
    exact ⟨hs, ht, iteration, hactive⟩
  · rintro ⟨hs, ht, iteration, hactive⟩
    exact ⟨iteration, hs, ht, hactive⟩

theorem windowsIntersect_comm {left right : FaultIncident} :
    WindowsIntersect left right ↔ WindowsIntersect right left := by
  have hsymm : ∀ left right, WindowsIntersect left right → WindowsIntersect right left := by
    rintro left right ⟨s, t, iteration, hs, ht, hleft, hright⟩
    exact ⟨t, s, iteration, ht, hs, hright, hleft⟩
  exact ⟨hsymm left right, hsymm right left⟩

/-! ## The candidates of one incident -/

theorem upTo_eq_true {high : Option Int} {x : Int} :
    upTo high x = true ↔ ∀ h, high = some h → x ≤ h := by
  cases high with
  | none => exact ⟨fun _ h hh => (by cases hh), fun _ => rfl⟩
  | some high =>
      rw [upTo, decide_eq_true_iff]
      exact ⟨fun hx h hh => Option.some.inj hh ▸ hx, fun hx => hx high rfl⟩

theorem mem_triggers {incident : FaultIncident} {t : Int} :
    t ∈ triggers incident ↔ incident.trigger.matchesAt t = true := by
  unfold triggers
  cases hrange : incident.trigger.range with
  | none => exact (IncidentTrigger.matchesAt_exact hrange).symm
  | some range =>
      rw [IncidentTrigger.matchesAt_range hrange]
      exact mem_pyRange range.every_pos

theorem triggerHasCandidateBetween_eq (incident : FaultIncident) (low : Int) (high : Option Int) :
    triggerHasCandidateBetween incident low high =
      (nextTriggerAtOrAfter incident low).any (upTo high) := by
  unfold triggerHasCandidateBetween nextTriggerAtOrAfter
  cases hrange : incident.trigger.range with
  | none =>
      dsimp only
      split <;> rename_i hnext <;> rw [hnext] <;> rfl
  | some range =>
      dsimp only
      by_cases hlow : range.start < low
      · rw [if_pos hlow, if_neg (Int.not_le.mpr hlow)]
        split <;> rename_i hend
        · rw [decide_eq_true hend, Bool.true_and, Option.any_some]
        · rw [decide_eq_false hend, Bool.false_and, Option.any_none]
      · rw [if_neg hlow, if_pos (Int.not_lt.mp hlow), decide_eq_true range.start_le,
          Bool.true_and, Option.any_some]

theorem triggerHasCandidateBetween_iff {incident : FaultIncident} {low : Int}
    {high : Option Int} : triggerHasCandidateBetween incident low high = true ↔
      ∃ t, incident.trigger.matchesAt t = true ∧ low ≤ t ∧ upTo high t = true := by
  obtain ⟨hsome, hnone⟩ := nextTriggerAtOrAfter_spec incident low
  rw [triggerHasCandidateBetween_eq]
  cases hnext : nextTriggerAtOrAfter incident low with
  | none =>
      refine ⟨fun h => (by cases h), ?_⟩
      rintro ⟨t, ht, hlow, -⟩
      exact absurd hlow (Int.not_le.mpr (hnone hnext t ht))
  | some first =>
      obtain ⟨hmatch, hlow, hleast⟩ := hsome first hnext
      rw [Option.any_some]
      refine ⟨fun h => ⟨first, hmatch, hlow, h⟩, ?_⟩
      rintro ⟨t, ht, hlow, hhigh⟩
      rw [upTo_eq_true] at hhigh ⊢
      exact fun high hh => (hleast t ht hlow).trans (hhigh high hh)

/-- **One candidate** of the owner against every window of the other incident. -/
theorem candidateWindowHitsIncident_iff {iteration : Int} {owner other : FaultIncident} :
    candidateWindowHitsIncident iteration owner other = true ↔
      ∃ t, other.trigger.matchesAt t = true ∧ Reaches owner iteration t ∧
        Reaches other t iteration := by
  unfold candidateWindowHitsIncident
  rw [triggerHasCandidateBetween_iff]
  refine exists_congr fun t => and_congr_right fun ht => ?_
  have hpos := IncidentTrigger.matchesAt_pos ht
  rw [and_comm, upTo_eq_true]
  refine and_congr ?_ ?_
  · unfold Reaches
    constructor
    · exact fun h duration hduration => h _ (by rw [hduration, Option.map_some])
    · rintro h high hhigh
      obtain ⟨duration, hduration, rfl⟩ := Option.map_eq_some_iff.mp hhigh
      exact h duration hduration
  · unfold Reaches
    cases hduration : iterationDuration other with
    | none => exact ⟨fun _ duration h => (by cases h), fun _ => hpos⟩
    | some duration =>
        rw [max_le_iff]
        constructor
        · intro h duration' heq
          obtain rfl := Option.some.inj heq
          omega
        · intro h
          have := h duration rfl
          omega

/-- Trying every candidate of one incident decides whether windows meet. -/
theorem any_triggers_iff {owner other : FaultIncident} :
    ((triggers owner).any fun value => candidateWindowHitsIncident value owner other) = true ↔
      WindowsIntersect owner other := by
  rw [List.any_eq_true, windowsIntersect_iff]
  constructor
  · rintro ⟨s, hs, hhits⟩
    obtain ⟨t, ht, hreaches⟩ := candidateWindowHitsIncident_iff.mp hhits
    exact ⟨s, t, mem_triggers.mp hs, ht, hreaches⟩
  · rintro ⟨s, t, hs, ht, hreaches⟩
    exact ⟨s, mem_triggers.mpr hs, candidateWindowHitsIncident_iff.mpr ⟨t, ht, hreaches⟩⟩

theorem headD_le_and_le_getLastD {xs : List Int} (h : xs.Pairwise (· < ·)) {x : Int}
    (hx : x ∈ xs) : xs.headD 0 ≤ x ∧ x ≤ xs.getLastD 0 := by
  have hne : xs ≠ [] := List.ne_nil_of_mem hx
  have hle : xs.Pairwise (· ≤ ·) := h.imp le_of_lt
  have hhead := hle.rel_head hx
  have hlast := hle.rel_getLast hx
  rw [List.headD_eq_head?_getD, List.head?_eq_some_head hne, List.getLastD_eq_getLast?,
    List.getLast?_eq_some_getLast hne]
  exact ⟨hhead, hlast⟩

/-- The windows of an incident lie between its bounds. -/
theorem incidentWindowBounds_spec {incident : FaultIncident} {s iteration : Int}
    (hs : incident.trigger.matchesAt s = true) (hactive : ActiveAt incident s iteration) :
    (incidentWindowBounds incident).1 ≤ iteration ∧
      upTo (incidentWindowBounds incident).2 iteration = true := by
  have hbounds : (incidentWindowBounds incident).1 ≤ s ∧ ∃ last, s ≤ last ∧
      (incidentWindowBounds incident).2 =
        (iterationDuration incident).map (last + · - 1) := by
    unfold incidentWindowBounds
    cases hrange : incident.trigger.range with
    | some range =>
        rw [IncidentTrigger.matchesAt_range hrange, member_iff range.every_pos] at hs
        exact ⟨hs.1, range.endAt, hs.2.1, rfl⟩
    | none =>
        rw [IncidentTrigger.matchesAt_exact hrange] at hs
        obtain ⟨hfirst, hlast⟩ := headD_le_and_le_getLastD incident.trigger.at_sorted hs
        exact ⟨hfirst, _, hlast, rfl⟩
  obtain ⟨hfirst, last, hlast, heq⟩ := hbounds
  refine ⟨hfirst.trans hactive.1, ?_⟩
  rw [heq, upTo_eq_true]
  intro high hhigh
  obtain ⟨duration, hduration, rfl⟩ := Option.map_eq_some_iff.mp hhigh
  have := (activeAt_iff.mp hactive).2 duration hduration
  omega

/-- Incidents whose bounds lie apart have no windows that meet. -/
theorem not_windowsIntersect_of_bounds {left right : FaultIncident}
    (h : upTo (incidentWindowBounds right).2 (incidentWindowBounds left).1 = false ∨
      upTo (incidentWindowBounds left).2 (incidentWindowBounds right).1 = false) :
    ¬ WindowsIntersect left right := by
  rintro ⟨s, t, iteration, hs, ht, hleft, hright⟩
  obtain ⟨hl1, hl2⟩ := incidentWindowBounds_spec hs hleft
  obtain ⟨hr1, hr2⟩ := incidentWindowBounds_spec ht hright
  rw [upTo_eq_true] at hl2 hr2
  rcases h with h | h <;>
    refine absurd (upTo_eq_true.mpr fun high hhigh => ?_) (by rw [h]; decide)
  · exact hl1.trans (hr2 high hhigh)
  · exact hr1.trans (hl2 high hhigh)

/-! ## Two progressions -/

theorem multiplier_eq {m x : Int} (hm : 0 < m) : (if 1 < m then x % m else 0) = x % m := by
  split
  · rfl
  · obtain rfl : m = 1 := by omega
    rw [Int.emod_one]

/-- **Two finite progressions** share a value exactly when the test says so. -/
theorem boundedProgressionsIntersect_iff
    {leftStart leftEnd leftStep rightStart rightEnd rightStep : Int}
    (hleft : 0 < leftStep) (hright : 0 < rightStep) :
    boundedProgressionsIntersect leftStart leftEnd leftStep rightStart rightEnd rightStep = true ↔
      ∃ x, Member leftStart leftEnd leftStep x ∧ Member rightStart rightEnd rightStep x := by
  simp only [member_iff hleft, member_iff hright]
  unfold boundedProgressionsIntersect
  dsimp only
  split
  · rename_i hlow
    refine ⟨fun h => (by cases h), ?_⟩
    rintro ⟨x, ⟨hls, hle, -⟩, hrs, hre, -⟩
    omega
  · rename_i hlow
    split
    · rename_i hmod
      refine ⟨fun h => (by cases h), ?_⟩
      rintro ⟨x, ⟨-, -, hl⟩, -, -, hr⟩
      refine absurd (Int.emod_eq_zero_of_dvd ?_) hmod
      have hl := (Int.gcd_dvd_left leftStep rightStep).trans hl
      have hr := (Int.gcd_dvd_right leftStep rightStep).trans hr
      have := Int.dvd_sub hl hr
      rwa [sub_sub_sub_cancel_left] at this
    · rename_i hmod
      have hdvd := Int.dvd_of_emod_eq_zero (not_not.mp hmod)
      have hpos : 0 < (Int.gcd leftStep rightStep : Int) :=
        Int.natCast_pos.mpr (Int.gcd_pos_of_ne_zero_left _ hleft.ne')
      have hreduced : 0 < rightStep / Int.gcd leftStep rightStep :=
        Int.ediv_pos_of_pos_of_dvd hright hpos.le (Int.gcd_dvd_right leftStep rightStep)
      rw [multiplier_eq hreduced, decide_eq_true_iff]
      change (if firstShared leftStart leftStep rightStart rightStep < max leftStart rightStart
        then alignUp (firstShared leftStart leftStep rightStart rightStep)
          (leftStep * (rightStep / Int.gcd leftStep rightStep)) (max leftStart rightStart)
        else firstShared leftStart leftStep rightStart rightStep) ≤ min leftEnd rightEnd ↔ _
      rw [align_le_iff (Int.mul_pos hleft hreduced) fun y hlow hy =>
        firstShared_le hleft hright hy ((le_max_left _ _).trans hlow)]
      refine exists_congr fun x => ?_
      rw [← shared_iff hleft hdvd]
      omega

/-- Two ranges: their windows meet at one of the distances between the starts. -/
theorem windowsIntersect_ranges {left right : FaultIncident}
    {leftRange rightRange : IterationRange} {leftDuration rightDuration : Int}
    (hlr : left.trigger.range = some leftRange)
    (hrr : right.trigger.range = some rightRange)
    (hld : iterationDuration left = some leftDuration)
    (hrd : iterationDuration right = some rightDuration) :
    ((pyRange (-(rightDuration - 1)) (leftDuration - 1 + 1) 1).any fun offset =>
      boundedProgressionsIntersect leftRange.start leftRange.endAt leftRange.every
        (rightRange.start - offset) (rightRange.endAt - offset) rightRange.every) = true ↔
      WindowsIntersect left right := by
  have hleft := leftRange.every_pos
  have hright := rightRange.every_pos
  simp only [List.any_eq_true, mem_pyRange Int.one_pos,
    boundedProgressionsIntersect_iff hleft hright, windowsIntersect_iff,
    IncidentTrigger.matchesAt_range hlr, IncidentTrigger.matchesAt_range hrr,
    member_iff hleft, member_iff hright, member_iff Int.one_pos, Reaches, hld, hrd]
  constructor
  · rintro ⟨offset, ⟨hlow, hhigh, -⟩, x, hx, hrs, hre, hdvd⟩
    refine ⟨x, x + offset, hx, ⟨by omega, by omega, ?_⟩, fun d hd => ?_, fun d hd => ?_⟩
    · rwa [show x + offset - rightRange.start = x - (rightRange.start - offset) by ring]
    · rw [← Option.some.inj hd]
      omega
    · rw [← Option.some.inj hd]
      omega
  · rintro ⟨s, t, hs, ⟨hrs, hre, hdvd⟩, hst, hts⟩
    have hst := hst leftDuration rfl
    have hts := hts rightDuration rfl
    refine ⟨t - s, ⟨by omega, by omega, Int.one_dvd _⟩, s, hs, by omega, by omega, ?_⟩
    rwa [show s - (rightRange.start - (t - s)) = t - rightRange.start by ring]

/-! ## The overlap test -/

/-- Where the test is exact: an incident with few candidates, or two ranges of bounded lifetimes
and a small span of offsets. -/
def ExactOverlap (left right : FaultIncident) : Prop :=
  min (triggerCandidateCount left) (triggerCandidateCount right) ≤ 10000 ∨
    (left.trigger.range ≠ none ∧ right.trigger.range ≠ none ∧
      ∃ leftDuration rightDuration, iterationDuration left = some leftDuration ∧
        iterationDuration right = some rightDuration ∧
        leftDuration - 1 + (rightDuration - 1) ≤ 10000)

theorem mayOverlap_of_intersect {left right : FaultIncident}
    (h : WindowsIntersect left right) : incidentWindowsMayOverlap left right = true := by
  unfold incidentWindowsMayOverlap
  dsimp only
  split
  · split
    · exact any_triggers_iff.mpr h
    · exact any_triggers_iff.mpr (windowsIntersect_comm.mp h)
  · split
    · rename_i happart
      rw [Bool.or_eq_true, Bool.not_eq_true', Bool.not_eq_true'] at happart
      exact absurd h (not_windowsIntersect_of_bounds happart)
    · split
      · rename_i hld hrd hlr hrr
        split
        · exact (windowsIntersect_ranges hlr hrr hld hrd).mpr h
        · rfl
      · rfl

theorem intersect_of_mayOverlap {left right : FaultIncident} (hexact : ExactOverlap left right)
    (h : incidentWindowsMayOverlap left right = true) : WindowsIntersect left right := by
  unfold incidentWindowsMayOverlap at h
  dsimp only at h
  split at h
  · split at h
    · exact any_triggers_iff.mp h
    · exact windowsIntersect_comm.mp (any_triggers_iff.mp h)
  · rename_i hmany
    obtain hfew | ⟨hlr, hrr, leftDuration, rightDuration, hld, hrd, hspan⟩ := hexact
    · exact absurd hfew hmany
    · obtain ⟨leftRange, hlr⟩ := Option.ne_none_iff_exists'.mp hlr
      obtain ⟨rightRange, hrr⟩ := Option.ne_none_iff_exists'.mp hrr
      rw [hld, hrd, hlr, hrr] at h
      split at h
      · cases h
      · dsimp only at h
        rw [if_pos (by omega)] at h
        exact (windowsIntersect_ranges hlr hrr hld hrd).mp h

/-- **The overlap test** answers no only when no windows meet, and is exact where it claims to
be; so is the test of two progressions. -/
theorem overlap_exact :
    (∀ left right, incidentWindowsMayOverlap left right = false → ¬ WindowsIntersect left right) ∧
      (∀ left right, ExactOverlap left right →
        (incidentWindowsMayOverlap left right = true ↔ WindowsIntersect left right)) ∧
      ∀ leftStart leftEnd leftStep rightStart rightEnd rightStep, 0 < leftStep → 0 < rightStep →
        (boundedProgressionsIntersect leftStart leftEnd leftStep rightStart rightEnd rightStep =
            true ↔
          ∃ x, Member leftStart leftEnd leftStep x ∧ Member rightStart rightEnd rightStep x) := by
  refine ⟨fun left right hno hmeet => ?_, fun left right hexact => ?_, ?_⟩
  · rw [mayOverlap_of_intersect hmeet] at hno
    cases hno
  · exact ⟨intersect_of_mayOverlap hexact, mayOverlap_of_intersect⟩
  · intro leftStart leftEnd leftStep rightStart rightEnd rightStep hleft hright
    exact boundedProgressionsIntersect_iff hleft hright

/-- An incident of one dead process, at every third iteration up to 99, for one iteration. -/
def everyThird (id : String) (start : Int) (h : 0 < start ∧ start ≤ 99)
    (hid : Text.nonBlank id = true) : FaultIncident where
  incidentId := id
  trigger :=
    { range := some ⟨start, 99, 3, h.1, h.2, by decide⟩
      one_of := by simp
      at_pos := by simp
      at_sorted := by simp
      probability_nonneg := certain_nonneg
      probability_le := certain_le }
  lifetime := .iterations 1 (by decide)
  faults := [⟨id, .processTermination, ⟨.process, some 0, none, none, none,
    first_rank, named_none, named_none, named_none, process_located⟩⟩]
  id_named := hid
  faults_ne := by simp
  faultIds := by simp
  occurrences_some := once_some
  occurrences_none := once_none
  permanent_once := fun h => nomatch h
  separate := fun n hn h1 => by cases hn; cases h1
  calls_surface := fun h => nomatch h

/-- Two incidents that never meet, and two progressions that do. -/
theorem overlap_exact_sample :
    ¬ WindowsIntersect (everyThird "left" 1 (by decide) (by decide))
        (everyThird "right" 2 (by decide) (by decide)) ∧
      WindowsIntersect (everyThird "left" 1 (by decide) (by decide))
        (everyThird "right" 4 (by decide) (by decide)) ∧
      ∃ x, Member 3 30 5 x ∧ Member 4 40 7 x :=
  ⟨overlap_exact.1 _ _ (by decide +kernel),
    (overlap_exact.2.1 _ _ (Or.inl (by decide +kernel))).mp (by decide +kernel),
    (overlap_exact.2.2 3 30 5 4 40 7 (by decide) (by decide)).mp (by decide +kernel)⟩

end LmResiliency.FaultInjection
