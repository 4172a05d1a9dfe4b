/-
# NvlinkErrors — what the monitor takes for new NVLink errors

The counters of a device are read in one order, and a read stops at the first
query that fails.  The increase that the monitor sees is the true one, less the
growth of the counters that were not read now, plus the old values of counters
that are read again, less the old values of those that are lost.

Only the first increase that reaches the limit is reported.

The main result is `nvlink_errors_real`, over whole runs; its condition is the
sum above.
-/
import LmResiliency.Detection.HealthMonitor
import Mathlib.Algebra.Order.BigOperators.Group.List
import Mathlib.Algebra.Order.Ring.Cast
import Mathlib.Data.Rat.Cast.Order

namespace LmResiliency.Detection.Health

/-! ## The counters of a device -/

/-- A query of one counter of a link. -/
abbrev Query : Type := Nat × LinkCounter

/-- The queries of a read, in their order. -/
def queries (maxLinks : Nat) : List Query :=
  (List.range maxLinks).flatMap fun link => [(link, .recovery), (link, .crcData)]

/-- What a poll finds: the counters as they are, which queries are answered, and all else that
the device and the other sources answer. -/
structure Poll where
  counter : Query → Nat
  answers : Query → Bool
  rest : NvmlAnswers
  before : List (Option (List HealthReading))
  after : List (Option (List HealthReading))

namespace Poll

/-- What NVML answers. -/
def nvml (p : Poll) : NvmlAnswers :=
  { p.rest with linkErrors := fun link which =>
      if p.answers (link, which) then some (p.counter (link, which)) else none }

/-- What the sources answer. -/
def reads (p : Poll) (src : NvmlSource) : List (Option (List HealthReading)) :=
  p.before ++ some (src.read p.nvml) :: p.after

/-- No other source reports the link errors of the device. -/
def Quiet (p : Poll) (device : Int) : Prop :=
  ∀ rs ∈ p.before ++ p.after, ∀ r ∈ rs.getD [], r.key ≠ ⟨device, .nvlinkErrors⟩

/-- The counters that a read gets to. -/
def reached (p : Poll) (maxLinks : Nat) : List Query := (queries maxLinks).takeWhile p.answers

end Poll

/-- The true growth of a counter. -/
def growth (p q : Poll) (x : Query) : Int := p.counter x - q.counter x

/-- The true total of the counters of a device has grown by this much since the poll before. -/
def grown (maxLinks : Nat) (p : Poll) : List Poll → Int
  | [] => 0
  | q :: _ => ((queries maxLinks).map (growth p q)).sum

/-- The growth that is not read, as the counters are not. -/
def unread (maxLinks : Nat) (p : Poll) : List Poll → Int
  | [] => 0
  | q :: _ => (((queries maxLinks).filter (· ∉ p.reached maxLinks)).map (growth p q)).sum

/-- The old values of the counters that are read now, and were not at the poll before. -/
def regained (maxLinks : Nat) (p : Poll) : List Poll → Int
  | [] => 0
  | q :: _ => (((queries maxLinks).filter fun x =>
      x ∈ p.reached maxLinks ∧ x ∉ q.reached maxLinks).map fun x => (q.counter x : Int)).sum

/-- The old values of the counters that were read at the poll before, and are not now. -/
def lost (maxLinks : Nat) (p : Poll) : List Poll → Int
  | [] => 0
  | q :: _ => (((queries maxLinks).filter fun x =>
      x ∈ q.reached maxLinks ∧ x ∉ p.reached maxLinks).map fun x => (q.counter x : Int)).sum

/-- The increase as it appears. -/
def apparent (maxLinks : Nat) (p : Poll) (earlier : List Poll) : Int :=
  grown maxLinks p earlier - unread maxLinks p earlier + regained maxLinks p earlier -
    lost maxLinks p earlier

/-- The increase appears to reach the limit and does not. -/
def Misread (c : HealthConfig) (maxLinks : Nat) (p : Poll) (earlier : List Poll) : Prop :=
  grown maxLinks p earlier < c.nvlinkErrorFatal ∧
    c.nvlinkErrorFatal ≤ apparent maxLinks p earlier

/-! ## Runs -/

/-- The monitor after the polls, the last one first. -/
def monitorAfter (c : HealthConfig) (src : NvmlSource) : List Poll → HardwareHealthMonitor
  | [] => .empty
  | p :: earlier => (HardwareHealthMonitor.pollOnce c (monitorAfter c src earlier) (p.reads src)).1

/-- A poll, after the earlier ones, emits a fatal event for the link errors of the device. -/
def Emits (c : HealthConfig) (src : NvmlSource) (p : Poll) (earlier : List Poll) : Prop :=
  Reported (HardwareHealthMonitor.pollOnce c (monitorAfter c src earlier) (p.reads src)).2
    ⟨src.index, .nvlinkErrors⟩

/-! ## The sum that is read -/

/-- The counters that were reached, added up. -/
def readSum (maxLinks : Nat) (p : Poll) : Nat := ((p.reached maxLinks).map p.counter).sum

variable {c : HealthConfig} {src : NvmlSource} {p q : Poll} {earlier polls : List Poll}
variable {maxLinks : Nat}

theorem sumLinks_eq (links : List Nat) (nvlink : Nat) :
    sumLinks p.nvml.linkErrors links nvlink =
      nvlink + (((links.flatMap fun link => [(link, LinkCounter.recovery),
        (link, LinkCounter.crcData)]).takeWhile p.answers).map p.counter).sum := by
  induction links generalizing nvlink with
  | nil => rfl
  | cons link links ih =>
      rw [sumLinks, List.flatMap_cons, List.cons_append, List.cons_append, List.nil_append,
        List.takeWhile_cons, Poll.nvml]
      dsimp only
      by_cases hrec : p.answers (link, .recovery)
      · rw [if_pos hrec, if_pos hrec, List.map_cons, List.sum_cons, List.takeWhile_cons]
        dsimp only
        by_cases hcrc : p.answers (link, .crcData)
        · rw [if_pos hcrc, if_pos hcrc, List.map_cons, List.sum_cons]
          dsimp only
          rw [Poll.nvml] at ih
          rw [ih]
          omega
        · rw [if_neg hcrc, if_neg hcrc]
          rfl
      · rw [if_neg hrec, if_neg hrec]
        rfl

theorem sumLinks_range : sumLinks p.nvml.linkErrors (List.range maxLinks) 0 =
    readSum maxLinks p := by
  rw [sumLinks_eq, Nat.zero_add]
  rfl

theorem nodup_queries (maxLinks : Nat) : (queries maxLinks).Nodup := by
  rw [queries, List.nodup_flatMap]
  refine ⟨fun link _ => by simp, List.nodup_range.imp fun {a b} hne x ha hb => hne ?_⟩
  have hfst : ∀ {link : Nat}, x ∈ [(link, LinkCounter.recovery), (link, LinkCounter.crcData)] →
      x.1 = link := by
    intro link h
    rcases List.mem_pair.mp h with rfl | rfl <;> rfl
  exact (hfst ha).symm.trans (hfst hb)

/-- What is taken of a list without repetition are the members that are taken. -/
theorem filter_mem_takeWhile {α : Type} [BEq α] [LawfulBEq α] {xs : List α} (hnd : xs.Nodup)
    (f : α → Bool) : xs.filter (· ∈ xs.takeWhile f) = xs.takeWhile f := by
  have hsplit : xs.takeWhile f ++ xs.dropWhile f = xs := List.takeWhile_append_dropWhile
  have hdisjoint : ∀ x ∈ xs.dropWhile f, x ∉ xs.takeWhile f := by
    rw [← hsplit, List.nodup_append] at hnd
    exact fun x hdrop htake => hnd.2.2 x htake x hdrop rfl
  calc xs.filter (· ∈ xs.takeWhile f)
      = (xs.takeWhile f ++ xs.dropWhile f).filter (· ∈ xs.takeWhile f) := by rw [hsplit]
    _ = xs.takeWhile f := by
        rw [List.filter_append, List.filter_eq_self.mpr, List.filter_eq_nil_iff.mpr,
          List.append_nil]
        · exact fun x hx hin => hdisjoint x hx (of_decide_eq_true hin)
        · exact fun x hx => decide_eq_true hx

/-- Two partial sums of counters, compared part by part. -/
theorem partial_sums (xs : List Query) (P Q : Query → Prop) [DecidablePred P] [DecidablePred Q] :
    (xs.map (growth p q)).sum - ((xs.filter fun x => ¬P x).map (growth p q)).sum +
        ((xs.filter fun x => P x ∧ ¬Q x).map fun x => (q.counter x : Int)).sum -
        ((xs.filter fun x => Q x ∧ ¬P x).map fun x => (q.counter x : Int)).sum =
      (((xs.filter fun x => P x).map p.counter).sum : Int) -
        ((xs.filter fun x => Q x).map q.counter).sum := by
  induction xs with
  | nil => rfl
  | cons x xs ih =>
      have hx : growth p q x = p.counter x - q.counter x := rfl
      by_cases hP : P x
      · by_cases hQ : Q x
        · simp [hP, hQ] at ih ⊢
          omega
        · simp [hP, hQ] at ih ⊢
          omega
      · by_cases hQ : Q x
        · simp [hP, hQ] at ih ⊢
          omega
        · simp [hP, hQ] at ih ⊢
          omega

/-- The increase as it appears is the difference of what was read. -/
theorem apparent_cons : apparent maxLinks p (q :: earlier) =
    (readSum maxLinks p : Int) - readSum maxLinks q := by
  have hreached : ∀ r : Poll, (queries maxLinks).filter (· ∈ r.reached maxLinks) =
      r.reached maxLinks := fun r => filter_mem_takeWhile (nodup_queries maxLinks) r.answers
  have h := partial_sums (p := p) (q := q) (queries maxLinks) (· ∈ p.reached maxLinks)
    (· ∈ q.reached maxLinks)
  rw [hreached, hreached] at h
  rw [apparent, grown, unread, regained, lost, readSum, readSum]
  exact h

/-- Where a reading misleads: a counter is read again whose query had failed. -/
theorem regained_of_misread (hmono : ∀ x, q.counter x ≤ p.counter x)
    (h : Misread c maxLinks p (q :: earlier)) :
    ∃ x ∈ queries maxLinks, x ∈ p.reached maxLinks ∧ x ∉ q.reached maxLinks := by
  by_contra hnone
  have hregained : regained maxLinks p (q :: earlier) = 0 := by
    have hempty : ((queries maxLinks).filter fun x =>
        x ∈ p.reached maxLinks ∧ x ∉ q.reached maxLinks) = [] :=
      List.filter_eq_nil_iff.mpr fun x hx hin => hnone ⟨x, hx, of_decide_eq_true hin⟩
    rw [regained, hempty]
    rfl
  have hunread : 0 ≤ unread maxLinks p (q :: earlier) := by
    refine List.sum_nonneg fun n hn => ?_
    obtain ⟨x, -, rfl⟩ := List.mem_map.mp hn
    have hle := hmono x
    rw [growth]
    omega
  have hlost : 0 ≤ lost maxLinks p (q :: earlier) := by
    refine List.sum_nonneg fun n hn => ?_
    obtain ⟨x, -, rfl⟩ := List.mem_map.mp hn
    exact Int.natCast_nonneg _
  obtain ⟨hless, happears⟩ := h
  rw [apparent, hregained] at happears
  omega

theorem apparent_nil : apparent maxLinks p [] = 0 := rfl

/-! ## What the monitor remembers -/

/-- Nothing else that is read of a device is about its links. -/
theorem other_readings (a : NvmlAnswers) {r : HealthReading}
    (h : r ∈ src.readEcc a ++ src.readRemapped a ++ src.readTemperature a) :
    r.metric ≠ .nvlinkErrors := by
  have hecc : ∀ r ∈ src.readEcc a, r.metric ≠ .nvlinkErrors := by
    unfold NvmlSource.readEcc NvmlSource.reading
    split
    · simp
    · split <;> simp
  have hrow : ∀ r ∈ src.readRemapped a, r.metric ≠ .nvlinkErrors := by
    unfold NvmlSource.readRemapped NvmlSource.reading
    split <;> simp
  have htemp : ∀ r ∈ src.readTemperature a, r.metric ≠ .nvlinkErrors := by
    unfold NvmlSource.readTemperature NvmlSource.reading
    split <;> simp
  rw [List.mem_append, List.mem_append] at h
  rcases h with (h | h) | h
  · exact hecc r h
  · exact hrow r h
  · exact htemp r h

/-- The reading of the link errors of the device. -/
def linkReading (src : NvmlSource) (p : Poll) : HealthReading :=
  src.reading .nvlinkErrors (readSum src.maxLinks p) ""

theorem mem_read (havailable : src.available = true) {r : HealthReading} :
    (r ∈ src.read p.nvml ∧ r.metric = .nvlinkErrors) ↔ r = linkReading src p := by
  have hread : r ∈ src.read p.nvml ↔
      r ∈ src.readEcc p.nvml ++ src.readRemapped p.nvml ++ src.readTemperature p.nvml ∨
        r = linkReading src p := by
    rw [NvmlSource.read, havailable, sumLinks_range, ← linkReading]
    simp only [Bool.not_true, Bool.false_eq_true, if_false, List.isEmpty_iff,
      List.append_eq_nil_iff, List.cons_ne_nil, and_false, false_and, List.mem_append,
      List.mem_singleton]
    tauto
  rw [hread]
  constructor
  · rintro ⟨h | h, hmetric⟩
    · exact absurd hmetric (other_readings _ h)
    · exact h
  · rintro rfl
    exact ⟨Or.inr rfl, rfl⟩

theorem mem_reads (havailable : src.available = true) (hquiet : p.Quiet src.index)
    {r : HealthReading} :
    (r ∈ (p.reads src).flatMap (·.getD []) ∧ r.key = ⟨src.index, .nvlinkErrors⟩) ↔
      r = linkReading src p := by
  rw [Poll.reads, List.flatMap_append, List.flatMap_cons, List.mem_append, List.mem_append,
    Option.getD_some]
  constructor
  · rintro ⟨h, hkey⟩
    have hother : ∀ {rs : List (Option (List HealthReading))},
        (∀ o ∈ rs, o ∈ p.before ++ p.after) → r ∉ rs.flatMap (·.getD []) := by
      intro rs hrs hin
      obtain ⟨o, ho, hr⟩ := List.mem_flatMap.mp hin
      exact hquiet o (hrs o ho) r hr hkey
    rcases h with h | h | h
    · exact absurd h (hother fun o ho => List.mem_append_left _ ho)
    · exact (mem_read havailable).mp ⟨h, congrArg Key.metric hkey⟩
    · exact absurd h (hother fun o ho => List.mem_append_right _ ho)
  · intro h
    obtain ⟨hin, -⟩ := (mem_read havailable).mpr h
    exact ⟨Or.inr (Or.inl hin), h ▸ rfl⟩

/-- The monitor compares with the sum that was read at the poll before. -/
theorem lookup_prev (havailable : src.available = true) (hquiet : ∀ p ∈ polls, p.Quiet src.index) :
    (monitorAfter c src polls).prev.lookup ⟨src.index, .nvlinkErrors⟩ =
      polls.head?.map fun p => (readSum src.maxLinks p : ℚ) := by
  cases polls with
  | nil => rfl
  | cons p earlier =>
      have hmem := fun {r} => mem_reads (p := p) (r := r) havailable
        (hquiet p List.mem_cons_self)
      have hin := (hmem.mpr rfl).1
      have hitem : (linkReading src p).baseline =
          some (⟨src.index, .nvlinkErrors⟩, (readSum src.maxLinks p : ℚ)) := rfl
      rw [monitorAfter, pollOnce_prev, Dict.lookup_update (v := (readSum src.maxLinks p : ℚ))]
      · exact if_pos (List.mem_map.mpr ⟨_, List.mem_filterMap.mpr ⟨_, hin, hitem⟩, rfl⟩)
      · intro m hm hkey
        obtain ⟨r, hr, hbase⟩ := List.mem_filterMap.mp hm
        rw [HealthReading.baseline] at hbase
        split at hbase
        · cases hbase
          rw [hmem.mp ⟨hr, hkey⟩]
          rfl
        · cases hbase

/-- When the reading is fatal: the increase appears to reach the limit. -/
theorem fatal_linkReading (havailable : src.available = true)
    (hquiet : ∀ q ∈ earlier, q.Quiet src.index) (limits : List (Int × ℚ)) :
    Fatal c (monitorAfter c src earlier).prev limits (linkReading src p) ↔
      c.nvlinkErrorFatal ≤ apparent src.maxLinks p earlier := by
  have hclassify : ∀ delta : ℚ, delta = apparent src.maxLinks p earlier →
      ((c.nvlinkErrorFatal : ℚ) ≤ delta ↔
        c.nvlinkErrorFatal ≤ apparent src.maxLinks p earlier) := by
    rintro _ rfl
    exact Int.cast_le
  rw [Fatal, classify, linkReading, NvmlSource.reading]
  dsimp only
  rw [lookup_prev havailable hquiet, ← hclassify _ ?_]
  · split
    · rename_i h
      exact iff_of_true rfl h
    · rename_i h
      refine iff_of_false ?_ h
      split <;> simp
  · cases earlier with
    | nil => rw [List.head?_nil, Option.map_none, Option.getD_none, sub_self, apparent_nil,
        Int.cast_zero]
    | cons q earlier =>
        rw [List.head?_cons, Option.map_some, Option.getD_some, apparent_cons]
        push_cast
        rfl

/-- A poll of the run at which the increase appears to reach the limit. -/
def Reaches (c : HealthConfig) (maxLinks : Nat) (polls : List Poll) : Prop :=
  ∃ later p earlier, polls = later ++ p :: earlier ∧
    c.nvlinkErrorFatal ≤ apparent maxLinks p earlier

theorem reaches_cons : Reaches c maxLinks (p :: earlier) ↔
    Reaches c maxLinks earlier ∨ c.nvlinkErrorFatal ≤ apparent maxLinks p earlier := by
  constructor
  · rintro ⟨later, q, rest, heq, h⟩
    cases later with
    | nil =>
        cases heq
        exact Or.inr h
    | cons p' later =>
        cases heq
        exact Or.inl ⟨later, q, rest, rfl, h⟩
  · rintro (⟨later, q, rest, rfl, h⟩ | h)
    · exact ⟨p :: later, q, rest, rfl, h⟩
    · exact ⟨[], p, earlier, rfl, h⟩

/-- What is marked as reported: the increase has appeared to reach the limit. -/
theorem mem_fired (havailable : src.available = true) (hquiet : ∀ p ∈ polls, p.Quiet src.index) :
    ⟨src.index, .nvlinkErrors⟩ ∈ (monitorAfter c src polls).fired ↔
      Reaches c src.maxLinks polls := by
  induction polls with
  | nil =>
      refine iff_of_false (fun h => by cases h) ?_
      rintro ⟨later, q, rest, heq, -⟩
      simp at heq
  | cons p earlier ih =>
      have hearlier : ∀ q ∈ earlier, q.Quiet src.index := fun q hq =>
        hquiet q (List.mem_cons_of_mem _ hq)
      have hmem := fun {r} => mem_reads (p := p) (r := r) havailable
        (hquiet p List.mem_cons_self)
      rw [monitorAfter, (pollOnce_spec _ _ _ _).1, ih hearlier, reaches_cons]
      simp only [← and_assoc, hmem, exists_eq_left, fatal_linkReading havailable hearlier]

/-- **When a poll emits**: it is the first one at which the increase appears to reach the
limit. -/
theorem emits_iff (havailable : src.available = true)
    (hquiet : ∀ q ∈ p :: earlier, q.Quiet src.index) :
    Emits c src p earlier ↔
      ¬Reaches c src.maxLinks earlier ∧ c.nvlinkErrorFatal ≤ apparent src.maxLinks p earlier := by
  have hearlier : ∀ q ∈ earlier, q.Quiet src.index := fun q hq =>
    hquiet q (List.mem_cons_of_mem _ hq)
  have hmem := fun {r} => mem_reads (p := p) (r := r) havailable (hquiet p List.mem_cons_self)
  rw [Emits, (pollOnce_spec _ _ _ _).2, mem_fired havailable hearlier]
  simp only [← and_assoc, hmem, exists_eq_left, fatal_linkReading havailable hearlier]

/-- **The reported NVLink errors are real** in a run exactly when the first increase that
appears to reach the limit does reach it. -/
theorem nvlink_errors_real (havailable : src.available = true)
    (hquiet : ∀ p ∈ polls, p.Quiet src.index) :
    (∀ later p earlier, polls = later ++ p :: earlier → Emits c src p earlier →
        c.nvlinkErrorFatal ≤ grown src.maxLinks p earlier) ↔
      ∀ later p earlier, polls = later ++ p :: earlier →
        Misread c src.maxLinks p earlier → Reaches c src.maxLinks earlier := by
  have hquiet' : ∀ {later p earlier}, polls = later ++ p :: earlier →
      ∀ q ∈ p :: earlier, q.Quiet src.index := by
    rintro later p earlier rfl q hq
    exact hquiet q (List.mem_append_right _ hq)
  refine forall_congr' fun later => forall_congr' fun p => forall_congr' fun earlier =>
    forall_congr' fun hsplit => ?_
  rw [emits_iff havailable (hquiet' hsplit), Misread]
  constructor
  · rintro hreal ⟨hless, happears⟩
    by_contra hfirst
    exact absurd (hreal ⟨hfirst, happears⟩) (not_le.mpr hless)
  · rintro hmisread ⟨hfirst, happears⟩
    by_contra hless
    exact hfirst (hmisread ⟨not_le.mp hless, happears⟩)

/-- One device with one link. -/
def sampleSource : NvmlSource := ⟨0, true, 1⟩

/-- A poll at which each counter stands at `errors`, and the queries are answered or fail. -/
def samplePoll (errors : Nat) (answered : Bool) : Poll where
  counter := fun _ => errors
  answers := fun _ => answered
  rest := ⟨none, none, none, fun _ _ => none, none, none⟩
  before := []
  after := []

theorem nvlink_errors_real_sample :
    Emits {} sampleSource (samplePoll 6000 true) [samplePoll 0 true] ∧
      10000 ≤ grown 1 (samplePoll 6000 true) [samplePoll 0 true] := by
  have hemits : Emits {} sampleSource (samplePoll 6000 true) [samplePoll 0 true] := by
    refine ⟨⟨0, .nvlinkErrors, 12000, .fatal, "GPU0: +12000 NVLink errors this poll"⟩, ?_, rfl⟩
    decide +kernel
  refine ⟨hemits, ?_⟩
  have hquiet : ∀ p ∈ [samplePoll 6000 true, samplePoll 0 true], p.Quiet sampleSource.index := by
    intro p hp rs hrs
    rcases List.mem_pair.mp hp with rfl | rfl <;> cases hrs
  have havailable : sampleSource.available = true := rfl
  refine (nvlink_errors_real (c := {}) havailable hquiet).mpr ?_ [] _ _ rfl hemits
  rintro later p earlier heq ⟨hless, happears⟩
  rcases later with _ | ⟨_, _ | ⟨_, later⟩⟩
  · cases heq
    exact absurd hless (by decide +kernel)
  · cases heq
    exact absurd happears (by decide +kernel)
  · simp at heq

/-- **A query that failed once**: the counters have not moved, and the device is condemned. -/
theorem standing_counters_reported :
    Emits {} sampleSource (samplePoll 20000 true) [samplePoll 20000 false] ∧
      grown 1 (samplePoll 20000 true) [samplePoll 20000 false] = 0 := by
  refine ⟨?_, by decide +kernel⟩
  refine ⟨⟨0, .nvlinkErrors, 40000, .fatal, "GPU0: +40000 NVLink errors this poll"⟩, ?_, rfl⟩
  decide +kernel

end LmResiliency.Detection.Health
