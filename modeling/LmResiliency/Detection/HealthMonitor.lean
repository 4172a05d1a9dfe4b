/-
# HealthMonitor — faults that a device reports itself

`poll_once` reads every source, classifies the readings against thresholds and
reports each fatal metric of a device once.  The NVLink errors and the correctable
ECC errors are classified by their increase since the reading before.

`NvmlSource.read` adds up the error counters of the links, two for each link, until
a query fails.  Readings are exact numbers here.
-/
import LmResiliency.Lib.Dict
import LmResiliency.Lib.Text
import Mathlib.Algebra.Order.Ring.Rat

namespace LmResiliency.Detection.Health

/-- `HealthSeverity` -/
inductive HealthSeverity where
  | ok
  | warn
  | fatal
deriving DecidableEq

/-- What a reading is of. -/
inductive Metric where
  /-- `"ecc_uncorrectable"` -/
  | eccUncorrectable
  /-- `"ecc_correctable"` -/
  | eccCorrectable
  /-- `"remap_pending"` -/
  | remapPending
  /-- `"remap_failure"` -/
  | remapFailure
  /-- `"nvlink_errors"` -/
  | nvlinkErrors
  /-- `"temperature"` -/
  | temperature
  /-- `"temp_shutdown_limit"` -/
  | tempShutdownLimit
  /-- `"device_lost"` -/
  | deviceLost
  /-- `"xid"` -/
  | xid
  /-- any other text -/
  | other (name : String)
deriving DecidableEq

/-- What an event is about: `(r.device, r.metric)`. -/
structure Key where
  device : Int
  metric : Metric
deriving DecidableEq

/-- `HealthReading` -/
structure HealthReading where
  source : String
  device : Int
  metric : Metric
  value : ℚ
  detail : String := ""
deriving DecidableEq

/-- `HealthEvent` -/
structure HealthEvent where
  device : Int
  metric : Metric
  value : ℚ
  severity : HealthSeverity
  message : String
deriving DecidableEq

/-- `HealthConfig`: what the classification reads. -/
structure HealthConfig where
  fatalOnUncorrectableEcc : Bool := true
  correctableEccWarnRate : Int := 100
  fatalOnRemapFailure : Bool := true
  nvlinkErrorWarn : Int := 100
  nvlinkErrorFatal : Int := 10000
  tempWarnC : Int := 88
  tempFatalMarginC : Int := 2
  fatalXids : List Int := [48, 63, 64, 74, 79, 94, 95]

/-! ## The source -/

/-- `NVML_NVLINK_ERROR_DL_RECOVERY` and `NVML_NVLINK_ERROR_DL_CRC_DATA` -/
inductive LinkCounter where
  | recovery
  | crcData
deriving DecidableEq

/-- What NVML answers during one read; nothing where the query fails. -/
structure NvmlAnswers where
  eccUncorrected : Option Nat
  eccCorrected : Option Nat
  remappedPending : Option (Int × Int)
  linkErrors : Nat → LinkCounter → Option Nat
  temperature : Option Int
  shutdown : Option Int

/-- `NvmlSource` -/
structure NvmlSource where
  index : Int
  available : Bool
  maxLinks : Nat := 18

/-- The loop over the links, up to the first query that fails. -/
def sumLinks (linkErrors : Nat → LinkCounter → Option Nat) : List Nat → Nat → Nat
  | [], nvlink => nvlink
  | link :: links, nvlink =>
      match linkErrors link .recovery with
      | none => nvlink
      | some recovered =>
          match linkErrors link .crcData with
          | none => nvlink + recovered
          | some crc => sumLinks linkErrors links (nvlink + recovered + crc)

namespace NvmlSource

variable (src : NvmlSource)

def reading (metric : Metric) (value : ℚ) (detail : String) : HealthReading :=
  ⟨"nvml", src.index, metric, value, detail⟩

/-- `float(bool(n))` -/
def flag (n : Int) : ℚ := if n = 0 then 0 else 1

/-- The ECC counts: the second one is asked for when the first one was answered. -/
def readEcc (a : NvmlAnswers) : List HealthReading :=
  match a.eccUncorrected with
  | none => []
  | some n =>
      src.reading .eccUncorrectable n "" ::
        match a.eccCorrected with
        | none => []
        | some m => [src.reading .eccCorrectable m ""]

def readRemapped (a : NvmlAnswers) : List HealthReading :=
  match a.remappedPending with
  | none => []
  | some (pending, failure) =>
      [src.reading .remapPending (flag pending) "", src.reading .remapFailure (flag failure) ""]

def readTemperature (a : NvmlAnswers) : List HealthReading :=
  match a.temperature, a.shutdown with
  | some temp, some shutdown =>
      [src.reading .temperature temp ("shutdown=" ++ Text.str shutdown ++ "C"),
        src.reading .tempShutdownLimit shutdown ""]
  | _, _ => []

def read (a : NvmlAnswers) : List HealthReading :=
  if !src.available then []
  else
    let out := src.readEcc a ++ src.readRemapped a ++
      [src.reading .nvlinkErrors (sumLinks a.linkErrors (List.range src.maxLinks) 0) ""] ++
      src.readTemperature a
    if out.isEmpty then [src.reading .deviceLost 1 "NVML queries failed"] else out

end NvmlSource

/-! ## The monitor -/

/-- `HardwareHealthMonitor`: what it remembers. -/
structure HardwareHealthMonitor where
  prev : List (Key × ℚ)
  fired : List Key
  warned : List Key

/-- `int(value)` -/
def truncate (value : ℚ) : Int := value.num.tdiv value.den

def classify (c : HealthConfig) (prev : List (Key × ℚ)) (limits : List (Int × ℚ))
    (r : HealthReading) : HealthSeverity × String :=
  let gpu := "GPU" ++ Text.str r.device
  let delta := r.value - (prev.lookup ⟨r.device, r.metric⟩).getD r.value
  match r.metric with
  | .eccUncorrectable =>
      if 0 < r.value ∧ c.fatalOnUncorrectableEcc then
        (.fatal, gpu ++ ": " ++ Text.str (truncate r.value) ++ " uncorrectable ECC error(s)")
      else (.ok, "")
  | .remapFailure =>
      if 0 < r.value ∧ c.fatalOnRemapFailure then
        (.fatal, gpu ++ ": row-remap failure (no spare rows)")
      else (.ok, "")
  | .deviceLost => (.fatal, gpu ++ ": device lost (" ++ r.detail ++ ")")
  | .xid =>
      if truncate r.value ∈ c.fatalXids then
        (.fatal, gpu ++ ": fatal XID " ++ Text.str (truncate r.value))
      else (.warn, gpu ++ ": XID " ++ Text.str (truncate r.value))
  | .remapPending =>
      if 0 < r.value then (.warn, gpu ++ ": row remap pending") else (.ok, "")
  | .nvlinkErrors =>
      if c.nvlinkErrorFatal ≤ delta then
        (.fatal, gpu ++ ": +" ++ Text.str (truncate delta) ++ " NVLink errors this poll")
      else if c.nvlinkErrorWarn ≤ delta then
        (.warn, gpu ++ ": +" ++ Text.str (truncate delta) ++ " NVLink errors this poll")
      else (.ok, "")
  | .eccCorrectable =>
      if c.correctableEccWarnRate ≤ delta then
        (.warn, gpu ++ ": +" ++ Text.str (truncate delta) ++ " correctable ECC this poll")
      else (.ok, "")
  | .temperature =>
      -- a limit of zero is as good as none
      let limit := (limits.lookup r.device).getD 0
      if limit ≠ 0 ∧ limit - c.tempFatalMarginC ≤ r.value then
        (.fatal, gpu ++ ": " ++ Text.str (truncate r.value) ++ "C near shutdown (" ++
          Text.str (truncate limit) ++ "C)")
      else if c.tempWarnC ≤ r.value then
        (.warn, gpu ++ ": " ++ Text.str (truncate r.value) ++ "C hot")
      else (.ok, "")
  | .tempShutdownLimit => (.ok, "")
  | .other _ => (.ok, "")

namespace HealthReading

def key (r : HealthReading) : Key := ⟨r.device, r.metric⟩

/-- What the next poll compares with. -/
def baseline (r : HealthReading) : Option (Key × ℚ) :=
  if r.metric = .eccCorrectable ∨ r.metric = .nvlinkErrors then some (r.key, r.value) else none

end HealthReading

namespace HardwareHealthMonitor

def empty : HardwareHealthMonitor := ⟨[], [], []⟩

/-- One reading: a fatal one is reported, once for its device and metric. -/
def judge (c : HealthConfig) (limits : List (Int × ℚ))
    (s : HardwareHealthMonitor × List HealthEvent) (r : HealthReading) :
    HardwareHealthMonitor × List HealthEvent :=
  match classify c s.1.prev limits r with
  | (.ok, _) => s
  | (.fatal, msg) =>
      if r.key ∈ s.1.fired then s
      else ({ s.1 with fired := r.key :: s.1.fired },
        s.2 ++ [⟨r.device, r.metric, r.value, .fatal, msg⟩])
  | (.warn, _) => ({ s.1 with warned := s.1.warned.insert r.key }, s.2)

/-- `limits` -/
def limitsOf (readings : List HealthReading) : List (Int × ℚ) :=
  Dict.ofItems ((readings.filter (·.metric = .tempShutdownLimit)).map fun r => (r.device, r.value))

/-- `poll_once`, of what the sources answer: nothing, where a read raises. -/
def pollOnce (c : HealthConfig) (m : HardwareHealthMonitor)
    (reads : List (Option (List HealthReading))) : HardwareHealthMonitor × List HealthEvent :=
  let readings := reads.flatMap (·.getD [])
  let (m', fresh) := readings.foldl (judge c (limitsOf readings)) (m, [])
  ({ m' with prev := Dict.update m'.prev (readings.filterMap HealthReading.baseline) }, fresh)

end HardwareHealthMonitor

open HardwareHealthMonitor

/-! ## What a poll reports -/

section Poll

variable {c : HealthConfig} {limits : List (Int × ℚ)}
variable {s : HardwareHealthMonitor × List HealthEvent} {readings : List HealthReading}

/-- A reading is fatal, against the readings of the poll before. -/
def Fatal (c : HealthConfig) (prev : List (Key × ℚ)) (limits : List (Int × ℚ))
    (r : HealthReading) : Prop :=
  (classify c prev limits r).1 = .fatal

/-- There is an event for a device and a metric. -/
def Reported (events : List HealthEvent) (k : Key) : Prop :=
  ∃ ev ∈ events, ⟨ev.device, ev.metric⟩ = k

theorem judge_prev (r : HealthReading) : (judge c limits s r).1.prev = s.1.prev := by
  unfold judge
  split
  · rfl
  · split <;> rfl
  · rfl

theorem foldl_judge_prev : (readings.foldl (judge c limits) s).1.prev = s.1.prev := by
  induction readings generalizing s with
  | nil => rfl
  | cons r readings ih => rw [List.foldl_cons, ih, judge_prev]

variable (c limits s) in
/-- One reading: what is reported, and what is marked as reported. -/
theorem judge_spec (r : HealthReading) (k : Key) :
    (k ∈ (judge c limits s r).1.fired ↔
      k ∈ s.1.fired ∨ r.key = k ∧ Fatal c s.1.prev limits r) ∧
    (Reported (judge c limits s r).2 k ↔
      Reported s.2 k ∨ k ∉ s.1.fired ∧ r.key = k ∧ Fatal c s.1.prev limits r) := by
  unfold judge Fatal
  split
  · rename_i heq
    simp [heq]
  · rename_i heq
    split
    · rename_i hin
      rw [heq]
      constructor
      · refine (or_iff_left_of_imp ?_).symm
        rintro ⟨rfl, -⟩
        exact hin
      · refine (or_iff_left_of_imp ?_).symm
        rintro ⟨hnot, rfl, -⟩
        exact absurd hin hnot
    · rename_i hnot
      rw [heq]
      constructor
      · rw [List.mem_cons, or_comm, eq_comm (a := k)]
        simp
      · simp only [Reported, List.mem_append, List.mem_singleton, or_and_right, exists_or,
          exists_eq_left, HealthReading.key, and_true]
        refine or_congr Iff.rfl ⟨?_, fun h => h.2⟩
        rintro rfl
        exact ⟨hnot, rfl⟩
  · rename_i heq
    simp [heq]

variable (c limits s readings) in
/-- **A poll** reports a device and a metric that was not reported yet, once. -/
theorem foldl_judge_spec (k : Key) :
    (k ∈ (readings.foldl (judge c limits) s).1.fired ↔
      k ∈ s.1.fired ∨ ∃ r ∈ readings, r.key = k ∧ Fatal c s.1.prev limits r) ∧
    (Reported (readings.foldl (judge c limits) s).2 k ↔
      Reported s.2 k ∨
        k ∉ s.1.fired ∧ ∃ r ∈ readings, r.key = k ∧ Fatal c s.1.prev limits r) := by
  induction readings generalizing s with
  | nil => simp
  | cons r readings ih =>
      obtain ⟨hfired, hreported⟩ := judge_spec c limits s r k
      rw [List.foldl_cons, (ih _).1, (ih _).2, judge_prev, hfired, hreported]
      constructor
      · rw [List.exists_mem_cons_iff, or_assoc]
      · rw [List.exists_mem_cons_iff, not_or, or_assoc]
        tauto

/-- A poll reports a metric of a device when a reading of it is fatal, and none was before. -/
theorem pollOnce_spec (c : HealthConfig) (m : HardwareHealthMonitor)
    (reads : List (Option (List HealthReading))) (k : Key) :
    let readings := reads.flatMap (·.getD [])
    (k ∈ (pollOnce c m reads).1.fired ↔
      k ∈ m.fired ∨ ∃ r ∈ readings, r.key = k ∧ Fatal c m.prev (limitsOf readings) r) ∧
    (Reported (pollOnce c m reads).2 k ↔
      k ∉ m.fired ∧ ∃ r ∈ readings, r.key = k ∧ Fatal c m.prev (limitsOf readings) r) := by
  intro readings
  obtain ⟨hfired, hreported⟩ :=
    foldl_judge_spec c (limitsOf readings) (m, []) readings k
  refine ⟨hfired, hreported.trans (or_iff_right ?_)⟩
  rintro ⟨ev, hev, -⟩
  cases hev

/-- What the next poll compares with: the last reading. -/
theorem pollOnce_prev (c : HealthConfig) (m : HardwareHealthMonitor)
    (reads : List (Option (List HealthReading))) :
    (pollOnce c m reads).1.prev =
      Dict.update m.prev ((reads.flatMap (·.getD [])).filterMap HealthReading.baseline) := by
  rw [pollOnce]
  dsimp only
  rw [foldl_judge_prev]

end Poll

end LmResiliency.Detection.Health
