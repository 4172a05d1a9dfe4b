/-
# DurableInv — what every write of the manifest store keeps

The invariant of a run of the durable checkpoint coordinators has two parts.
One is about the store alone and holds between any two writes; it is kept by
a single safe write, and so by every first part of a list of safe writes.
The other is about the coordinators and holds between two calls.

The parameter `fresh` adds that a candidate has never been rejected, which
is kept only by runs that do not repeat a failed step.
-/
import LmResiliency.Checkpointing.DurableJob

namespace LmResiliency.Checkpointing

variable {n : Nat}

/-- The folder after the writes of a run. -/
def storeAfter (written : List StoreWrite) : ManifestStore := ManifestStore.empty.after written

/-- The identifier of a record names its step and its epoch. -/
def DurableCheckpointRecord.WellNamed (r : DurableCheckpointRecord) : Prop :=
  r.checkpointId = checkpointIdOf r.step r.validationEpoch r.shapePlanId

/-- The shapes of a record are a rotation of a plan that was started. -/
def Planned (started : List (DurableConfig n)) (r : DurableCheckpointRecord) : Prop :=
  ∃ config ∈ started, r.shapePlanId = config.shapePlanId ∧
    ∃ first, rotateShapeIds config.shapeIds first = some r.expectedShapeIds

/-- What `LATEST_SCOUT_VALIDATED` may name. -/
structure Certified (started : List (DurableConfig n)) (l : DurableCheckpointRecord) : Prop where
  status : l.status = .recoveryVerified
  verdict : l.verdict = some "clean"
  checked : l.checkedShapeIds = l.expectedShapeIds
  planned : Planned started l

/-- No record with an identifier was ever rejected. -/
def NotRejected (written : List StoreWrite) (checkpointId : String) : Prop :=
  ∀ r, .record r ∈ written → r.status = .rejected → r.checkpointId ≠ checkpointId

/-! ## The store -/

/-- The invariant of the store. -/
structure StoreInv (fresh : Prop) (started : List (DurableConfig n)) (written : List StoreWrite) :
    Prop where
  record : ∀ r, .record r ∈ written → r.WellNamed
  pending : ∀ r, .pending r ∈ written → r.WellNamed
  latest : ∀ l, (storeAfter written).latest = some l → Certified started l ∧ l.WellNamed ∧
    (storeAfter written).recordOf l.checkpointId = some l ∧
    (fresh → NotRejected written l.checkpointId)

/-- A write that keeps the invariant. -/
def SafeWrite (fresh : Prop) (started : List (DurableConfig n)) (written : List StoreWrite) :
    StoreWrite → Prop
  | .record r => r.WellNamed ∧
      ∀ l, (storeAfter written).latest = some l → l.checkpointId ≠ r.checkpointId
  | .pending r => r.WellNamed
  | .latest r => Certified started r ∧ r.WellNamed ∧
      (storeAfter written).recordOf r.checkpointId = some r ∧
      (fresh → NotRejected written r.checkpointId)
  | .unlinkPending => True

/-- A list of such writes. -/
def SafeWrites (fresh : Prop) (started : List (DurableConfig n)) (written : List StoreWrite) :
    List StoreWrite → Prop
  | [] => True
  | w :: ws => SafeWrite fresh started written w ∧ SafeWrites fresh started (written ++ [w]) ws

variable {fresh : Prop} {started : List (DurableConfig n)} {written : List StoreWrite}

theorem storeAfter_concat (written : List StoreWrite) (w : StoreWrite) :
    storeAfter (written ++ [w]) = (storeAfter written).write w :=
  ManifestStore.after_append written [w] _

theorem NotRejected.concat {w : StoreWrite} {id : String} (h : NotRejected written id)
    (hw : ∀ r, w = .record r → r.status = .rejected → r.checkpointId ≠ id) :
    NotRejected (written ++ [w]) id := by
  intro r hr
  rcases List.mem_append.mp hr with hr | hr
  · exact h r hr
  · exact hw r (List.mem_singleton.mp hr).symm

theorem StoreInv.initial : StoreInv fresh started [] where
  record r h := absurd h List.not_mem_nil
  pending r h := absurd h List.not_mem_nil
  latest l h := by cases h

/-- **One write**. -/
theorem StoreInv.write (h : StoreInv fresh started written) {w : StoreWrite}
    (hw : SafeWrite fresh started written w) : StoreInv fresh started (written ++ [w]) := by
  have hold : ∀ l, (storeAfter written).latest = some l →
      (∀ r, w = .record r → l.checkpointId ≠ r.checkpointId) →
      (storeAfter written).recordOf l.checkpointId =
        (storeAfter (written ++ [w])).recordOf l.checkpointId →
      Certified started l ∧ l.WellNamed ∧
        (storeAfter (written ++ [w])).recordOf l.checkpointId = some l ∧
        (fresh → NotRejected (written ++ [w]) l.checkpointId) := by
    intro l hl hne hrec
    obtain ⟨hcert, hnamed, hfile, hrej⟩ := h.latest l hl
    exact ⟨hcert, hnamed, hrec ▸ hfile,
      fun hf => (hrej hf).concat fun r hr _ => (hne r hr).symm⟩
  constructor
  · intro r hr
    rcases List.mem_append.mp hr with hr | hr
    · exact h.record r hr
    · obtain rfl := List.mem_singleton.mp hr
      exact hw.1
  · intro r hr
    rcases List.mem_append.mp hr with hr | hr
    · exact h.pending r hr
    · obtain rfl := List.mem_singleton.mp hr
      exact hw
  · intro l hl
    rw [storeAfter_concat] at hl
    cases w with
    | record r =>
        have hne := hw.2 l hl
        refine hold l hl (fun r' hr' => StoreWrite.record.inj hr' ▸ hne) ?_
        rw [storeAfter_concat, ManifestStore.recordOf_write_record, if_neg hne.symm]
    | pending r =>
        refine hold l hl (fun r' hr' => by cases hr') ?_
        rw [storeAfter_concat]
        rfl
    | unlinkPending =>
        refine hold l hl (fun r' hr' => by cases hr') ?_
        rw [storeAfter_concat]
        rfl
    | latest r =>
        obtain rfl : r = l := Option.some.inj hl
        obtain ⟨hcert, hnamed, hfile, hrej⟩ := hw
        refine ⟨hcert, hnamed, ?_, fun hf => (hrej hf).concat fun r' hr' => by cases hr'⟩
        rw [storeAfter_concat]
        exact hfile

/-- **A crash** leaves some first part of a list of writes. -/
theorem StoreInv.crash (h : StoreInv fresh started written) {ws ws' : List StoreWrite}
    (hws : SafeWrites fresh started written ws) (hpart : ws' <+: ws) :
    StoreInv fresh started (written ++ ws') := by
  induction ws' generalizing written ws with
  | nil =>
      rw [List.append_nil]
      exact h
  | cons w ws' ih =>
      obtain ⟨rest, rfl⟩ := hpart
      have hrest := ih (h.write hws.1) hws.2 (List.prefix_append ws' rest)
      rwa [List.append_assoc] at hrest

theorem StoreInv.writes (h : StoreInv fresh started written) {ws : List StoreWrite}
    (hws : SafeWrites fresh started written ws) : StoreInv fresh started (written ++ ws) :=
  h.crash hws List.prefix_rfl

/-- A write that leaves the latest pointer alone, and the file it names. -/
def QuietWrite (latest : Option DurableCheckpointRecord) : StoreWrite → Prop
  | .record r => r.WellNamed ∧ ∀ l ∈ latest, l.checkpointId ≠ r.checkpointId
  | .pending r => r.WellNamed
  | .latest _ => False
  | .unlinkPending => True

theorem QuietWrite.latest_eq {w : StoreWrite}
    (h : QuietWrite (storeAfter written).latest w) :
    (storeAfter (written ++ [w])).latest = (storeAfter written).latest := by
  rw [storeAfter_concat]
  cases w with
  | record r => rfl
  | pending r => rfl
  | latest r => exact h.elim
  | unlinkPending => rfl

theorem QuietWrite.safe {w : StoreWrite} (h : QuietWrite (storeAfter written).latest w) :
    SafeWrite fresh started written w := by
  cases w with
  | record r => exact h
  | pending r => exact h
  | latest r => exact h.elim
  | unlinkPending => trivial

theorem safeWrites_of_quiet {ws : List StoreWrite}
    (h : ∀ w ∈ ws, QuietWrite (storeAfter written).latest w) :
    SafeWrites fresh started written ws := by
  induction ws generalizing written with
  | nil => trivial
  | cons w ws ih =>
      have hw := h w List.mem_cons_self
      refine ⟨hw.safe, ih fun w' hw' => ?_⟩
      rw [hw.latest_eq]
      exact h w' (List.mem_cons_of_mem _ hw')

theorem latest_of_quiet {ws : List StoreWrite}
    (h : ∀ w ∈ ws, QuietWrite (storeAfter written).latest w) :
    (storeAfter (written ++ ws)).latest = (storeAfter written).latest := by
  induction ws generalizing written with
  | nil => rw [List.append_nil]
  | cons w ws ih =>
      have hw := h w List.mem_cons_self
      have hrest : (storeAfter (written ++ [w] ++ ws)).latest =
          (storeAfter (written ++ [w])).latest := by
        refine ih fun w' hw' => ?_
        rw [hw.latest_eq]
        exact h w' (List.mem_cons_of_mem _ hw')
      rw [List.append_assoc, hw.latest_eq] at hrest
      exact hrest

/-- The writes of a candidate that is not the latest one. -/
theorem quiet_writePending {latest : Option DurableCheckpointRecord}
    {r : DurableCheckpointRecord} (hnamed : r.WellNamed)
    (hne : ∀ l ∈ latest, l.checkpointId ≠ r.checkpointId) :
    ∀ w ∈ ManifestStore.writePending r, QuietWrite latest w := by
  intro w hw
  simp only [ManifestStore.writePending, List.mem_cons, List.not_mem_nil, or_false] at hw
  rcases hw with rfl | rfl
  · exact ⟨hnamed, hne⟩
  · exact hnamed

theorem quiet_reject {latest : Option DurableCheckpointRecord}
    {r : DurableCheckpointRecord} (hnamed : r.WellNamed)
    (hne : ∀ l ∈ latest, l.checkpointId ≠ r.checkpointId) :
    ∀ w ∈ ManifestStore.reject r, QuietWrite latest w := by
  intro w hw
  simp only [ManifestStore.reject, List.mem_cons, List.not_mem_nil, or_false] at hw
  rcases hw with rfl | rfl
  · exact ⟨hnamed, hne⟩
  · trivial

theorem safe_commit {r : DurableCheckpointRecord} (hcert : Certified started r)
    (hnamed : r.WellNamed)
    (hne : ∀ l ∈ (storeAfter written).latest, l.checkpointId ≠ r.checkpointId)
    (hrej : fresh → NotRejected written r.checkpointId) :
    SafeWrites fresh started written (ManifestStore.commit r) := by
  refine ⟨⟨hnamed, hne⟩, ⟨hcert, hnamed, ?_, fun hf => (hrej hf).concat fun r' hr' hs => ?_⟩,
    trivial, trivial⟩
  · rw [storeAfter_concat, ManifestStore.recordOf_write_record, if_pos rfl]
  · cases hr'
    rw [hcert.status] at hs
    cases hs

/-- **The recovery of the constructor** is safe. -/
theorem StoreInv.recover (h : StoreInv fresh started written) :
    ∀ w ∈ recoverStore (storeAfter written), QuietWrite (storeAfter written).latest w := by
  rw [recoverStore]
  cases hpending : (storeAfter written).pending with
  | none => exact fun w hw => absurd hw List.not_mem_nil
  | some stale =>
      have hnamed : stale.WellNamed := by
        rcases ManifestStore.pending_after hpending with hnone | hmem
        · cases hnone
        · exact h.pending stale hmem
      cases hlatest : (storeAfter written).latest with
      | none => exact quiet_reject hnamed fun l hl => by cases hl
      | some l =>
          dsimp only
          split
          · intro w hw
            rw [List.mem_singleton.mp hw]
            trivial
          · rename_i hother
            refine quiet_reject hnamed fun l' hl' => ?_
            cases hl'
            obtain ⟨hcert, -⟩ := h.latest l hlatest
            intro heq
            exact hother ⟨heq, .inl hcert.status, hcert.verdict⟩

theorem WellNamed.epoch_eq {r r' : DurableCheckpointRecord} (h : r.WellNamed) (h' : r'.WellNamed)
    (hid : r.checkpointId = r'.checkpointId) :
    r.step = r'.step ∧ r.validationEpoch = r'.validationEpoch :=
  checkpointIdOf_inj (h.symm.trans (hid.trans h'))

/-- After a restart the next epoch is above every epoch that was ever written. -/
theorem StoreInv.lt_nextValidationEpoch (h : StoreInv fresh started written)
    {r : DurableCheckpointRecord} (hr : .record r ∈ written) :
    r.validationEpoch < (storeAfter written).nextValidationEpoch := by
  obtain ⟨r', hr', hid⟩ := ManifestStore.exists_record_after hr ManifestStore.empty
  have hnamed : r'.WellNamed := ManifestStore.records_after
    (p := DurableCheckpointRecord.WellNamed) (fun r hr => absurd hr List.not_mem_nil)
    h.record r' hr'
  rw [← (WellNamed.epoch_eq hnamed (h.record r hr) hid).2]
  exact ManifestStore.lt_nextValidationEpoch hr'

end LmResiliency.Checkpointing
