/-
# Manifest — the records of durable checkpoints

The metadata store of the durable checkpoint coordinator: one record file
for each checkpoint, and the two pointer files.  Every write replaces one
file, or removes one, at once; an operation is a list of such writes, and a
process that dies in it has done some first part of the list.
-/
import LmResiliency.Lib.Json
import LmResiliency.Lib.Text

namespace LmResiliency.Checkpointing

/-- `ShapeValidation`. -/
structure ShapeValidation where
  shapeId : String
  step : Int

/-- The `status` of a record. -/
inductive RecordStatus where
  | writing
  | candidate
  | rejected
  | recoveryVerified
  | validated
deriving DecidableEq

/-- `DurableCheckpointRecord`. -/
structure DurableCheckpointRecord where
  checkpointId : String
  step : Int
  validationEpoch : Nat
  shapePlanId : String
  environmentId : String
  expectedShapeIds : List String
  checkedShapes : List ShapeValidation := []
  status : RecordStatus := .writing
  verdict : Option String := none
  completedStep : Option Int := none
  artifacts : List (String × Json) := []

namespace DurableCheckpointRecord

def checkedShapeIds (record : DurableCheckpointRecord) : List String :=
  record.checkedShapes.map (·.shapeId)

def complete (record : DurableCheckpointRecord) : Bool :=
  record.checkedShapeIds = record.expectedShapeIds

end DurableCheckpointRecord

/-- `f"scout-step-{int(step)}-epoch-{epoch}-{self.shape_plan_id[:12]}"`. -/
def checkpointIdOf (step : Int) (epoch : Nat) (shapePlanId : String) : String :=
  s!"scout-step-{Text.str step}-epoch-{Text.str epoch}-{String.ofList (shapePlanId.toList.take 12)}"

/-- **An identifier names its step and its epoch.** -/
theorem checkpointIdOf_inj {step step' : Int} {epoch epoch' : Nat} {plan plan' : String}
    (h : checkpointIdOf step epoch plan = checkpointIdOf step' epoch' plan') :
    step = step' ∧ epoch = epoch' := by
  have hchars : ∀ (s : Int) (e : Nat) (p : String), (checkpointIdOf s e p).toList =
      "scout-step-".toList ++ (((Text.str s).toList ++ ['-']) ++
        'e' :: ("poch-".toList ++ ((Text.str e).toList ++ '-' :: p.toList.take 12))) := by
    intro s e p
    have happend : checkpointIdOf s e p = "scout-step-" ++ Text.str s ++ "-epoch-" ++
      Text.str e ++ "-" ++ String.ofList (p.toList.take 12) := rfl
    simp only [happend, String.toList_append, String.toList_ofList]
    simp
  have hlist := congrArg String.toList h
  rw [hchars, hchars] at hlist
  have he : ∀ s : Int, 'e' ∉ (Text.str s).toList ++ ['-'] := by
    intro s hs
    rcases List.mem_append.mp hs with hs | hs
    · exact Text.notMem_str (by decide) (by decide) hs
    · simp at hs
  obtain ⟨hstep, hrest⟩ := Text.cut_unique (he step) (he step') (List.append_cancel_left hlist)
  obtain ⟨hepoch, -⟩ := Text.cut_unique (Text.minus_notMem_str epoch)
    (Text.minus_notMem_str epoch') (List.append_cancel_left hrest)
  refine ⟨Text.str_injective (String.toList_injective (List.append_cancel_right hstep)), ?_⟩
  exact Int.ofNat.inj (Text.str_injective (String.toList_injective hepoch))

/-- `_rotate_shape_ids`; `none` when the first shape is not in the plan. -/
def rotateShapeIds (shapeIds : List String) (firstShapeId : String) : Option (List String) :=
  match shapeIds.idxOf? firstShapeId with
  | none => none
  | some index => some (shapeIds.drop index ++ shapeIds.take index)

/-- One write of the store. -/
inductive StoreWrite where
  /-- `records/{checkpoint_id}.json` -/
  | record (r : DurableCheckpointRecord)
  /-- `LATEST_SCOUT_VALIDATED` -/
  | latest (r : DurableCheckpointRecord)
  /-- `PENDING_SCOUT_CANDIDATE` -/
  | pending (r : DurableCheckpointRecord)
  | unlinkPending

/-- The folder of `_DurableManifestStore`. -/
structure ManifestStore where
  records : List DurableCheckpointRecord
  latest : Option DurableCheckpointRecord
  pending : Option DurableCheckpointRecord

namespace ManifestStore

def empty : ManifestStore := ⟨[], none, none⟩

def write (store : ManifestStore) : StoreWrite → ManifestStore
  | .record r => { store with
      records := r :: store.records.filter fun r' => r'.checkpointId ≠ r.checkpointId }
  | .latest r => { store with latest := some r }
  | .pending r => { store with pending := some r }
  | .unlinkPending => { store with pending := none }

/-- The folder after a list of writes. -/
def after (writes : List StoreWrite) (store : ManifestStore) : ManifestStore :=
  writes.foldl write store

/-- The record in the file of an identifier. -/
def recordOf (store : ManifestStore) (checkpointId : String) : Option DurableCheckpointRecord :=
  store.records.find? fun r => r.checkpointId = checkpointId

def nextValidationEpoch (store : ManifestStore) : Nat :=
  (store.records.map (·.validationEpoch)).foldr max 0 + 1

def writePending (r : DurableCheckpointRecord) : List StoreWrite := [.record r, .pending r]

def commit (r : DurableCheckpointRecord) : List StoreWrite :=
  [.record r, .latest r, .unlinkPending]

def reject (r : DurableCheckpointRecord) : List StoreWrite := [.record r, .unlinkPending]

def clearPending : List StoreWrite := [.unlinkPending]

/-! ## What a list of writes leaves -/

theorem after_append (ws ws' : List StoreWrite) (store : ManifestStore) :
    store.after (ws ++ ws') = (store.after ws).after ws' := List.foldl_append

theorem recordOf_write_record (store : ManifestStore) (r : DurableCheckpointRecord) (id : String) :
    (store.write (.record r)).recordOf id =
      if r.checkpointId = id then some r else store.recordOf id := by
  rw [recordOf, write, List.find?_cons]
  by_cases h : r.checkpointId = id
  · rw [if_pos h, decide_eq_true h]
  · rw [if_neg h, decide_eq_false h]
    simp only [recordOf, List.find?_filter]
    congr 1
    funext r'
    by_cases hr : r'.checkpointId = id
    · have hne : ¬ r'.checkpointId = r.checkpointId := fun heq => h (heq.symm.trans hr)
      simp [hr, hr ▸ hne]
    · simp [hr]

/-- A record that was written stays under its identifier. -/
theorem exists_record_after {r : DurableCheckpointRecord} {ws : List StoreWrite}
    (h : .record r ∈ ws) (store : ManifestStore) :
    ∃ r' ∈ (store.after ws).records, r'.checkpointId = r.checkpointId := by
  have hkeep : ∀ (ws : List StoreWrite) (store : ManifestStore),
      (∃ r' ∈ store.records, r'.checkpointId = r.checkpointId) →
      ∃ r' ∈ (store.after ws).records, r'.checkpointId = r.checkpointId := by
    intro ws
    induction ws with
    | nil => exact fun _ h => h
    | cons w ws ih =>
        rintro store ⟨r', hr', hid⟩
        refine ih (store.write w) ?_
        cases w with
        | record r₀ =>
            by_cases hr₀ : r₀.checkpointId = r.checkpointId
            · exact ⟨r₀, List.mem_cons_self, hr₀⟩
            · refine ⟨r', List.mem_cons_of_mem _ (List.mem_filter.mpr ⟨hr', ?_⟩), hid⟩
              rw [hid]
              exact decide_eq_true fun heq => hr₀ heq.symm
        | latest _ => exact ⟨r', hr', hid⟩
        | pending _ => exact ⟨r', hr', hid⟩
        | unlinkPending => exact ⟨r', hr', hid⟩
  obtain ⟨ws₁, ws₂, rfl⟩ := List.append_of_mem h
  rw [after_append]
  exact hkeep ws₂ _ ⟨r, List.mem_cons_self, rfl⟩

/-- What holds of every record that is written holds of every record of the store. -/
theorem records_after {p : DurableCheckpointRecord → Prop} {ws : List StoreWrite} :
    ∀ {store : ManifestStore}, (∀ r ∈ store.records, p r) → (∀ r, .record r ∈ ws → p r) →
      ∀ r ∈ (store.after ws).records, p r := by
  induction ws with
  | nil => exact fun h _ => h
  | cons w ws ih =>
      intro store hstore hws
      refine @ih (store.write w) ?_ fun r hr => hws r (List.mem_cons_of_mem _ hr)
      cases w with
      | record r₀ =>
          intro r hr
          rcases List.mem_cons.mp hr with rfl | hr
          · exact hws r List.mem_cons_self
          · exact hstore r (List.mem_filter.mp hr).1
      | latest _ => exact hstore
      | pending _ => exact hstore
      | unlinkPending => exact hstore

/-- The pending pointer holds what was written there. -/
theorem pending_after {ws : List StoreWrite} {p : DurableCheckpointRecord} :
    ∀ {store : ManifestStore}, (store.after ws).pending = some p →
      store.pending = some p ∨ .pending p ∈ ws := by
  induction ws with
  | nil => exact fun h => .inl h
  | cons w ws ih =>
      intro store h
      rcases @ih (store.write w) h with hfirst | hmem
      · cases w with
        | record r => exact .inl hfirst
        | latest r => exact .inl hfirst
        | pending r =>
            cases hfirst
            exact .inr List.mem_cons_self
        | unlinkPending => cases hfirst
      · exact .inr (List.mem_cons_of_mem _ hmem)

/-- The latest pointer is the old one, or what was written there. -/
theorem latest_after (ws : List StoreWrite) :
    ∀ store : ManifestStore, (store.after ws).latest = store.latest ∨
      ∃ r, .latest r ∈ ws ∧ (store.after ws).latest = some r := by
  induction ws with
  | nil => exact fun _ => .inl rfl
  | cons w ws ih =>
      intro store
      rcases ih (store.write w) with hfirst | ⟨r, hr, hlast⟩
      · cases w with
        | record r => exact .inl hfirst
        | latest r => exact .inr ⟨r, List.mem_cons_self, hfirst⟩
        | pending r => exact .inl hfirst
        | unlinkPending => exact .inl hfirst
      · exact .inr ⟨r, List.mem_cons_of_mem _ hr, hlast⟩

/-- The next epoch is above that of every record. -/
theorem lt_nextValidationEpoch {store : ManifestStore} {r : DurableCheckpointRecord}
    (h : r ∈ store.records) : r.validationEpoch < store.nextValidationEpoch := by
  have hle : ∀ (epochs : List Nat), ∀ e ∈ epochs, e ≤ epochs.foldr max 0 := by
    intro epochs
    induction epochs with
    | nil => exact fun _ h => absurd h List.not_mem_nil
    | cons d epochs ih =>
        intro e he
        rcases List.mem_cons.mp he with rfl | he
        · exact Nat.le_max_left _ _
        · exact (ih e he).trans (Nat.le_max_right _ _)
  exact Nat.lt_succ_of_le (hle _ _ (List.mem_map_of_mem h))

end ManifestStore

end LmResiliency.Checkpointing
