/-
# Disk — the shards of one rank on its node

`DiskSerializer`, as far as recovery reads it: the folder is a list of
entries, a step directory holds one shard file for each rank that was
flushed there.  What is in a shard file is left open, and so is the decoding
that accepts or rejects it.

`\d` and `int` are taken on ASCII digits.
-/
import LmResiliency.Lib.Text
import LmResiliency.Checkpointing.Collective
import Mathlib.Data.List.Sort
import Mathlib.Order.Bounds.Basic

namespace LmResiliency.Checkpointing

/-- An entry of the checkpoint folder: a file, or a directory with the shard
file `rank-{rank}.pt` of some ranks. -/
inductive Entry (σ : Type) where
  | file (name : String)
  | dir (name : String) (shards : List (Nat × σ))

/-- `DiskSerializer` of one rank, on a folder of files `σ` that decode to shards `τ`. -/
structure DiskSerializer (σ τ : Type) where
  folder : List (Entry σ)
  rank : Nat
  /-- the checks of `load` on the file of a step and a rank -/
  decode : Int → Nat → σ → Except CheckpointError τ

/-- `step-{step}`. -/
def stepName (step : Int) : String := s!"step-{Text.str step}"

/-- `_STEP_DIR_PATTERN.fullmatch(name)` and `int(match.group(1))`. -/
def stepOfName (name : String) : Option Int :=
  match name.toList with
  | 's' :: 't' :: 'e' :: 'p' :: '-' :: digits =>
      if digits.all Char.isDigit then (Text.nat? digits).map Int.ofNat else none
  | _ => none

namespace DiskSerializer

variable {σ τ : Type} (self : DiskSerializer σ τ)

/-- The file `step-{step}/rank-{rank}.pt`. -/
def shardFile (step : Int) (rank : Nat) : Option σ :=
  self.folder.findSome? fun
    | .file _ => none
    | .dir name shards => if name = stepName step then shards.lookup rank else none

def hasRank (step : Int) (rank : Nat) : Bool := (self.shardFile step rank).isSome

def load (step : Int) : Except CheckpointError τ :=
  match self.shardFile step self.rank with
  | none => .error .fileNotFound
  | some file => self.decode step self.rank file

/-- The step of an entry that `find_steps_on_disk` keeps. -/
def stepOfEntry (beforeStep : Option Int) : Entry σ → Option Int
  | .file _ => none
  | .dir name shards =>
      match stepOfName name with
      | none => none
      | some step =>
          if ∃ before ∈ beforeStep, before ≤ step then none
          else if (shards.lookup self.rank).isSome then some step
          else none

/-- `find_steps_on_disk`, for the serializer's own rank. -/
def findStepsOnDisk (beforeStep : Option Int) : List Int :=
  (self.folder.filterMap (self.stepOfEntry beforeStep)).insertionSort (· ≥ ·)

def findLatestOnDisk (beforeStep : Option Int) : Int :=
  (self.findStepsOnDisk beforeStep).head?.getD (-1)

end DiskSerializer

/-! ## Names -/

theorem stepOfName_stepName {step : Int} (h : 0 ≤ step) : stepOfName (stepName step) = some step := by
  have hdigits : (Text.str step).toList = Nat.toDigits 10 step.natAbs := by
    rw [Text.toList_str, if_neg (Int.not_lt.mpr h), List.nil_append]
  have hlist : (stepName step).toList = 's' :: 't' :: 'e' :: 'p' :: '-' ::
      Nat.toDigits 10 step.natAbs := by
    have happend : stepName step = "step-" ++ Text.str step := rfl
    rw [happend, String.toList_append, hdigits]
    rfl
  have hall : (Nat.toDigits 10 step.natAbs).all Char.isDigit = true :=
    List.all_eq_true.mpr fun c hc =>
      Nat.isDigit_of_mem_toDigits (by decide) (by decide) hc
  simp only [stepOfName, hlist, hall, if_true, Text.nat?_toDigits, Option.map_some]
  exact congrArg some (Int.natAbs_of_nonneg h)

namespace DiskSerializer

variable {σ τ : Type} {self : DiskSerializer σ τ}

theorem hasRank_iff {step : Int} {rank : Nat} :
    self.hasRank step rank = true ↔
      ∃ shards, .dir (stepName step) shards ∈ self.folder ∧ (shards.lookup rank).isSome := by
  rw [hasRank, shardFile, List.findSome?_isSome_iff]
  constructor
  · rintro ⟨e, he, hsome⟩
    cases e with
    | file name => cases hsome
    | dir name shards =>
        dsimp only at hsome
        split at hsome
        · rename_i hname
          exact ⟨shards, hname ▸ he, hsome⟩
        · cases hsome
  · rintro ⟨shards, he, hsome⟩
    exact ⟨_, he, by simpa using hsome⟩

theorem stepOfEntry_eq_some {beforeStep : Option Int} {e : Entry σ} {step : Int} :
    self.stepOfEntry beforeStep e = some step ↔
      ∃ name shards, e = .dir name shards ∧ stepOfName name = some step ∧
        (∀ before ∈ beforeStep, step < before) ∧ (shards.lookup self.rank).isSome := by
  cases e with
  | file name => simp [stepOfEntry]
  | dir name shards =>
      rw [stepOfEntry]
      cases hname : stepOfName name with
      | none => simp [hname]
      | some found =>
          dsimp only
          by_cases hbefore : ∃ before ∈ beforeStep, before ≤ found
          · rw [if_pos hbefore]
            refine iff_of_false (by simp) ?_
            rintro ⟨_, _, heq, hfound, hlt, -⟩
            cases heq
            obtain rfl : found = step := Option.some.inj (hname.symm.trans hfound)
            obtain ⟨before, hmem, hle⟩ := hbefore
            exact absurd (hlt before hmem) (Int.not_lt.mpr hle)
          · rw [if_neg hbefore]
            by_cases hshard : (shards.lookup self.rank).isSome
            · rw [if_pos hshard]
              constructor
              · intro h
                cases h
                exact ⟨name, shards, rfl, hname, fun before hmem =>
                  Int.not_le.mp fun hle => hbefore ⟨before, hmem, hle⟩, hshard⟩
              · rintro ⟨_, _, heq, hfound, -, -⟩
                cases heq
                exact hname.symm.trans hfound
            · rw [if_neg hshard]
              refine iff_of_false (by simp) ?_
              rintro ⟨_, _, heq, -, -, hsome⟩
              cases heq
              exact hshard hsome

/-- The shard of a step that is there before the bound is found. -/
theorem mem_findStepsOnDisk {step : Int} (h0 : 0 ≤ step) {beforeStep : Option Int}
    (hbefore : ∀ before ∈ beforeStep, step < before) (h : self.hasRank step self.rank = true) :
    step ∈ self.findStepsOnDisk beforeStep := by
  rw [findStepsOnDisk, List.mem_insertionSort, List.mem_filterMap]
  obtain ⟨shards, he, hshard⟩ := hasRank_iff.mp h
  exact ⟨_, he, stepOfEntry_eq_some.mpr
    ⟨_, shards, rfl, stepOfName_stepName h0, hbefore, hshard⟩⟩

theorem lt_of_mem_findStepsOnDisk {step before : Int}
    (h : step ∈ self.findStepsOnDisk (some before)) : step < before := by
  rw [findStepsOnDisk, List.mem_insertionSort, List.mem_filterMap] at h
  obtain ⟨e, -, hstep⟩ := h
  obtain ⟨-, -, -, -, hbefore, -⟩ := stepOfEntry_eq_some.mp hstep
  exact hbefore before rfl

theorem nonneg_of_mem_findStepsOnDisk {step : Int} {beforeStep : Option Int}
    (h : step ∈ self.findStepsOnDisk beforeStep) : 0 ≤ step := by
  rw [findStepsOnDisk, List.mem_insertionSort, List.mem_filterMap] at h
  obtain ⟨e, -, hstep⟩ := h
  obtain ⟨name, shards, -, hname, -, -⟩ := stepOfEntry_eq_some.mp hstep
  rw [stepOfName] at hname
  split at hname
  · split at hname
    · obtain ⟨n, -, rfl⟩ := Option.map_eq_some_iff.mp hname
      exact Int.natCast_nonneg n
    · cases hname
  · cases hname

/-- **The latest step on disk** is at least every step that is there before
the bound … -/
theorem le_findLatestOnDisk {step : Int} (h0 : 0 ≤ step)
    {beforeStep : Option Int} (hbefore : ∀ before ∈ beforeStep, step < before)
    (hstep : self.hasRank step self.rank = true) :
    step ≤ self.findLatestOnDisk beforeStep := by
  have hmem := mem_findStepsOnDisk h0 hbefore hstep
  have hsorted : (self.findStepsOnDisk beforeStep).Pairwise (· ≥ ·) :=
    List.pairwise_insertionSort _ _
  rw [findLatestOnDisk]
  cases hfound : self.findStepsOnDisk beforeStep with
  | nil =>
      rw [hfound] at hmem
      cases hmem
  | cons first rest =>
      rw [hfound] at hmem hsorted
      rw [List.head?_cons, Option.getD_some]
      rcases List.mem_cons.mp hmem with rfl | hrest
      · exact le_refl step
      · exact (List.pairwise_cons.mp hsorted).1 step hrest

theorem findLatestOnDisk_cases (self : DiskSerializer σ τ) (beforeStep : Option Int) :
    self.findLatestOnDisk beforeStep = -1 ∨
      self.findLatestOnDisk beforeStep ∈ self.findStepsOnDisk beforeStep := by
  rw [findLatestOnDisk]
  cases hfound : self.findStepsOnDisk beforeStep with
  | nil => exact .inl rfl
  | cons first rest => exact .inr List.mem_cons_self

theorem findLatestOnDisk_lt (self : DiskSerializer σ τ) {before : Int} (h0 : 0 ≤ before) :
    self.findLatestOnDisk (some before) < before := by
  rcases self.findLatestOnDisk_cases (some before) with h | h
  · omega
  · exact lt_of_mem_findStepsOnDisk h

theorem hasRank_of_load {step : Int} {shard : τ} (h : self.load step = .ok shard) :
    self.hasRank step self.rank = true := by
  rw [load] at h
  cases hfile : self.shardFile step self.rank with
  | none =>
      rw [hfile] at h
      cases h
  | some file => rw [hasRank, hfile, Option.isSome_some]

end DiskSerializer

end LmResiliency.Checkpointing
