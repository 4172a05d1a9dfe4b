/-
# FrameworkInference — which framework the imports of a worker name

`_AutoFrameworkAdapter` watches the imports of a worker.  `torch` installs a
native adapter as a candidate; a framework of its own replaces it.  When an
outermost one of these raises, it is undone from what was noted at its start:
which framework was selected, and whether there was a candidate.

An import is two events: what `_run_import` does before the operation, and what
it does after.  Whatever comes between the two happens inside the import.

The main result is `failed_import`.  Python's own table of modules is not part of
the model.
-/
import Mathlib.Data.List.Induction
import Mathlib.Data.List.Infix

namespace LmResiliency.Integrations.FrameworkInference

/-- The built-in frameworks. -/
inductive Framework where
  | pytorch
  | torchtitan
  | megatron
  | deepspeed
deriving DecidableEq

def Framework.name : Framework → String
  | .pytorch => "pytorch"
  | .torchtitan => "torchtitan"
  | .megatron => "megatron"
  | .deepspeed => "deepspeed"

/-- What a `TorchrunWorkerAdapterError` says. -/
inductive InferenceError where
  | torchAfterAgreement (agreed : Option Framework)
  | afterAgreement (framework : Framework) (agreed : Option Framework)
  | multiple (selected framework : Framework)
  | afterNativeAttached (framework : Framework)
  | ranksDiffer (gathered : List (Option Framework))
  | changedDuringAgreement
  | attachWithoutAgreement (framework : Framework) (agreed : Option Framework)
deriving DecidableEq

/-- `repr` of a framework, or of `None`. -/
def reprFramework : Option Framework → String
  | none => "None"
  | some f => "'" ++ f.name ++ "'"

def InferenceError.message : InferenceError → String
  | .torchAfterAgreement agreed =>
      "native PyTorch was imported after the worker cohort agreed on " ++ reprFramework agreed
  | .afterAgreement framework agreed =>
      framework.name ++ " was imported after the worker cohort agreed on " ++
        reprFramework agreed
  | .multiple selected framework =>
      "multiple supported training frameworks were imported: " ++
        reprFramework (some selected) ++ " and " ++ reprFramework (some framework)
  | .afterNativeAttached framework =>
      framework.name ++ " was imported after the native PyTorch adapter attached"
  | .ranksDiffer gathered =>
      "worker ranks inferred different training frameworks: [" ++
        ", ".intercalate (gathered.map reprFramework) ++ "]"
  | .changedDuringAgreement => "framework inference changed during worker cohort agreement"
  | .attachWithoutAgreement framework agreed =>
      "distributed framework attachment requires cohort agreement on " ++
        reprFramework (some framework) ++ ", observed " ++ reprFramework agreed

/-- A `NativePyTorchAdapter`: what was constructed under its hooks, and whether it has a
handle. -/
structure Native (Obj : Type) where
  optimizers : List Obj
  models : List Obj
  attached : Bool
deriving DecidableEq

/-- A new one. -/
def Native.fresh {Obj : Type} : Native Obj := ⟨[], [], false⟩

/-- `_delegate`. -/
inductive Delegate (Obj : Type) where
  | native (adapter : Native Obj)
  | specialized (framework : Framework)
deriving DecidableEq

/-- `_AutoFrameworkAdapter`, with the depth and the snapshot of the thread that imports. -/
structure Inference (Obj : Type) where
  selected : Option Framework
  native : Option (Native Obj)
  delegate : Option (Delegate Obj)
  agreed : Option Framework
  error : Option InferenceError
  depth : Nat
  snapshot : Option (Option Framework × Bool)
deriving DecidableEq

/-- Whether what is called during an event succeeds. -/
structure Outcomes where
  /-- Closing the candidate for a framework of its own. -/
  closesNative : Bool
  /-- Installing an adapter. -/
  installs : Bool
  /-- Closing the adapters in a rollback. -/
  closes : Bool
  /-- Installing the candidate again in a rollback. -/
  reinstalls : Bool

/-- What may happen in a worker. -/
inductive Event (Obj : Type) where
  /-- An import starts. -/
  | enter
  /-- The operation of an import has returned or raised. -/
  | leave (observedName : String) (raised : Bool) (outcomes : Outcomes)
  /-- An optimizer is constructed. -/
  | optimizer (x : Obj)
  /-- A distributed model is constructed. -/
  | model (x : Obj)
  /-- The native adapter gets its handle. -/
  | attach
  /-- It then calls `_native_attached`. -/
  | nativeAttached
  /-- An adapter is about to attach. -/
  | beforeAttach (framework : Framework) (distributed : Bool)
  /-- The ranks have gathered their candidates. -/
  | agree (gathered : List (Option Framework))

def supportedRoot (moduleName : String) : Option Framework :=
  if moduleName = "" ∨ moduleName.toList.head? = some '.' then none
  else
    let root := String.ofList (moduleName.toList.takeWhile (· ≠ '.'))
    if root = "torch" then some .pytorch
    else if root = "torchtitan" then some .torchtitan
    else if root = "megatron" then some .megatron
    else if root = "deepspeed" then some .deepspeed
    else none

namespace Inference

variable {Obj : Type}

/-- After `install`. -/
def start : Inference Obj := ⟨none, none, none, none, none, 0, none⟩

/-- The cohort has agreed on nothing else. -/
def agrees (s : Inference Obj) (framework : Framework) : Bool :=
  s.agreed = none ∨ s.agreed = some framework

/-- An error is recorded and raised. -/
def record (s : Inference Obj) (error : InferenceError) : Inference Obj × Bool :=
  ({ s with error := some error }, true)

/-! ## What an import is refused for -/

def tentativeRefusal (s : Inference Obj) : Option InferenceError :=
  if s.selected.isSome ∨ s.native.isSome then none
  else if s.agrees .pytorch then none
  else some (.torchAfterAgreement s.agreed)

def specializedRefusal (s : Inference Obj) (framework : Framework) : Option InferenceError :=
  if ¬s.agrees framework then some (.afterAgreement framework s.agreed)
  else
    match s.selected with
    | some selected => if selected = framework then none else some (.multiple selected framework)
    | none => if s.native.any (·.attached) then some (.afterNativeAttached framework) else none

/-! ## The methods, each with whether it raises -/

/-- `_install_tentative_pytorch_locked`. -/
def installTentative (s : Inference Obj) (installs : Bool) : Inference Obj × Bool :=
  match s.tentativeRefusal with
  | some error => s.record error
  | none =>
      if s.selected.isSome ∨ s.native.isSome then (s, false)
      else if installs then ({ s with native := some .fresh }, false)
      else (s, true)

/-- `_select_specialized_locked`. -/
def selectSpecialized (s : Inference Obj) (framework : Framework) (outcomes : Outcomes) :
    Inference Obj × Bool :=
  match s.specializedRefusal framework with
  | some error => s.record error
  | none =>
      if s.selected.isSome then (s, false)
      else if s.native.isSome ∧ ¬outcomes.closesNative then (s, true)
      else if outcomes.installs then
        ({ s with native := none, selected := some framework,
                  delegate := some (.specialized framework) }, false)
      else ({ s with native := none, selected := none, delegate := none }, true)

/-- `_observe_root`. -/
def observe (s : Inference Obj) (root : Framework) (outcomes : Outcomes) :
    Inference Obj × Bool :=
  if root = .pytorch then s.installTentative outcomes.installs
  else s.selectSpecialized root outcomes

/-- `_rollback_import_selection`. -/
def rollback (s : Inference Obj) (selected : Option Framework) (hadNative : Bool)
    (outcomes : Outcomes) : Inference Obj :=
  if s.selected = selected ∧ s.native.isSome = hadNative then s
  else
    let s := { s with delegate := none, native := none, selected := selected, error := none }
    if ¬outcomes.closes then s
    else if selected = none ∧ hadNative then (s.installTentative outcomes.reinstalls).1
    else s

/-- The end of an import inside `try`. -/
def finish (s : Inference Obj) (observedName : String) (raised : Bool) (outcomes : Outcomes) :
    Inference Obj × Bool :=
  if raised then (s, true)
  else
    match supportedRoot observedName with
    | none => (s, false)
    | some root => s.observe root outcomes

/-- `_run_import` up to the operation. -/
def enter (s : Inference Obj) : Inference Obj :=
  if s.depth = 0 then
    { s with depth := 1, snapshot := some (s.selected, s.native.isSome) }
  else { s with depth := s.depth + 1 }

/-- `_run_import` from the operation on. -/
def leave (s : Inference Obj) (observedName : String) (raised : Bool) (outcomes : Outcomes) :
    Inference Obj :=
  let (s', raises) := s.finish observedName raised outcomes
  match s.depth with
  | 0 => s
  | 1 =>
      let s'' := match raises, s'.snapshot with
        | true, some (selected, hadNative) => s'.rollback selected hadNative outcomes
        | _, _ => s'
      { s'' with depth := 0, snapshot := none }
  | depth + 2 => { s' with depth := depth + 1 }

/-- The hooks of the candidate are in place until it attaches. -/
def register (s : Inference Obj) (add : Native Obj → Native Obj) : Inference Obj :=
  { s with native := s.native.map fun n => if n.attached then n else add n }

def nativeAttached (s : Inference Obj) : Inference Obj :=
  match s.native with
  | none => s
  | some n => { s with delegate := some (.native n), native := none, selected := some .pytorch }

/-- `_before_framework_attach`. -/
def beforeAttach (s : Inference Obj) (framework : Framework) (distributed : Bool) :
    Inference Obj :=
  if s.error.isSome ∨ ¬distributed ∨ s.agreed = some framework then s
  else { s with error := some (.attachWithoutAgreement framework s.agreed) }

/-- `_framework_candidate_locked`. -/
def candidate (s : Inference Obj) : Option Framework :=
  if s.selected.isSome then s.selected
  else if s.native.isSome then some .pytorch
  else none

/-- `_agree_framework_cohort`, with what was gathered. -/
def agree (s : Inference Obj) (gathered : List (Option Framework)) : Inference Obj :=
  if s.error.isSome ∨ s.agreed.isSome then s
  else
    let agreed := gathered.head?.join
    if agreed = none ∨ gathered.any (· ≠ agreed) then
      { s with error := some (.ranksDiffer gathered) }
    else if s.candidate ≠ agreed then { s with error := some .changedDuringAgreement }
    else { s with agreed := agreed }

def step (s : Inference Obj) : Event Obj → Inference Obj
  | .enter => s.enter
  | .leave observedName raised outcomes => s.leave observedName raised outcomes
  | .optimizer x => s.register fun n => { n with optimizers := n.optimizers ++ [x] }
  | .model x => s.register fun n => { n with models := n.models ++ [x] }
  | .attach => { s with native := s.native.map fun n => { n with attached := true } }
  | .nativeAttached => s.nativeAttached
  | .beforeAttach framework distributed => s.beforeAttach framework distributed
  | .agree gathered => s.agree gathered

def run (s : Inference Obj) (es : List (Event Obj)) : Inference Obj := es.foldl step s

/-- The error that an event records. -/
def refusal (s : Inference Obj) : Event Obj → Option InferenceError
  | .leave observedName raised _ =>
      match supportedRoot observedName with
      | none => none
      | some root =>
          if raised then none
          else if root = .pytorch then s.tentativeRefusal
          else s.specializedRefusal root
  | .beforeAttach framework distributed =>
      if s.error.isSome ∨ ¬distributed ∨ s.agreed = some framework then none
      else some (.attachWithoutAgreement framework s.agreed)
  | .agree gathered =>
      if s.error.isSome ∨ s.agreed.isSome then none
      else if gathered.head?.join = none ∨ gathered.any (· ≠ gathered.head?.join) then
        some (.ranksDiffer gathered)
      else if s.candidate ≠ gathered.head?.join then some .changedDuringAgreement
      else none
  | _ => none

/-! ## What the methods leave as it is -/

/-- Neither the bookkeeping of imports nor the agreement changes. -/
structure SameFrame (s s' : Inference Obj) : Prop where
  depth : s'.depth = s.depth
  snapshot : s'.snapshot = s.snapshot
  agreed : s'.agreed = s.agreed

/-- There is a candidate only while nothing is selected. -/
def Tentative (s : Inference Obj) : Prop := s.native.isSome → s.selected = none

variable {s : Inference Obj} {outcomes : Outcomes} {observedName : String} {raised : Bool}

theorem sameFrame_installTentative (s : Inference Obj) (installs : Bool) :
    SameFrame s (s.installTentative installs).1 := by
  unfold installTentative record
  split
  · exact ⟨rfl, rfl, rfl⟩
  · split
    · exact ⟨rfl, rfl, rfl⟩
    · split <;> exact ⟨rfl, rfl, rfl⟩

theorem sameFrame_selectSpecialized (s : Inference Obj) (framework : Framework)
    (outcomes : Outcomes) : SameFrame s (s.selectSpecialized framework outcomes).1 := by
  unfold selectSpecialized record
  split
  · exact ⟨rfl, rfl, rfl⟩
  · split
    · exact ⟨rfl, rfl, rfl⟩
    · split
      · exact ⟨rfl, rfl, rfl⟩
      · split <;> exact ⟨rfl, rfl, rfl⟩

theorem sameFrame_finish (s : Inference Obj) (observedName : String) (raised : Bool)
    (outcomes : Outcomes) : SameFrame s (s.finish observedName raised outcomes).1 := by
  unfold finish observe
  split
  · exact ⟨rfl, rfl, rfl⟩
  · split
    · exact ⟨rfl, rfl, rfl⟩
    · split
      · exact sameFrame_installTentative s _
      · exact sameFrame_selectSpecialized s _ _

theorem beforeAttach_eq (s : Inference Obj) (framework : Framework) (distributed : Bool) :
    ∃ error, s.beforeAttach framework distributed = { s with error := error } := by
  unfold beforeAttach
  split
  · exact ⟨s.error, rfl⟩
  · exact ⟨_, rfl⟩

theorem agree_eq (s : Inference Obj) (gathered : List (Option Framework)) :
    ∃ error agreed, s.agree gathered = { s with error := error, agreed := agreed } := by
  unfold agree
  dsimp only
  split
  · exact ⟨s.error, s.agreed, rfl⟩
  · split
    · exact ⟨_, s.agreed, rfl⟩
    · split
      · exact ⟨_, s.agreed, rfl⟩
      · exact ⟨s.error, _, rfl⟩

theorem tentative_installTentative (h : s.Tentative) (installs : Bool) :
    (s.installTentative installs).1.Tentative := by
  unfold installTentative record
  split
  · exact h
  · split
    · exact h
    · rename_i hnone
      split
      · intro _
        simpa using (not_or.mp hnone).1
      · exact h

theorem tentative_selectSpecialized (h : s.Tentative) (framework : Framework) :
    (s.selectSpecialized framework outcomes).1.Tentative := by
  unfold selectSpecialized record
  split
  · exact h
  · split
    · exact h
    · split
      · exact h
      · split <;> · intro hsome; cases hsome

theorem tentative_finish (h : s.Tentative) :
    (s.finish observedName raised outcomes).1.Tentative := by
  unfold finish observe
  split
  · exact h
  · split
    · exact h
    · split
      · exact tentative_installTentative h _
      · exact tentative_selectSpecialized h _

/-! ## A rollback -/

/-- What a rollback closes and installs again does not fail. -/
structure Undoes (s : Inference Obj) (hadNative : Bool) (outcomes : Outcomes) : Prop where
  closes : outcomes.closes = true
  reinstalls : hadNative = true → outcomes.reinstalls = true
  agrees : hadNative = true → s.agrees .pytorch = true

theorem installTentative_selected (s : Inference Obj) (installs : Bool) :
    (s.installTentative installs).1.selected = s.selected := by
  unfold installTentative record
  split
  · rfl
  · split
    · rfl
    · split <;> rfl

/-- **The selection is what it was**, whatever fails on the way. -/
theorem rollback_selected (s : Inference Obj) (selected : Option Framework) (hadNative : Bool)
    (outcomes : Outcomes) : (s.rollback selected hadNative outcomes).selected = selected := by
  unfold rollback
  split
  · rename_i hsame
    exact hsame.1
  · dsimp only
    split
    · rfl
    · split
      · exact installTentative_selected _ _
      · rfl

theorem tentativeRefusal_of_agrees (h : s.agrees .pytorch = true) :
    s.tentativeRefusal = none := by
  unfold tentativeRefusal
  rw [if_pos h, ite_self]

/-- Where there is something to undo, what is left is a selection and maybe a new candidate. -/
theorem rollback_undone {selected : Option Framework} {hadNative : Bool}
    (hdiffers : ¬(s.selected = selected ∧ s.native.isSome = hadNative))
    (htentative : hadNative = true → selected = none) (hundo : s.Undoes hadNative outcomes) :
    s.rollback selected hadNative outcomes =
      { s with selected := selected, native := if hadNative then some .fresh else none,
               delegate := none, error := none } := by
  unfold rollback
  rw [if_neg hdiffers]
  dsimp only
  rw [if_neg (not_not.mpr hundo.closes)]
  cases hadNative with
  | false => simp
  | true =>
      obtain rfl := htentative rfl
      have hagrees : agrees (⟨none, none, none, s.agreed, none, s.depth, s.snapshot⟩ :
          Inference Obj) .pytorch = true := hundo.agrees rfl
      rw [if_pos ⟨rfl, rfl⟩, installTentative, tentativeRefusal_of_agrees hagrees]
      simp [hundo.reinstalls rfl]

/-! ## Inside an import -/

theorem leave_inside (h : 1 < s.depth) :
    s.leave observedName raised outcomes =
      { (s.finish observedName raised outcomes).1 with depth := s.depth - 1 } := by
  obtain ⟨depth, hdepth⟩ := Nat.exists_eq_add_of_lt h
  unfold leave
  rw [hdepth, show 1 + depth + 1 = depth + 2 by omega]
  rfl

theorem leave_outermost (h : s.depth = 1) {selected : Option Framework} {hadNative : Bool}
    (hsnapshot : s.snapshot = some (selected, hadNative))
    (hraises : (s.finish observedName raised outcomes).2 = true) :
    s.leave observedName raised outcomes =
      { (s.finish observedName raised outcomes).1.rollback selected hadNative outcomes with
        depth := 0, snapshot := none } := by
  have hsame := (sameFrame_finish s observedName raised outcomes).snapshot.trans hsnapshot
  unfold leave
  generalize s.finish observedName raised outcomes = r at hraises hsame ⊢
  obtain ⟨s', raises⟩ := r
  cases hraises
  dsimp only at hsame ⊢
  rw [h, hsame]

theorem leave_depth (s : Inference Obj) (observedName : String) (raised : Bool)
    (outcomes : Outcomes) : (s.leave observedName raised outcomes).depth = s.depth - 1 := by
  unfold leave
  dsimp only
  split <;> simp [*]

theorem one_lt_depth (h : 0 < (s.step (.leave observedName raised outcomes)).depth) :
    1 < s.depth := by
  change 0 < (s.leave observedName raised outcomes).depth at h
  rw [leave_depth] at h
  omega

theorem step_snapshot {e : Event Obj} (hdepth : 0 < s.depth) (hafter : 0 < (s.step e).depth) :
    (s.step e).snapshot = s.snapshot := by
  cases e with
  | enter =>
      change s.enter.snapshot = s.snapshot
      rw [enter, if_neg (Nat.pos_iff_ne_zero.mp hdepth)]
  | leave observedName raised outcomes =>
      change (s.leave observedName raised outcomes).snapshot = s.snapshot
      rw [leave_inside (one_lt_depth hafter)]
      exact (sameFrame_finish s observedName raised outcomes).snapshot
  | optimizer x => rfl
  | model x => rfl
  | attach => rfl
  | nativeAttached =>
      change s.nativeAttached.snapshot = s.snapshot
      unfold nativeAttached
      split <;> rfl
  | beforeAttach framework distributed =>
      change (s.beforeAttach framework distributed).snapshot = s.snapshot
      obtain ⟨error, hbefore⟩ := beforeAttach_eq s framework distributed
      rw [hbefore]
  | agree gathered =>
      change (s.agree gathered).snapshot = s.snapshot
      obtain ⟨error, agreed, hagree⟩ := agree_eq s gathered
      rw [hagree]

theorem tentative_rollback (h : s.Tentative) (selected : Option Framework) (hadNative : Bool)
    (outcomes : Outcomes) : (s.rollback selected hadNative outcomes).Tentative := by
  unfold rollback
  split
  · exact h
  · have hnone : Tentative (⟨selected, none, none, s.agreed, none, s.depth, s.snapshot⟩ :
        Inference Obj) := fun hsome => by cases hsome
    dsimp only
    split
    · exact hnone
    · split
      · exact tentative_installTentative hnone _
      · exact hnone

theorem Tentative.congr {s' : Inference Obj} (h : s.Tentative)
    (hnative : s'.native.isSome → s.native.isSome) (hselected : s'.selected = s.selected) :
    s'.Tentative := fun hsome => hselected.trans (h (hnative hsome))

theorem tentative_leave (h : s.Tentative) (observedName : String) (raised : Bool)
    (outcomes : Outcomes) : (s.leave observedName raised outcomes).Tentative := by
  have hfinish : (s.finish observedName raised outcomes).1.Tentative := tentative_finish h
  unfold leave
  dsimp only
  split
  · exact h
  · split
    · exact (tentative_rollback hfinish _ _ _).congr id rfl
    · exact hfinish.congr id rfl
  · exact hfinish.congr id rfl

/-- Every event leaves no candidate beside a selection. -/
theorem tentative_step (h : s.Tentative) (e : Event Obj) : (s.step e).Tentative := by
  cases e with
  | enter =>
      change s.enter.Tentative
      unfold enter
      split <;> exact h.congr id rfl
  | leave observedName raised outcomes => exact tentative_leave h observedName raised outcomes
  | optimizer x => exact h.congr (fun hsome => by simpa [step, register] using hsome) rfl
  | model x => exact h.congr (fun hsome => by simpa [step, register] using hsome) rfl
  | attach => exact h.congr (fun hsome => by simpa [step] using hsome) rfl
  | nativeAttached =>
      change s.nativeAttached.Tentative
      unfold nativeAttached
      split
      · exact h
      · exact fun hsome => by cases hsome
  | beforeAttach framework distributed =>
      change (s.beforeAttach framework distributed).Tentative
      obtain ⟨error, hbefore⟩ := beforeAttach_eq s framework distributed
      rw [hbefore]
      exact h.congr id rfl
  | agree gathered =>
      change (s.agree gathered).Tentative
      obtain ⟨error, agreed, hagree⟩ := agree_eq s gathered
      rw [hagree]
      exact h.congr id rfl

theorem tentative_run (h : s.Tentative) (es : List (Event Obj)) : (s.run es).Tentative := by
  induction es generalizing s with
  | nil => exact h
  | cons e es ih => exact ih (tentative_step h e)

/-! ## The candidate -/

/-- Nothing that was registered with the candidate is lost. -/
def Keeps (n : Native Obj) (s : Inference Obj) : Prop :=
  ∃ n', s.native = some n' ∧ n.optimizers <+: n'.optimizers ∧ n.models <+: n'.models

theorem installTentative_native (installs : Bool) (hbefore : s.native.isSome) :
    (s.installTentative installs).1.native = s.native := by
  unfold installTentative record
  split
  · rfl
  · rw [if_pos (Or.inr hbefore)]

theorem selectSpecialized_native (s : Inference Obj) (framework : Framework)
    (outcomes : Outcomes) : (s.selectSpecialized framework outcomes).1.native = s.native ∨
      (s.selectSpecialized framework outcomes).1.native = none := by
  unfold selectSpecialized record
  split
  · exact Or.inl rfl
  · split
    · exact Or.inl rfl
    · split
      · exact Or.inl rfl
      · split <;> exact Or.inr rfl

/-- The end of an import may put the candidate away, but no other one in its place. -/
theorem finish_native (observedName : String) (raised : Bool) (outcomes : Outcomes)
    (hbefore : s.native.isSome) :
    (s.finish observedName raised outcomes).1.native = s.native ∨
      (s.finish observedName raised outcomes).1.native = none := by
  unfold finish observe
  split
  · exact Or.inl rfl
  · split
    · exact Or.inl rfl
    · split
      · exact Or.inl (installTentative_native _ hbefore)
      · exact selectSpecialized_native s _ _

theorem Keeps.congr {n : Native Obj} {s' : Inference Obj} (h : s.Keeps n)
    (hnative : s'.native = s.native) : s'.Keeps n := by
  obtain ⟨n', hn', hkept⟩ := h
  exact ⟨n', hnative.trans hn', hkept⟩

/-- Inside an import, as long as there is a candidate, it keeps what was registered. -/
theorem keeps_step {n : Native Obj} {e : Event Obj} (h : s.Keeps n) (hdepth : 0 < s.depth)
    (hinside : 0 < (s.step e).depth) (hsome : (s.step e).native.isSome) :
    (s.step e).Keeps n := by
  obtain ⟨n', hn', hoptimizers, hmodels⟩ := h
  cases e with
  | enter =>
      refine Keeps.congr ⟨n', hn', hoptimizers, hmodels⟩ ?_
      change s.enter.native = s.native
      rw [enter, if_neg (Nat.pos_iff_ne_zero.mp hdepth)]
  | leave observedName raised outcomes =>
      have hstep : s.leave observedName raised outcomes = _ := leave_inside (one_lt_depth hinside)
      refine Keeps.congr ⟨n', hn', hoptimizers, hmodels⟩ ?_
      change (s.leave observedName raised outcomes).native.isSome at hsome
      change (s.leave observedName raised outcomes).native = s.native
      rw [hstep] at hsome ⊢
      rcases finish_native observedName raised outcomes (by rw [hn']; rfl) with hsame | hnone
      · exact hsame
      · change (s.finish observedName raised outcomes).1.native.isSome at hsome
        rw [hnone] at hsome
        cases hsome
  | optimizer x =>
      refine ⟨if n'.attached then n' else _, congrArg (Option.map _) hn', ?_, ?_⟩ <;> split
      · exact hoptimizers
      · exact hoptimizers.trans (List.prefix_append _ _)
      · exact hmodels
      · exact hmodels
  | model x =>
      refine ⟨if n'.attached then n' else _, congrArg (Option.map _) hn', ?_, ?_⟩ <;> split
      · exact hoptimizers
      · exact hoptimizers
      · exact hmodels
      · exact hmodels.trans (List.prefix_append _ _)
  | attach => exact ⟨_, congrArg (Option.map _) hn', hoptimizers, hmodels⟩
  | nativeAttached =>
      change s.nativeAttached.native.isSome at hsome
      rw [nativeAttached, hn'] at hsome
      cases hsome
  | beforeAttach framework distributed =>
      refine Keeps.congr ⟨n', hn', hoptimizers, hmodels⟩ ?_
      change (s.beforeAttach framework distributed).native = s.native
      obtain ⟨error, hbefore⟩ := beforeAttach_eq s framework distributed
      rw [hbefore]
  | agree gathered =>
      refine Keeps.congr ⟨n', hn', hoptimizers, hmodels⟩ ?_
      change (s.agree gathered).native = s.native
      obtain ⟨error, agreed, hagree⟩ := agree_eq s gathered
      rw [hagree]

/-! ## The recorded error -/

theorem installTentative_error (s : Inference Obj) (installs : Bool) :
    (s.installTentative installs).1.error = s.error ∨
      (s.installTentative installs).1.error = s.tentativeRefusal := by
  unfold installTentative record
  split
  · rename_i error hrefusal
    exact Or.inr hrefusal.symm
  · split
    · exact Or.inl rfl
    · split <;> exact Or.inl rfl

theorem selectSpecialized_error (s : Inference Obj) (framework : Framework)
    (outcomes : Outcomes) : (s.selectSpecialized framework outcomes).1.error = s.error ∨
      (s.selectSpecialized framework outcomes).1.error = s.specializedRefusal framework := by
  unfold selectSpecialized record
  split
  · rename_i error hrefusal
    exact Or.inr hrefusal.symm
  · split
    · exact Or.inl rfl
    · split
      · exact Or.inl rfl
      · split <;> exact Or.inl rfl

theorem finish_error (s : Inference Obj) (observedName : String) (raised : Bool)
    (outcomes : Outcomes) : (s.finish observedName raised outcomes).1.error = s.error ∨
      (s.finish observedName raised outcomes).1.error =
        s.refusal (.leave observedName raised outcomes) := by
  unfold finish observe refusal
  split
  · exact Or.inl rfl
  · dsimp only
    split
    · exact Or.inl rfl
    · split
      · exact installTentative_error s _
      · exact selectSpecialized_error s _ _

/-- Inside an import, an error is there before or is recorded by what happens. -/
theorem step_error {e : Event Obj} (hinside : 0 < (s.step e).depth) :
    (s.step e).error = s.error ∨ (s.step e).error = s.refusal e := by
  cases e with
  | enter =>
      refine Or.inl ?_
      change s.enter.error = s.error
      unfold enter
      split <;> rfl
  | leave observedName raised outcomes =>
      change (s.leave observedName raised outcomes).error = _ ∨
        (s.leave observedName raised outcomes).error = _
      rw [leave_inside (one_lt_depth hinside)]
      exact finish_error s observedName raised outcomes
  | optimizer x => exact Or.inl rfl
  | model x => exact Or.inl rfl
  | attach => exact Or.inl rfl
  | nativeAttached =>
      refine Or.inl ?_
      change s.nativeAttached.error = s.error
      unfold nativeAttached
      split <;> rfl
  | beforeAttach framework distributed =>
      change (s.beforeAttach framework distributed).error = _ ∨
        (s.beforeAttach framework distributed).error = _
      unfold beforeAttach refusal
      dsimp only
      split
      · exact Or.inl rfl
      · exact Or.inr rfl
  | agree gathered =>
      change (s.agree gathered).error = _ ∨ (s.agree gathered).error = _
      unfold agree refusal
      dsimp only
      split
      · exact Or.inl rfl
      · split
        · exact Or.inr rfl
        · split
          · exact Or.inr rfl
          · exact Or.inl rfl

/-! ## An outermost import -/

/-- What happens inside an outermost import. -/
structure Outermost (s : Inference Obj) (es : List (Event Obj)) : Prop where
  start : s.depth = 0
  inside : ∀ pre, pre <+: es → 0 < (s.enter.run pre).depth
  last : (s.enter.run es).depth = 1

theorem run_concat (s : Inference Obj) (es : List (Event Obj)) (e : Event Obj) :
    s.run (es ++ [e]) = (s.run es).step e := by
  rw [run, List.foldl_append]
  rfl

/-- What every event inside keeps, the whole of them keep. -/
theorem run_inside {P : List (Event Obj) → Prop} {es : List (Event Obj)}
    (hinside : ∀ pre, pre <+: es → 0 < (s.run pre).depth) (hnil : P [])
    (hstep : ∀ pre e, pre ++ [e] <+: es → P pre → 0 < (s.run pre).depth →
      0 < ((s.run pre).step e).depth → P (pre ++ [e])) : P es := by
  induction es using List.reverseRecOn with
  | nil => exact hnil
  | append_singleton es e ih =>
      have hpre : es <+: es ++ [e] := List.prefix_append es [e]
      refine hstep es e (List.prefix_refl _) (ih (fun pre h => hinside pre (h.trans hpre))
        fun pre e' h => hstep pre e' (h.trans hpre)) (hinside es hpre) ?_
      rw [← run_concat]
      exact hinside _ (List.prefix_refl _)

variable {es : List (Event Obj)}

theorem Outermost.snapshot (h : s.Outermost es) :
    (s.enter.run es).snapshot = some (s.selected, s.native.isSome) := by
  refine run_inside (P := fun pre => (s.enter.run pre).snapshot = _) h.inside ?_ ?_
  · change s.enter.snapshot = _
    rw [enter, if_pos h.start]
  · intro pre e _ ih hbefore hafter
    rw [run_concat, step_snapshot hbefore hafter, ih]

theorem Outermost.error (h : s.Outermost es) :
    (s.enter.run es).error = s.error ∨
      ∃ pre e, pre ++ [e] <+: es ∧ (s.enter.run es).error = (s.enter.run pre).refusal e := by
  refine run_inside (P := fun es => (s.enter.run es).error = s.error ∨
    ∃ pre e, pre ++ [e] <+: es ∧ (s.enter.run es).error = (s.enter.run pre).refusal e)
    h.inside ?_ ?_
  · refine Or.inl ?_
    change s.enter.error = s.error
    rw [enter, if_pos h.start]
  · intro pre e _ ih _ hafter
    rw [run_concat]
    rcases step_error hafter with hsame | hrefused
    · rw [hsame]
      refine ih.imp_right ?_
      rintro ⟨pre', e', hpre', herror⟩
      exact ⟨pre', e', hpre'.trans (List.prefix_append _ _), herror⟩
    · exact Or.inr ⟨pre, e, List.prefix_refl _, hrefused⟩

theorem Outermost.keeps (h : s.Outermost es) {n : Native Obj} (hn : s.native = some n)
    (hthere : ∀ pre, pre <+: es → (s.enter.run pre).native.isSome) :
    (s.enter.run es).Keeps n := by
  refine run_inside (P := fun pre => (s.enter.run pre).Keeps n) h.inside ?_ ?_
  · refine Keeps.congr (s := s) ⟨n, hn, List.prefix_refl _, List.prefix_refl _⟩ ?_
    change s.enter.native = s.native
    rw [enter, if_pos h.start]
  · intro pre e hpre ih hbefore hafter
    have hsome := hthere _ hpre
    rw [run_concat] at hsome ⊢
    exact keeps_step ih hbefore hafter hsome

end Inference

open Inference

/-- **What a failed import leaves behind**, in any run and with any imports inside it.  The
selected framework is the one there was.  If what the rollback closes and installs again does
not fail, there is a candidate where there was one, and a recorded error was there before or
was recorded inside.  As long as the candidate is there all along, it loses nothing. -/
theorem failed_import {Obj : Type} (before es : List (Event Obj)) {s : Inference Obj}
    (hs : s = Inference.start.run before) (h : s.Outermost es) (observedName : String)
    (raised : Bool) (outcomes : Outcomes)
    (hraises : ((s.enter.run es).finish observedName raised outcomes).2 = true) :
    let after := s.run (.enter :: es ++ [.leave observedName raised outcomes])
    after.depth = 0 ∧ after.selected = s.selected ∧
    ((s.enter.run es).Undoes s.native.isSome outcomes →
      after.native.isSome = s.native.isSome ∧
      (after.error = s.error ∨ after.error = none ∨
        ∃ pre e, pre ++ [e] <+: es ++ [.leave observedName raised outcomes] ∧
          after.error = (s.enter.run pre).refusal e)) ∧
    (∀ n, s.native = some n → (∀ pre, pre <+: es → (s.enter.run pre).native.isSome) →
      ((s.enter.run es).finish observedName raised outcomes).1.native.isSome →
      after.Keeps n) := by
  dsimp only
  have htentative : s.Tentative := hs ▸ tentative_run (fun hsome => by cases hsome) before
  have hafter : s.run (.enter :: es ++ [.leave observedName raised outcomes]) =
      (s.enter.run es).leave observedName raised outcomes := run_concat s (.enter :: es) _
  rw [hafter, leave_outermost h.last h.snapshot hraises]
  have hframe := sameFrame_finish (s.enter.run es) observedName raised outcomes
  have herror := finish_error (s.enter.run es) observedName raised outcomes
  have hfinished : ((s.enter.run es).finish observedName raised outcomes).1.Tentative :=
    tentative_finish (tentative_run (s := s) htentative (.enter :: es))
  have hfinish := finish_native (s := s.enter.run es) observedName raised outcomes
  generalize (s.enter.run es).finish observedName raised outcomes = r at *
  refine ⟨rfl, rollback_selected _ _ _ _, fun hundo => ?_, fun n hn hthere hsome => ?_⟩
  · by_cases hsame : r.1.selected = s.selected ∧ r.1.native.isSome = s.native.isSome
    · rw [rollback, if_pos hsame]
      refine ⟨hsame.2, ?_⟩
      rcases herror with hkept | hrefused
      · rcases h.error with hsame' | ⟨pre, e, hpre, hinside⟩
        · exact Or.inl (hkept.trans hsame')
        · exact Or.inr (Or.inr ⟨pre, e, hpre.trans (List.prefix_append _ _),
            hkept.trans hinside⟩)
      · exact Or.inr (Or.inr ⟨es, _, List.prefix_refl _, hrefused⟩)
    · have hundo' : r.1.Undoes s.native.isSome outcomes :=
        ⟨hundo.closes, hundo.reinstalls, fun hhad => by
          rw [agrees, hframe.agreed]
          exact hundo.agrees hhad⟩
      rw [rollback_undone hsame htentative hundo']
      refine ⟨?_, Or.inr (Or.inl rfl)⟩
      dsimp only
      cases s.native <;> rfl
  · have hkept := h.keeps hn hthere
    have hnative : r.1.native = (s.enter.run es).native := by
      obtain ⟨n', hn', -⟩ := hkept
      rcases hfinish (by rw [hn']; rfl) with hsame | hnone
      · exact hsame
      · rw [hnone] at hsome
        cases hsome
    have hsame : r.1.selected = s.selected ∧ r.1.native.isSome = s.native.isSome :=
      ⟨(hfinished hsome).trans (htentative (by rw [hn]; rfl)).symm, by rw [hsome, hn]; rfl⟩
    rw [rollback, if_pos hsame]
    exact hkept.congr hnative

/-! ## A helper that fails -/

/-- Everything that is called succeeds. -/
def succeeds : Outcomes := ⟨true, true, true, true⟩

/-- A model and an optimizer are constructed under a candidate. -/
def sampleBefore : List (Event Nat) :=
  [.enter, .leave "torch" false succeeds, .model 1, .optimizer 2]

/-- A helper imports DeepSpeed before it fails. -/
theorem failed_import_sample :
    let s := (@Inference.start Nat).run sampleBefore
    let after := s.run [.enter, .enter, .leave "deepspeed.ops" false succeeds,
      .leave "user_helper" true succeeds]
    after.selected = s.selected ∧ after.native.isSome = s.native.isSome := by
  have hinside : ∀ pre ∈ List.inits [.enter, .leave "deepspeed.ops" false succeeds],
      0 < (((@Inference.start Nat).run sampleBefore).enter.run pre).depth := by
    decide +kernel
  have h := failed_import sampleBefore [.enter, .leave "deepspeed.ops" false succeeds] rfl
    ⟨by decide +kernel, fun pre hpre => hinside pre ((List.mem_inits pre _).mpr hpre),
      by decide +kernel⟩ "user_helper" true succeeds (by decide +kernel)
  exact ⟨h.2.1, (h.2.2.1 ⟨rfl, fun _ => rfl, fun _ => by decide +kernel⟩).1⟩

/-- **The refusal of a framework stays on record.**  The import of a second framework fails, and
what attaches later fails with its error. -/
theorem refused_import_recorded :
    let s := (@Inference.start Nat).run [.enter, .leave "deepspeed" false succeeds]
    let after := s.run [.enter, .leave "megatron" false succeeds]
    (s.enter.finish "megatron" false succeeds).2 = true ∧ s.error = none ∧
      after.error = some (.multiple .deepspeed .megatron) := by
  decide +kernel

/-- What is rebuilt after a helper that has imported DeepSpeed has nothing registered. -/
example : ((@Inference.start Nat).run (sampleBefore ++ [.enter, .enter,
    .leave "deepspeed" false succeeds, .leave "user_helper" true succeeds])).native =
      some .fresh := by
  decide +kernel

end LmResiliency.Integrations.FrameworkInference
