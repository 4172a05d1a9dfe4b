/-
# OptimizerReplay — one slice of the optimizer's parameters at a time

`OptimizerStepReplay` captures, at a scheduled step, one slice of one parameter
before one invocation of the base optimizer.  The invocation rotates from step to
step, and every invocation has a cursor of its own into the slices of all
parameters.  After as many steps as there are slices and invocations, each element
has been captured once for each invocation.
-/
import LmResiliency.Lib.Dict
import LmResiliency.Lib.Rotation

namespace LmResiliency.Detection.OptimizerReplay

open LmResiliency.Rotation

/-! ## What is captured -/

/-- A value of the optimizer's state, or of the options of a parameter group.  A tensor is
its number of dimensions and its elements. -/
inductive Value (α β : Type) where
  | tensor (ndim : Nat) (data : List α)
  | dict (items : List (String × Value α β))
  | list (items : List (Value α β))
  | tuple (items : List (Value α β))
  | other (value : β)

/-- The gradient of a parameter. -/
inductive Gradient (α : Type) where
  | none
  | sparse
  | dense (data : List α)

/-- A parameter, with its gradient and its state; not every entry of a group is a tensor. -/
structure Parameter (α β : Type) where
  isTensor : Bool
  data : List α
  grad : Gradient α
  state : List (String × Value α β)

structure Group (α β : Type) where
  params : List (Parameter α β)
  options : List (String × Value α β)

/-- The optimizer at an invocation. -/
structure Optimizer (α β : Type) where
  paramGroups : List (Group α β)
  tensors : List (String × List α)

/-- `_TransitionCapture`; the parameter is its place among those that have elements. -/
structure TransitionCapture (α β : Type) where
  group : List (String × Value α β)
  parameter : Nat
  offset : Nat
  length : Nat
  parameterBefore : List α
  gradient : List α
  state : List (String × Value α β)
  optimizerTensors : List (String × List α)

/-- What the capture raises. -/
inductive Error where
  | unsupported (message : String)
  | indexError

variable {α β : Type}

/-- `flat[offset:end]`. -/
def slice (data : List α) (offset stop : Nat) : List α := (data.take stop).drop offset

mutual

def cloneStateValue (numel offset stop : Nat) : Value α β → Value α β
  | .tensor ndim data =>
      if data.length = numel ∧ 0 < ndim then .tensor 1 (slice data offset stop)
      else .tensor ndim data
  | .dict items => .dict (cloneStateItems numel offset stop items)
  | .list items => .list (cloneStateValues numel offset stop items)
  | .tuple items => .tuple (cloneStateValues numel offset stop items)
  | .other value => .other value

def cloneStateItems (numel offset stop : Nat) :
    List (String × Value α β) → List (String × Value α β)
  | [] => []
  | (key, value) :: items =>
      (key, cloneStateValue numel offset stop value) :: cloneStateItems numel offset stop items

def cloneStateValues (numel offset stop : Nat) : List (Value α β) → List (Value α β)
  | [] => []
  | value :: values =>
      cloneStateValue numel offset stop value :: cloneStateValues numel offset stop values

end

/-- An option of the group, where the names of its parameters keep the parameter's. -/
def cloneOption (index : Nat) : String × Value α β → Except Error (String × Value α β)
  | ("param_names", .list names) | ("param_names", .tuple names) =>
      match names[index]? with
      | some name => .ok ("param_names", .list [name])
      | none => .error .indexError
  | option => .ok option

def cloneParameterGroup (group : Group α β) (index : Nat) :
    Except Error (List (String × Value α β)) :=
  group.options.mapM (cloneOption index)

/-- The parameters with elements, each with its group and its place in it. -/
def Optimizer.entries (optimizer : Optimizer α β) : List (Group α β × Nat × Parameter α β) :=
  optimizer.paramGroups.flatMap fun group =>
    (group.params.zipIdx.filter fun (parameter, _) =>
      parameter.isTensor && 0 < parameter.data.length).map
        fun (parameter, index) => (group, index, parameter)

/-- The local sizes of the parameters. -/
def Optimizer.sizes (optimizer : Optimizer α β) : List Nat :=
  optimizer.entries.map fun (_, _, parameter) => parameter.data.length

/-! ## The state of the replay -/

def statusOk : Nat := 0
def statusStepNotObserved : Nat := 1
def statusCaptureFailed : Nat := 2

/-- `OptimizerStepReplay`. -/
structure OptimizerStepReplay (α β : Type) where
  sliceNumel : Nat
  positive : 0 < sliceNumel
  sliceCursors : List (Nat × Nat × Nat)
  invocationTarget : Nat
  observedInvocations : Nat
  armed : Bool
  scheduled : Bool
  status : Nat
  capture : Option (TransitionCapture α β)

/-- `OptimizerReplayRecipe`. -/
structure Recipe (α β : Type) where
  status : Nat
  capture : Option (TransitionCapture α β)

namespace OptimizerStepReplay

/-- The constructor. -/
def new (sliceNumel : Nat) (positive : 0 < sliceNumel) : OptimizerStepReplay α β where
  sliceNumel := sliceNumel
  positive := positive
  sliceCursors := []
  invocationTarget := 0
  observedInvocations := 0
  armed := false
  scheduled := false
  status := statusStepNotObserved
  capture := none

def arm (r : OptimizerStepReplay α β) : OptimizerStepReplay α β :=
  { r with armed := true, scheduled := true, status := statusStepNotObserved, capture := none
           observedInvocations := 0 }

def cancel (r : OptimizerStepReplay α β) : OptimizerStepReplay α β :=
  { r with armed := false, scheduled := false, capture := none }

def advanceInvocationTarget (r : OptimizerStepReplay α β) : OptimizerStepReplay α β :=
  if 0 < r.observedInvocations then
    { r with invocationTarget := (r.invocationTarget + 1) % r.observedInvocations }
  else r

def consume (r : OptimizerStepReplay α β) : Option (Recipe α β) × OptimizerStepReplay α β :=
  if !r.scheduled then (none, r)
  else
    (some { status := r.status, capture := r.capture },
      { r with scheduled := false, armed := false, capture := none }.advanceInvocationTarget)

/-- The cursor of an invocation. -/
def cursor (r : OptimizerStepReplay α β) (invocation : Nat) : Nat × Nat :=
  (r.sliceCursors.lookup invocation).getD (0, 0)

def advanceSliceCursor (r : OptimizerStepReplay α β)
    (invocation entry entryCount offset length numel : Nat) : OptimizerStepReplay α β :=
  let nextOffset := offset + length
  { r with sliceCursors := Dict.put r.sliceCursors (invocation,
      if nextOffset < numel then (entry, nextOffset) else ((entry + 1) % entryCount, 0)) }

/-- The part of `_snapshot_transition` after the cursor has advanced. -/
def captureSlice (optimizer : Optimizer α β) (entry : Nat)
    (found : Group α β × Nat × Parameter α β) (offset length : Nat) :
    Except Error (TransitionCapture α β) := do
  let (group, index, parameter) := found
  let numel := parameter.data.length
  let gradient ← match parameter.grad with
    | .none => .error (.unsupported "sampled optimizer parameter has no gradient")
    | .sparse => .error (.unsupported "sparse optimizer gradients are not supported")
    | .dense gradient => .ok gradient
  if gradient.length ≠ numel then
    .error (.unsupported "optimizer parameter and gradient have different local sizes")
  else
    let stop := offset + length
    return { group := ← cloneParameterGroup group index
             parameter := entry
             offset := offset
             length := length
             parameterBefore := slice parameter.data offset stop
             gradient := slice gradient offset stop
             state := cloneStateItems numel offset stop parameter.state
             optimizerTensors := optimizer.tensors }

/-- `_snapshot_transition`; the cursor advances also where the capture then fails. -/
def snapshotTransition (r : OptimizerStepReplay α β) (optimizer : Optimizer α β)
    (invocation : Nat) : Except Error (TransitionCapture α β) × OptimizerStepReplay α β :=
  let entries := optimizer.entries
  let entry := (r.cursor invocation).1 % entries.length
  match entries[entry]? with
  | none => (.error (.unsupported "optimizer has no tensor parameters"), r)
  | some found =>
      let numel := found.2.2.data.length
      let offset := min (r.cursor invocation).2 (numel - 1)
      let length := min r.sliceNumel (numel - offset)
      (captureSlice optimizer entry found offset length,
        r.advanceSliceCursor invocation entry entries.length offset length numel)

def capturePreStep (r : OptimizerStepReplay α β) (optimizer : Optimizer α β) :
    OptimizerStepReplay α β :=
  if !r.scheduled then r
  else
    let invocation := r.observedInvocations
    let r := { r with observedInvocations := invocation + 1 }
    if !r.armed ∨ invocation ≠ r.invocationTarget then r
    else
      let r := { r with armed := false }
      match r.snapshotTransition optimizer invocation with
      | (.ok capture, r) => { r with capture := some capture, status := statusOk }
      | (.error _, r) => { r with capture := none, status := statusCaptureFailed }

end OptimizerStepReplay

end LmResiliency.Detection.OptimizerReplay
