/-
# StateFault — a fault of a weight, a bias or an optimizer state, and its retirement

`_mutate_state_tensor` writes other values to the target elements and leaves a callback
behind, which `complete` runs.  The callback takes the difference back out of the elements
that training has gone on to update, and it puts the original back where the value is the
injected one, or where the difference is not finite.

A tensor is a function of coordinates, its elements are exact.
-/
import LmResiliency.FaultInjection.Manifest
import LmResiliency.Lib.PyFloat
import LmResiliency.Lib.RowMajor

namespace LmResiliency.FaultInjection.StateFault

open LmResiliency.FaultInjection.Manifest (FaultScope CorruptionOperation FaultMagnitude)
open LmResiliency.Outcome

/-! ## Tensors -/

/-- A type of elements: its bounds, the bits that a mask flips, and what it makes of the
value of another type. -/
structure Dtype where
  name : String
  floating : Bool
  /-- The width in `_INTEGER_VIEW`. -/
  width : Option Nat
  flip : Nat → PyFloat → PyFloat
  min : ℚ
  max : ℚ
  convert : PyFloat → PyFloat

/-- The local part of a tensor. -/
structure Tensor where
  dtype : Dtype
  shape : List Nat
  element : List Nat → PyFloat

def Tensor.numel (tensor : Tensor) : Nat := tensor.shape.prod

/-- `_linear_coordinates` of one index. -/
def linearCoordinates (index : Nat) (shape : List Nat) : List Nat :=
  (shape.reverse.foldl (fun (remaining, coordinates) dimension =>
    (remaining / dimension, coordinates ++ [remaining % dimension])) (index, [])).2.reverse

/-- The places that `_read_linear` and `_write_linear` go to. -/
def Tensor.places (tensor : Tensor) (indices : List Nat) : List (List Nat) :=
  if tensor.shape = [] then [[]]
  else indices.map fun index => linearCoordinates index tensor.shape

def readLinear (tensor : Tensor) (indices : List Nat) : List PyFloat :=
  (tensor.places indices).map tensor.element

def writeLinear (tensor : Tensor) (indices : List Nat) (values : List PyFloat) : Tensor :=
  { tensor with element := RowMajor.scatter tensor.element ((tensor.places indices).zip values) }

def targetIndices (tensor : Tensor) (scope : FaultScope) : List Nat :=
  let numel := tensor.numel
  let spread (count : Nat) : List Nat :=
    if count = numel then List.range numel
    else
      let step := max 1 (numel / count)
      ((List.range numel).filter fun index => index % step = 0).take count
  match scope with
  | .single => [numel / 2]
  | .row =>
      List.range (if 2 ≤ tensor.shape.length then tensor.shape.getLastD 0 else min 256 numel)
  | .percent1 => spread (max 1 (numel / 100))
  | .percent10 => spread (max 1 (numel / 10))
  | .full => spread numel

/-! ## Corruptions -/

/-- What is raised. -/
inductive FaultError where
  | valueError (message : String)
  | typeError (message : String)
  | keyError (key : String)
  | overflowError
  | runtimeError (message : String)
  | unsupportedTargetTensor (message : String)
  | outsideRange (value : PyFloat) (dtype : String)
  | unavailableHistory (message : String)
  | noOpFault (message : String)

/-- The parts of a `FaultExecutionRequest` that are read here. -/
structure FaultExecutionRequest where
  seed : Int
  lifetime : IncidentLifetime
  fault : Manifest.FaultSpec

/-- `fault.parameters.get(key)` -/
def parameter (fault : Manifest.FaultSpec) (key : String) : Option Json :=
  Json.get? key fault.parameters.members

/-- The member of an enumeration that has this value. -/
def member {α : Type} (all : List α) (value : α → String) (name : String) :
    Json → Except FaultError α
  | .str s =>
      match all.find? fun x => value x = s with
      | some x => .ok x
      | none => .error (.valueError ("'" ++ s ++ "' is not a valid " ++ name))
  | _ => .error (.valueError ("not a valid " ++ name))

/-- `FaultScope(fault.parameters.get("scope", FaultScope.SINGLE.value))` -/
def faultScope (fault : Manifest.FaultSpec) : Except FaultError FaultScope :=
  member FaultScope.all FaultScope.value "FaultScope"
    ((parameter fault "scope").getD (.str FaultScope.single.value))

/-- `float(value)` of a number. -/
def floatOf : Json → Except FaultError ℚ
  | .int n => (Double.ofInt n).elim (.error .overflowError) .ok
  | .float l => (Double.ofText l).elim (.error (.valueError "not finite")) .ok
  | _ => .error (.typeError "float() argument must be a string or a real number")

def numericValue : Json → Except FaultError PyFloat
  | .str s =>
      let normalized := String.ofList (s.toList.map Manifest.lowerChar)
      if normalized = "nan" then .ok .nan
      else if normalized ∈ ["inf", "+inf", "infinity", "+infinity"] then .ok (.inf false)
      else if normalized ∈ ["-inf", "-infinity"] then .ok (.inf true)
      else .error (.valueError ("could not convert string to float: '" ++ s ++ "'"))
  | v => (floatOf v).map .finite

def scaleUp : FaultMagnitude → ℚ
  | .catastrophic => 1000000
  | .large => 100
  | .medium => 10
  | .subtle => 2
  | .nearInvisible => 10001 / 10000

def noiseStd : FaultMagnitude → ℚ
  | .catastrophic => 1000000
  | .large => 100
  | .medium => 1
  | .subtle => 1 / 1000
  | .nearInvisible => 1 / 10000000

/-- `mask` in `_flip_bits`, for a type of this width. -/
def flipMask (width count : Nat) (magnitude : FaultMagnitude) : Nat :=
  let base := match magnitude with
    | .nearInvisible => 0
    | .subtle => width / 4
    | .medium => width / 2
    | .large => 3 * width / 4
    | .catastrophic => width - 2
  let start := min base (width - 1 - count)
  ((List.range count).map fun bit => 2 ^ (start + bit)).sum

def flipBits (dtype : Dtype) (magnitude : FaultMagnitude) (count : Nat)
    (selected : List PyFloat) : Except FaultError (List PyFloat) :=
  match dtype.width with
  | none =>
      .error (.unsupportedTargetTensor ("bit flips do not support dtype " ++ dtype.name))
  | some width => .ok (selected.map (dtype.flip (flipMask width count magnitude)))

/-- `CorruptionOperation(fault.parameters["operation"])` -/
def corruptionOperation (fault : Manifest.FaultSpec) : Except FaultError CorruptionOperation :=
  match parameter fault "operation" with
  | some v => member CorruptionOperation.all CorruptionOperation.value "CorruptionOperation" v
  | none => .error (.keyError "operation")

/-- `FaultMagnitude(fault.parameters.get("magnitude", FaultMagnitude.MEDIUM.value))` -/
def faultMagnitude (fault : Manifest.FaultSpec) : Except FaultError FaultMagnitude :=
  member FaultMagnitude.all FaultMagnitude.value "FaultMagnitude"
    ((parameter fault "magnitude").getD (.str FaultMagnitude.medium.value))

/-- `_numeric_value(fault.parameters["value"])` -/
def setValue (fault : Manifest.FaultSpec) : Except FaultError PyFloat :=
  match parameter fault "value" with
  | some v => numericValue v
  | none => .error (.keyError "value")

/-- `_apply_corruption` of the selected values; `randn` are the normal samples of a seed. -/
def applyCorruption (randn : Int → Nat → PyFloat) (dtype : Dtype)
    (request : FaultExecutionRequest) (selected : List PyFloat) :
    Except FaultError (List PyFloat) := do
  let operation ← corruptionOperation request.fault
  let magnitude ← faultMagnitude request.fault
  match operation with
  | .singleBitflip => flipBits dtype magnitude 1 selected
  | .multiBitflip => flipBits dtype magnitude 4 selected
  | .setValue => do
      let value ← setValue request.fault
      raiseIf (value.isFinite ∧ (PyFloat.lt value (.finite dtype.min) ∨
        PyFloat.lt (.finite dtype.max) value)) (.outsideRange value dtype.name)
      return selected.map fun _ => value
  | .scale => do
      let factor ← (parameter request.fault "factor").elim (.ok (scaleUp magnitude)) floatOf
      return selected.map fun value => value.scale factor
  | .noise => do
      let standardDeviation ←
        (parameter request.fault "std").elim (.ok (noiseStd magnitude)) floatOf
      return selected.mapIdx fun k value =>
        value.add ((randn request.seed k).scale standardDeviation)
  | .signFlip => return selected.map PyFloat.neg

/-- `_History` -/
structure History where
  previous : Option Tensor
  previousShape : Option (List Nat)
  observationError : Option String

/-- The value that was observed before, for the target elements. -/
def staleValues (tensor : Tensor) (indices : List Nat) (history : Option History) :
    Except FaultError (List PyFloat) :=
  match history with
  | none =>
      .error (.unavailableHistory "stale or duplicate injection has no prior observed value")
  | some history =>
      match history.observationError with
      | some error =>
          .error (.unsupportedTargetTensor ("history observation failed: " ++ error))
      | none =>
          match history.previous with
          | none =>
              .error (.unavailableHistory
                "stale or duplicate injection has no prior observed value")
          | some previous =>
              if history.previousShape ≠ some tensor.shape then
                .error (.runtimeError "prior observed value shape does not match the target")
              else
                let previous :=
                  { previous with element := fun c => tensor.dtype.convert (previous.element c) }
                if previous.shape = tensor.shape then .ok (readLinear previous indices)
                else if previous.shape = [(tensor.places indices).length] then
                  .ok (readLinear previous (List.range (tensor.places indices).length))
                else
                  .error (.runtimeError "prior observed value shape does not match the target")

/-- The values that a fault of this type puts in the place of the original ones. -/
def transformedValues (randn : Int → Nat → PyFloat) (tensor : Tensor)
    (request : FaultExecutionRequest) (history : Option History) (indices : List Nat)
    (original : List PyFloat) : Except FaultError (List PyFloat) :=
  if request.fault.type = .tensorCorruption then
    applyCorruption randn tensor.dtype request original
  else if request.fault.type ∈ [.staleState, .duplicate] then
    staleValues tensor indices history
  else
    .error (.valueError ("unsupported state fault type '" ++ request.fault.type.value ++ "'"))

/-- `_prepare_state_values`: the target indices, the values there and the other values. -/
def prepareStateValues (randn : Int → Nat → PyFloat) (tensor : Tensor)
    (request : FaultExecutionRequest) (history : Option History) :
    Except FaultError (List Nat × List PyFloat × List PyFloat) := do
  raiseIf (tensor.numel = 0) (.valueError "fault target tensor must be non-empty")
  raiseIf (tensor.dtype.floating = false)
    (.typeError "fault target tensor must be floating point")
  let scope ← faultScope request.fault
  let indices := targetIndices tensor scope
  let original := readLinear tensor indices
  let transformed ← transformedValues randn tensor request history indices original
  raiseIf (original = transformed)
    (.noOpFault "fault injection did not change the selected tensor values")
  return (indices, original, transformed)

/-- `transformed - original` -/
def retirementDelta (original transformed : List PyFloat) : List PyFloat :=
  (transformed.zip original).map fun (t, o) => t.sub o

def validateStateRetirement (original transformed : List PyFloat)
    (request : FaultExecutionRequest) : Except FaultError Unit :=
  if request.lifetime.iterationCount = none then .ok ()
  else if (retirementDelta original transformed).all PyFloat.isFinite then .ok ()
  else
    .error (.valueError
      ("bounded weight, bias, and optimizer_state faults must have a finite retirement " ++
        "delta; use an until lifetime with recovery for non-finite corruption"))

/-! ## Activation and retirement -/

/-- What the callback of an activated fault holds. -/
structure Restoration where
  changedIndices : List Nat
  original : List PyFloat
  transformed : List PyFloat
  optimizerResynchronizes : Bool
  activationOptimizerStep : Nat

/-- The tensor of the fault, and what is read of the training context. -/
structure Context where
  tensor : Tensor
  successfulOptimizerSteps : Nat
  /-- `model_parameter_is_optimizer_resynchronized` -/
  isResynchronized : FaultTarget → Option String → Except FaultError Bool

/-- `LocalFaultEffect`, without its record. -/
structure LocalFaultEffect where
  cleanupCallbacks : List Restoration := []
  stateReplaced : Bool := false
  done : Bool := false

def parameterName (fault : Manifest.FaultSpec) : Except FaultError (Option String) :=
  match parameter fault "parameter" with
  | none | some .null => .ok none
  | some (.str s) => .ok (some s)
  | some _ => .error (.typeError "fault parameters.parameter must be a string")

/-- Whether a step of the optimizer writes the target anew. -/
def optimizerResynchronizes (request : FaultExecutionRequest) (context : Context) :
    Except FaultError Bool :=
  if request.fault.target.surface ∈ [.weight, .bias] then do
    let name ← parameterName request.fault
    context.isResynchronized request.fault.target.toFaultTarget name
  else .ok false

def mutateStateTensor (randn : Int → Nat → PyFloat) (history : Option History)
    (request : FaultExecutionRequest) (context : Context) (effect : LocalFaultEffect) :
    Except FaultError (Nat × Context × LocalFaultEffect) := do
  let (changedIndices, original, transformed) ←
    prepareStateValues randn context.tensor request history
  validateStateRetirement original transformed request
  let optimizerResynchronizes ← optimizerResynchronizes request context
  let restoration : Restoration :=
    { changedIndices, original, transformed, optimizerResynchronizes
      activationOptimizerStep := context.successfulOptimizerSteps }
  return (changedIndices.length,
    { context with tensor := writeLinear context.tensor changedIndices transformed },
    { effect with cleanupCallbacks := effect.cleanupCallbacks ++ [restoration] })

/-- What `restore` makes of one element. -/
def restoreElement (optimizerResynchronized preserveReplacedState : Bool)
    (original transformed current : PyFloat) : PyFloat :=
  let delta := transformed.sub original
  let finite := delta.isFinite
  let alreadyRestored := current = original
  let stillInjected := current = transformed
  let preserve : Bool :=
    if optimizerResynchronized then true
    else if preserveReplacedState then !stillInjected
    else false
  let current := if stillInjected ∧ ¬ alreadyRestored ∧ ¬ preserve then original else current
  let current :=
    if finite ∧ ¬ alreadyRestored ∧ ¬ stillInjected ∧ ¬ preserve then current.sub delta
    else current
  if ¬ finite ∧ ¬ alreadyRestored ∧ ¬ stillInjected ∧ ¬ preserve then original else current

/-- `restore`, the callback. -/
def Restoration.restore (r : Restoration) (preserveReplacedState replacementConfirmed : Bool)
    (context : Context) : Context :=
  if replacementConfirmed then context
  else
    let current := readLinear context.tensor r.changedIndices
    let optimizerResynchronized :=
      r.optimizerResynchronizes && r.activationOptimizerStep < context.successfulOptimizerSteps
    let restored := (current.zip (r.original.zip r.transformed)).map
      fun (current, original, transformed) =>
        restoreElement optimizerResynchronized preserveReplacedState original transformed current
    { context with tensor := writeLinear context.tensor r.changedIndices restored }

/-- `_cleanup`: the callbacks, the last one first. -/
def cleanup (preserveReplacedState replacementConfirmed : Bool) (effect : LocalFaultEffect)
    (context : Context) : Context × LocalFaultEffect :=
  (effect.cleanupCallbacks.reverse.foldl
    (fun context r => r.restore preserveReplacedState replacementConfirmed context) context,
    { effect with cleanupCallbacks := [] })

def complete (preserveReplacedState : Bool) (effect : LocalFaultEffect) (context : Context) :
    Context × LocalFaultEffect :=
  if effect.done then (context, effect)
  else
    let (context, effect) := cleanup preserveReplacedState effect.stateReplaced effect context
    (context, { effect with done := true })

def markStateReplaced (effect : LocalFaultEffect) : LocalFaultEffect :=
  if effect.done then effect else { effect with stateReplaced := true }

/-! ## Training while the fault is active -/

/-- What happens between activation and completion. -/
inductive Event where
  /-- An update is added to the tensor. -/
  | update (amount : List Nat → ℚ)
  /-- The optimizer counts a successful step. -/
  | optimizerStep

/-- One event. -/
def Context.step (context : Context) : Event → Context
  | .update amount =>
      { context with tensor := { context.tensor with
          element := fun c => (context.tensor.element c).add (.finite (amount c)) } }
  | .optimizerStep =>
      { context with successfulOptimizerSteps := context.successfulOptimizerSteps + 1 }

/-- The events, one after another. -/
def Context.run (context : Context) (events : List Event) : Context := events.foldl .step context

/-- A value with the updates of its element. -/
def updated (events : List Event) (c : List Nat) (value : PyFloat) : PyFloat :=
  events.foldl (fun value event => match event with
    | .update amount => value.add (.finite (amount c))
    | .optimizerStep => value) value

end LmResiliency.FaultInjection.StateFault
