/-
# AllToAllReplay — generated traffic and what its payload can tell apart

A captured all-to-all is replayed with matrices that a policy makes
(`BalancedAndPermutationPolicy.generate`) and with payload that every rank can
compute: the values of a segment follow from the source, the destination and
the position, modulo 97.  A destination compares what it got with what it
should have got, so a segment delivered in place of another is found exactly
when their values differ.
-/
import Mathlib.Algebra.GroupWithZero.Nat
import Mathlib.Algebra.BigOperators.Group.List.Basic

namespace LmResiliency.Detection

/-! ## The policy -/

/-- `AllToAllCapture`, as `__post_init__` accepts it: what the replay reads of it. -/
structure AllToAllCapture where
  sequence : Nat
  groupRanks : List Nat
  trailingShape : List Nat
  elementSize : Nat
  observedSplits : List (List Nat)
  nonempty : 1 ≤ groupRanks.length
  square : observedSplits.length = groupRanks.length ∧
    ∀ row ∈ observedSplits, row.length = groupRanks.length
  wide : 0 < trailingShape.prod * elementSize

namespace AllToAllCapture

def groupSize (capture : AllToAllCapture) : Nat := capture.groupRanks.length

def bytesPerUnit (capture : AllToAllCapture) : Nat :=
  capture.trailingShape.prod * capture.elementSize

end AllToAllCapture

/-- `AllToAllTrafficMatrix`, indexed by source, then destination. -/
structure AllToAllTrafficMatrix where
  name : String
  splits : List (List Nat)
deriving DecidableEq

/-- `AllToAllTrafficMatrix.__post_init__`. -/
def trafficMatrix (name : String) (splits : List (List Nat)) :
    Except String AllToAllTrafficMatrix :=
  if name = "" ∨ splits = [] then
    .error "AllToAll traffic matrix must have a name and rows"
  else if splits.any fun row => row.length ≠ splits.length then
    .error "AllToAll traffic matrix must be square"
  else if !splits.any fun row => row.any (· ≠ 0) then
    .error "AllToAll traffic matrix must contain traffic"
  else .ok { name, splits }

/-- `_balanced_row`: the remainder is spread from `start` on, around the row. -/
def balancedRow (units worldSize start : Nat) : List Nat :=
  (List.range (units % worldSize)).foldl
    (fun row index => row.modify ((start + index) % worldSize) (· + 1))
    (List.replicate worldSize (units / worldSize))

/-- The rows of the balanced matrix. -/
def balancedSplits (units worldSize sequence : Nat) : List (List Nat) :=
  (List.range worldSize).map fun source =>
    balancedRow units worldSize ((source + sequence) % worldSize)

/-- The rows of the cyclic permutation. -/
def permutationSplits (units worldSize offset : Nat) : List (List Nat) :=
  (List.range worldSize).map fun source =>
    (List.range worldSize).map fun destination =>
      if destination = (source + offset) % worldSize then units else 0

/-- How far the permutation shifts; never home, unless there is but one rank. -/
def cyclicOffset (worldSize sequence : Nat) : Nat :=
  if worldSize = 1 then 0 else 1 + sequence % (worldSize - 1)

/-- `BalancedAndPermutationPolicy`. -/
structure BalancedAndPermutationPolicy where
  maxPayloadBytesPerRank : Nat
  positive : 0 < maxPayloadBytesPerRank

namespace BalancedAndPermutationPolicy

/-- The rows that a rank sends in all. -/
def units (policy : BalancedAndPermutationPolicy) (capture : AllToAllCapture) : Nat :=
  max 1 (policy.maxPayloadBytesPerRank / capture.bytesPerUnit)

def generate (policy : BalancedAndPermutationPolicy) (capture : AllToAllCapture) :
    Except String (List AllToAllTrafficMatrix) := do
  let worldSize := capture.groupSize
  let units := policy.units capture
  let balanced := balancedSplits units worldSize capture.sequence
  let first ← trafficMatrix "balanced" balanced
  let offset := cyclicOffset worldSize capture.sequence
  let permutation := permutationSplits units worldSize offset
  if permutation ≠ balanced then
    let second ← trafficMatrix ("cyclic_permutation_" ++ toString offset) permutation
    return [first, second]
  else return [first]

end BalancedAndPermutationPolicy

/-! ## The payload -/

/-- A dtype, by what `values.to(dtype)` makes of a natural number. -/
structure PayloadDtype where
  Value : Type
  ofNat : Nat → Value
  /-- `dtype == torch.bool` -/
  isBool : Bool

/-- The integers that a payload is made of are represented exactly. -/
def PayloadDtype.Exact (dtype : PayloadDtype) : Prop :=
  dtype.isBool = false ∧ ∀ m ≤ 96, ∀ n ≤ 96, dtype.ofNat m = dtype.ofNat n → m = n

/-- A tensor: its shape and its elements in row order. -/
@[ext]
structure PayloadTensor (dtype : PayloadDtype) where
  shape : List Nat
  values : List dtype.Value

variable {dtype : PayloadDtype}

def payloadSegment (dtype : PayloadDtype) (count source destination worldSize : Nat)
    (trailingShape : List Nat) : PayloadTensor dtype :=
  let numel := count * trailingShape.prod
  if numel = 0 then { shape := count :: trailingShape, values := [] }
  else
    let seed := source * worldSize + destination + 1
    let values := (List.range numel).map fun index => (index + seed * 17) % 97
    let values := if dtype.isBool then values.map (· % 2) else values
    { shape := count :: trailingShape, values := values.map dtype.ofNat }

/-- `_concatenate_segments`, along the first dimension. -/
def concatenateSegments (segments : List (PayloadTensor dtype)) (trailingShape : List Nat) :
    PayloadTensor dtype :=
  { shape := (segments.map fun segment => segment.shape.headD 0).sum :: trailingShape
    values := segments.flatMap PayloadTensor.values }

/-- The segments of the slots of one tensor: slot `index` holds what `label`
says, of the length that the splits say. -/
def slotSegments (dtype : PayloadDtype) (worldSize : Nat) (trailingShape : List Nat)
    (label : Nat → Nat × Nat) (splits : List Nat) : List (PayloadTensor dtype) :=
  splits.zipIdx.map fun (count, index) =>
    payloadSegment dtype count (label index).1 (label index).2 worldSize trailingShape

def materializeInput (dtype : PayloadDtype) (splits : List Nat) (source worldSize : Nat)
    (trailingShape : List Nat) : PayloadTensor dtype :=
  concatenateSegments
    (slotSegments dtype worldSize trailingShape (fun destination => (source, destination)) splits)
    trailingShape

def materializeOutput (dtype : PayloadDtype) (splits : List Nat) (destination worldSize : Nat)
    (trailingShape : List Nat) : PayloadTensor dtype :=
  concatenateSegments
    (slotSegments dtype worldSize trailingShape (fun source => (source, destination)) splits)
    trailingShape

/-- The rows for one destination, of a tensor that is sent with these splits. -/
def sentTo {V : Type} (splits : List Nat) (width : Nat) (values : List V) (destination : Nat) :
    List V :=
  (values.drop ((splits.take destination).sum * width)).take (splits.getD destination 0 * width)

/-- What `all_to_all_single` leaves at a destination: its rows from every source,
in their order. -/
def exchanged (dtype : PayloadDtype) (matrix : List (List Nat)) (trailingShape : List Nat)
    (destination : Nat) : List dtype.Value :=
  matrix.zipIdx.flatMap fun (splits, source) =>
    sentTo splits trailingShape.prod
      (materializeInput dtype splits source matrix.length trailingShape).values destination

/-- What a destination has got, when the slot of each source carries the segment
that `route` names by its source and destination. -/
def delivered (dtype : PayloadDtype) (splits : List Nat) (route : Nat → Nat × Nat)
    (worldSize : Nat) (trailingShape : List Nat) : PayloadTensor dtype :=
  concatenateSegments (slotSegments dtype worldSize trailingShape route splits) trailingShape

/-- `torch.equal(output_tensor, expected)`. -/
def ReplayCorrect (dtype : PayloadDtype) (splits : List Nat) (route : Nat → Nat × Nat)
    (destination worldSize : Nat) (trailingShape : List Nat) : Prop :=
  delivered dtype splits route worldSize trailingShape =
    materializeOutput dtype splits destination worldSize trailingShape

end LmResiliency.Detection
