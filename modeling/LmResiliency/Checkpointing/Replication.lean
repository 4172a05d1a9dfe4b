/-
# Replication — a shard sent to the peer in chunks

`ChunkedGlooBackend.send` and `recv` as two programs over a channel of bytes.
A header comes first: the step, the metadata and the layout of the tensors, by
which the receiver replaces its buffers when they are laid out otherwise.  Then
every tensor comes in messages of at most `chunk_size` bytes, but of one element
at least.

A tensor is what its elements are in row-major order.  What PyTorch knows of an
element type is `Torch`.
-/
import Mathlib.Algebra.Order.Ring.Int
import LmResiliency.Lib.Channel
import LmResiliency.Lib.JsonBytes

namespace LmResiliency.Checkpointing.Replication

/-- The element types of PyTorch. -/
structure Torch where
  /-- `torch.dtype`. -/
  Dtype : Type
  /-- `tensor.element_size()`. -/
  elementSize : Dtype → Nat
  elementSize_pos : ∀ d, 0 < elementSize d
  /-- `str(dtype)`. -/
  str : Dtype → String
  /-- `getattr(torch, name, None)`, when it is a dtype. -/
  attr : String → Option Dtype

/-- What the code raises. -/
inductive Error where
  | overflowError
  | jsonDecodeError
  /-- A layout without the fields, or with fields of other types. -/
  | badLayout
  | valueError (message : String)
  | runtimeError (message : String)
deriving DecidableEq

abbrev Bytes : Type := List UInt8

/-- Some number of bytes. -/
abbrev Block (n : Nat) : Type := {bs : Bytes // bs.length = n}

variable (T : Torch)

/-- A tensor in host memory. -/
structure Tensor where
  dtype : T.Dtype
  shape : List Nat
  data : Block (shape.prod * T.elementSize dtype)

/-- A tensor to receive into. -/
structure Buffer extends Tensor T where
  /-- `tensor.is_contiguous()`. -/
  contiguous : Bool

variable {T}

def Tensor.numel (t : Tensor T) : Nat := t.shape.prod

/-! ## Numbers on the wire -/

/-- The low bytes of a number, the lowest first. -/
def littleEndian : Nat → Nat → Bytes
  | 0, _ => []
  | k + 1, n => UInt8.ofNat n :: littleEndian k (n / 256)

def ofLittleEndian : Bytes → Nat
  | [] => 0
  | b :: bs => b.toNat + 256 * ofLittleEndian bs

/-- A number that an `int64` can hold. -/
def InInt64 (n : Int) : Prop := -2 ^ 63 ≤ n ∧ n < 2 ^ 63
deriving Decidable

/-- `torch.tensor([n], dtype=torch.int64)`. -/
def int64Tensor (n : Int) : Except Error Bytes :=
  if InInt64 n then .ok (littleEndian 8 (n % 2 ^ 64).toNat) else .error .overflowError

/-- `int(tensor.item())`. -/
def item (bs : Bytes) : Int :=
  if ofLittleEndian bs < 2 ^ 63 then ofLittleEndian bs else ofLittleEndian bs - 2 ^ 64

/-! ## The layout -/

/-- One entry of a layout. -/
structure LayoutSpec where
  shape : List Int
  dtype : String
deriving DecidableEq

/-- `str(dtype).removeprefix("torch.")`. -/
def dtypeName (d : T.Dtype) : String :=
  let name := (T.str d).toList
  if "torch.".toList.isPrefixOf name then String.ofList (name.drop 6) else T.str d

def tensorLayout (tensors : List (Tensor T)) : List LayoutSpec :=
  tensors.map fun t => ⟨t.shape.map Int.ofNat, dtypeName t.dtype⟩

def LayoutSpec.toJson (spec : LayoutSpec) : Json :=
  .obj [("shape", .arr (spec.shape.map .int)), ("dtype", .str spec.dtype)]

/-- `json.dumps(layout, separators=(",", ":")).encode()`. -/
def writeLayout (layout : List LayoutSpec) : Bytes :=
  (String.ofList (Json.write (.arr (layout.map LayoutSpec.toJson)))).toUTF8.data.toList

/-- An extent. -/
def readExtent : Json → Option Int
  | .int n => some n
  | _ => none

def readSpec : Json → Option LayoutSpec
  | .obj ms =>
      match Json.get? "shape" ms, Json.get? "dtype" ms with
      | some (.arr shape), some (.str dtype) => do return ⟨← shape.mapM readExtent, dtype⟩
      | _, _ => none
  | _ => none

/-- `json.loads`, of a layout. -/
def readLayout (bs : Bytes) : Except Error (List LayoutSpec) :=
  match (Json.decodeBytes ⟨bs.toArray⟩).bind Json.loadsLast with
  | none => .error .jsonDecodeError
  | some (.arr specs) =>
      match specs.mapM readSpec with
      | some layout => .ok layout
      | none => .error .badLayout
  | some _ => .error .badLayout

/-- `torch.empty(shape, dtype=dtype)`: what the memory held before. -/
def empty (memory : Nat → UInt8) (shape : List Nat) (dtype : T.Dtype) : Buffer T where
  dtype := dtype
  shape := shape
  data := ⟨(List.range (shape.prod * T.elementSize dtype)).map memory, by
    rw [List.length_map, List.length_range]⟩
  contiguous := true

/-- A buffer for one entry of a layout. -/
def allocateSpec (memory : Nat → UInt8) (spec : LayoutSpec) : Except Error (Buffer T) :=
  match T.attr spec.dtype with
  | none => .error (.valueError ("Unsupported peer checkpoint dtype: " ++ spec.dtype))
  | some dtype =>
      if ∃ extent ∈ spec.shape, extent < 0 then
        .error (.runtimeError "Trying to create tensor with negative dimension")
      else .ok (empty memory (spec.shape.map Int.toNat) dtype)

def prepareReceiveBuffers (memory : Nat → UInt8) (buffers : List (Buffer T))
    (layout : List LayoutSpec) : Except Error (List (Buffer T)) :=
  if tensorLayout (buffers.map Buffer.toTensor) = layout then .ok buffers
  else layout.mapM (allocateSpec memory)

/-! ## Sending -/

abbrev Sender : Type → Type := Prog (Sending Bytes) Error

def send (message : Bytes) : Sender Unit := Prog.op (I := Sending Bytes) message

/-- `dist.send` of a tensor of one number. -/
def sendNumber (n : Int) : Sender Unit :=
  match int64Tensor n with
  | .ok message => send message
  | .error e => .raise e

def sendBytes (blob : Bytes) : Sender Unit := do
  sendNumber blob.length
  if blob ≠ [] then send blob

def sendHeader (tensors : List (Tensor T)) (step : Int) (metaBlob : Bytes) : Sender Unit := do
  sendNumber step
  sendBytes metaBlob
  sendBytes (writeLayout (tensorLayout tensors))

/-- `max(1, chunk_size // element_size)`. -/
def chunkElems (chunkSize elementSize : Nat) : Nat := max 1 (chunkSize / elementSize)

/-- Where the chunk that starts at an offset ends. -/
def chunkEnd (chunkSize elementSize numel offset : Nat) : Nat :=
  min (offset + chunkElems chunkSize elementSize) numel

/-- `flat[offset:end]`. -/
def slice (t : Tensor T) (offset stop : Nat) : Bytes :=
  (t.data.val.drop (offset * T.elementSize t.dtype)).take
    ((stop - offset) * T.elementSize t.dtype)

theorem chunkEnd_decreases {chunkSize elementSize numel offset : Nat} (h : offset < numel) :
    numel - chunkEnd chunkSize elementSize numel offset < numel - offset := by
  unfold chunkEnd chunkElems
  omega

/-- The chunks of a tensor from an offset on, one after another. -/
def sendChunks (chunkSize : Nat) (t : Tensor T) (offset : Nat) : Sender Unit :=
  if offset < t.numel then do
    let stop := chunkEnd chunkSize (T.elementSize t.dtype) t.numel offset
    send (slice t offset stop)
    sendChunks chunkSize t stop
  else return
termination_by t.numel - offset
decreasing_by exact chunkEnd_decreases ‹_›

/-- `ChunkedGlooBackend.send`. -/
def sendShard (chunkSize : Nat) (tensors : List (Tensor T)) (step : Int) (metaBlob : Bytes) :
    Sender Unit := do
  sendHeader tensors step metaBlob
  tensors.forM fun t => sendChunks chunkSize t 0

/-! ## Receiving -/

/-- A message fills what it is received into. -/
def Fills (size : Nat) (message : Bytes) : Prop := message.length = size

abbrev Receiver : Type → Type := Prog (Receiving Fills) Error

/-- `dist.recv` into some number of bytes. -/
def recv (size : Nat) : Receiver (Block size) := Prog.op (I := Receiving Fills) size

/-- `dist.recv` into a tensor of one number. -/
def recvNumber : Receiver Int := do
  let message ← recv 8
  return item message

def recvBytes : Receiver Bytes := do
  let n ← recvNumber
  if n = 0 then return []
  else if n < 0 then .raise (.runtimeError "Trying to create tensor with negative dimension")
  else
    let buf ← recv n.toNat
    return buf.val

/-- Code that receives nothing. -/
def Receiver.lift {α : Type} : Except Error α → Receiver α
  | .ok a => .ret a
  | .error e => .raise e

/-- `_recv_header`, with the buffers it leaves. -/
def recvHeader (memory : Nat → UInt8) (buffers : List (Buffer T)) :
    Receiver (Int × Bytes × List (Buffer T)) := do
  let step ← recvNumber
  let metaBlob ← recvBytes
  let layout ← Receiver.lift (readLayout (← recvBytes))
  let buffers ← Receiver.lift (prepareReceiveBuffers memory buffers layout)
  return (step, metaBlob, buffers)

/-- `flat[at:] = bs`. -/
def store {n : Nat} (flat : Block n) (start : Nat) (bs : Bytes) (h : start + bs.length ≤ n) :
    Block n :=
  ⟨flat.val.take start ++ bs ++ flat.val.drop (start + bs.length), by
    rw [List.length_append, List.length_append, List.length_take, List.length_drop,
      flat.property]
    omega⟩

theorem chunk_fits {chunkSize elementSize numel offset : Nat} {bs : Bytes} (h : offset < numel)
    (hbs : bs.length = (chunkEnd chunkSize elementSize numel offset - offset) * elementSize) :
    offset * elementSize + bs.length ≤ numel * elementSize := by
  rw [hbs, ← Nat.add_mul]
  refine Nat.mul_le_mul_right _ ?_
  unfold chunkEnd chunkElems
  omega

/-- The chunks of a buffer from an offset on, one after another. -/
def recvChunks (chunkSize elementSize numel : Nat) (flat : Block (numel * elementSize))
    (offset : Nat) : Receiver (Block (numel * elementSize)) :=
  if h : offset < numel then do
    let stop := chunkEnd chunkSize elementSize numel offset
    let chunk ← recv ((stop - offset) * elementSize)
    recvChunks chunkSize elementSize numel
      (store flat (offset * elementSize) chunk.val (chunk_fits h chunk.property)) stop
  else return flat
termination_by numel - offset
decreasing_by exact chunkEnd_decreases ‹_›

/-- A buffer received; one that is not contiguous is received into a copy. -/
def recvBuffer (chunkSize : Nat) (buf : Buffer T) : Receiver (Buffer T) := do
  let flat ← recvChunks chunkSize (T.elementSize buf.dtype) buf.shape.prod buf.data 0
  return if buf.contiguous then { buf with data := flat } else buf

/-- `ChunkedGlooBackend.recv`, with the buffers it leaves. -/
def recvShard (chunkSize : Nat) (memory : Nat → UInt8) (buffers : List (Buffer T)) :
    Receiver (Int × Bytes × List (Buffer T)) := do
  let (step, metaBlob, buffers) ← recvHeader memory buffers
  let buffers ← buffers.mapM (recvBuffer chunkSize)
  return (step, metaBlob, buffers)

/-- The buffers of a slot: what the pool allocates, what earlier generations have put
in their place, and whatever has been received into either. -/
inductive LeftOver : List (Buffer T) → Prop where
  | allocated (memory : Nat → UInt8) (entries : List (List Nat × T.Dtype)) :
      LeftOver (entries.map fun (shape, dtype) => empty memory shape dtype)
  | prepared {memory : Nat → UInt8} {buffers buffers' : List (Buffer T)}
      {layout : List LayoutSpec} : LeftOver buffers →
      prepareReceiveBuffers memory buffers layout = .ok buffers' → LeftOver buffers'
  | received {buffers : List (Buffer T)} (i : Nat) (b : Buffer T) (data) :
      LeftOver buffers → buffers[i]? = some b → LeftOver (buffers.set i { b with data := data })

end LmResiliency.Checkpointing.Replication
