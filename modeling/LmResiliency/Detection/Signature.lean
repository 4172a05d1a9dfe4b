/-
# Signature — the C³ signature of a tensor

`_compute_tensor_signature`: the bytes of a tensor as 64-bit words, folded in
rows down to one word each, and hashed in a chain with the shape and the
dtype.  Tensor arithmetic on `int64` is arithmetic modulo 2^64, so a word is
a `BitVec 64`.
-/
import LmResiliency.Lib.LowBits

namespace LmResiliency.Detection

abbrev Word : Type := BitVec 64

def signaturePrime : Nat := 1099511628211

def signatureOffsetBasis : Word := 14695981039346656037#64

def numChunks : Nat := 512

/-! ## The fold -/

/-- The salt of a folding level. -/
def salt (level : Nat) : Word := BitVec.ofNat 64 (signaturePrime * (level + 1))

/-- A row with an even number of columns. -/
def evenRow (row : List Word) : List Word := if row.length % 2 = 1 then row ++ [0] else row

/-- One level of the fold, on one row. -/
def foldLevel (level : Nat) (row : List Word) : List Word :=
  let data := evenRow row
  let half := data.length / 2
  List.zipWith (fun left right => left ^^^ right * salt level) (data.take half) (data.drop half)

theorem evenRow_length (row : List Word) : (evenRow row).length = 2 * ((row.length + 1) / 2) := by
  rw [evenRow]
  split
  · rw [List.length_append, List.length_singleton]
    omega
  · omega

@[simp] theorem foldLevel_length (level : Nat) (row : List Word) :
    (foldLevel level row).length = (row.length + 1) / 2 := by
  simp only [foldLevel, List.length_zipWith, List.length_take, List.length_drop, evenRow_length]
  omega

/-- The `while` loop of `_xor_fold_to_blocks`.  All its operations are on whole
columns, so that every row is folded by itself. -/
def foldRow (level : Nat) (row : List Word) : List Word :=
  if 1 < row.length then foldRow (level + 1) (foldLevel level row) else row
termination_by row.length
decreasing_by
  rw [foldLevel_length]
  omega

def foldWidth (numElements : Nat) : Nat := (numElements + numChunks - 1) / numChunks

/-- The rows of `view(NUM_CHUNKS, fold_width)`. -/
def chunks (width : Nat) (flat : List Word) : List (List Word) :=
  (List.range numChunks).map fun chunk => (flat.drop (chunk * width)).take width

/-- `torch.nn.functional.pad(flat, (0, padded - numel))`. -/
def padTo (padded : Nat) (flat : List Word) : List Word :=
  flat ++ List.replicate (padded - flat.length) 0

def xorFoldToBlocks (flat : List Word) : List Word :=
  if flat.length ≤ numChunks then flat
  else
    let width := foldWidth flat.length
    (chunks width (padTo (numChunks * width) flat)).map fun row => (foldRow 0 row).headD 0

/-! ## The chain -/

/-- One round of the chain; `val & SIGNATURE_MASK` is the word of an integer. -/
def mix (h : Word) (val : Int) : Word :=
  (h ^^^ BitVec.ofInt 64 val) * BitVec.ofNat 64 signaturePrime

/-- A word as a signed integer. -/
def signed (h : Word) : Int :=
  if 2 ^ 63 - 1 < h.toNat then (h.toNat : Int) - 2 ^ 64 else h.toNat

def finalizeSignature (blockValues : List Int) (payloadNbytes : Nat) : Int :=
  signed (mix (blockValues.foldl mix signatureOffsetBasis) payloadNbytes)

/-- `_signature_string`, of ASCII text. -/
def signatureString (value : String) : Int :=
  ((value.toList.foldl (fun signature byte =>
    (signature ^^^ BitVec.ofNat 64 byte.toNat) * BitVec.ofNat 64 signaturePrime) 0 : Word).toNat : Int)

/-! ## Tensors -/

/-- `torch.dtype`, with the size of an element. -/
structure DType where
  name : String
  itemsize : Nat

/-- A contiguous tensor, with its bytes in memory. -/
structure Tensor where
  dtype : DType
  shape : List Nat
  payload : List (BitVec 8)
  payload_length : payload.length = shape.prod * dtype.itemsize

/-- Eight bytes, the lowest one first. -/
def wordOfBytes (bytes : List (BitVec 8)) : Word :=
  bytes.foldr (fun byte word => word <<< 8 ||| byte.setWidth 64) 0

/-- The words of bytes. -/
def wordsOfBytes (bytes : List (BitVec 8)) : List Word :=
  (List.range (bytes.length / 8)).map fun i => wordOfBytes ((bytes.drop (8 * i)).take 8)

/-- `_to_int64_view`.  An `int64` tensor has no remainder. -/
def toInt64View (tensor : Tensor) : List Word :=
  let remainder := tensor.payload.length % 8
  wordsOfBytes (if remainder ≠ 0 then tensor.payload ++ List.replicate (8 - remainder) 0
    else tensor.payload)

def computeTensorSignature (tensor : Tensor) : Int :=
  let blockValues := (xorFoldToBlocks (toInt64View tensor)).map signed
  let payloadNbytes := tensor.shape.prod * tensor.dtype.itemsize
  let contentSignature := finalizeSignature blockValues payloadNbytes
  let dtypeValue := signatureString tensor.dtype.name
  let metadata := contentSignature :: (tensor.shape.length : Int) ::
    tensor.shape.map (fun n : Nat => (n : Int)) ++ [dtypeValue]
  finalizeSignature metadata payloadNbytes

/-- What a tensor adds to the signature of a sequence. -/
def sequenceValues (tensor : Tensor) : List Int :=
  computeTensorSignature tensor :: (tensor.shape.length : Int) ::
    tensor.shape.map (fun n : Nat => (n : Int)) ++ [signatureString tensor.dtype.name]

def computeTensorSequenceSignature (tensors : List Tensor) : Int :=
  finalizeSignature ((tensors.length : Int) :: tensors.flatMap sequenceValues)
    (tensors.map fun tensor => tensor.shape.prod * tensor.dtype.itemsize).sum

end LmResiliency.Detection
