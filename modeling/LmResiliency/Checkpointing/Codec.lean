/-
# Codec — the metadata values of a shard, as constrained JSON

What a checkpoint holds besides its tensors is written as JSON forms: an
object with a `kind` and the fields of that kind.  `_encode_value` turns a
value into its form and refuses what it has no form for; `_decode_value`
reads a form back and refuses everything else.

Both take the nesting depth, which may be at most one hundred.  Here they
take what is left of it, so that the recursion is on that number; at depth
`d` there are `101 - d` levels left.

PyTorch and NumPy are not part of this: their element types are `Types`, and
the few operations the codec calls are `Library`.
-/
import Mathlib.Algebra.GroupWithZero.Nat
import LmResiliency.Lib.Base64
import LmResiliency.Lib.Json

namespace LmResiliency.Checkpointing.Codec

/-- The types the numeric libraries bring, and the width of their elements. -/
structure Types where
  /-- A Python `float`; all NaNs are one value. -/
  Float : Type
  /-- `torch.dtype`. -/
  TorchDtype : Type
  /-- The bytes of one element. -/
  elementSize : TorchDtype → Nat
  /-- `torch.device`. -/
  Device : Type
  /-- `device.type`. -/
  deviceType : Device → String
  /-- The device of a tensor made without naming one. -/
  cpu : Device
  /-- `np.dtype`, with the scalar type that belongs to it. -/
  NumpyDtype : Type
  /-- `dtype.itemsize`. -/
  itemsize : NumpyDtype → Nat
  /-- Any other object. -/
  Object : Type
  /-- `type(value).__name__` of such an object. -/
  typeName : Object → String

/-- A `torch.Tensor`. -/
structure Tensor (T : Types) where
  /-- `type(value) is torch.Tensor`, no subclass of it. -/
  exact : Bool
  device : T.Device
  requiresGrad : Bool
  /-- Strided and not quantized. -/
  dense : Bool
  dtype : T.TorchDtype
  shape : List Nat
  /-- The elements in row-major order. -/
  data : List UInt8
  sized : data.length = shape.prod * T.elementSize dtype
  /-- A tensor in host memory has no device index. -/
  plainCpu : T.deviceType device = "cpu" → device = T.cpu

/-- An array whose type is `np.ndarray` itself. -/
structure NumpyArray (T : Types) where
  dtype : T.NumpyDtype
  shape : List Nat
  /-- The elements in row-major order. -/
  data : List UInt8
  sized : data.length = shape.prod * T.itemsize dtype

/-- An `np.generic`. -/
structure NumpyScalar (T : Types) where
  /-- `type(value) is value.dtype.type`, no subclass of it. -/
  exact : Bool
  dtype : T.NumpyDtype
  data : List UInt8
  sized : data.length = T.itemsize dtype

/-- A Python value, as far as the codec tells values apart.  The items of a
dict and of a set are in the order of their iteration. -/
inductive Value (T : Types) where
  | none
  | bool (b : Bool)
  | int (n : Int)
  | float (x : T.Float)
  | complex (re im : T.Float)
  | str (s : String)
  | bytes (data : List UInt8)
  | bytearray (data : List UInt8)
  | size (dimensions : List Int)
  | dtype (d : T.TorchDtype)
  | device (d : T.Device)
  | tensor (t : Tensor T)
  | array (a : NumpyArray T)
  | scalar (s : NumpyScalar T)
  | dict (items : List (Value T × Value T))
  /-- An instance of a subclass of `dict`, and the name of that class. -/
  | subdict (name : String) (items : List (Value T × Value T))
  | list (items : List (Value T))
  | tuple (items : List (Value T))
  | set (items : List (Value T))
  | frozenset (items : List (Value T))
  | other (o : T.Object)

/-- The operations of Python's numbers, PyTorch and NumPy that are called. -/
structure Library (T : Types) where
  /-- The literal `json.dumps` writes for a float. -/
  floatText : T.Float → String
  /-- The float `json.loads` makes of a literal. -/
  readFloat : String → T.Float
  /-- `float(n)`, none when it overflows. -/
  floatOfInt : Int → Option T.Float
  /-- `str(dtype)`. -/
  dtypeStr : T.TorchDtype → String
  /-- `getattr(torch, name, None)`, when it is a dtype. -/
  torchAttr : String → Option T.TorchDtype
  /-- Whether `torch.empty((), dtype=dtype)` succeeds. -/
  allocates : T.TorchDtype → Bool
  /-- `str(device)`. -/
  deviceStr : T.Device → String
  /-- `torch.device(text)`, none when it raises. -/
  parseDevice : String → Option T.Device
  /-- `dtype.hasobject`. -/
  hasobject : T.NumpyDtype → Bool
  /-- `dtype.fields is not None or dtype.subdtype is not None`. -/
  structured : T.NumpyDtype → Bool
  /-- `dtype.str`. -/
  typestr : T.NumpyDtype → String
  /-- `np.dtype(text)`, none when it raises. -/
  numpyDtype : String → Option T.NumpyDtype
  /-- The only element of `np.frombuffer(data, dtype=dtype, count=1)`. -/
  element : T.NumpyDtype → List UInt8 → NumpyScalar T
  /-- Whether a scalar can be hashed. -/
  hashableScalar : NumpyScalar T → Bool
  /-- Whether a key, or a set item, is taken for one that is there already. -/
  same : Value T → Value T → Bool

/-- What the code raises. -/
inductive Error where
  | typeError (message : String)
  | formatError (message : String)
  | valueError (message : String)
  | overflowError (message : String)
  deriving DecidableEq, Repr

def maxMetadataDepth : Nat := 100

def maxContainerItems : Nat := 1000000

/-- The levels that are left at depth zero. -/
def levels : Nat := maxMetadataDepth + 1

def depthMessage : String := "checkpoint metadata exceeds nesting depth 100"

def checkContainerSize (size : Nat) (label : String) : Except Error Unit :=
  if maxContainerItems < size then
    .error (.formatError (label ++ " exceeds 1000000 items"))
  else .ok ()

/-! ## Encoding -/

/-- An encoded value: its kind and the fields of that kind. -/
def form (kind : String) (fields : List (String × Json)) : Json :=
  .obj (("kind", .str kind) :: fields)

/-- `base64.b64encode(data).decode("ascii")`. -/
def encodeBytes (data : List UInt8) : Json := .str (String.ofList (Base64.encode data))

def encodeShape (shape : List Nat) : Json := .arr (shape.map fun n : Nat => .int n)

variable {T : Types} (L : Library T)

def encodeDtype (d : T.TorchDtype) : Except Error String :=
  let name := (L.dtypeStr d).toList
  if "torch.".toList.isPrefixOf name then .ok (String.ofList (name.drop 6))
  else .error (.typeError ("unsupported checkpoint tensor dtype " ++ L.dtypeStr d))

/-- The form of a torch size. -/
def encodeSize (dimensions : List Int) : Except Error Json :=
  if dimensions.any (· < 0) then
    .error (.typeError "torch.Size checkpoint metadata cannot contain negative dimensions")
  else .ok (form "torch_size" [("value", .arr (dimensions.map .int))])

/-- The form of a tensor in the metadata. -/
def encodeTensor (t : Tensor T) : Except Error Json :=
  if T.deviceType t.device ≠ "cpu" then
    .error (.typeError "only CPU tensors are supported in checkpoint metadata")
  else if t.requiresGrad then
    .error (.typeError "tensors requiring gradients are not supported in checkpoint metadata")
  else if !t.dense then
    .error (.typeError
      "only dense, non-quantized tensors are supported in checkpoint metadata")
  else do
    let name ← encodeDtype L t.dtype
    return form "torch_tensor"
      [("dtype", .str name), ("shape", encodeShape t.shape), ("data", encodeBytes t.data)]

/-- `np.ascontiguousarray` returns at least one dimension. -/
def contiguousShape (shape : List Nat) : List Nat := if shape = [] then [1] else shape

/-- The form of an array. -/
def encodeArray (a : NumpyArray T) : Except Error Json :=
  if L.hasobject a.dtype then
    .error (.typeError "object-dtype NumPy arrays are not supported in checkpoint metadata")
  else if L.structured a.dtype then
    .error (.typeError
      "structured and subarray NumPy dtypes are not supported in checkpoint metadata")
  else .ok (form "numpy_array"
    [("dtype", .str (L.typestr a.dtype)), ("shape", encodeShape (contiguousShape a.shape)),
      ("data", encodeBytes a.data)])

/-- The form of a numpy scalar. -/
def encodeScalar (s : NumpyScalar T) : Except Error Json :=
  if L.hasobject s.dtype then
    .error (.typeError "object-dtype NumPy scalars are not supported in checkpoint metadata")
  else if L.structured s.dtype then
    .error (.typeError
      "structured and subarray NumPy dtypes are not supported in checkpoint metadata")
  else .ok (form "numpy_scalar"
    [("dtype", .str (L.typestr s.dtype)), ("data", encodeBytes s.data)])

section Containers

variable (sub : Value T → Except Error Json)

/-- One item of a dict. -/
def encodePair : Value T × Value T → Except Error Json
  | (key, item) => do
      let k ← sub key
      let v ← sub item
      return .arr [k, v]

/-- The form of a dict. -/
def encodeDict (items : List (Value T × Value T)) : Except Error Json := do
  checkContainerSize items.length "checkpoint metadata mapping"
  let pairs ← items.mapM (encodePair sub)
  return form "dict" [("items", .arr pairs)]

/-- The form of a list, tuple, set or frozenset. -/
def encodeItems (kind : String) (items : List (Value T)) : Except Error Json := do
  checkContainerSize items.length "checkpoint metadata container"
  let encoded ← items.mapM sub
  return form kind [("items", .arr encoded)]

end Containers

/-- `_encode_value`, with this many levels left. -/
def encodeAt : Nat → Value T → Except Error Json
  | 0, _ => .error (.typeError depthMessage)
  | _ + 1, .none => .ok (form "none" [])
  | _ + 1, .bool b => .ok (form "bool" [("value", .bool b)])
  | _ + 1, .int n => .ok (form "int" [("value", .int n)])
  | _ + 1, .float x => .ok (form "float" [("value", .float (L.floatText x))])
  | _ + 1, .complex re im =>
      .ok (form "complex"
        [("value", .arr [.float (L.floatText re), .float (L.floatText im)])])
  | _ + 1, .str s => .ok (form "str" [("value", .str s)])
  | _ + 1, .bytes data => .ok (form "bytes" [("value", encodeBytes data)])
  | _ + 1, .bytearray data => .ok (form "bytearray" [("value", encodeBytes data)])
  | _ + 1, .size dimensions => encodeSize dimensions
  | _ + 1, .dtype d => do
      let name ← encodeDtype L d
      return form "torch_dtype" [("value", .str name)]
  | _ + 1, .device d => .ok (form "torch_device" [("value", .str (L.deviceStr d))])
  | _ + 1, .tensor t => encodeTensor L t
  | _ + 1, .array a => encodeArray L a
  | _ + 1, .scalar s => encodeScalar L s
  | n + 1, .dict items => encodeDict (encodeAt n) items
  | n + 1, .list items => encodeItems (encodeAt n) "list" items
  | n + 1, .tuple items => encodeItems (encodeAt n) "tuple" items
  | n + 1, .set items => encodeItems (encodeAt n) "set" items
  | n + 1, .frozenset items => encodeItems (encodeAt n) "frozenset" items
  | _ + 1, .subdict name _ =>
      .error (.typeError ("unsupported checkpoint metadata type: " ++ name))
  | _ + 1, .other o =>
      .error (.typeError ("unsupported checkpoint metadata type: " ++ T.typeName o))

/-- `_encode_value(value, depth=0)`. -/
def encodeValue (value : Value T) : Except Error Json := encodeAt L levels value

/-! ## Decoding -/

def requireMapping (value : Json) (label : String) : Except Error (List (String × Json)) :=
  match value with
  | .obj ms => .ok ms
  | _ => .error (.formatError (label ++ " must be a string-keyed mapping"))

def requireExactKeys (ms : List (String × Json)) (expected : List String) (label : String) :
    Except Error Unit :=
  if (∀ k ∈ Json.keys ms, k ∈ expected) ∧ ∀ k ∈ expected, k ∈ Json.keys ms then .ok ()
  else .error (.formatError (label ++ " has unexpected or missing fields"))

/-- `value[name]`, after the keys have been checked. -/
def field (ms : List (String × Json)) (name : String) : Json := (Json.get? name ms).getD .null

/-- A non-negative `int`; no `bool` is one. -/
def asDimension : Json → Option Nat
  | .int n => if 0 ≤ n then some n.toNat else none
  | _ => none

/-- A list of dimensions. -/
def decodeShape (value : Json) (message : String) : Except Error (List Nat) :=
  match value with
  | .arr items =>
      match items.mapM asDimension with
      | some shape => .ok shape
      | none => .error (.formatError message)
  | _ => .error (.formatError message)

/-- `_decode_base64`. -/
def decodeBytes (value : Json) (label : String) : Except Error (List UInt8) :=
  match value with
  | .str text =>
      match Base64.decode text.toList with
      | some data => .ok data
      | none => .error (.formatError (label ++ " data is not valid base64"))
  | _ => .error (.formatError (label ++ " data must be a string"))

def decodeDtype (value : Json) (label : String) : Except Error T.TorchDtype :=
  match value with
  | .str name =>
      if name = "" ∨ '.' ∈ name.toList then .error (.formatError (label ++ " is invalid"))
      else
        match L.torchAttr name with
        | some d => .ok d
        | none => .error (.formatError (label ++ " is unsupported"))
  | _ => .error (.formatError (label ++ " is invalid"))

def decodeNumpyDtype (value : Json) : Except Error T.NumpyDtype :=
  match value with
  | .str text =>
      if 64 < text.length then .error (.formatError "checkpoint NumPy dtype is invalid")
      else
        match L.numpyDtype text with
        | some d =>
            if L.hasobject d then
              .error (.formatError "object-dtype NumPy values are not allowed")
            else .ok d
        | none => .error (.formatError "checkpoint NumPy dtype is invalid")
  | _ => .error (.formatError "checkpoint NumPy dtype is invalid")

/-- `np.frombuffer` refuses elements of no width. -/
def checkItemsize (d : T.NumpyDtype) : Except Error Unit :=
  if T.itemsize d = 0 then .error (.valueError "itemsize cannot be zero in type") else .ok ()

/-- What a value of one of the four plain kinds has to be. -/
def decodePlain (kind : String) (value : Json) : Except Error (Value T) :=
  match kind, value with
  | "bool", .bool b => .ok (.bool b)
  | "int", .int n => .ok (.int n)
  | "float", .float l => .ok (.float (L.readFloat l))
  | "str", .str s => .ok (.str s)
  | _, _ => .error (.formatError ("checkpoint metadata " ++ kind ++ " has an invalid value"))

/-- A component of a complex number. -/
def decodeComponent (value : Json) : Except Error T.Float :=
  match value with
  | .float l => .ok (L.readFloat l)
  | .int n =>
      match L.floatOfInt n with
      | some x => .ok x
      | none => .error (.overflowError "int too large to convert to float")
  | _ => .error (.formatError "checkpoint metadata complex has an invalid value")

/-- `isinstance(component, (int, float))` by exact type. -/
def isNumber : Json → Bool
  | .int _ => true
  | .float _ => true
  | _ => false

def decodeComplex (value : Json) : Except Error (Value T) :=
  match value with
  | .arr [re, im] =>
      if isNumber re && isNumber im then do
        let x ← decodeComponent L re
        let y ← decodeComponent L im
        return .complex x y
      else .error (.formatError "checkpoint metadata complex has an invalid value")
  | _ => .error (.formatError "checkpoint metadata complex has an invalid value")

def decodeDevice (value : Json) : Except Error (Value T) :=
  match value with
  | .str text =>
      match L.parseDevice text with
      | some d => .ok (.device d)
      | none => .error (.formatError "checkpoint metadata torch_device has an invalid value")
  | _ => .error (.formatError "checkpoint metadata torch_device has an invalid value")

def decodeTensor (ms : List (String × Json)) : Except Error (Value T) := do
  let d ← decodeDtype L (field ms "dtype") "checkpoint metadata torch_tensor dtype"
  let shape ← decodeShape (field ms "shape") "checkpoint metadata torch_tensor shape is invalid"
  let data ← decodeBytes (field ms "data") "checkpoint metadata torch_tensor"
  if L.allocates d then
    if sized : data.length = shape.prod * T.elementSize d then
      return .tensor { exact := true, device := T.cpu, requiresGrad := false, dense := true,
                       dtype := d, shape, data, sized, plainCpu := fun _ => rfl }
    else .error (.formatError "checkpoint metadata torch_tensor byte length is invalid")
  else .error (.formatError "checkpoint metadata torch_tensor dtype is unsupported")

def decodeScalar (ms : List (String × Json)) : Except Error (Value T) := do
  let d ← decodeNumpyDtype L (field ms "dtype")
  let data ← decodeBytes (field ms "data") "checkpoint metadata numpy_scalar"
  if data.length ≠ T.itemsize d then
    .error (.formatError "checkpoint NumPy scalar byte length is invalid")
  else do
    checkItemsize d
    return .scalar (L.element d data)

def decodeArray (ms : List (String × Json)) : Except Error (Value T) := do
  let d ← decodeNumpyDtype L (field ms "dtype")
  let data ← decodeBytes (field ms "data") "checkpoint metadata numpy_array"
  let shape ← decodeShape (field ms "shape") "checkpoint NumPy array shape is invalid"
  if sized : data.length = shape.prod * T.itemsize d then do
    checkItemsize d
    return .array { dtype := d, shape, data, sized }
  else .error (.formatError "checkpoint NumPy array byte length is invalid")

mutual

/-- Whether `hash(value)` succeeds.  An unsupported object never gets here. -/
def hashable : Value T → Bool
  | .bytearray _ => false
  | .array _ => false
  | .scalar s => L.hashableScalar s
  | .dict _ => false
  | .subdict _ _ => false
  | .list _ => false
  | .set _ => false
  | .tuple items => hashableItems items
  | _ => true

/-- A tuple hashes its items. -/
def hashableItems : List (Value T) → Bool
  | [] => true
  | v :: vs => hashable v && hashableItems vs

end

/-- `set(items)`, in the order of insertion. -/
def distinct (items : List (Value T)) : List (Value T) :=
  items.foldl (fun seen v => if seen.any (L.same · v) then seen else seen ++ [v]) []

section Containers

variable (sub : Json → Except Error (Value T))

/-- The items of a dict, after those that are in it already. -/
def decodePairs : List Json → List (Value T × Value T) →
    Except Error (List (Value T × Value T))
  | [], result => .ok result
  | .arr [k, v] :: pairs, result => do
      let key ← sub k
      if !hashable L key then
        .error (.formatError "checkpoint metadata dict key is not hashable")
      else if result.any fun entry => L.same entry.1 key then
        .error (.formatError "checkpoint metadata dict contains a duplicate key")
      else do
        let item ← sub v
        decodePairs pairs (result ++ [(key, item)])
  | _ :: _, _ => .error (.formatError "checkpoint metadata dict item must be a pair")

def decodeDict (value : Json) : Except Error (Value T) :=
  match value with
  | .arr pairs => do
      checkContainerSize pairs.length "checkpoint metadata dict"
      let result ← decodePairs L sub pairs []
      return .dict result
  | _ => .error (.formatError "checkpoint metadata dict items must be a list")

/-- The decoded items of a list, tuple, set or frozenset. -/
def decodeItems (kind : String) (value : Json) : Except Error (List (Value T)) :=
  match value with
  | .arr items => do
      checkContainerSize items.length ("checkpoint metadata " ++ kind)
      items.mapM sub
  | _ => .error (.formatError ("checkpoint metadata " ++ kind ++ " items must be a list"))

/-- `set(decoded)` and `frozenset(decoded)`. -/
def decodeSet (kind : String) (value : Json) : Except Error (List (Value T)) := do
  let decoded ← decodeItems sub kind value
  if decoded.all (hashable L) then return distinct L decoded
  else .error (.formatError ("checkpoint metadata " ++ kind ++ " item is not hashable"))

/-- The value of a form, by its kind. -/
def decodeKind (ms : List (String × Json)) (kind : String) : Except Error (Value T) :=
  match kind with
  | "none" => do
      requireExactKeys ms ["kind"] "checkpoint metadata none"
      return .none
  | "bool" | "int" | "float" | "str" => do
      requireExactKeys ms ["kind", "value"] ("checkpoint metadata " ++ kind)
      decodePlain L kind (field ms "value")
  | "complex" => do
      requireExactKeys ms ["kind", "value"] "checkpoint metadata complex"
      decodeComplex L (field ms "value")
  | "bytes" => do
      requireExactKeys ms ["kind", "value"] "checkpoint metadata bytes"
      return .bytes (← decodeBytes (field ms "value") "checkpoint metadata bytes")
  | "bytearray" => do
      requireExactKeys ms ["kind", "value"] "checkpoint metadata bytearray"
      return .bytearray (← decodeBytes (field ms "value") "checkpoint metadata bytearray")
  | "torch_size" => do
      requireExactKeys ms ["kind", "value"] "checkpoint metadata torch_size"
      let shape ← decodeShape (field ms "value")
        "checkpoint metadata torch_size has an invalid value"
      return .size (shape.map Int.ofNat)
  | "torch_dtype" => do
      requireExactKeys ms ["kind", "value"] "checkpoint metadata torch_dtype"
      return .dtype (← decodeDtype L (field ms "value") "checkpoint metadata torch_dtype")
  | "torch_device" => do
      requireExactKeys ms ["kind", "value"] "checkpoint metadata torch_device"
      decodeDevice L (field ms "value")
  | "torch_tensor" => do
      requireExactKeys ms ["kind", "dtype", "shape", "data"] "checkpoint metadata torch_tensor"
      decodeTensor L ms
  | "numpy_array" => do
      requireExactKeys ms ["kind", "dtype", "data", "shape"] "checkpoint metadata numpy_array"
      decodeArray L ms
  | "numpy_scalar" => do
      requireExactKeys ms ["kind", "dtype", "data"] "checkpoint metadata numpy_scalar"
      decodeScalar L ms
  | "dict" => do
      requireExactKeys ms ["kind", "items"] "checkpoint metadata dict"
      decodeDict L sub (field ms "items")
  | "list" => do
      requireExactKeys ms ["kind", "items"] "checkpoint metadata list"
      return .list (← decodeItems sub "list" (field ms "items"))
  | "tuple" => do
      requireExactKeys ms ["kind", "items"] "checkpoint metadata tuple"
      return .tuple (← decodeItems sub "tuple" (field ms "items"))
  | "set" => do
      requireExactKeys ms ["kind", "items"] "checkpoint metadata set"
      return .set (← decodeSet L sub "set" (field ms "items"))
  | "frozenset" => do
      requireExactKeys ms ["kind", "items"] "checkpoint metadata frozenset"
      return .frozenset (← decodeSet L sub "frozenset" (field ms "items"))
  | _ => .error (.formatError ("unsupported checkpoint metadata kind '" ++ kind ++ "'"))

end Containers

/-- `_decode_value`, with this many levels left. -/
def decodeAt : Nat → Json → Except Error (Value T)
  | 0, _ => .error (.formatError depthMessage)
  | n + 1, value => do
      let ms ← requireMapping value "checkpoint metadata value"
      match Json.get? "kind" ms with
      | some (.str kind) => decodeKind L (decodeAt n) ms kind
      | _ => .error (.formatError "checkpoint metadata value kind must be a string")

/-- `_decode_value(value, depth=0)`. -/
def decodeValue (value : Json) : Except Error (Value T) := decodeAt L levels value

end LmResiliency.Checkpointing.Codec
