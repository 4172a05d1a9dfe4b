/-
# Transfer — a shard pulled from the rank that holds its replica

`TorchDistTransfer.serve` and `fetch` as two programs that exchange messages.
The source sends a manifest of what it serves; the destination compares it with
its own request and acknowledges; the tensors come in chunks, into buffers that
are not the caller's; and the destination acknowledges the checksums before it
copies anything.

What the standard library computes of bytes and texts, and how JSON numbers
with a fraction compare, is `Library`.
-/
import LmResiliency.Checkpointing.Replication
import LmResiliency.Lib.Network
import LmResiliency.Lib.Outcome

namespace LmResiliency.Checkpointing.Transfer

open Outcome Replication

/-- What is used of the standard library. -/
structure Library where
  /-- `zlib.crc32(data) & 0xFFFFFFFF` -/
  crc32 : Bytes → Nat
  /-- `_transfer_tag` -/
  transferTag : String → Nat
  /-- `repr(text)` -/
  repr : String → String
  /-- Whether a JSON number with a fraction or an exponent equals an integer. -/
  floatEq : String → Int → Bool

/-- What the code raises. -/
inductive TransferError where
  | valueError (message : String)
  | runtimeError (message : String)
  | overflowError
  /-- The bytes of the manifest are no JSON text. -/
  | jsonDecodeError
  /-- `TimeoutError`, of an operation -/
  | timeout (operation : String)
  /-- What copying into a buffer of the caller raises. -/
  | copy
deriving DecidableEq

/-- What the destination does besides sending and receiving. -/
inductive Action where
  /-- `actual == expected` -/
  | verify (actual expected : List Int)
  /-- `destination.copy_(source.to(destination.device))` -/
  | copy (index : Nat)

/-- A comparison cannot fail, a copy can. -/
def Action.Answer : Action → Type
  | .verify _ _ => Unit
  | .copy _ => Except Unit Unit

/-- Messages that fill what they are received into; any operation may fail. -/
abbrev transferIface : Iface := Network.endpoint Unit Fills Action.Answer

abbrev TransferM (α : Type) : Type := Prog transferIface TransferError α

/-- Code that neither sends nor receives. -/
def TransferM.lift {α : Type} : Except TransferError α → TransferM α
  | .ok a => .ret a
  | .error e => .raise e

def send (channel : Nat) (message : Bytes) (operation : String) : TransferM Unit :=
  .call (.send channel message) fun
    | .ok _ => .ret ()
    | .error _ => .raise (.timeout operation)

def recv (channel size : Nat) (operation : String) : TransferM (Block size) :=
  .call (.recv channel size) fun
    | .ok m => .ret m
    | .error _ => .raise (.timeout operation)

/-- `torch.tensor([n], dtype=torch.int32)`, for a small number. -/
def int32Tensor (n : Nat) : Bytes := littleEndian 4 n

/-- `tensor.item()` of an `int32` tensor. -/
def item32 (bs : Bytes) : Int :=
  if ofLittleEndian bs < 2 ^ 31 then ofLittleEndian bs else ofLittleEndian bs - 2 ^ 32

/-! ## The manifest -/

variable {T : Torch}

/-- `shard_checksums`: a checksum of every chunk of every tensor. -/
def shardChecksums (lib : Library) (crcChunk : Nat) (tensors : List (Tensor T)) : List Int :=
  tensors.flatMap fun t =>
    (List.range ((t.data.val.length + crcChunk - 1) / crcChunk)).map fun i =>
      (lib.crc32 ((t.data.val.drop (i * crcChunk)).take crcChunk) : Int)

/-- An entry of `_tensor_manifest`, its fields in the order of their names. -/
def tensorEntry (t : Tensor T) : Json :=
  .obj [("bytes", .int (t.numel * T.elementSize t.dtype : Nat)), ("dtype", .str (T.str t.dtype)),
    ("numel", .int t.numel), ("shape", .arr (t.shape.map fun n => .int n))]

/-- An endpoint: its rank, its host, and how it sends and checks bytes. -/
structure TorchDistTransfer where
  rank : Int
  hostname : String
  chunkSize : Nat
  crcChunk : Nat
  chunkSize_pos : 0 < chunkSize
  crcChunk_pos : 0 < crcChunk

namespace TorchDistTransfer

variable (self : TorchDistTransfer) (lib : Library)

/-- `_payload_manifest`, its fields in the order of their names. -/
def payloadManifest (tensors : List (Tensor T)) (key : String) (peerRank : Int)
    (peerHost : String) : Json :=
  .obj [("checksums", .arr ((shardChecksums lib self.crcChunk tensors).map .int)),
    ("destination_host", .str peerHost), ("destination_rank", .int peerRank),
    ("key", .str key), ("protocol_version", .int 1), ("source_host", .str self.hostname),
    ("source_rank", .int self.rank), ("tensors", .arr (tensors.map tensorEntry))]

/-- `json.dumps(manifest, sort_keys=True, separators=(",", ":")).encode("utf-8")`. -/
def encodedManifest (tensors : List (Tensor T)) (key : String) (peerRank : Int)
    (peerHost : String) : Bytes :=
  (String.ofList (Json.write (self.payloadManifest lib tensors key peerRank peerHost)))
    |>.toUTF8.data.toList

end TorchDistTransfer

/-! ## Comparing JSON values -/

section Compare

variable (lib : Library)

/-- `value == n`. -/
def equalsInt (n : Int) : Json → Bool
  | .int m => m = n
  | .bool b => (if b then 1 else 0) = n
  | .float literal => lib.floatEq literal n
  | _ => false

/-- `value == text`. -/
def equalsStr (text : String) : Json → Bool
  | .str s => s = text
  | _ => false

/-- `bool(value)`. -/
def truthy : Json → Bool
  | .null => false
  | .bool b => b
  | .int n => n ≠ 0
  | .float literal => !lib.floatEq literal 0
  | .str s => s ≠ ""
  | .arr items => !items.isEmpty
  | .obj members => !members.isEmpty

/-- Two lists that are equal item by item. -/
def equalsAll {α : Type} (eq : α → Json → Bool) : List α → List Json → Bool
  | [], [] => true
  | a :: as, v :: vs => eq a v && equalsAll eq as vs
  | _, _ => false

/-- `value == [n, ...]`. -/
def equalsInts (ns : List Nat) : Json → Bool
  | .arr items => equalsAll (fun n => equalsInt lib (n : Int)) ns items
  | _ => false

/-- A member of a dict that passes a test. -/
def memberIs (ms : List (String × Json)) (field : String) (test : Json → Bool) : Bool :=
  (Json.get? field ms).any test

/-- `entry == {...}`, of the entry of a tensor. -/
def equalsEntry (t : Tensor T) : Json → Bool
  | .obj ms =>
    ms.length = 4 && memberIs ms "shape" (equalsInts lib t.shape) &&
      memberIs ms "dtype" (equalsStr (T.str t.dtype)) &&
      memberIs ms "numel" (equalsInt lib t.numel) &&
      memberIs ms "bytes" (equalsInt lib (t.numel * T.elementSize t.dtype : Nat))
  | _ => false

/-- `value == _tensor_manifest(buffers)`. -/
def equalsManifest (buffers : List (Tensor T)) : Json → Bool
  | .arr items => equalsAll (equalsEntry lib) buffers items
  | _ => false

end Compare

/-- An item of type `int`. -/
def readInt : Json → Option Int
  | .int n => some n
  | _ => none

/-- The expected fields of a manifest. -/
def manifestFields : List String :=
  ["protocol_version", "key", "source_rank", "destination_rank", "source_host",
    "destination_host", "tensors", "checksums"]

/-- The text of a value in a message. -/
def shown (lib : Library) : Json → String
  | .str s => lib.repr s
  | v => Json.dumps v

/-- A field of a manifest that has all of them. -/
def fieldOf (ms : List (String × Json)) (field : String) : Json :=
  (Json.get? field ms).getD .null

namespace TorchDistTransfer

variable (self : TorchDistTransfer) (lib : Library)

/-- `_validate_manifest`, with the checksums of the manifest. -/
def validateManifest (manifest : Json) (buffers : List (Tensor T)) (key : String)
    (peerRank : Int) (peerHost : String) : Except TransferError (List Int) :=
  match manifest with
  | .obj ms => do
    let field := fieldOf ms
    raiseIf (¬((∀ f ∈ manifestFields, f ∈ Json.keys ms) ∧
        ∀ f ∈ Json.keys ms, f ∈ manifestFields))
      (.runtimeError "checkpoint transfer manifest has unexpected or missing fields")
    raiseIf (equalsInt lib 1 (field "protocol_version") = false)
      (.runtimeError "checkpoint transfer protocol version mismatch")
    raiseIf (equalsStr key (field "key") = false)
      (.runtimeError "checkpoint transfer key mismatch")
    raiseIf (equalsInt lib peerRank (field "source_rank") = false ∨
        equalsInt lib self.rank (field "destination_rank") = false)
      (.runtimeError "checkpoint transfer endpoint mismatch")
    raiseIf (peerHost ≠ "" ∧ equalsStr peerHost (field "source_host") = false)
      (.runtimeError ("checkpoint transfer source host mismatch: expected " ++
        lib.repr peerHost ++ ", got " ++ shown lib (field "source_host")))
    raiseIf (truthy lib (field "destination_host") ∧
        equalsStr self.hostname (field "destination_host") = false)
      (.runtimeError ("checkpoint transfer destination host mismatch: expected " ++
        lib.repr self.hostname ++ ", got " ++ shown lib (field "destination_host")))
    raiseIf (equalsManifest lib buffers (field "tensors") = false)
      (.runtimeError "checkpoint transfer tensor shape, dtype, or byte-count mismatch")
    match field "checksums" with
    | .arr items =>
      match items.mapM readInt with
      | some checksums => return checksums
      | none => throw (.runtimeError "checkpoint transfer checksum manifest is invalid")
    | _ => throw (.runtimeError "checkpoint transfer checksum manifest is invalid")
  | _ => .error (.runtimeError "checkpoint transfer manifest must be a mapping")

/-- `json.loads` of the received bytes, and the validation. -/
def readManifest (encoded : Bytes) (buffers : List (Tensor T)) (key : String)
    (peerRank : Int) (peerHost : String) : Except TransferError (List Int) :=
  match (Json.decodeBytes ⟨encoded.toArray⟩).bind Json.loadsLast with
  | none => .error .jsonDecodeError
  | some manifest => self.validateManifest lib manifest buffers key peerRank peerHost

def validateRequest (key : String) (peerRank : Int) (peerHost : String) :
    Except TransferError Unit := do
  raiseIf (key = "") (.valueError "checkpoint transfer key must be non-empty")
  raiseIf (self.rank = peerRank)
    (.valueError "checkpoint transfer peer must differ from the local rank")
  raiseIf (peerHost = "") (.valueError "checkpoint transfer peer_host must be non-empty")

/-! ## Serving -/

/-- The chunks of a tensor from an offset on, one after another. -/
def sendChunks (channel : Nat) (t : Tensor T) (offset : Nat) (operation : String) :
    TransferM Unit :=
  if offset < t.numel then do
    let stop := chunkEnd self.chunkSize (T.elementSize t.dtype) t.numel offset
    send channel (slice t offset stop) operation
    sendChunks channel t stop operation
  else return
termination_by t.numel - offset
decreasing_by exact chunkEnd_decreases ‹_›

/-- The length of the manifest as an `int64` tensor. -/
def lengthMessage (encoded : Bytes) : Except TransferError Bytes :=
  (int64Tensor encoded.length).mapError fun _ => .overflowError

def serve (tensors : List (Tensor T)) (key : String) (peerRank : Int) (peerHost : String) :
    TransferM Unit := do
  TransferM.lift (self.validateRequest key peerRank peerHost)
  let encoded := self.encodedManifest lib tensors key peerRank peerHost
  let tag := lib.transferTag key
  let length ← TransferM.lift (lengthMessage encoded)
  send tag length (lib.repr key ++ " manifest length send")
  send (tag + 1) encoded (lib.repr key ++ " manifest send")
  let accepted ← recv (tag + 2) 4 (lib.repr key ++ " preflight acknowledgement")
  if item32 accepted.val ≠ 1 then
    .raise (.runtimeError ("checkpoint transfer " ++ lib.repr key ++
      " was rejected by the destination"))
  else do
    tensors.forM fun t => self.sendChunks (tag + 3) t 0 (lib.repr key ++ " payload send")
    let verified ← recv (tag + 4) 4 (lib.repr key ++ " checksum acknowledgement")
    if item32 verified.val ≠ 1 then
      .raise (.runtimeError ("checkpoint transfer " ++ lib.repr key ++
        " failed destination checksum"))
    else return

/-! ## Fetching -/

/-- The chunks of a buffer from an offset on, one after another. -/
def recvChunks (channel elementSize numel : Nat) (flat : Block (numel * elementSize))
    (offset : Nat) (operation : String) : TransferM (Block (numel * elementSize)) :=
  if h : offset < numel then do
    let stop := chunkEnd self.chunkSize elementSize numel offset
    let chunk ← recv channel ((stop - offset) * elementSize) operation
    recvChunks channel elementSize numel
      (store flat (offset * elementSize) chunk.val (chunk_fits h chunk.property)) stop operation
  else return flat
termination_by numel - offset
decreasing_by exact chunkEnd_decreases ‹_›

/-- A buffer like one of the caller's, received into. -/
def recvStaged (memory : Nat → UInt8) (channel : Nat) (operation : String) (buffer : Tensor T) :
    TransferM (Tensor T) := do
  let fresh := (empty memory buffer.shape buffer.dtype).toTensor
  let flat ← self.recvChunks channel (T.elementSize fresh.dtype) fresh.shape.prod fresh.data 0
    operation
  return { fresh with data := flat }

/-- `actual == expected`, put on record. -/
def verify (actual expected : List Int) : TransferM Unit :=
  .call (.act (.verify actual expected)) fun _ => .ret ()

/-- The largest manifest that is received. -/
def manifestLimit : Int := 64 * 1024 * 1024

/-- `fetch` after the manifest is accepted, up to the verification: the payload, the
checksums and the acknowledgement. -/
def stagePayload (memory : Nat → UInt8) (buffers : List (Tensor T)) (key : String)
    (expected : List Int) : TransferM (List (Tensor T)) := do
  let tag := lib.transferTag key
  send (tag + 2) (int32Tensor 1) (lib.repr key ++ " preflight acknowledgement")
  let staged ← buffers.mapM
    (self.recvStaged memory (tag + 3) (lib.repr key ++ " payload receive"))
  let actual := shardChecksums lib self.crcChunk staged
  verify actual expected
  send (tag + 4) (int32Tensor (if actual = expected then 1 else 0))
    (lib.repr key ++ " checksum acknowledgement")
  if actual = expected then return staged
  else .raise (.runtimeError ("checkpoint transfer " ++ lib.repr key ++ " failed checksum"))

/-- `fetch`, up to the verification. -/
def stage (memory : Nat → UInt8) (buffers : List (Tensor T)) (key : String) (peerRank : Int)
    (peerHost : String) : TransferM (List (Tensor T)) := do
  TransferM.lift (self.validateRequest key peerRank peerHost)
  let tag := lib.transferTag key
  let encodedSize ← recv tag 8 (lib.repr key ++ " manifest length receive")
  let size := item encodedSize.val
  if size ≤ 0 ∨ manifestLimit < size then
    .raise (.runtimeError ("checkpoint transfer " ++ lib.repr key ++
      " manifest size is invalid"))
  else do
    let encoded ← recv (tag + 1) size.toNat (lib.repr key ++ " manifest receive")
    match self.readManifest lib encoded.val buffers key peerRank peerHost with
    | .error e => do
      send (tag + 2) (int32Tensor 0) (lib.repr key ++ " preflight rejection")
      .raise e
    | .ok expected => self.stagePayload lib memory buffers key expected

/-- The copies into the buffers of the caller, one after another. -/
def commit : Nat → List (Tensor T) → Meth transferIface (List (Tensor T)) TransferError Unit
  | _, [] => pure ()
  | index, source :: rest => fun buffers =>
    .call (.act (.copy index)) fun
      | .ok _ => commit (index + 1) rest (buffers.set index source)
      | .error _ => .raise (.copy, buffers)

/-- `fetch`, on the buffers of the caller. -/
def fetch (memory : Nat → UInt8) (key : String) (peerRank : Int) (peerHost : String) :
    Meth transferIface (List (Tensor T)) TransferError Unit := do
  let staged ← Meth.lift (self.stage lib memory (← Meth.self) key peerRank peerHost)
  commit 0 staged

end TorchDistTransfer

end LmResiliency.Checkpointing.Transfer
