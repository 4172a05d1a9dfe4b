/-
# Store — the shared key-value store and what one process asks of it

The c10d store of one run, key by key, with the operations the runtime
uses; `exec` is what one atomic operation returns and leaves behind.
`compare_set` is the server's: a missing key is set when the expected value
is empty and otherwise answers with the expected value, a present key is
set when it holds the expected value, and the answer is what it holds then.

A key is named by its parts.  The prefix of the run is left out (one run,
one store), and a part that the source hashes is the digest it hashes to.
Everything ever written is ASCII text, so values are `String`.

Operations that ask the process's own environment (the clocks, the closed
flag, files, the worker bootstrap) may answer anything.
-/
import LmResiliency.Lib.Interleave
import LmResiliency.Torchrun.Context
import Mathlib.Data.Rat.Defs

namespace LmResiliency.Torchrun

open Interleave

/-- The keys of one run. -/
inductive Key where
  | generation
  | registrations
  | initialNodes
  | maxNodes
  | plan (generation : Int)
  | lease (generation : Int) (planDigest : String)
  | leaseSequence (generation : Int) (planDigest : String)
  | ready (generation : Int) (nodeDigest : String)
  | heartbeat (nodeDigest : String)
  | closed
  | bootstrap (generation : Int) (name : String)
  deriving DecidableEq

/-- The store: a missing key holds nothing. -/
abbrev Store : Type := Key → Option String

namespace Store

def empty : Store := fun _ => none

def put (s : Store) (k : Key) (v : String) : Store := Function.update s k (some v)

@[simp] theorem put_self (s : Store) (k : Key) (v : String) : s.put k v k = some v :=
  Function.update_self ..

theorem put_of_ne {k k' : Key} (h : k' ≠ k) (s : Store) (v : String) :
    s.put k v k' = s k' := Function.update_of_ne h ..

/-- `compare_set`: the answer and the store after it. -/
def compareSet (s : Store) (k : Key) (expected desired : String) : String × Store :=
  match s k with
  | none => if expected = "" then (desired, s.put k desired) else (expected, s)
  | some v => if v = expected then (desired, s.put k desired) else (v, s)

theorem compareSet_missing {s : Store} {k : Key} (h : s k = none) (desired : String) :
    s.compareSet k "" desired = (desired, s.put k desired) := by
  rw [compareSet, h]
  exact if_pos rfl

/-- The first one to set a key, or one that sets it to what it has. -/
theorem compareSet_first {s : Store} {k : Key} {desired : String}
    (h : s k = none ∨ s k = some desired) :
    s.compareSet k "" desired = (desired, s.put k desired) := by
  rcases h with h | h
  · exact compareSet_missing h desired
  · have hsame : s.put k desired = s := by rw [put, ← h, Function.update_eq_self]
    rw [compareSet, h, hsame]
    exact ite_self _

/-- The counter behind `add`. -/
def counter (s : Store) (k : Key) : Int := ((s k).bind Text.int?).getD 0

end Store

/-- The exceptions of the runtime, with the texts that tell them apart. -/
inductive Raised where
  | typeError (message : String)
  | valueError (message : String)
  | validation (error : ProtocolValidationError)
  /-- `RecoveryPlanConflict` -/
  | planConflict (message : String)
  /-- `RecoveryPlanCorrupt` -/
  | planCorrupt (message : String)
  /-- `SimpleRuntimeError` -/
  | simpleRuntime (message : String)
  | runtimeError (message : String)
  /-- a blocking `get` gave up -/
  | storeTimeout
  | osError
  | assertionError
  | systemExit
  | rendezvousClosed
  | rendezvousTimeout (message : String)
  | rendezvousState (message : String)
  | rendezvousConnection (message : String)

/-- What `RendezvousStoreInfo.build` returns. -/
structure BootstrapInfo where
  masterAddr : String
  masterPort : Int

inductive Op where
  | get (k : Key)
  | check (ks : List Key)
  | compareSet (k : Key) (expected desired : String)
  | set (k : Key) (v : String)
  | append (k : Key) (v : String)
  | add (k : Key) (amount : Int)
  /-- `self._monotonic_clock()`, `time.monotonic()` -/
  | clock
  /-- `time.time_ns() // 1_000_000` -/
  | unixMs
  /-- `self._closed.is_set()` -/
  | closedFlag
  /-- `self._closed.wait(seconds)` -/
  | wait
  /-- `self._heartbeat_error is not None` -/
  | heartbeatError
  /-- `self._lease_error is not None` -/
  | leaseError
  /-- `self._context.clear()` -/
  | clearContext
  /-- `self._context.write(context)` -/
  | writeContext (context : RestartContext)
  /-- `RendezvousStoreInfo.build(slot, store, addr)` on the store of a generation -/
  | bootstrap (generation : Int) (slot : Int)

def Op.Res : Op → Type
  | .get _ => Option String
  | .check _ => Bool
  | .compareSet _ _ _ => String
  | .set _ _ => Unit
  | .append _ _ => Unit
  | .add _ _ => Int
  | .clock => ℚ
  | .unixMs => Int
  | .closedFlag => Bool
  | .wait => Unit
  | .heartbeatError => Bool
  | .leaseError => Bool
  | .clearContext => Except Raised Unit
  | .writeContext _ => Except Raised Unit
  | .bootstrap _ _ => Except Raised BootstrapInfo

/-- The operations of a process. -/
abbrev iface : Iface := ⟨Op, Op.Res⟩

/-- One atomic operation: `exec s o r s'` when `o` on `s` may answer `r` and
leave `s'`.  A `get` that answers nothing is one that timed out. -/
def exec (s : Store) : (o : Op) → o.Res → Store → Prop
  | .get k, r, s' => s' = s ∧ r = s k
  | .check ks, r, s' => s' = s ∧ r = ks.all fun k => (s k).isSome
  | .compareSet k e d, r, s' => r = (s.compareSet k e d).1 ∧ s' = (s.compareSet k e d).2
  | .set k v, _, s' => s' = s.put k v
  | .append k v, _, s' => s' = s.put k ((s k).getD "" ++ v)
  | .add k n, r, s' => r = s.counter k + n ∧ s' = s.put k (Text.str (s.counter k + n))
  | .bootstrap g _, _, s' => ∀ k, (∀ name, k ≠ .bootstrap g name) → s' k = s k
  | .clock, _, s' => s' = s
  | .unixMs, _, s' => s' = s
  | .closedFlag, _, s' => s' = s
  | .wait, _, s' => s' = s
  | .heartbeatError, _, s' => s' = s
  | .leaseError, _, s' => s' = s
  | .clearContext, _, s' => s' = s
  | .writeContext _, _, s' => s' = s

/-- A program of the runtime. -/
abbrev StoreM (α : Type) : Type := Prog iface Raised α

def perform (o : Op) : StoreM o.Res := Prog.call (I := iface) o Prog.ret

/-- A result that needs no operation. -/
def ofExcept {α : Type} : Except Raised α → StoreM α
  | .ok a => .ret a
  | .error e => .raise e

def raise {α : Type} (e : Raised) : StoreM α := .raise e

def check (ks : List Key) : StoreM Bool := perform (.check ks)

def compareSet (k : Key) (expected desired : String) : StoreM String :=
  perform (.compareSet k expected desired)

def set (k : Key) (v : String) : StoreM Unit := perform (.set k v)

def append (k : Key) (v : String) : StoreM Unit := perform (.append k v)

def add (k : Key) (amount : Int) : StoreM Int := perform (.add k amount)

/-- `store.get(key)`, which blocks until the key is there or gives up. -/
def get (k : Key) : StoreM String := do
  let v ← (perform (.get k) : StoreM (Option String))
  match v with
  | some v => pure v
  | none => raise .storeTimeout

end LmResiliency.Torchrun
