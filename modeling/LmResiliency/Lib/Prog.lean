/-
# Prog — programs over operations

A program is a tree of calls of operations, each with a continuation for its
result.  What the operations do is left to whoever runs it: a shared store
that others use too, or a group of programs that call them together.
-/
import Mathlib.Logic.Function.Basic

namespace LmResiliency

/-- The operations and the type of each one's result. -/
structure Iface where
  Op : Type
  Res : Op → Type

/-- A program.  `halt` is one that stops for ever. -/
inductive Prog (I : Iface) (ε α : Type) : Type where
  | ret (a : α)
  | raise (e : ε)
  | halt
  | call (o : I.Op) (k : I.Res o → Prog I ε α)

namespace Prog

variable {I : Iface} {ε ε' α β : Type}

protected def bind : Prog I ε α → (α → Prog I ε β) → Prog I ε β
  | ret a, f => f a
  | raise e, _ => raise e
  | halt, _ => halt
  | call o k, f => call o fun r => (k r).bind f

instance : Monad (Prog I ε) where
  pure := ret
  bind := Prog.bind

/-- `try: p  except: h` (the handler sees every exception). -/
def tryCatch : Prog I ε α → (ε → Prog I ε' α) → Prog I ε' α
  | ret a, _ => ret a
  | raise e, h => h e
  | halt, _ => halt
  | call o k, h => call o fun r => (k r).tryCatch h

/-- One operation. -/
def op (o : I.Op) : Prog I ε (I.Res o) := call o ret

@[simp] theorem pure_eq (a : α) : (pure a : Prog I ε α) = ret a := rfl

@[simp] theorem ret_bind (a : α) (f : α → Prog I ε β) : ret a >>= f = f a := rfl

@[simp] theorem raise_bind (e : ε) (f : α → Prog I ε β) : raise e >>= f = raise e := rfl

@[simp] theorem halt_bind (f : α → Prog I ε β) : (halt : Prog I ε α) >>= f = halt := rfl

@[simp] theorem call_bind (o : I.Op) (k : I.Res o → Prog I ε α) (f : α → Prog I ε β) :
    call o k >>= f = call o fun r => k r >>= f := rfl

@[simp] theorem op_bind (o : I.Op) (f : I.Res o → Prog I ε β) : op o >>= f = call o f := rfl

instance : LawfulMonad (Prog I ε) := LawfulMonad.mk' (Prog I ε)
  (fun p => by
    induction p with
    | ret a => rfl
    | raise e => rfl
    | halt => rfl
    | call o k ih => exact congrArg (call o) (funext ih))
  (fun _ _ => rfl)
  (fun p f g => by
    induction p with
    | ret a => rfl
    | raise e => rfl
    | halt => rfl
    | call o k ih => exact congrArg (call o) (funext ih))

/-- Every operation that is called is one of these. -/
def Only (P : I.Op → Prop) : Prog I ε α → Prop
  | ret _ | raise _ | halt => True
  | call o k => P o ∧ ∀ r, (k r).Only P

theorem Only.bind {P : I.Op → Prop} {p : Prog I ε α} {f : α → Prog I ε β} (hp : p.Only P)
    (hf : ∀ a, (f a).Only P) : (p >>= f).Only P := by
  induction p with
  | ret a => exact hf a
  | raise e => trivial
  | halt => trivial
  | call o k ih => exact ⟨hp.1, fun r => ih r (hp.2 r)⟩

theorem Only.tryCatch {P : I.Op → Prop} {p : Prog I ε α} {h : ε → Prog I ε' α} (hp : p.Only P)
    (hh : ∀ e, (h e).Only P) : (p.tryCatch h).Only P := by
  induction p with
  | ret a => trivial
  | raise e => exact hh e
  | halt => trivial
  | call o k ih => exact ⟨hp.1, fun r => ih r (hp.2 r)⟩

end Prog

/-- A method of an object with attributes `ω`: what it has assigned when it
raises stays assigned. -/
def Meth (I : Iface) (ω ε α : Type) : Type := ω → Prog I (ε × ω) (α × ω)

namespace Meth

variable {I : Iface} {ω ε α β : Type}

instance : Monad (Meth I ω ε) where
  pure a := fun w => .ret (a, w)
  bind m f := fun w => m w >>= fun x => f x.1 x.2

/-- Code that neither reads nor assigns an attribute. -/
def lift (p : Prog I ε α) : Meth I ω ε α := fun w =>
  (p.tryCatch fun e => .raise (e, w)) >>= fun a => .ret (a, w)

theorem only_lift {P : I.Op → Prop} {p : Prog I ε α} (hp : p.Only P) (w : ω) :
    (lift p w).Only P := by
  refine Prog.Only.bind (hp.tryCatch fun e => ?_) fun a => ?_
  · trivial
  · trivial

def raise (e : ε) : Meth I ω ε α := fun w => .raise (e, w)

def halt : Meth I ω ε α := fun _ => .halt

/-- The attributes. -/
def self : Meth I ω ε ω := fun w => .ret (w, w)

/-- Assign to the attributes. -/
def assign (f : ω → ω) : Meth I ω ε Unit := fun w => .ret ((), f w)

/-- `try: m  except: h`. -/
def tryCatch (m : Meth I ω ε α) (h : ε → Meth I ω ε α) : Meth I ω ε α := fun w =>
  (m w).tryCatch fun x => h x.1 x.2

/-- Code that calls no operation. -/
def act (f : ω → Except ε α × ω) : Meth I ω ε α := fun w =>
  match f w with
  | (.ok a, w') => .ret (a, w')
  | (.error e, w') => .raise (e, w')

/-- A method of a part of the attributes. -/
def zoom {ω' : Type} (get : ω → ω') (set : ω' → ω → ω) (m : Meth I ω' ε α) : Meth I ω ε α :=
  fun w => ((m (get w)).tryCatch fun x => .raise (x.1, set x.2 w)) >>= fun x =>
    .ret (x.1, set x.2 w)

end Meth

end LmResiliency
