/-
# Raising — code that changes a state, and returns or raises

What such code has assigned when it raises stays assigned, and a handler goes on from
there.  `Ensures` is what a piece of code ensures from one state: something of what it
returns and the state then, something else of what it raises and the state then.
-/
import LmResiliency.Lib.Prog
import Mathlib.Order.Defs.Unbundled

namespace LmResiliency

/-- Code over a state `ω`. -/
def Act (ω ε α : Type) : Type := ω → Except ε α × ω

namespace Act

variable {ω ε α β : Type}

instance : Monad (Act ω ε) where
  pure a := fun w => (.ok a, w)
  bind m f := fun w =>
    match m w with
    | (.ok a, w') => f a w'
    | (.error e, w') => (.error e, w')

def raise (e : ε) : Act ω ε α := fun w => (.error e, w)

/-- The state. -/
def self : Act ω ε ω := fun w => (.ok w, w)

/-- Assign to the state. -/
def assign (f : ω → ω) : Act ω ε Unit := fun w => (.ok (), f w)

/-- Return what was returned elsewhere, or raise what was raised there. -/
def ofExcept (r : Except ε α) : Act ω ε α := fun w => (r, w)

/-- `try: m  except: h` (the handler sees every exception). -/
def tryCatch (m : Act ω ε α) (h : ε → Act ω ε α) : Act ω ε α := fun w =>
  match m w with
  | (.ok a, w') => (.ok a, w')
  | (.error e, w') => h e w'

/-- `m`, with what it raises as a value. -/
def attempt (m : Act ω ε α) : Act ω ε (Except ε α) := fun w => (.ok (m w).1, (m w).2)

/-- `for x in xs: f(x)`. -/
def forEach (f : β → Act ω ε Unit) : List β → Act ω ε Unit
  | [] => pure ()
  | x :: xs => do
      f x
      forEach f xs

/-- What is raised first. -/
def earlier : Except ε Unit → Option ε → Option ε
  | .ok _, later => later
  | .error e, _ => some e

/-- `for x in xs: f(x)`, where nothing that is raised ends the loop: the first of it is kept. -/
def firstError (f : β → Act ω ε Unit) : List β → Act ω ε (Option ε)
  | [] => pure none
  | x :: xs => do
      let outcome ← attempt (f x)
      let later ← firstError f xs
      pure (earlier outcome later)

/-! ## What code ensures -/

/-- What `m` ensures from `w`: `R` of what it returns, `E` of what it raises. -/
def Ensures (m : Act ω ε α) (R : α → ω → Prop) (E : ε → ω → Prop) (w : ω) : Prop :=
  match m w with
  | (.ok a, w') => R a w'
  | (.error e, w') => E e w'

variable {m : Act ω ε α} {R R' : α → ω → Prop} {E E' : ε → ω → Prop} {w : ω}

theorem Ensures.mono (h : m.Ensures R E w) (hR : ∀ a w, R a w → R' a w)
    (hE : ∀ e w, E e w → E' e w) : m.Ensures R' E' w := by
  unfold Ensures at h ⊢
  split at h
  · exact hR _ _ h
  · exact hE _ _ h

/-- What is ensured of the end of some code, whichever way it ends. -/
theorem Ensures.end_iff {P : ω → Prop} :
    m.Ensures (fun _ => P) (fun _ => P) w ↔ P (m w).2 := by
  unfold Ensures
  rcases m w with ⟨_ | _, _⟩ <;> exact Iff.rfl

theorem Ensures.and (h : m.Ensures R E w) (h' : m.Ensures R' E' w) :
    m.Ensures (fun a w => R a w ∧ R' a w) (fun e w => E e w ∧ E' e w) w := by
  unfold Ensures at h h' ⊢
  split at h <;> rename_i hm <;> rw [hm] at h' <;> exact ⟨h, h'⟩

@[simp] theorem ensures_pure (a : α) :
    (pure a : Act ω ε α).Ensures R E w ↔ R a w := Iff.rfl

@[simp] theorem ensures_raise (e : ε) :
    (raise e : Act ω ε α).Ensures R E w ↔ E e w := Iff.rfl

@[simp] theorem ensures_self {R : ω → ω → Prop} :
    (self : Act ω ε ω).Ensures R E w ↔ R w w := Iff.rfl

@[simp] theorem ensures_assign (f : ω → ω) {R : Unit → ω → Prop} :
    (assign f : Act ω ε Unit).Ensures R E w ↔ R () (f w) := Iff.rfl

@[simp] theorem ensures_bind {f : α → Act ω ε β} {R : β → ω → Prop} :
    (m >>= f).Ensures R E w ↔ m.Ensures (fun a w => (f a).Ensures R E w) E w := by
  show (match (match m w with
    | (.ok a, w') => f a w'
    | (.error e, w') => (.error e, w')) with
    | (.ok a, w') => R a w'
    | (.error e, w') => E e w') ↔ _
  unfold Ensures
  rcases m w with ⟨_ | _, _⟩ <;> exact Iff.rfl

@[simp] theorem ensures_tryCatch {h : ε → Act ω ε α} : (m.tryCatch h).Ensures R E w ↔
    m.Ensures R (fun e w => (h e).Ensures R E w) w := by
  unfold Ensures tryCatch
  rcases m w with ⟨_ | _, _⟩ <;> exact Iff.rfl

@[simp] theorem ensures_attempt {R : Except ε α → ω → Prop} : m.attempt.Ensures R E w ↔
    m.Ensures (fun a w => R (.ok a) w) (fun e w => R (.error e) w) w := by
  unfold Ensures attempt
  rcases m w with ⟨_ | _, _⟩ <;> exact Iff.rfl

theorem ensures_forEach {f : β → Act ω ε Unit} {P : ω → Prop} {xs : List β}
    (hf : ∀ x ∈ xs, ∀ w, P w → (f x).Ensures (fun _ => P) E w) (hP : P w) :
    (forEach f xs).Ensures (fun _ => P) E w := by
  induction xs generalizing w with
  | nil => exact hP
  | cons x xs ih =>
      rw [forEach, ensures_bind]
      refine (hf x List.mem_cons_self w hP).mono (fun _ w hw => ?_) fun _ _ h => h
      exact ih (fun y hy => hf y (List.mem_cons_of_mem x hy)) hw

/-- A loop that goes on over what is raised, with an invariant of the turns that are left. -/
theorem ensures_firstError {f : β → Act ω ε Unit} (P : List β → ω → Prop) {xs : List β}
    (hf : ∀ x xs w, P (x :: xs) w → (f x).Ensures (fun _ => P xs) (fun _ => P xs) w)
    (hP : P xs w) : (firstError f xs).Ensures (fun _ => P []) E w := by
  induction xs generalizing w with
  | nil => exact hP
  | cons x xs ih =>
      rw [firstError, ensures_bind, ensures_attempt]
      refine (hf x xs w hP).mono (fun _ w hw => ?_) fun _ w hw => ?_ <;>
      · rw [ensures_bind]
        exact (ih hw).mono (fun _ _ h => h) fun _ _ h => h

/-! ## Where code moves the state -/

/-- **`m` moves the state along a preorder**, whichever way it ends. -/
def Moves (le : ω → ω → Prop) (m : Act ω ε α) : Prop := ∀ w, le w (m w).2

namespace Moves

variable {le : ω → ω → Prop} {m : Act ω ε α}

theorem ensures (h : m.Moves le) (w : ω) : m.Ensures (fun _ => le w) (fun _ => le w) w :=
  Ensures.end_iff.mpr (h w)

theorem assign {f : ω → ω} (h : ∀ w, le w (f w)) : (assign f : Act ω ε Unit).Moves le := h

theorem attempt (h : m.Moves le) : m.attempt.Moves le := h

theorem ite {c : Prop} [Decidable c] {m' : Act ω ε α} (h : m.Moves le) (h' : m'.Moves le) :
    (if c then m else m').Moves le := by
  split
  · exact h
  · exact h'

variable [IsPreorder ω le]

theorem pure (a : α) : (pure a : Act ω ε α).Moves le := fun w => refl_of le w

theorem raise (e : ε) : (raise e : Act ω ε α).Moves le := fun w => refl_of le w

theorem self : (self : Act ω ε ω).Moves le := fun w => refl_of le w

theorem ofExcept (r : Except ε α) : (ofExcept r : Act ω ε α).Moves le := fun w => refl_of le w

theorem bind {f : α → Act ω ε β} (h : m.Moves le) (hf : ∀ a, (f a).Moves le) :
    (m >>= f).Moves le := by
  intro w
  refine Ensures.end_iff.mp (ensures_bind.mpr ?_)
  refine (h.ensures w).mono (fun a w' hw => ?_) fun _ _ hw => hw
  exact ((hf a).ensures w').mono (fun _ _ hw' => trans_of le hw hw')
    fun _ _ hw' => trans_of le hw hw'

theorem tryCatch {f : ε → Act ω ε α} (h : m.Moves le) (hf : ∀ e, (f e).Moves le) :
    (m.tryCatch f).Moves le := by
  intro w
  refine Ensures.end_iff.mp (ensures_tryCatch.mpr ?_)
  refine (h.ensures w).mono (fun _ _ hw => hw) fun e w' hw => ?_
  exact ((hf e).ensures w').mono (fun _ _ hw' => trans_of le hw hw')
    fun _ _ hw' => trans_of le hw hw'

theorem forEach {f : β → Act ω ε Unit} (h : ∀ x, (f x).Moves le) (xs : List β) :
    (forEach f xs).Moves le := by
  induction xs with
  | nil => exact .pure ()
  | cons x xs ih => exact .bind (h x) fun _ => ih

theorem firstError {f : β → Act ω ε Unit} (h : ∀ x, (f x).Moves le) (xs : List β) :
    (firstError f xs).Moves le := by
  induction xs with
  | nil => exact .pure none
  | cons x xs ih => exact .bind (attempt (h x)) fun _ => .bind ih fun _ => .pure _

end Moves

end Act

/-! ## Code that calls operations -/

namespace Prog

variable {I : Iface} {ε ε' α β : Type} (allowed : (o : I.Op) → I.Res o → Prop)

/-- **What a program ensures**, whatever the operations return of what they may return. -/
def Ensures (R : α → Prop) (E : ε → Prop) : Prog I ε α → Prop
  | ret a => R a
  | raise e => E e
  | halt => True
  | call o k => ∀ r, allowed o r → Ensures R E (k r)

/-- A program finishes, with what the operations may return. -/
inductive Finishes : Prog I ε α → Except ε α → Prop where
  | ret (a : α) : Finishes (.ret a) (.ok a)
  | raise (e : ε) : Finishes (.raise e) (.error e)
  | call {o : I.Op} {k : I.Res o → Prog I ε α} {x : Except ε α} (r : I.Res o)
      (hr : allowed o r) (h : Finishes (k r) x) : Finishes (.call o k) x

variable {allowed} {R R' : α → Prop} {E E' : ε → Prop}

theorem Ensures.finishes {p : Prog I ε α} (h : p.Ensures allowed R E) {x : Except ε α}
    (hx : Finishes allowed p x) : (∀ a, x = .ok a → R a) ∧ ∀ e, x = .error e → E e := by
  induction hx with
  | ret a => exact ⟨fun _ ha => Except.ok.inj ha ▸ h, nofun⟩
  | raise e => exact ⟨nofun, fun _ he => Except.error.inj he ▸ h⟩
  | call r hr _ ih => exact ih (h r hr)

theorem Ensures.mono {p : Prog I ε α} (h : p.Ensures allowed R E) (hR : ∀ a, R a → R' a)
    (hE : ∀ e, E e → E' e) : p.Ensures allowed R' E' := by
  induction p with
  | ret a => exact hR a h
  | raise e => exact hE e h
  | halt => trivial
  | call o k ih => exact fun r hr => ih r (h r hr)

theorem Ensures.bind {p : Prog I ε α} {f : α → Prog I ε β} {R : β → Prop}
    (h : p.Ensures allowed (fun a => (f a).Ensures allowed R E) E) :
    (p >>= f).Ensures allowed R E := by
  induction p with
  | ret a => exact h
  | raise e => exact h
  | halt => trivial
  | call o k ih => exact fun r hr => ih r (h r hr)

theorem Ensures.tryCatch {p : Prog I ε α} {f : ε → Prog I ε' α} {E : ε' → Prop}
    (h : p.Ensures allowed R fun e => (f e).Ensures allowed R E) :
    (p.tryCatch f).Ensures allowed R E := by
  induction p with
  | ret a => exact h
  | raise e => exact h
  | halt => trivial
  | call o k ih => exact fun r hr => ih r (h r hr)

end Prog

namespace Meth

variable {I : Iface} {ω ε α β : Type} (allowed : (o : I.Op) → I.Res o → Prop)

/-- **What a method ensures** from `w`, whatever the operations return of what they may return. -/
def Ensures (m : Meth I ω ε α) (R : α → ω → Prop) (E : ε → ω → Prop) (w : ω) : Prop :=
  (m w).Ensures allowed (fun x => R x.1 x.2) fun x => E x.1 x.2

variable {allowed} {m : Meth I ω ε α} {R R' : α → ω → Prop} {E E' : ε → ω → Prop} {w : ω}

theorem Ensures.mono (h : m.Ensures allowed R E w) (hR : ∀ a w, R a w → R' a w)
    (hE : ∀ e w, E e w → E' e w) : m.Ensures allowed R' E' w :=
  Prog.Ensures.mono h (fun x => hR x.1 x.2) fun x => hE x.1 x.2

theorem Ensures.pure {a : α} (h : R a w) : (pure a : Meth I ω ε α).Ensures allowed R E w := h

theorem Ensures.raise {e : ε} (h : E e w) : (raise e : Meth I ω ε α).Ensures allowed R E w := h

theorem Ensures.self {R : ω → ω → Prop} (h : R w w) :
    (self : Meth I ω ε ω).Ensures allowed R E w := h

theorem Ensures.bind {f : α → Meth I ω ε β} {R : β → ω → Prop}
    (h : m.Ensures allowed (fun a w => (f a).Ensures allowed R E w) E w) :
    (m >>= f).Ensures allowed R E w :=
  Prog.Ensures.bind h

theorem Ensures.tryCatch {f : ε → Meth I ω ε α}
    (h : m.Ensures allowed R (fun e w => (f e).Ensures allowed R E w) w) :
    (m.tryCatch f).Ensures allowed R E w :=
  Prog.Ensures.tryCatch h

theorem Ensures.act {f : Act ω ε α} (h : f.Ensures R E w) :
    (act f : Meth I ω ε α).Ensures allowed R E w := by
  show Prog.Ensures allowed _ _ (match f w with
    | (.ok a, w') => Prog.ret (a, w')
    | (.error e, w') => .raise (e, w'))
  unfold Act.Ensures at h
  revert h
  rcases f w with ⟨_ | _, _⟩ <;> exact id

end Meth

end LmResiliency
