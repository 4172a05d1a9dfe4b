/-
# Lockstep — a group of programs that call collective operations

Every member of a group runs a program of its own.  A collective operation
returns when every member has called it, and what it returns is computed
from what all of them passed.  A group in which one member has ended, or
calls an operation of another kind, while another one waits is stuck.

`Runs comb ps n as` says that the group never gets stuck: the programs
`ps` call `n` operations each, every one of them together, and then they end
as `as`.
-/
import LmResiliency.Lib.Prog

namespace LmResiliency.Lockstep

/-- The kinds of collective operations, with what is passed and returned. -/
structure Collective where
  Kind : Type
  Val : Kind → Type
  Res : Kind → Type

/-- The operations of one member. -/
abbrev Collective.iface (C : Collective) : Iface := ⟨(k : C.Kind) × C.Val k, fun o => C.Res o.1⟩

/-- How a program ends. -/
def Ends {I : Iface} {ε α : Type} (p : Prog I ε α) : Except ε α → Prop
  | .ok a => p = .ret a
  | .error e => p = .raise e

variable {C : Collective} {ι ε α β : Type} (comb : (k : C.Kind) → (ι → C.Val k) → C.Res k)

/-- The group runs in lockstep and ends. -/
inductive Runs : (ι → Prog C.iface ε α) → Nat → (ι → Except ε α) → Prop where
  | done {ps : ι → Prog C.iface ε α} {as : ι → Except ε α} (h : ∀ i, Ends (ps i) (as i)) :
      Runs ps 0 as
  | sync {ps : ι → Prog C.iface ε α} {n : Nat} {as : ι → Except ε α} (k : C.Kind)
      (vs : ι → C.Val k) (next : ι → C.Res k → Prog C.iface ε α)
      (hps : ∀ i, ps i = .call ⟨k, vs i⟩ (next i))
      (h : Runs (fun i => next i (comb k vs)) n as) : Runs ps (n + 1) as

variable {comb}

theorem Ends.unique {I : Iface} {p : Prog I ε α} {a b : Except ε α} (ha : Ends p a)
    (hb : Ends p b) : a = b := by
  cases a with
  | ok a =>
      obtain rfl : p = .ret a := ha
      cases b with
      | ok b => cases (show Prog.ret a = .ret b from hb); rfl
      | error e => cases (show Prog.ret a = .raise e from hb)
  | error e =>
      obtain rfl : p = .raise e := ha
      cases b with
      | ok b => cases (show Prog.raise e = .ret b from hb)
      | error e' => cases (show Prog.raise e = .raise e' from hb); rfl

theorem Ends.not_call {I : Iface} {o : I.Op} {next : I.Res o → Prog I ε α} {a : Except ε α} :
    ¬ Ends (Prog.call o next) a := by
  intro h
  cases a with
  | ok a => cases (show Prog.call o next = .ret a from h)
  | error e => cases (show Prog.call o next = .raise e from h)

/-- A program that calls nothing, and what follows it. -/
theorem Ends.exists_bind {I : Iface} {p : Prog I ε α} {f : α → Prog I ε β}
    (h : ∃ a, Ends p a) (h' : ∀ a, ∃ b, Ends (f a) b) : ∃ b, Ends (p >>= f) b := by
  obtain ⟨a, ha⟩ := h
  cases a with
  | ok a =>
      obtain ⟨b, hb⟩ := h' a
      rw [show p = .ret a from ha]
      exact ⟨b, hb⟩
  | error e =>
      rw [show p = .raise e from ha]
      exact ⟨.error e, rfl⟩

/-- Members that call alike call the same operation. -/
theorem call_inj {k k' : C.Kind} {vs : ι → C.Val k} {vs' : ι → C.Val k'}
    {next : ι → C.Res k → Prog C.iface ε α} {next' : ι → C.Res k' → Prog C.iface ε α}
    (hne : Nonempty ι)
    (h : ∀ i, Prog.call (I := C.iface) ⟨k, vs i⟩ (next i) = .call ⟨k', vs' i⟩ (next' i)) :
    ∃ hk : k = k', hk ▸ vs = vs' ∧ hk ▸ next = next' := by
  obtain ⟨i₀⟩ := hne
  obtain rfl : k = k' := by
    have h₀ := h i₀
    simp only [Prog.call.injEq] at h₀
    exact congrArg Sigma.fst h₀.1
  refine ⟨rfl, funext fun i => ?_, funext fun i => ?_⟩
  · have hi := h i
    simp only [Prog.call.injEq, Sigma.mk.injEq, heq_eq_eq, true_and] at hi
    exact hi.1
  · have hi := h i
    simp only [Prog.call.injEq, Sigma.mk.injEq, heq_eq_eq, true_and] at hi
    exact eq_of_heq (by simpa using hi.2)

/-- A group ends in one way, after one number of operations. -/
theorem Runs.unique [Nonempty ι] {ps : ι → Prog C.iface ε α} {n m : Nat}
    {as bs : ι → Except ε α} (h : Runs comb ps n as) (h' : Runs comb ps m bs) :
    n = m ∧ as = bs := by
  obtain ⟨i₀⟩ := ‹Nonempty ι›
  induction h generalizing m bs with
  | done h =>
      cases h' with
      | done h' => exact ⟨rfl, funext fun i => (h i).unique (h' i)⟩
      | sync k vs next hps _ =>
          have hend := h i₀
          rw [hps i₀] at hend
          exact absurd hend Ends.not_call
  | sync k vs next hps _ ih =>
      cases h' with
      | done h' =>
          have hend := h' i₀
          rw [hps i₀] at hend
          exact absurd hend Ends.not_call
      | sync k' vs' next' hps' h' =>
          obtain ⟨rfl, rfl, rfl⟩ := call_inj ⟨i₀⟩ fun i => (hps i).symm.trans (hps' i)
          obtain ⟨hn, has⟩ := ih h'
          exact ⟨congrArg (· + 1) hn, has⟩

theorem Runs.of_call [Nonempty ι] {k : C.Kind} {vs : ι → C.Val k}
    {next : ι → C.Res k → Prog C.iface ε α} {n : Nat} {as : ι → Except ε α}
    (h : Runs comb (fun i => .call ⟨k, vs i⟩ (next i)) n as) :
    ∃ m, n = m + 1 ∧ Runs comb (fun i => next i (comb k vs)) m as := by
  obtain ⟨i₀⟩ := ‹Nonempty ι›
  cases h with
  | done h => exact absurd (h i₀) Ends.not_call
  | @sync _ m _ k' vs' next' hps h =>
      obtain ⟨rfl, rfl, rfl⟩ := call_inj ⟨i₀⟩ hps
      exact ⟨m, rfl, h⟩

theorem Runs.not_split {ps : ι → Prog C.iface ε α} {n : Nat} {as : ι → Except ε α}
    (h : Runs comb ps n as) {i j : ι} {a : Except ε α} (hi : Ends (ps i) a)
    {o : C.iface.Op} {next : C.iface.Res o → Prog C.iface ε α} (hj : ps j = .call o next) :
    False := by
  cases h with
  | done h =>
      have hend := h j
      rw [hj] at hend
      exact Ends.not_call hend
  | sync k vs next' hps _ =>
      rw [hps i] at hi
      exact Ends.not_call hi

theorem Runs.ret {as : ι → α} :
    Runs (ε := ε) comb (fun i => .ret (as i)) 0 fun i => .ok (as i) :=
  .done fun _ => rfl

theorem Runs.call {k : C.Kind} {vs : ι → C.Val k}
    {next : ι → C.Res k → Prog C.iface ε α} {n : Nat} {as : ι → Except ε α}
    (h : Runs comb (fun i => next i (comb k vs)) n as) :
    Runs comb (fun i => .call ⟨k, vs i⟩ (next i)) (n + 1) as :=
  .sync k vs next (fun _ => rfl) h

/-- What follows the end of a program: it is called where the program ends,
and leaves the operations as they are. -/
def Follows {I : Iface} {ε' : Type} (F : Prog I ε α → Prog I ε' β) : Prop :=
  ∀ o next, F (.call o next) = .call o fun r => F (next r)

theorem Follows.bind {I : Iface} (f : α → Prog I ε β) : Follows fun p => p >>= f :=
  fun _ _ => rfl

theorem Follows.tryCatch {I : Iface} {ε' : Type} (f : ε → Prog I ε' α) :
    Follows fun p => p.tryCatch f := fun _ _ => rfl

/-- One part of every program, and what follows it. -/
theorem Runs.follow {ε' : Type} {F : ι → Prog C.iface ε α → Prog C.iface ε' β}
    (hF : ∀ i, Follows (F i)) {ps : ι → Prog C.iface ε α} {n m : Nat}
    {as : ι → Except ε α} {bs : ι → Except ε' β} (h : Runs comb ps n as)
    (h' : ∀ qs : ι → Prog C.iface ε α, (∀ i, Ends (qs i) (as i)) →
      Runs comb (fun i => F i (qs i)) m bs) :
    Runs comb (fun i => F i (ps i)) (n + m) bs := by
  induction h with
  | done h =>
      rw [Nat.zero_add]
      exact h' _ h
  | @sync ps' n as k vs next hps _ ih =>
      have hcall : (fun i => F i (ps' i)) = fun i => .call ⟨k, vs i⟩ fun r => F i (next i r) := by
        funext i
        rw [hps i, hF i]
      rw [hcall, Nat.add_right_comm]
      exact .call (ih h')

theorem Runs.bind {ps : ι → Prog C.iface ε α} {f : ι → α → Prog C.iface ε β} {n m : Nat}
    {as : ι → α} {bs : ι → Except ε β} (h : Runs comb ps n fun i => .ok (as i))
    (h' : Runs comb (fun i => f i (as i)) m bs) :
    Runs comb (fun i => ps i >>= f i) (n + m) bs := by
  refine h.follow (fun i => .bind (f i)) fun qs hqs => ?_
  have hret : (fun i => qs i >>= f i) = fun i => f i (as i) := by
    funext i
    rw [show qs i = .ret (as i) from hqs i]
    rfl
  rw [hret]
  exact h'

theorem Runs.bind_error {ps : ι → Prog C.iface ε α} {f : ι → α → Prog C.iface ε β} {n : Nat}
    {es : ι → ε} (h : Runs comb ps n fun i => .error (es i)) :
    Runs comb (fun i => ps i >>= f i) n fun i => .error (es i) := by
  refine h.follow (m := 0) (fun i => .bind (f i)) fun qs hqs => .done fun i => ?_
  rw [show qs i = .raise (es i) from hqs i]
  rfl

theorem Runs.tryCatch {ε' : Type} {ps : ι → Prog C.iface ε α}
    {f : ι → ε → Prog C.iface ε' α} {n m : Nat} {es : ι → ε} {bs : ι → Except ε' α}
    (h : Runs comb ps n fun i => .error (es i)) (h' : Runs comb (fun i => f i (es i)) m bs) :
    Runs comb (fun i => (ps i).tryCatch (f i)) (n + m) bs := by
  refine h.follow (fun i => .tryCatch (f i)) fun qs hqs => ?_
  have hraise : (fun i => (qs i).tryCatch (f i)) = fun i => f i (es i) := by
    funext i
    rw [show qs i = .raise (es i) from hqs i]
    rfl
  rw [hraise]
  exact h'

theorem Runs.tryCatch_ok {ε' : Type} {ps : ι → Prog C.iface ε α}
    {f : ι → ε → Prog C.iface ε' α} {n : Nat} {as : ι → α}
    (h : Runs comb ps n fun i => .ok (as i)) :
    Runs comb (fun i => (ps i).tryCatch (f i)) n fun i => .ok (as i) := by
  refine h.follow (m := 0) (fun i => .tryCatch (f i)) fun qs hqs => .done fun i => ?_
  rw [show qs i = .ret (as i) from hqs i]
  rfl

/-! ## Members that leave

A member that raises leaves the group; a collective operation that another
one has called, or calls later, then fails on it. -/

/-- The operations of `C`; one that has failed returns `none`. -/
abbrev Collective.fallible (C : Collective) : Collective :=
  ⟨C.Kind, C.Val, fun k => Option (C.Res k)⟩

/-- What a collective operation returns while nobody has left. -/
def delivered (comb : (k : C.Kind) → (ι → C.Val k) → C.Res k) :
    (k : C.Kind) → (ι → C.Val k) → Option (C.Res k) := fun k vs => some (comb k vs)

/-- The rest of a program after a member has left. -/
def severed : Prog C.fallible.iface ε α → Option (Except ε α)
  | .ret a => some (.ok a)
  | .raise e => some (.error e)
  | .halt => none
  | .call _ next => severed (next none)

variable (comb) in
/-- A group that members may leave goes on to the end. -/
inductive Goes : (ι → Prog C.fallible.iface ε α) → (ι → Except ε α) → Prop where
  | done {ps : ι → Prog C.fallible.iface ε α} {as : ι → Except ε α}
      (h : ∀ i, Ends (ps i) (as i)) : Goes ps as
  | sync {ps : ι → Prog C.fallible.iface ε α} {as : ι → Except ε α} (k : C.Kind)
      (vs : ι → C.Val k) (next : ι → Option (C.Res k) → Prog C.fallible.iface ε α)
      (hps : ∀ i, ps i = .call ⟨k, vs i⟩ (next i))
      (h : Goes (fun i => next i (some (comb k vs))) as) : Goes ps as
  | left {ps : ι → Prog C.fallible.iface ε α} {as : ι → Except ε α} (i : ι) (e : ε)
      (hi : ps i = .raise e) (h : ∀ j, severed (ps j) = some (as j)) : Goes ps as

theorem Runs.goes {ps : ι → Prog C.fallible.iface ε α} {n : Nat} {as : ι → Except ε α}
    (h : Runs (delivered comb) ps n as) : Goes comb ps as := by
  induction h with
  | done h => exact .done h
  | sync k vs next hps _ ih => exact .sync k vs next hps ih

theorem Ends.severed {p : Prog C.fallible.iface ε α} {a : Except ε α} (h : Ends p a) :
    severed p = some a := by
  cases a with
  | ok a => rw [show p = .ret a from h]; rfl
  | error e => rw [show p = .raise e from h]; rfl

theorem severed_bind (p : Prog C.fallible.iface ε α) (f : α → Prog C.fallible.iface ε β) :
    severed (p >>= f) = match severed p with
      | none => none
      | some (.ok a) => severed (f a)
      | some (.error e) => some (.error e) := by
  induction p with
  | ret a => rfl
  | raise e => rfl
  | halt => rfl
  | call o next ih => exact ih none

theorem severed_tryCatch {ε' : Type} (p : Prog C.fallible.iface ε α)
    (f : ε → Prog C.fallible.iface ε' α) :
    severed (p.tryCatch f) = match severed p with
      | none => none
      | some (.ok a) => some (.ok a)
      | some (.error e) => severed (f e) := by
  induction p with
  | ret a => rfl
  | raise e => rfl
  | halt => rfl
  | call o next ih => exact ih none

/-- A group that members may leave ends in one way. -/
theorem Goes.unique [Nonempty ι] {ps : ι → Prog C.fallible.iface ε α} {as bs : ι → Except ε α}
    (h : Goes comb ps as) (h' : Goes comb ps bs) : as = bs := by
  have hcalls : ∀ {o : C.fallible.iface.Op} {next : C.fallible.iface.Res o →
      Prog C.fallible.iface ε α} {p : Prog C.fallible.iface ε α} {c : Except ε α},
      p = .call o next → ¬ Ends p c := by
    rintro o next _ c rfl
    exact Ends.not_call
  obtain ⟨i₀⟩ := ‹Nonempty ι›
  induction h generalizing bs with
  | done h =>
      cases h' with
      | done h' => exact funext fun i => (h i).unique (h' i)
      | sync k vs next hps _ => exact absurd (h i₀) (hcalls (hps i₀))
      | left i e _ h' => exact funext fun i => Option.some.inj ((h i).severed.symm.trans (h' i))
  | sync k vs next hps _ ih =>
      cases h' with
      | done h' => exact absurd (h' i₀) (hcalls (hps i₀))
      | sync k' vs' next' hps' h' =>
          obtain ⟨rfl, rfl, rfl⟩ := call_inj (C := C.fallible) ⟨i₀⟩ fun i =>
            (hps i).symm.trans (hps' i)
          exact ih h'
      | left i e hi _ => cases (hps i).symm.trans hi
  | left i e hi h =>
      cases h' with
      | done h' => exact funext fun j => Option.some.inj ((h j).symm.trans (h' j).severed)
      | sync k vs next hps _ => cases (hps i).symm.trans hi
      | left _ _ _ h' => exact funext fun j => Option.some.inj ((h j).symm.trans (h' j))

theorem Goes.bind {ps : ι → Prog C.fallible.iface ε α}
    {f : ι → α → Prog C.fallible.iface ε β} {n : Nat} {as : ι → α} {bs : ι → Except ε β}
    (h : Runs (delivered comb) ps n fun i => .ok (as i))
    (h' : Goes comb (fun i => f i (as i)) bs) : Goes comb (fun i => ps i >>= f i) bs := by
  generalize hends : (fun i => Except.ok (as i)) = ends at h
  induction h with
  | @done ps' ends h =>
      subst hends
      have hps : (fun i => ps' i >>= f i) = fun i => f i (as i) := by
        funext i
        rw [show ps' i = .ret (as i) from h i]
        rfl
      rw [hps]
      exact h'
  | @sync ps' n ends k vs next hps _ ih =>
      refine .sync k vs (fun i r => next i r >>= f i) (fun i => ?_) (ih hends)
      rw [hps i]
      rfl

/-- Somebody leaves after the first part, before the next operation. -/
theorem Goes.bind_left {ps : ι → Prog C.fallible.iface ε α}
    {f : ι → α → Prog C.fallible.iface ε β} {n : Nat} {as : ι → Except ε α}
    {bs : ι → Except ε β} (h : Runs (delivered comb) ps n as) (i : ι) (e : ε)
    (hi : as i = .error e)
    (hbs : ∀ j, some (bs j) = match as j with
      | .ok a => severed (f j a)
      | .error e => some (.error e)) : Goes comb (fun i => ps i >>= f i) bs := by
  induction h with
  | @done ps' as h =>
      have hraise : ps' i = .raise e := by
        have hend := h i
        rw [hi] at hend
        exact hend
      refine .left i e ?_ fun j => ?_
      · rw [hraise]
        rfl
      · rw [severed_bind, (h j).severed, hbs j]
        cases as j with
        | ok a => rfl
        | error e => rfl
  | @sync ps' n as k vs next hps _ ih =>
      refine .sync k vs (fun i r => next i r >>= f i) (fun i => ?_) (ih hi hbs)
      rw [hps i]
      rfl

/-- **One part of every program after the other**, where nobody raises in the
first part. -/
theorem Goes.bind_ok {ps : ι → Prog C.fallible.iface ε α}
    {f : ι → α → Prog C.fallible.iface ε β} {as : ι → α} {bs : ι → Except ε β}
    (h : Goes comb ps fun i => .ok (as i)) (h' : Goes comb (fun i => f i (as i)) bs) :
    Goes comb (fun i => ps i >>= f i) bs := by
  generalize hends : (fun i => Except.ok (as i)) = ends at h
  induction h with
  | @done ps' ends h =>
      subst hends
      have hps : (fun i => ps' i >>= f i) = fun i => f i (as i) := by
        funext i
        rw [show ps' i = .ret (as i) from h i]
        rfl
      rw [hps]
      exact h'
  | @sync ps' ends k vs next hps _ ih =>
      refine .sync k vs (fun i r => next i r >>= f i) (fun i => ?_) (ih hends)
      rw [hps i]
      rfl
  | @left ps' ends i e hi h =>
      have hend := h i
      rw [hi, ← hends] at hend
      cases hend

/-- **A member that raises in the first part** has left the others alone in the
second one. -/
theorem Goes.bind_raised {ps : ι → Prog C.fallible.iface ε α}
    {f : ι → α → Prog C.fallible.iface ε β} {as : ι → Except ε α} {bs : ι → Except ε β}
    (h : Goes comb ps as) {i : ι} {e : ε} (hi : as i = .error e)
    (hbs : ∀ j, some (bs j) = match as j with
      | .ok a => severed (f j a)
      | .error e => some (.error e)) : Goes comb (fun i => ps i >>= f i) bs := by
  have halone : ∀ {p : Prog C.fallible.iface ε α} {j : ι}, severed p = some (as j) →
      severed (p >>= f j) = some (bs j) := by
    intro p j hp
    rw [severed_bind, hp, hbs j]
    cases as j with
    | ok a => rfl
    | error e => rfl
  induction h with
  | @done ps' as h =>
      have hraise : ps' i = .raise e := by
        have hend := h i
        rw [hi] at hend
        exact hend
      refine .left i e ?_ fun j => halone (h j).severed
      rw [hraise]
      rfl
  | @sync ps' as k vs next hps _ ih =>
      refine .sync k vs (fun i r => next i r >>= f i) (fun i => ?_) (ih hi hbs halone)
      rw [hps i]
      rfl
  | @left ps' as i' e' hi' h =>
      refine .left i' e' ?_ fun j => halone (h j)
      rw [hi']
      rfl

/-! ## Methods of the members -/

/-- A collective operation in a method; `lost` is raised when it fails. -/
def collective {ω : Type} (lost : ε) (k : C.Kind) (v : C.Val k) :
    Meth C.fallible.iface ω ε (C.Res k) := fun w =>
  .call ⟨k, v⟩ fun r =>
    match r with
    | some r => .ret (r, w)
    | none => .raise (lost, w)

variable {ω : Type}

variable (comb) in
/-- **All members go through a method together**: each ends it, in one way or the other. -/
def Jointly (ms : ι → Meth C.fallible.iface ω ε α) (ws : ι → ω)
    (as : ι → Except (ε × ω) (α × ω)) : Prop :=
  ∃ n, Runs (delivered comb) (fun i => ms i (ws i)) n as

/-- One method of every member after the other, where nobody raises in the first one. -/
theorem goes_bind_ok {ms : ι → Meth C.fallible.iface ω ε α}
    {f : ι → α → Meth C.fallible.iface ω ε β} {ws ws' : ι → ω} {a : ι → α}
    {bs : ι → Except (ε × ω) (β × ω)}
    (h : Goes comb (fun i => ms i (ws i)) fun i => .ok (a i, ws' i))
    (h' : Goes comb (fun i => f i (a i) (ws' i)) bs) :
    Goes comb (fun i => (ms i >>= f i) (ws i)) bs :=
  h.bind_ok (f := fun i (x : α × ω) => f i x.1 x.2) h'

/-- A member that raises in the first method has left the others alone in the
second one. -/
theorem goes_bind_raised {ms : ι → Meth C.fallible.iface ω ε α}
    {f : ι → α → Meth C.fallible.iface ω ε β} {ws : ι → ω}
    {as : ι → Except (ε × ω) (α × ω)} {bs : ι → Except (ε × ω) (β × ω)}
    (h : Goes comb (fun i => ms i (ws i)) as) {i : ι} {e : ε × ω} (hi : as i = .error e)
    (hok : ∀ j a w, as j = .ok (a, w) → severed (f j a w) = some (bs j))
    (herror : ∀ j e, as j = .error e → bs j = .error e) :
    Goes comb (fun i => (ms i >>= f i) (ws i)) bs := by
  refine h.bind_raised (f := fun i (x : α × ω) => f i x.1 x.2) hi fun j => ?_
  cases hj : as j with
  | ok x => exact (hok j x.1 x.2 hj).symm
  | error e => exact congrArg some (herror j e hj)

/-- How a method of a part of the attributes ends. -/
def zoomed {ω' : Type} (set : ω' → ω → ω) (w : ω) :
    Except (ε × ω') (α × ω') → Except (ε × ω) (α × ω)
  | .ok x => .ok (x.1, set x.2 w)
  | .error x => .error (x.1, set x.2 w)

theorem severed_meth_bind (m : Meth C.fallible.iface ω ε α)
    (f : α → Meth C.fallible.iface ω ε β) (w : ω) :
    severed ((m >>= f) w) = match severed (m w) with
      | none => none
      | some (.ok x) => severed (f x.1 x.2)
      | some (.error x) => some (.error x) := by
  show severed (m w >>= fun x => f x.1 x.2) = _
  rw [severed_bind]
  cases severed (m w) with
  | none => rfl
  | some x => cases x <;> rfl

theorem severed_zoom {ω' : Type} (get : ω → ω') (set : ω' → ω → ω)
    (m : Meth C.fallible.iface ω' ε α) (w : ω) :
    severed (Meth.zoom get set m w) = (severed (m (get w))).map (zoomed set w) := by
  rw [Meth.zoom, severed_bind, severed_tryCatch]
  cases severed (m (get w)) with
  | none => rfl
  | some x => cases x <;> rfl

namespace Jointly

variable {ms : ι → Meth C.fallible.iface ω ε α} {f : ι → α → Meth C.fallible.iface ω ε β}
  {ws : ι → ω}

theorem pure (a : ι → α) :
    Jointly (ε := ε) comb (fun i => Pure.pure (a i)) ws fun i => .ok (a i, ws i) := ⟨0, .ret⟩

theorem raise (e : ι → ε) :
    Jointly (α := α) comb (fun i => Meth.raise (e i)) ws fun i => .error (e i, ws i) :=
  ⟨0, .done fun _ => rfl⟩

theorem self : Jointly (ε := ε) comb (fun _ => Meth.self) ws fun i => .ok (ws i, ws i) :=
  ⟨0, .ret⟩

theorem assign (g : ι → ω → ω) :
    Jointly (ε := ε) comb (fun i => Meth.assign (g i)) ws fun i => .ok ((), g i (ws i)) :=
  ⟨0, .ret⟩

theorem collective (lost : ε) (k : C.Kind) (vs : ι → C.Val k) :
    Jointly comb (fun i => Lockstep.collective lost k (vs i)) ws
      fun i => .ok (comb k vs, ws i) := ⟨1, .call .ret⟩

theorem bind {a : ι → α} {ws' : ι → ω} {bs : ι → Except (ε × ω) (β × ω)}
    (h : Jointly comb ms ws fun i => .ok (a i, ws' i))
    (h' : Jointly comb (fun i => f i (a i)) ws' bs) :
    Jointly comb (fun i => ms i >>= f i) ws bs := by
  obtain ⟨n, hn⟩ := h
  obtain ⟨m, hm⟩ := h'
  exact ⟨n + m, hn.bind (f := fun i x => f i x.1 x.2) hm⟩

theorem bind_error {e : ι → ε} {ws' : ι → ω}
    (h : Jointly comb ms ws fun i => .error (e i, ws' i)) :
    Jointly comb (fun i => ms i >>= f i) ws fun i => .error (e i, ws' i) := by
  obtain ⟨n, hn⟩ := h
  exact ⟨n, hn.bind_error (f := fun i x => f i x.1 x.2)⟩

theorem tryCatch {e : ι → ε} {ws' : ι → ω} {g : ι → ε → Meth C.fallible.iface ω ε α}
    {bs : ι → Except (ε × ω) (α × ω)} (h : Jointly comb ms ws fun i => .error (e i, ws' i))
    (h' : Jointly comb (fun i => g i (e i)) ws' bs) :
    Jointly comb (fun i => Meth.tryCatch (ms i) (g i)) ws bs := by
  obtain ⟨n, hn⟩ := h
  obtain ⟨m, hm⟩ := h'
  exact ⟨n + m, hn.tryCatch (f := fun i (x : ε × ω) => g i x.1 x.2) hm⟩

theorem tryCatch_ok {a : ι → α} {ws' : ι → ω} {g : ι → ε → Meth C.fallible.iface ω ε α}
    (h : Jointly comb ms ws fun i => .ok (a i, ws' i)) :
    Jointly comb (fun i => Meth.tryCatch (ms i) (g i)) ws fun i => .ok (a i, ws' i) := by
  obtain ⟨n, hn⟩ := h
  exact ⟨n, hn.tryCatch_ok (f := fun i (x : ε × ω) => g i x.1 x.2)⟩

theorem zoom {ω' : Type} {get : ω → ω'} {set : ω' → ω → ω}
    {ms' : ι → Meth C.fallible.iface ω' ε α} {as : ι → Except (ε × ω') (α × ω')}
    (h : Jointly comb ms' (fun i => get (ws i)) as) :
    Jointly comb (fun i => Meth.zoom get set (ms' i)) ws fun i => zoomed set (ws i) (as i) := by
  obtain ⟨n, hn⟩ := h
  let rest (i : ι) (p : Prog C.fallible.iface (ε × ω') (α × ω')) :
      Prog C.fallible.iface (ε × ω) (α × ω) :=
    (p.tryCatch fun x => .raise (x.1, set x.2 (ws i))) >>= fun x => .ret (x.1, set x.2 (ws i))
  have hrest : ∀ i, Follows (rest i) := fun _ _ _ => rfl
  refine ⟨n, hn.follow (m := 0) hrest fun qs hqs => .done fun i => ?_⟩
  have hend := hqs i
  cases has : as i with
  | ok x =>
      rw [has] at hend
      show Ends (rest i (qs i)) _
      rw [show qs i = .ret x from hend]
      rfl
  | error x =>
      rw [has] at hend
      show Ends (rest i (qs i)) _
      rw [show qs i = .raise x from hend]
      rfl

/-- A group that goes through a method together does so when members may leave. -/
theorem goes {as : ι → Except (ε × ω) (α × ω)} (h : Jointly comb ms ws as) :
    Goes comb (fun i => ms i (ws i)) as := by
  obtain ⟨n, hn⟩ := h
  exact hn.goes

theorem unique [Nonempty ι] {as bs : ι → Except (ε × ω) (α × ω)} (h : Jointly comb ms ws as)
    (h' : Jointly comb ms ws bs) : as = bs := by
  obtain ⟨_, hn⟩ := h
  obtain ⟨_, hm⟩ := h'
  exact (hn.unique hm).2

end Jointly

end LmResiliency.Lockstep
