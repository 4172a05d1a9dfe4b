/-
# Network — two programs that exchange messages

Each of two programs sends messages on numbered channels, receives what the
network delivers of the other's, and does things of its own.  The network
delivers any message that was sent on the channel, as often and in whatever
order it likes, or nothing; what arrives of a message is up to a relation, so
it may be corrupted.  Every operation may fail.

What a program has done is its history.  A program is checked against its
history alone, and the network ties what one has received to what the other has
sent.
-/
import LmResiliency.Lib.Prog
import Mathlib.Logic.Relation

namespace LmResiliency

/-! ## Histories -/

namespace Prog

/-- An operation and its answer. -/
abbrev Event (I : Iface) : Type := Σ o : I.Op, I.Res o

variable {I : Iface} {ε ε' α β : Type}

/-- A program performs operations, gets these answers, and is left with a rest. -/
inductive Ran : Prog I ε α → List (Event I) → Prog I ε α → Prop where
  | nil (p : Prog I ε α) : Ran p [] p
  | cons {o : I.Op} {k : I.Res o → Prog I ε α} {r : I.Res o} {h : List (Event I)}
      {q : Prog I ε α} (hr : Ran (k r) h q) : Ran (.call o k) (⟨o, r⟩ :: h) q

theorem Ran.append {p q s : Prog I ε α} {h h' : List (Event I)} (hp : Ran p h q)
    (hq : Ran q h' s) : Ran p (h ++ h') s := by
  induction hp with
  | nil => exact hq
  | cons _ ih => exact .cons (ih hq)

theorem Ran.snoc {p : Prog I ε α} {h : List (Event I)} {o : I.Op} {k : I.Res o → Prog I ε α}
    (hp : Ran p h (.call o k)) (r : I.Res o) : Ran p (h ++ [⟨o, r⟩]) (k r) :=
  hp.append (.cons (.nil _))

theorem Ran.bind_left {p q : Prog I ε α} {h : List (Event I)} (hp : p.Ran h q)
    (f : α → Prog I ε β) : (p >>= f).Ran h (q >>= f) := by
  induction hp with
  | nil => exact .nil _
  | cons _ ih => exact .cons ih

theorem Ran.bind {p : Prog I ε α} {f : α → Prog I ε β} {h h' : List (Event I)} {a : α}
    {q : Prog I ε β} (hp : p.Ran h (.ret a)) (hf : (f a).Ran h' q) :
    (p >>= f).Ran (h ++ h') q := (hp.bind_left f).append hf

/-- A method that calls a program does what the program does. -/
theorem Ran.lift {ω : Type} {p q : Prog I ε α} {h : List (Event I)} (hp : p.Ran h q) (w : ω) :
    Ran (Meth.lift p w) h (Meth.lift q w) := by
  induction hp with
  | nil => exact .nil _
  | cons _ ih => exact .cons ih

theorem Ran.split {p q : Prog I ε α} {h h' : List (Event I)} (hr : p.Ran (h ++ h') q) :
    ∃ s, p.Ran h s ∧ s.Ran h' q := by
  induction h generalizing p with
  | nil => exact ⟨p, .nil p, hr⟩
  | cons e h ih =>
      cases hr with
      | cons hr =>
          obtain ⟨s, hs, hq⟩ := ih hr
          exact ⟨s, .cons hs, hq⟩

/-- What a program does to its history: `Q` holds of the history all along, `R` when it
returns and `E` when it raises. -/
def Along (Q : List (Event I) → Prop) (R : α → List (Event I) → Prop)
    (E : ε → List (Event I) → Prop) : Prog I ε α → List (Event I) → Prop
  | .ret a, h => Q h ∧ R a h
  | .raise e, h => Q h ∧ E e h
  | .halt, h => Q h
  | .call o k, h => Q h ∧ ∀ r, Along Q R E (k r) (h ++ [⟨o, r⟩])

section Along

variable {Q : List (Event I) → Prop} {R : α → List (Event I) → Prop}
  {E : ε → List (Event I) → Prop} {p : Prog I ε α} {h : List (Event I)}

theorem Along.ret {a : α} (hQ : Q h) (hR : R a h) : Along Q R E (.ret a : Prog I ε α) h :=
  ⟨hQ, hR⟩

theorem Along.raise {e : ε} (hQ : Q h) (hE : E e h) : Along Q R E (.raise e : Prog I ε α) h :=
  ⟨hQ, hE⟩

theorem Along.call {o : I.Op} {k : I.Res o → Prog I ε α} (hQ : Q h)
    (hk : ∀ r, Along Q R E (k r) (h ++ [⟨o, r⟩])) : Along Q R E (.call o k) h := ⟨hQ, hk⟩

theorem Along.of_ret {a : α} (ha : Along Q R E (.ret a : Prog I ε α) h) : R a h := ha.2

theorem Along.of_raise {e : ε} (ha : Along Q R E (.raise e : Prog I ε α) h) : E e h := ha.2

theorem Along.now (ha : Along Q R E p h) : Q h := by
  cases p with
  | ret a => exact ha.1
  | raise e => exact ha.1
  | halt => exact ha
  | call o k => exact ha.1

theorem Along.mono {Q' : List (Event I) → Prop} {R' : α → List (Event I) → Prop}
    {E' : ε → List (Event I) → Prop} (ha : Along Q R E p h) (hQ : ∀ h, Q h → Q' h)
    (hR : ∀ a h, Q h → R a h → R' a h) (hE : ∀ e h, Q h → E e h → E' e h) :
    Along Q' R' E' p h := by
  induction p generalizing h with
  | ret a => exact ⟨hQ h ha.1, hR a h ha.1 ha.2⟩
  | raise e => exact ⟨hQ h ha.1, hE e h ha.1 ha.2⟩
  | halt => exact hQ h ha
  | call o k ih => exact ⟨hQ h ha.1, fun r => ih r (ha.2 r)⟩

theorem Along.bind {R' : β → List (Event I) → Prop} {f : α → Prog I ε β}
    (ha : Along Q R E p h) (hf : ∀ a h, Q h → R a h → Along Q R' E (f a) h) :
    Along Q R' E (p >>= f) h := by
  induction p generalizing h with
  | ret a => exact hf a h ha.1 ha.2
  | raise e => exact ha
  | halt => exact ha
  | call o k ih => exact ⟨ha.1, fun r => ih r (ha.2 r)⟩

/-- The same, where the second part needs what is in the history already. -/
theorem Along.bind_after {R' : β → List (Event I) → Prop} {f : α → Prog I ε β}
    {h₀ : List (Event I)} (ha : Along Q R E p h) (hpre : h₀ <+: h)
    (hf : ∀ a h, Q h → R a h → h₀ <+: h → Along Q R' E (f a) h) :
    Along Q R' E (p >>= f) h := by
  induction p generalizing h with
  | ret a => exact hf a h ha.1 ha.2 hpre
  | raise e => exact ha
  | halt => exact ha
  | call o k ih =>
      exact ⟨ha.1, fun r => ih r (ha.2 r) (hpre.trans (List.prefix_append _ _))⟩

/-- What holds along a program holds after any part of it. -/
theorem Along.ran {h' : List (Event I)} {q : Prog I ε α} (ha : Along Q R E p h)
    (hr : Ran p h' q) : Along Q R E q (h ++ h') := by
  induction hr generalizing h with
  | nil =>
      rw [List.append_nil]
      exact ha
  | cons _ ih =>
      have hrest := ih (ha.2 _)
      rwa [List.append_assoc] at hrest

/-- A method that calls a program leaves its attributes as they are. -/
theorem Along.lift {ω : Type} (ha : Along Q R E p h) (w : ω) :
    Along Q (fun x h => x.2 = w ∧ R x.1 h) (fun x h => x.2 = w ∧ E x.1 h) (Meth.lift p w) h := by
  induction p generalizing h with
  | ret a => exact ⟨ha.1, rfl, ha.2⟩
  | raise e => exact ⟨ha.1, rfl, ha.2⟩
  | halt => exact ha
  | call o k ih => exact ⟨ha.1, fun r => ih r (ha.2 r)⟩

end Along

-- programs are taken apart by the rules above, never by evaluation
attribute [irreducible] Along

end Prog

/-! ## Two programs and a network -/

namespace Network

open Prog (Event)

/-- What a program does: it sends a message, receives one that fits what it has room for, or
does something of its own. -/
inductive Op (M W L : Type) where
  | send (channel : Nat) (message : M)
  | recv (channel : Nat) (room : W)
  | act (action : L)

variable {M W F L : Type}

/-- The answers: sending and receiving may fail. -/
def Op.Res (F : Type) (fits : W → M → Prop) (answer : L → Type) : Op M W L → Type
  | .send _ _ => Except F Unit
  | .recv _ room => Except F {m : M // fits room m}
  | .act action => answer action

/-- The operations of an endpoint. -/
abbrev endpoint (F : Type) (fits : W → M → Prop) (answer : L → Type) : Iface where
  Op := Op M W L
  Res := Op.Res F fits answer

section

variable {fits : W → M → Prop} {answer : L → Type} {ε ε' α β : Type}

/-- The message was sent on the channel, or the program tried to. -/
def Sent (h : List (Event (endpoint F fits answer))) (channel : Nat) (m : M) : Prop :=
  ∃ r, (⟨.send channel m, r⟩ : Event (endpoint F fits answer)) ∈ h

/-- The message was received on the channel. -/
def Got (h : List (Event (endpoint F fits answer))) (channel : Nat) (m : M) : Prop :=
  ∃ room, ∃ hm : fits room m,
    (⟨.recv channel room, .ok ⟨m, hm⟩⟩ : Event (endpoint F fits answer)) ∈ h

theorem Sent.append {h : List (Event (endpoint F fits answer))} {channel : Nat} {m : M}
    (hs : Sent h channel m) (h' : List (Event (endpoint F fits answer))) :
    Sent (h ++ h') channel m := hs.imp fun _ hr => List.mem_append_left h' hr

theorem Got.append {h : List (Event (endpoint F fits answer))} {channel : Nat} {m : M}
    (hg : Got h channel m) (h' : List (Event (endpoint F fits answer))) :
    Got (h ++ h') channel m := by
  obtain ⟨room, hm, hin⟩ := hg
  exact ⟨room, hm, List.mem_append_left h' hin⟩

theorem Got.of_prefix {h h' : List (Event (endpoint F fits answer))} {channel : Nat} {m : M}
    (hg : Got h channel m) (hpre : h <+: h') : Got h' channel m := by
  obtain ⟨rest, rfl⟩ := hpre
  exact hg.append rest

/-- The messages that were received on the channel, in their order. -/
def inbox (channel : Nat) : List (Event (endpoint F fits answer)) → List M
  | [] => []
  | ⟨.recv c _, .ok m⟩ :: h => if c = channel then m.val :: inbox channel h else inbox channel h
  | _ :: h => inbox channel h

theorem inbox_append (channel : Nat) (h h' : List (Event (endpoint F fits answer))) :
    inbox channel (h ++ h') = inbox channel h ++ inbox channel h' := by
  induction h using inbox.induct channel with
  | case1 => rfl
  | case2 room m h ih =>
      rw [List.cons_append, inbox, inbox, if_pos rfl, if_pos rfl, ih, List.cons_append]
  | case3 c room m h hne ih =>
      rw [List.cons_append, inbox, inbox, if_neg hne, if_neg hne, ih]
  | case4 e h hother ih =>
      rw [List.cons_append, inbox, inbox, ih]
      · exact hother
      · exact hother

@[simp] theorem inbox_recv_self (channel : Nat) (room : W) (m : {m : M // fits room m})
    (h : List (Event (endpoint F fits answer))) :
    inbox channel (h ++ [⟨.recv channel room, .ok m⟩]) = inbox channel h ++ [m.val] := by
  rw [inbox_append]
  congr 1
  exact if_pos rfl

/-- What is not received on the channel is not in it. -/
theorem inbox_other {channel : Nat} {e : Event (endpoint F fits answer)}
    (he : ∀ room m, e ≠ ⟨.recv channel room, .ok m⟩)
    (h : List (Event (endpoint F fits answer))) :
    inbox channel (h ++ [e]) = inbox channel h := by
  have hnone : inbox channel [e] = [] := by
    obtain ⟨o, r⟩ := e
    cases o with
    | send c message => rfl
    | act action => rfl
    | recv c room =>
        cases r with
        | error _ => rfl
        | ok m =>
            refine if_neg ?_
            rintro rfl
            exact he room m rfl
  rw [inbox_append, hnone, List.append_nil]

/-- What the network may answer, given what the other program has done. -/
def Allowed (delivers : Nat → M → M → Prop) (other : List (Event (endpoint F fits answer))) :
    Event (endpoint F fits answer) → Prop
  | ⟨.recv channel _, .ok m⟩ => ∃ m', Sent other channel m' ∧ delivers channel m' m.val
  | _ => True

/-- A program and its history. -/
structure Node (I : Iface) (ε α : Type) where
  program : Prog I ε α
  history : List (Event I)

/-- The two programs. -/
structure Pair (F : Type) (fits : W → M → Prop) (answer : L → Type) (ε α ε' β : Type) where
  left : Node (endpoint F fits answer) ε α
  right : Node (endpoint F fits answer) ε' β

/-- Two programs that have done nothing. -/
def Pair.start (p : Prog (endpoint F fits answer) ε α) (q : Prog (endpoint F fits answer) ε' β) :
    Pair F fits answer ε α ε' β := ⟨⟨p, []⟩, ⟨q, []⟩⟩

/-- An operation of either. -/
inductive Step (delivers : Nat → M → M → Prop) :
    Pair F fits answer ε α ε' β → Pair F fits answer ε α ε' β → Prop where
  | left {o : Op M W L} {k : Op.Res F fits answer o → Prog (endpoint F fits answer) ε α}
      {h : List (Event (endpoint F fits answer))} {right : Node (endpoint F fits answer) ε' β}
      (r : Op.Res F fits answer o) (hr : Allowed delivers right.history ⟨o, r⟩) :
      Step delivers ⟨⟨.call o k, h⟩, right⟩ ⟨⟨k r, h ++ [⟨o, r⟩]⟩, right⟩
  | right {o : Op M W L} {k : Op.Res F fits answer o → Prog (endpoint F fits answer) ε' β}
      {h : List (Event (endpoint F fits answer))} {left : Node (endpoint F fits answer) ε α}
      (r : Op.Res F fits answer o) (hr : Allowed delivers left.history ⟨o, r⟩) :
      Step delivers ⟨left, ⟨.call o k, h⟩⟩ ⟨left, ⟨k r, h ++ [⟨o, r⟩]⟩⟩

/-- Any number of operations, in any order. -/
def Run (delivers : Nat → M → M → Prop) :
    Pair F fits answer ε α ε' β → Pair F fits answer ε α ε' β → Prop :=
  Relation.ReflTransGen (Step delivers)

/-- Each program has run through its history, and what was received was sent. -/
structure Inv (delivers : Nat → M → M → Prop) (p : Prog (endpoint F fits answer) ε α)
    (q : Prog (endpoint F fits answer) ε' β) (c : Pair F fits answer ε α ε' β) : Prop where
  left : p.Ran c.left.history c.left.program
  right : q.Ran c.right.history c.right.program
  toLeft : ∀ channel m, Got c.left.history channel m →
    ∃ m', Sent c.right.history channel m' ∧ delivers channel m' m
  toRight : ∀ channel m, Got c.right.history channel m →
    ∃ m', Sent c.left.history channel m' ∧ delivers channel m' m

variable {delivers : Nat → M → M → Prop} {p : Prog (endpoint F fits answer) ε α}
  {q : Prog (endpoint F fits answer) ε' β} {c c' : Pair F fits answer ε α ε' β}

/-- What is received with one more operation was received before, or with it. -/
theorem allowed_got {h other : List (Event (endpoint F fits answer))}
    {e : Event (endpoint F fits answer)} (he : Allowed delivers other e) {channel : Nat} {m : M}
    (hg : Got (h ++ [e]) channel m) :
    Got h channel m ∨ ∃ m', Sent other channel m' ∧ delivers channel m' m := by
  obtain ⟨room, hm, hin⟩ := hg
  rcases List.mem_append.mp hin with hold | hnew
  · exact Or.inl ⟨room, hm, hold⟩
  · rw [List.mem_singleton] at hnew
    subst hnew
    exact Or.inr he

theorem Inv.step (h : Inv delivers p q c) (hstep : Step delivers c c') :
    Inv delivers p q c' := by
  cases hstep with
  | left r hr =>
      refine ⟨h.left.snoc r, h.right, fun channel m hg => ?_, fun channel m hg => ?_⟩
      · rcases allowed_got hr hg with hold | hnew
        · exact h.toLeft channel m hold
        · exact hnew
      · obtain ⟨m', hs, hd⟩ := h.toRight channel m hg
        exact ⟨m', hs.append _, hd⟩
  | right r hr =>
      refine ⟨h.left, h.right.snoc r, fun channel m hg => ?_, fun channel m hg => ?_⟩
      · obtain ⟨m', hs, hd⟩ := h.toLeft channel m hg
        exact ⟨m', hs.append _, hd⟩
      · rcases allowed_got hr hg with hold | hnew
        · exact h.toRight channel m hold
        · exact hnew

/-- **Every run keeps the two histories in agreement.** -/
theorem Run.inv (h : Run delivers (.start p q) c) : Inv delivers p q c := by
  induction h with
  | refl =>
      refine ⟨.nil _, .nil _, ?_, ?_⟩ <;>
      · rintro channel m ⟨room, hm, hin⟩
        cases hin
  | tail _ hstep ih => exact ih.step hstep

/-! ## Runs made of the two programs' histories -/

theorem Run.goLeft {h h' : List (Event (endpoint F fits answer))}
    {p p' : Prog (endpoint F fits answer) ε α} {right : Node (endpoint F fits answer) ε' β}
    (hr : p.Ran h' p') (ha : ∀ e ∈ h', Allowed delivers right.history e) :
    Run delivers ⟨⟨p, h⟩, right⟩ ⟨⟨p', h ++ h'⟩, right⟩ := by
  induction hr generalizing h with
  | nil =>
      rw [List.append_nil]
      exact .refl
  | @cons o k r h' q _ ih =>
      have hrest := ih (h := h ++ [⟨o, r⟩]) fun e he => ha e (List.mem_cons_of_mem _ he)
      rw [List.append_assoc] at hrest
      exact .head (.left r (ha _ List.mem_cons_self)) hrest

theorem Run.goRight {h h' : List (Event (endpoint F fits answer))}
    {q q' : Prog (endpoint F fits answer) ε' β} {left : Node (endpoint F fits answer) ε α}
    (hr : q.Ran h' q') (ha : ∀ e ∈ h', Allowed delivers left.history e) :
    Run delivers ⟨left, ⟨q, h⟩⟩ ⟨left, ⟨q', h ++ h'⟩⟩ := by
  induction hr generalizing h with
  | nil =>
      rw [List.append_nil]
      exact .refl
  | @cons o k r h' q _ ih =>
      have hrest := ih (h := h ++ [⟨o, r⟩]) fun e he => ha e (List.mem_cons_of_mem _ he)
      rw [List.append_assoc] at hrest
      exact .head (.right r (ha _ List.mem_cons_self)) hrest

end

end Network

end LmResiliency
