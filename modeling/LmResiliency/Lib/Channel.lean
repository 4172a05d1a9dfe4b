/-
# Channel — a sender and a receiver joined by a queue

Two programs that run each on its own: one puts messages into a queue of
bounded room, the other takes them out in the order they were put in.  The
receiver says what it has room for, and a message that does not fit is not
delivered.  If the receiver, fed with all that the sender says, comes to an end,
then so does every run of the two, and always the same one.
-/
import LmResiliency.Lib.Prog
import Mathlib.Data.List.Forall2
import Mathlib.Logic.Relation

namespace LmResiliency

/-- The operation of a sender: a message. -/
abbrev Sending (M : Type) : Iface where
  Op := M
  Res _ := Unit

/-- The operation of a receiver: what it has room for, and so gets. -/
abbrev Receiving {W M : Type} (fits : W → M → Prop) : Iface where
  Op := W
  Res w := {m : M // fits w m}

namespace Channel

variable {W M ε ε' α α' β β' : Type} {fits : W → M → Prop}

/-! ## One side alone -/

/-- The sender says the messages and comes to the end. -/
def Says : Prog (Sending M) ε α → List M → Except ε α → Prop
  | .ret a, ms, end_ => ms = [] ∧ end_ = .ok a
  | .raise e, ms, end_ => ms = [] ∧ end_ = .error e
  | .halt, _, _ => False
  | .call m k, ms, end_ => ∃ rest, ms = m :: rest ∧ Says (k ()) rest end_

/-- The receiver, fed with the messages, comes to the end. -/
def Hears : Prog (Receiving fits) ε' β → List M → Except ε' β → Prop
  | .ret b, ms, end_ => ms = [] ∧ end_ = .ok b
  | .raise e, ms, end_ => ms = [] ∧ end_ = .error e
  | .halt, _, _ => False
  | .call _ k, ms, end_ => ∃ m rest, ms = m.val :: rest ∧ Hears (k m) rest end_

theorem Says.ret (a : α) : Says (.ret a : Prog (Sending M) ε α) [] (.ok a) := ⟨rfl, rfl⟩

theorem Says.message {m : M} {k : Unit → Prog (Sending M) ε α} {ms : List M} {a : Except ε α}
    (h : Says (k ()) ms a) : Says (.call m k) (m :: ms) a := ⟨ms, rfl, h⟩

theorem Says.bind {p : Prog (Sending M) ε α} {f : α → Prog (Sending M) ε β} {ms ns : List M}
    {a : α} {b : Except ε β} (hp : Says p ms (.ok a)) (hf : Says (f a) ns b) :
    Says (p >>= f) (ms ++ ns) b := by
  induction p generalizing ms with
  | ret a' =>
      obtain ⟨rfl, heq⟩ := hp
      cases heq
      exact hf
  | raise e => cases hp.2
  | halt => exact hp.elim
  | call m k ih =>
      obtain ⟨rest, rfl, hrest⟩ := hp
      exact ⟨rest ++ ns, rfl, ih () hrest⟩

theorem Hears.ret (b : β) : Hears (.ret b : Prog (Receiving fits) ε' β) [] (.ok b) :=
  ⟨rfl, rfl⟩

theorem Hears.message {w : W} {k : {m : M // fits w m} → Prog (Receiving fits) ε' β} {m : M}
    {ms : List M} {b : Except ε' β} (hm : fits w m) (h : Hears (k ⟨m, hm⟩) ms b) :
    Hears (.call w k) (m :: ms) b := ⟨⟨m, hm⟩, ms, rfl, h⟩

theorem Hears.bind {p : Prog (Receiving fits) ε' β} {f : β → Prog (Receiving fits) ε' β'}
    {ms ns : List M} {b : β} {b' : Except ε' β'} (hp : Hears p ms (.ok b))
    (hf : Hears (f b) ns b') : Hears (p >>= f) (ms ++ ns) b' := by
  induction p generalizing ms with
  | ret b =>
      obtain ⟨rfl, heq⟩ := hp
      cases heq
      exact hf
  | raise e => cases hp.2
  | halt => exact hp.elim
  | call w k ih =>
      obtain ⟨m, rest, rfl, hrest⟩ := hp
      exact ⟨m, rest ++ ns, rfl, ih m hrest⟩

theorem Says.forM {γ : Type} {f : γ → Prog (Sending M) ε Unit} {ms : γ → List M} {xs : List γ}
    (h : ∀ x ∈ xs, Says (f x) (ms x) (.ok ())) : Says (xs.forM f) (xs.flatMap ms) (.ok ()) := by
  induction xs with
  | nil => exact .ret ()
  | cons x xs ih =>
      rw [List.flatMap_cons]
      change Says (f x >>= fun _ => xs.forM f) _ _
      exact (h x List.mem_cons_self).bind (ih fun y hy => h y (List.mem_cons_of_mem x hy))

theorem Hears.mapM {γ δ : Type} {f : γ → Prog (Receiving fits) ε' β} {ms : δ → List M}
    {g : δ → β} {xs : List γ} {zs : List δ}
    (h : List.Forall₂ (fun x z => Hears (f x) (ms z) (.ok (g z))) xs zs) :
    Hears (xs.mapM f) (zs.flatMap ms) (.ok (zs.map g)) := by
  induction h with
  | nil => exact .ret []
  | @cons x z xs zs hx _ ih =>
      rw [List.mapM_cons, List.flatMap_cons, List.map_cons]
      refine hx.bind ?_
      rw [← List.append_nil (zs.flatMap ms)]
      exact ih.bind (.ret _)

/-! ## Both sides -/

/-- Where the two sides are, what has been sent and not received, and the
numbers of messages sent and received. -/
structure Link (fits : W → M → Prop) (ε α ε' β : Type) where
  sender : Prog (Sending M) ε α
  queue : List M
  receiver : Prog (Receiving fits) ε' β
  sent : Nat
  received : Nat

/-- Nothing has been sent. -/
def Link.start (p : Prog (Sending M) ε α) (q : Prog (Receiving fits) ε' β) :
    Link fits ε α ε' β := ⟨p, [], q, 0, 0⟩

/-- One step of either side; the queue has room for one message and `spare` more. -/
inductive Step (spare : Nat) : Link fits ε α ε' β → Link fits ε α ε' β → Prop where
  | send {m : M} {k : Unit → Prog (Sending M) ε α} {queue : List M}
      {q : Prog (Receiving fits) ε' β} {sent received : Nat} : queue.length ≤ spare →
      Step spare ⟨.call m k, queue, q, sent, received⟩
        ⟨k (), queue ++ [m], q, sent + 1, received⟩
  | receive {p : Prog (Sending M) ε α} {m : M} {queue : List M} {w : W}
      {k : {m : M // fits w m} → Prog (Receiving fits) ε' β} {sent received : Nat}
      (hm : fits w m) : Step spare ⟨p, m :: queue, .call w k, sent, received⟩
        ⟨p, queue, k ⟨m, hm⟩, sent, received + 1⟩

/-- Any number of steps, in any order. -/
def Run (spare : Nat) : Link fits ε α ε' β → Link fits ε α ε' β → Prop :=
  Relation.ReflTransGen (Step spare)

/-- A program at its end. -/
def finished {I : Iface} : Except ε α → Prog I ε α
  | .ok a => .ret a
  | .error e => .raise e

/-- What is in the queue and what is still to be said make the receiver end. -/
structure Agreed (total : Nat) (a : Except ε α) (b : Except ε' β) (s : Link fits ε α ε' β) :
    Prop where
  ends : ∃ unsent : List M, Says s.sender unsent a ∧ Hears s.receiver (s.queue ++ unsent) b ∧
    s.sent + unsent.length = total
  inFlight : s.received + s.queue.length = s.sent

theorem Agreed.step {spare total : Nat} {a : Except ε α} {b : Except ε' β}
    {s s' : Link fits ε α ε' β} (h : Agreed total a b s)
    (hstep : Step spare s s') : Agreed total a b s' := by
  obtain ⟨⟨unsent, hspoken, hhears, htotal⟩, hflight⟩ := h
  cases hstep with
  | send _ =>
      obtain ⟨rest, rfl, hrest⟩ := hspoken
      dsimp only at hhears htotal hflight
      rw [List.length_cons] at htotal
      refine ⟨⟨rest, hrest, ?_, by dsimp only; omega⟩, ?_⟩
      · rw [List.append_assoc]
        exact hhears
      · rw [List.length_append, List.length_singleton]
        dsimp only
        omega
  | receive _ =>
      obtain ⟨m', rest, heq, hrest⟩ := hhears
      cases heq
      dsimp only at hflight
      rw [List.length_cons] at hflight
      exact ⟨⟨unsent, hspoken, hrest, htotal⟩, by dsimp only; omega⟩

theorem Agreed.run {spare : Nat} {p : Prog (Sending M) ε α} {q : Prog (Receiving fits) ε' β}
    {ms : List M} {a : Except ε α} {b : Except ε' β} (hp : Says p ms a) (hq : Hears q ms b)
    {s : Link fits ε α ε' β} (h : Run spare (.start p q) s) :
    Agreed ms.length a b s := by
  induction h with
  | refl => exact ⟨⟨ms, hp, hq, Nat.zero_add _⟩, rfl⟩
  | tail _ hstep ih => exact ih.step hstep

theorem Says.of_nil {p : Prog (Sending M) ε α} {a : Except ε α} (h : Says p [] a) :
    p = finished a := by
  cases p with
  | ret _ => rw [h.2]; rfl
  | raise _ => rw [h.2]; rfl
  | halt => exact h.elim
  | call _ _ =>
      obtain ⟨_, heq, -⟩ := h
      cases heq

theorem Hears.of_nil {q : Prog (Receiving fits) ε' β} {b : Except ε' β} (h : Hears q [] b) :
    q = finished b := by
  cases q with
  | ret _ => rw [h.2]; rfl
  | raise _ => rw [h.2]; rfl
  | halt => exact h.elim
  | call _ _ =>
      obtain ⟨_, _, heq, -⟩ := h
      cases heq

/-- A receiver that is not at its end has asked for the next message. -/
theorem Hears.of_cons {q : Prog (Receiving fits) ε' β} {m : M} {ms : List M} {b : Except ε' β}
    (h : Hears q (m :: ms) b) : ∃ w k, q = .call w k ∧ fits w m := by
  cases q with
  | ret _ => cases h.1
  | raise _ => cases h.1
  | halt => exact h.elim
  | call w k =>
      obtain ⟨m', _, heq, -⟩ := h
      cases heq
      exact ⟨w, k, rfl, m'.property⟩

/-- A sender that is not at its end has the next message. -/
theorem Says.of_cons {p : Prog (Sending M) ε α} {m : M} {ms : List M} {a : Except ε α}
    (h : Says p (m :: ms) a) : ∃ k, p = .call m k := by
  cases p with
  | ret _ => cases h.1
  | raise _ => cases h.1
  | halt => exact h.elim
  | call m' k =>
      obtain ⟨_, heq, -⟩ := h
      cases heq
      exact ⟨k, rfl⟩

/-- **Every run ends, and in one state**: no side sends or receives more than the
messages there are, and a run that can go no further has sent and received them
all and has both sides at their ends. -/
theorem run_ends {spare : Nat} {p : Prog (Sending M) ε α} {q : Prog (Receiving fits) ε' β}
    {ms : List M} {a : Except ε α} {b : Except ε' β} (hp : Says p ms a) (hq : Hears q ms b)
    {s : Link fits ε α ε' β} (h : Run spare (.start p q) s) :
    s.sent ≤ ms.length ∧ s.received ≤ ms.length ∧
      ((∃ s', Step spare s s') ∨
        s = ⟨finished a, [], finished b, ms.length, ms.length⟩) := by
  obtain ⟨⟨unsent, hspoken, hhears, htotal⟩, hflight⟩ := Agreed.run hp hq h
  refine ⟨by omega, by omega, ?_⟩
  obtain ⟨sender, queue, receiver, sent, received⟩ := s
  dsimp only at hspoken hhears htotal hflight
  cases queue with
  | cons m queue =>
      obtain ⟨w, k, rfl, hfits⟩ := hhears.of_cons
      exact Or.inl ⟨_, .receive hfits⟩
  | nil =>
      cases unsent with
      | cons m unsent =>
          obtain ⟨k, rfl⟩ := hspoken.of_cons
          exact Or.inl ⟨_, .send (Nat.zero_le _)⟩
      | nil =>
          rw [List.length_nil] at htotal hflight
          obtain rfl : sent = ms.length := htotal
          obtain rfl : received = ms.length := hflight
          rw [hspoken.of_nil, hhears.of_nil]
          exact Or.inr rfl

attribute [irreducible] Says Hears

end Channel

end LmResiliency
