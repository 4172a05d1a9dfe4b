/-
# Interleave — objects whose methods run as interleaved atomic operations

A method is a program over the atomic operations of a shared store.  Any
number of processes each own one object and call its methods one after the
other; between two operations of one process every other process may run,
and a process may stop for ever at any point.

`Safe p Q E s` says that from the store `s` the program `p` keeps the store
invariant, moves the store only as the guarantee allows, and ends with `Q`
(returned) or `E` (raised), whatever the other processes do meanwhile
within the same guarantee.  `System.Run.sound` turns one such fact for each
method into a fact about every state of every run.
-/
import LmResiliency.Lib.Prog
import Mathlib.Logic.Relation

namespace LmResiliency.Interleave

/-! ## One program among others -/

/-- A store with its operations, its invariant and the moves it may make. -/
structure World (I : Iface) (S : Type) where
  /-- operation `o` on the store `s` returns `r` and leaves `s'` -/
  exec : S → (o : I.Op) → I.Res o → S → Prop
  inv : S → Prop
  guar : S → S → Prop

section World

variable {I : Iface} {S : Type} (W : World I S)

/-- Nothing happened, or a move that the guarantee allows. -/
def World.Moves (s s' : S) : Prop := s' = s ∨ (W.inv s' ∧ W.guar s s')

/-- The stores that others may leave, any number of moves later. -/
def World.Later : S → S → Prop := Relation.ReflTransGen W.Moves

variable {W}

theorem World.Later.refl (s : S) : W.Later s s := Relation.ReflTransGen.refl

theorem World.Later.trans {s s' s'' : S} (h : W.Later s s') (h' : W.Later s' s'') :
    W.Later s s'' := Relation.ReflTransGen.trans h h'

theorem World.Moves.later {s s' : S} (h : W.Moves s s') : W.Later s s' :=
  Relation.ReflTransGen.single h

theorem World.Later.inv {s s' : S} (h : W.Later s s') (hs : W.inv s) : W.inv s' := by
  induction h with
  | refl => exact hs
  | tail _ hmove ih =>
      rcases hmove with rfl | ⟨hinv, -⟩
      · exact ih
      · exact hinv

/-- A fact that every move keeps is kept for ever. -/
theorem World.Later.keeps {P : S → Prop} (hP : ∀ s s', W.inv s → W.guar s s' → P s → P s')
    {s s' : S} (h : W.Later s s') (hs : W.inv s) (hp : P s) : P s' := by
  induction h with
  | refl => exact hp
  | tail hpre hmove ih =>
      rcases hmove with rfl | ⟨-, hg⟩
      · exact ih
      · exact hP _ _ (World.Later.inv hpre hs) hg ih

variable {ε α β : Type} (W)

/-- The program is safe among processes that keep the guarantee. -/
def Safe (Q : α → S → Prop) (E : ε → S → Prop) : Prog I ε α → S → Prop
  | .ret a, s => ∀ s', W.Later s s' → Q a s'
  | .raise e, s => ∀ s', W.Later s s' → E e s'
  | .halt, _ => True
  | .call o k, s => ∀ s₁, W.Later s s₁ → ∀ r s₂, W.exec s₁ o r s₂ →
      W.Moves s₁ s₂ ∧ Safe Q E (k r) s₂

variable {W} {Q Q' : α → S → Prop} {E E' : ε → S → Prop}

theorem Safe.ret {a : α} {s : S} (h : ∀ s', W.Later s s' → Q a s') :
    Safe W Q E (.ret a) s := h

theorem Safe.raise {e : ε} {s : S} (h : ∀ s', W.Later s s' → E e s') :
    Safe W Q E (.raise e) s := h

theorem Safe.halt {s : S} : Safe W Q E .halt s := trivial

theorem Safe.later {p : Prog I ε α} {s s' : S} (h : Safe W Q E p s) (hl : W.Later s s') :
    Safe W Q E p s' := by
  cases p with
  | ret a => exact fun s'' hl' => h s'' (hl.trans hl')
  | raise e => exact fun s'' hl' => h s'' (hl.trans hl')
  | halt => trivial
  | call o k => exact fun s₁ hl' => h s₁ (hl.trans hl')

theorem Safe.mono {p : Prog I ε α} {s : S} (hs : W.inv s) (h : Safe W Q E p s)
    (hQ : ∀ a s', W.inv s' → W.Later s s' → Q a s' → Q' a s')
    (hE : ∀ e s', W.inv s' → W.Later s s' → E e s' → E' e s') : Safe W Q' E' p s := by
  induction p generalizing s with
  | ret a => exact fun s' hl => hQ a s' (hl.inv hs) hl (h s' hl)
  | raise e => exact fun s' hl => hE e s' (hl.inv hs) hl (h s' hl)
  | halt => trivial
  | call o k ih =>
      intro s₁ hl r s₂ hx
      obtain ⟨hm, hk⟩ := h s₁ hl r s₂ hx
      have hl₂ : W.Later s s₂ := hl.trans hm.later
      exact ⟨hm, ih r (hl₂.inv hs) hk (fun a s' hs' hl' => hQ a s' hs' (hl₂.trans hl'))
        (fun e s' hs' hl' => hE e s' hs' (hl₂.trans hl'))⟩

theorem Safe.bind {R : β → S → Prop} {p : Prog I ε α} {f : α → Prog I ε β} {s : S}
    (hs : W.inv s) (h : Safe W Q E p s)
    (hf : ∀ a s', W.inv s' → W.Later s s' → Q a s' → Safe W R E (f a) s') :
    Safe W R E (p >>= f) s := by
  induction p generalizing s with
  | ret a => exact hf a s hs (.refl s) (h s (.refl s))
  | raise e => exact h
  | halt => trivial
  | call o k ih =>
      intro s₁ hl r s₂ hx
      obtain ⟨hm, hk⟩ := h s₁ hl r s₂ hx
      have hl₂ : W.Later s s₂ := hl.trans hm.later
      exact ⟨hm, ih r (hl₂.inv hs) hk fun a s' hs' hl' => hf a s' hs' (hl₂.trans hl')⟩

theorem Safe.tryCatch {ε' : Type} {E' : ε' → S → Prop} {p : Prog I ε α}
    {f : ε → Prog I ε' α} {s : S} (hs : W.inv s) (h : Safe W Q E p s)
    (hf : ∀ e s', W.inv s' → W.Later s s' → E e s' → Safe W Q E' (f e) s') :
    Safe W Q E' (p.tryCatch f) s := by
  induction p generalizing s with
  | ret a => exact h
  | raise e => exact hf e s hs (.refl s) (h s (.refl s))
  | halt => trivial
  | call o k ih =>
      intro s₁ hl r s₂ hx
      obtain ⟨hm, hk⟩ := h s₁ hl r s₂ hx
      have hl₂ : W.Later s s₂ := hl.trans hm.later
      exact ⟨hm, ih r (hl₂.inv hs) hk fun a s' hs' hl' => hf a s' hs' (hl₂.trans hl')⟩

theorem Safe.read {o : I.Op} {k : I.Res o → Prog I ε α} {s : S} (hs : W.inv s)
    (hread : ∀ s₁ r s₂, W.exec s₁ o r s₂ → s₂ = s₁)
    (hk : ∀ s₁ r, W.inv s₁ → W.Later s s₁ → W.exec s₁ o r s₁ → Safe W Q E (k r) s₁) :
    Safe W Q E (.call o k) s := by
  intro s₁ hl r s₂ hx
  obtain rfl := hread s₁ r s₂ hx
  exact ⟨.inl rfl, hk s₂ r (hl.inv hs) hl hx⟩

theorem Safe.write {o : I.Op} {k : I.Res o → Prog I ε α} {s : S} (hs : W.inv s)
    (hmove : ∀ s₁ r s₂, W.inv s₁ → W.Later s s₁ → W.exec s₁ o r s₂ → W.Moves s₁ s₂)
    (hk : ∀ s₁ r s₂, W.inv s₁ → W.inv s₂ → W.Later s s₁ → W.exec s₁ o r s₂ →
      W.Later s s₂ → Safe W Q E (k r) s₂) :
    Safe W Q E (.call o k) s := by
  intro s₁ hl r s₂ hx
  have hm := hmove s₁ r s₂ (hl.inv hs) hl hx
  have hl₂ : W.Later s s₂ := hl.trans hm.later
  exact ⟨hm, hk s₁ r s₂ (hl.inv hs) (hl₂.inv hs) hl hx hl₂⟩

theorem Safe.lift {ω : Type} {w : ω} {p : Prog I ε α} {s : S} {Q : α × ω → S → Prop}
    {E : ε × ω → S → Prop} (h : Safe W (fun a => Q (a, w)) (fun e => E (e, w)) p s) :
    Safe W Q E (Meth.lift p w) s := by
  induction p generalizing s with
  | ret a => exact h
  | raise e => exact h
  | halt => trivial
  | call o k ih =>
      intro s₁ hl r s₂ hx
      obtain ⟨hm, hk⟩ := h s₁ hl r s₂ hx
      exact ⟨hm, ih r hk⟩

theorem Safe.mbind {ω : Type} {w : ω} {m : Meth I ω ε α} {f : α → Meth I ω ε β} {s : S}
    {Q : α × ω → S → Prop} {R : β × ω → S → Prop} {E : ε × ω → S → Prop} (hs : W.inv s)
    (h : Safe W Q E (m w) s)
    (hf : ∀ a w' s', W.inv s' → W.Later s s' → Q (a, w') s' → Safe W R E (f a w') s') :
    Safe W R E ((m >>= f) w) s :=
  Safe.bind hs h fun x s' hs' hl hq => hf x.1 x.2 s' hs' hl hq

theorem Safe.mtryCatch {ω : Type} {w : ω} {m : Meth I ω ε α} {f : ε → Meth I ω ε α} {s : S}
    {Q : α × ω → S → Prop} {E E' : ε × ω → S → Prop} (hs : W.inv s)
    (h : Safe W Q E (m w) s)
    (hf : ∀ e w' s', W.inv s' → W.Later s s' → E (e, w') s' → Safe W Q E' (f e w') s') :
    Safe W Q E' (Meth.tryCatch m f w) s :=
  Safe.tryCatch hs h fun x s' hs' hl he => hf x.1 x.2 s' hs' hl he

end World

/-! ## Runs -/

/-- Processes, the calls each may make on its object, and their programs. -/
structure System (I : Iface) where
  Proc : Type
  Call : Proc → Type
  Attrs : Type
  Value : Type
  Exn : Type
  body : (p : Proc) → Call p → Meth I Attrs Exn Value

section Runs

variable {I : Iface} {S : Type} (Y : System I)

/-- The calls a process has completed, the latest first, with their outcome. -/
abbrev System.History (p : Y.Proc) : Type := List (Y.Call p × Except Y.Exn Y.Value)

/-- One process: its completed calls, the attributes that the last of them
left, and the call that is running, if any. -/
structure System.Thread (p : Y.Proc) : Type where
  history : Y.History p
  attrs : Y.Attrs
  current : Option (Y.Call p × Prog I (Y.Exn × Y.Attrs) (Y.Value × Y.Attrs))

structure System.Config (S : Type) : Type where
  store : S
  threads : (p : Y.Proc) → Y.Thread p

variable {Y}

open Classical in
/-- Process `p` moves from one thread state to another. -/
noncomputable def System.Config.with (c : Y.Config S) (p : Y.Proc) (s : S) (t : Y.Thread p) :
    Y.Config S := { store := s, threads := Function.update c.threads p t }

variable (exec : S → (o : I.Op) → I.Res o → S → Prop)

/-- One step of one process. -/
inductive System.Step : Y.Config S → Y.Config S → Prop where
  /-- an idle process starts a call -/
  | start (c : Y.Config S) (p : Y.Proc) (k : Y.Call p) (h : (c.threads p).current = none) :
      Step c (c.with p c.store
        { c.threads p with current := some (k, Y.body p k (c.threads p).attrs) })
  /-- a running process performs its next operation -/
  | op (c : Y.Config S) (p : Y.Proc) (k : Y.Call p) (o : I.Op)
      (next : I.Res o → Prog I (Y.Exn × Y.Attrs) (Y.Value × Y.Attrs)) (r : I.Res o) (s : S)
      (h : (c.threads p).current = some (k, .call o next)) (hx : exec c.store o r s) :
      Step c (c.with p s { c.threads p with current := some (k, next r) })
  /-- a call returns -/
  | ret (c : Y.Config S) (p : Y.Proc) (k : Y.Call p) (v : Y.Value) (w : Y.Attrs)
      (h : (c.threads p).current = some (k, .ret (v, w))) :
      Step c (c.with p c.store ⟨(k, .ok v) :: (c.threads p).history, w, none⟩)
  /-- a call raises -/
  | raise (c : Y.Config S) (p : Y.Proc) (k : Y.Call p) (e : Y.Exn) (w : Y.Attrs)
      (h : (c.threads p).current = some (k, .raise (e, w))) :
      Step c (c.with p c.store ⟨(k, .error e) :: (c.threads p).history, w, none⟩)

/-- Any number of steps. -/
def System.Run : Y.Config S → Y.Config S → Prop := Relation.ReflTransGen (System.Step exec)

/-- The configuration in which no process has called anything. -/
def System.idle (Y : System I) (s : S) (w : Y.Attrs) : Y.Config S := ⟨s, fun _ => ⟨[], w, none⟩⟩

/-- What is known of a process: of the calls it completed, of its
attributes, and of the store. -/
abbrev System.Known (Y : System I) (S : Type) : Type :=
  (p : Y.Proc) → Y.History p → Y.Attrs → S → Prop

/-- The proof of a system: what is known of each process is kept by the
moves of the others and re-established by each of its own calls. -/
structure System.Proof (W : World I S) (K : Y.Known S) : Prop where
  keeps : ∀ p l w s s', W.inv s → W.Later s s' → K p l w s → K p l w s'
  call : ∀ p k l w s, W.inv s → K p l w s →
    Safe W (fun x s' => K p ((k, .ok x.1) :: l) x.2 s')
      (fun x s' => K p ((k, .error x.1) :: l) x.2 s') (Y.body p k w) s

/-- What holds of one thread. -/
def System.Sound (W : World I S) (K : Y.Known S) (p : Y.Proc) (t : Y.Thread p)
    (s : S) : Prop :=
  K p t.history t.attrs s ∧
    ∀ k prog, t.current = some (k, prog) →
      Safe W (fun x s' => K p ((k, .ok x.1) :: t.history) x.2 s')
        (fun x s' => K p ((k, .error x.1) :: t.history) x.2 s') prog s

/-- The invariant of a configuration. -/
structure System.Inv (W : World I S) (K : Y.Known S) (c : Y.Config S) : Prop where
  store : W.inv c.store
  threads : ∀ p, System.Sound W K p (c.threads p) c.store

variable {W : World I S} {K : Y.Known S}

/-- The part of the step lemma that all steps share: one thread and the
store change, the other threads see a later store. -/
theorem System.Inv.with (hY : System.Proof W K) {c : Y.Config S}
    (hc : System.Inv W K c) (p : Y.Proc) {s : S} {t : Y.Thread p}
    (hmove : W.Moves c.store s) (ht : System.Sound W K p t s) :
    System.Inv W K (c.with p s t) := by
  have hl : W.Later c.store s := hmove.later
  refine ⟨hl.inv hc.store, fun q => ?_⟩
  by_cases hq : q = p
  · subst hq
    simpa [System.Config.with] using ht
  · have hother : (c.with p s t).threads q = c.threads q := by
      simp [System.Config.with, hq]
    rw [hother]
    obtain ⟨hknown, hrun⟩ := hc.threads q
    exact ⟨hY.keeps q _ _ _ _ hc.store hl hknown, fun k prog hk => (hrun k prog hk).later hl⟩

/-- Step lemma: a step keeps the invariant and moves the store as the
guarantee allows. -/
theorem System.Step.sound (hY : System.Proof W K) {c c' : Y.Config S}
    (hc : System.Inv W K c) (h : System.Step W.exec c c') :
    System.Inv W K c' ∧ W.Moves c.store c'.store := by
  cases h with
  | start p k h =>
      obtain ⟨hknown, -⟩ := hc.threads p
      refine ⟨hc.with hY p (.inl rfl) ⟨hknown, ?_⟩, .inl rfl⟩
      intro k' prog hk
      cases hk
      exact hY.call p k _ _ _ hc.store hknown
  | op p k o next r s h hx =>
      obtain ⟨hknown, hrun⟩ := hc.threads p
      obtain ⟨hmove, hnext⟩ := hrun k _ h c.store (.refl _) r s hx
      refine ⟨hc.with hY p hmove
        ⟨hY.keeps p _ _ _ _ hc.store hmove.later hknown, ?_⟩, hmove⟩
      intro k' prog hk
      cases hk
      exact hnext
  | ret p k v w h =>
      obtain ⟨-, hrun⟩ := hc.threads p
      exact ⟨hc.with hY p (.inl rfl) ⟨hrun k _ h c.store (.refl _), fun _ _ hk => by cases hk⟩,
        .inl rfl⟩
  | raise p k e w h =>
      obtain ⟨-, hrun⟩ := hc.threads p
      exact ⟨hc.with hY p (.inl rfl) ⟨hrun k _ h c.store (.refl _), fun _ _ hk => by cases hk⟩,
        .inl rfl⟩

/-- **Run lemma**: every reachable configuration keeps the invariant, and
its store is one the guarantee leads to. -/
theorem System.Run.sound (hY : System.Proof W K) {c c' : Y.Config S}
    (hc : System.Inv W K c) (h : System.Run W.exec c c') :
    System.Inv W K c' ∧ W.Later c.store c'.store := by
  induction h with
  | refl => exact ⟨hc, .refl _⟩
  | tail _ hstep ih =>
      obtain ⟨hinv, hmove⟩ := hstep.sound hY ih.1
      exact ⟨hinv, ih.2.trans hmove.later⟩

theorem System.Inv.idle {s : S} {w : Y.Attrs} (hs : W.inv s) (hw : ∀ p, K p [] w s) :
    System.Inv W K (Y.idle s w) :=
  ⟨hs, fun p => ⟨hw p, fun _ _ h => by cases h⟩⟩

/-! ## Operation by operation -/

section Each

variable {exec exec' : S → (o : I.Op) → I.Res o → S → Prop} {P : I.Op → Prop} {J : S → Prop}

/-- The store keeps `J`, and every running program performs operations of `P` only. -/
structure System.Keeps (P : I.Op → Prop) (J : S → Prop) (c : Y.Config S) : Prop where
  store : J c.store
  only : ∀ p k prog, (c.threads p).current = some (k, prog) → prog.Only P

theorem System.Keeps.with {c : Y.Config S} (hc : System.Keeps P J c) (p : Y.Proc) {s : S}
    {t : Y.Thread p} (hs : J s) (ht : ∀ k prog, t.current = some (k, prog) → prog.Only P) :
    System.Keeps P J (c.with p s t) := by
  refine ⟨hs, fun q k prog hq => ?_⟩
  by_cases hqp : q = p
  · subst hqp
    exact ht k prog (by simpa [System.Config.with] using hq)
  · exact hc.only q k prog (by simpa [System.Config.with, hqp] using hq)

theorem System.Step.each (hbody : ∀ p k w, (Y.body p k w).Only P)
    (hop : ∀ s o r s', P o → J s → exec s o r s' → J s' ∧ exec' s o r s') {c c' : Y.Config S}
    (hc : System.Keeps P J c) (h : System.Step exec c c') :
    System.Keeps P J c' ∧ System.Step exec' c c' := by
  cases h with
  | start p k hidle =>
      exact ⟨hc.with p hc.store (fun _ _ heq => by cases heq; exact hbody p k _),
        .start c p k hidle⟩
  | op p k o next r s hcur hx =>
      obtain ⟨hP, hnext⟩ := hc.only p k _ hcur
      obtain ⟨hJ, hx'⟩ := hop _ o r s hP hc.store hx
      exact ⟨hc.with p hJ (fun _ _ heq => by cases heq; exact hnext r),
        .op c p k o next r s hcur hx'⟩
  | ret p k v w hcur =>
      exact ⟨hc.with p hc.store (fun _ _ h => by cases h), .ret c p k v w hcur⟩
  | raise p k e w hcur =>
      exact ⟨hc.with p hc.store (fun _ _ h => by cases h), .raise c p k e w hcur⟩

/-- **What every operation keeps, a run keeps**, and a run is one of stricter operations where
each is one after `J`. -/
theorem System.Run.each (hbody : ∀ p k w, (Y.body p k w).Only P)
    (hop : ∀ s o r s', P o → J s → exec s o r s' → J s' ∧ exec' s o r s') {c c' : Y.Config S}
    (hc : System.Keeps P J c) (h : System.Run exec c c') :
    System.Keeps P J c' ∧ System.Run exec' c c' := by
  induction h with
  | refl => exact ⟨hc, .refl⟩
  | tail _ hstep ih =>
      obtain ⟨hkeeps, hstep'⟩ := hstep.each hbody hop ih.1
      exact ⟨hkeeps, ih.2.tail hstep'⟩

theorem System.Keeps.idle {s : S} {w : Y.Attrs} (hs : J s) :
    System.Keeps P J (Y.idle s w) :=
  ⟨hs, fun _ _ _ h => by cases h⟩

end Each

/-! ## A process that runs alone -/

/-- The operations of one program, performed one after the other. -/
inductive Alone {ε α : Type} : Prog I ε α → S → Prog I ε α → S → Prop where
  | done (p : Prog I ε α) (s : S) : Alone p s p s
  | op {o : I.Op} {k : I.Res o → Prog I ε α} {s s' s'' : S} {p : Prog I ε α} (r : I.Res o)
      (hx : exec s o r s') (h : Alone (k r) s' p s'') : Alone (.call o k) s p s''

variable {exec}

theorem Alone.trans {ε α : Type} {p q r : Prog I ε α} {s s' s'' : S}
    (h : Alone exec p s q s') (h' : Alone exec q s' r s'') : Alone exec p s r s'' := by
  induction h with
  | done => exact h'
  | op r hx _ ih => exact .op r hx (ih h')

theorem Alone.mono {exec' : S → (o : I.Op) → I.Res o → S → Prop}
    (hexec : ∀ s o r s', exec s o r s' → exec' s o r s') {ε α : Type} {p q : Prog I ε α} {s s' : S}
    (h : Alone exec p s q s') : Alone exec' p s q s' := by
  induction h with
  | done p s => exact .done p s
  | op r hx _ ih => exact .op r (hexec _ _ _ _ hx) ih

theorem Alone.lift {ω ε α : Type} {p : Prog I ε α} {a : α} {w : ω} {s s' : S}
    (h : Alone exec p s (.ret a) s') : Alone exec (Meth.lift p w) s (.ret (a, w)) s' := by
  generalize hq : Prog.ret a = q at h
  induction h with
  | done p s =>
      subst hq
      exact .done _ _
  | op r hx _ ih => exact .op r hx (ih hq)

theorem Alone.tryCatch {ε ε' α : Type} {p : Prog I ε α} {f : ε → Prog I ε' α} {a : α}
    {s s' : S} (h : Alone exec p s (.ret a) s') :
    Alone exec (p.tryCatch f) s (.ret a) s' := by
  generalize hq : Prog.ret a = q at h
  induction h with
  | done p s =>
      subst hq
      exact .done _ _
  | op r hx _ ih => exact .op r hx (ih hq)

theorem Alone.bind {ε α β : Type} {p : Prog I ε α} {f : α → Prog I ε β} {a : α}
    {q : Prog I ε β} {s t s' : S} (h : Alone exec p s (.ret a) t)
    (h' : Alone exec (f a) t q s') : Alone exec (p >>= f) s q s' := by
  generalize hr : Prog.ret a = r at h
  induction h with
  | done p s =>
      subst hr
      exact h'
  | op r hx _ ih => exact .op r hx (ih h' hr)

theorem Alone.mbind {ω ε α β : Type} {m : Meth I ω ε α} {f : α → Meth I ω ε β} {a : α}
    {w v : ω} {q : Prog I (ε × ω) (β × ω)} {s t s' : S}
    (h : Alone exec (m w) s (.ret (a, v)) t) (h' : Alone exec (f a v) t q s') :
    Alone exec ((m >>= f) w) s q s' := Alone.bind h h'

theorem Alone.pure {ω ε α : Type} {a : α} {w : ω} {s : S} :
    Alone exec ((Pure.pure a : Meth I ω ε α) w) s (.ret (a, w)) s := .done _ _

/-- A program that stops half way, in the store `s₁`, goes on from the store
`s₂` that the others have left, and ends in `r`. -/
def Paused {ε α : Type} (exec : S → (o : I.Op) → I.Res o → S → Prop) (p : Prog I ε α)
    (s s₁ s₂ : S) (r : Prog I ε α) (s₃ : S) : Prop :=
  ∃ q, Alone exec p s q s₁ ∧ Alone exec q s₂ r s₃

theorem Alone.segment {ε α β : Type} {p q : Prog I ε α} {f : α → Prog I ε β} {s s' : S}
    (h : Alone exec p s q s') : Alone exec (p >>= f) s (q >>= f) s' := by
  induction h with
  | done p s => exact .done _ _
  | op r hx _ ih => exact .op r hx ih

theorem Alone.lift_segment {ω ε α : Type} {p q : Prog I ε α} {w : ω} {s s' : S}
    (h : Alone exec p s q s') : Alone exec (Meth.lift p w) s (Meth.lift q w) s' := by
  induction h with
  | done p s => exact .done _ _
  | op r hx _ ih => exact .op r hx ih

theorem Paused.mbind {ω ε α β : Type} {m : Meth I ω ε α} {f : α → Meth I ω ε β} {a : α}
    {w w' : ω} {r : Prog I (ε × ω) (β × ω)} {s s₁ s₂ s₃ s₄ : S}
    (h : Paused exec (m w) s s₁ s₂ (.ret (a, w')) s₃) (h' : Alone exec (f a w') s₃ r s₄) :
    Paused exec ((m >>= f) w) s s₁ s₂ r s₄ := by
  obtain ⟨q, hq, hr⟩ := h
  exact ⟨_, hq.segment, hr.bind h'⟩

theorem Alone.paused {ω ε α β : Type} {m : Meth I ω ε α} {f : α → Meth I ω ε β} {a : α}
    {w v : ω} {r : Prog I (ε × ω) (β × ω)} {s s₀ s₁ s₂ s₃ : S}
    (h : Alone exec (m w) s (.ret (a, v)) s₀) (h' : Paused exec (f a v) s₀ s₁ s₂ r s₃) :
    Paused exec ((m >>= f) w) s s₁ s₂ r s₃ := by
  obtain ⟨q, hq, hr⟩ := h'
  exact ⟨q, h.mbind hq, hr⟩

/-! ## Every run of a program alone -/

section Ends

variable {ε ε' α β : Type}

variable (exec) in
/-- **The program ends, alone**, with `Q` (returned) or `E` (raised), whatever
its operations answer. -/
def Ends (Q : α → S → Prop) (E : ε → S → Prop) : Prog I ε α → S → Prop
  | .ret a, s => Q a s
  | .raise e, s => E e s
  | .halt, _ => False
  | .call o k, s => (∃ r s', exec s o r s') ∧ ∀ r s', exec s o r s' → Ends Q E (k r) s'

variable {Q Q' : α → S → Prop} {E E' : ε → S → Prop} {p : Prog I ε α} {s : S}

theorem Ends.mono (h : Ends exec Q E p s) (hQ : ∀ a s', Q a s' → Q' a s')
    (hE : ∀ e s', E e s' → E' e s') : Ends exec Q' E' p s := by
  induction p generalizing s with
  | ret a => exact hQ a s h
  | raise e => exact hE e s h
  | halt => exact h
  | call o k ih => exact ⟨h.1, fun r s' hx => ih r (h.2 r s' hx)⟩

theorem Ends.bind {R : β → S → Prop} {f : α → Prog I ε β} (h : Ends exec Q E p s)
    (hf : ∀ a s', Q a s' → Ends exec R E (f a) s') : Ends exec R E (p >>= f) s := by
  induction p generalizing s with
  | ret a => exact hf a s h
  | raise e => exact h
  | halt => exact h
  | call o k ih => exact ⟨h.1, fun r s' hx => ih r (h.2 r s' hx)⟩

theorem Ends.tryCatch {E' : ε' → S → Prop} {f : ε → Prog I ε' α} (h : Ends exec Q E p s)
    (hf : ∀ e s', E e s' → Ends exec Q E' (f e) s') : Ends exec Q E' (p.tryCatch f) s := by
  induction p generalizing s with
  | ret a => exact h
  | raise e => exact hf e s h
  | halt => exact h
  | call o k ih => exact ⟨h.1, fun r s' hx => ih r (h.2 r s' hx)⟩

theorem Ends.ret {a : α} (h : Q a s) : Ends exec Q E (.ret a : Prog I ε α) s := h

theorem Ends.raise {e : ε} (h : E e s) : Ends exec Q E (.raise e : Prog I ε α) s := h

theorem Ends.of_ret {a : α} (h : Ends exec Q E (.ret a : Prog I ε α) s) : Q a s := h

theorem Ends.of_raise {e : ε} (h : Ends exec Q E (.raise e : Prog I ε α) s) : E e s := h

theorem Ends.call {o : I.Op} {k : I.Res o → Prog I ε α} (h : ∃ r s', exec s o r s')
    (hk : ∀ r s', exec s o r s' → Ends exec Q E (k r) s') : Ends exec Q E (.call o k) s :=
  ⟨h, hk⟩

theorem Ends.op {o : I.Op} {k : I.Res o → Prog I ε α} (r : I.Res o) (s' : S)
    (hx : exec s o r s') (hone : ∀ r' t, exec s o r' t → r' = r ∧ t = s')
    (h : Ends exec Q E (k r) s') : Ends exec Q E (.call o k) s := by
  refine ⟨⟨r, s', hx⟩, fun r' t hx' => ?_⟩
  obtain ⟨rfl, rfl⟩ := hone r' t hx'
  exact h

/-- What ends well ends well from every point of a run. -/
theorem Ends.alone {q : Prog I ε α} {s' : S} (h : Ends exec Q E p s)
    (hr : Alone exec p s q s') : Ends exec Q E q s' := by
  induction hr with
  | done => exact h
  | op r hx _ ih => exact ih (h.2 r _ hx)

/-- What ends does end: there is a run to the end. -/
theorem Ends.finishes (h : Ends exec Q E p s) :
    (∃ a s', Alone exec p s (.ret a) s' ∧ Q a s') ∨
      ∃ e s', Alone exec p s (.raise e) s' ∧ E e s' := by
  induction p generalizing s with
  | ret a => exact .inl ⟨a, s, .done _ _, h⟩
  | raise e => exact .inr ⟨e, s, .done _ _, h⟩
  | halt => exact h.elim
  | call o k ih =>
      obtain ⟨⟨r, s', hx⟩, hnext⟩ := h
      rcases ih r (hnext r s' hx) with ⟨a, t, hrun, hq⟩ | ⟨e, t, hrun, he⟩
      · exact .inl ⟨a, t, .op r hx hrun, hq⟩
      · exact .inr ⟨e, t, .op r hx hrun, he⟩

/-- A program does not both always return and always raise. -/
theorem Ends.not_both (h : Ends exec Q (fun _ _ => False) p s)
    (h' : Ends exec (fun _ _ => False) E p s) : False := by
  rcases h.finishes with ⟨a, s', hrun, -⟩ | ⟨e, s', -, he⟩
  · exact h'.alone hrun
  · exact he

end Ends

/-- A running process performs operations while the others stand still. -/
theorem System.Run.operations {c : Y.Config S} {p : Y.Proc} {k : Y.Call p}
    {m q : Prog I (Y.Exn × Y.Attrs) (Y.Value × Y.Attrs)} {s : S}
    (hcur : (c.threads p).current = some (k, m)) (h : Alone exec m c.store q s) :
    ∃ c', System.Run exec c c' ∧ c'.store = s ∧
      c'.threads p = { c.threads p with current := some (k, q) } ∧
      ∀ p', p' ≠ p → c'.threads p' = c.threads p' := by
  generalize hs₀ : c.store = s₀ at h
  induction h generalizing c with
  | done m s =>
      refine ⟨c, .refl, hs₀, ?_, fun _ _ => rfl⟩
      rw [← hcur]
  | @op o next s₀ s' s'' q r hx _ ih =>
      subst hs₀
      obtain ⟨c₁, hr, hs₁, ht, hother⟩ := ih
        (c := c.with p s' { c.threads p with current := some (k, next r) })
        (by simp [System.Config.with]) rfl
      refine ⟨c₁, .head (.op c p k o next r s' hcur hx) hr, hs₁, ?_, fun p' hp => ?_⟩
      · rw [ht]
        simp [System.Config.with]
      · rw [hother p' hp]
        simp [System.Config.with, hp]

/-- An idle process starts a call and performs its first operations. -/
theorem System.Run.begin {c : Y.Config S} {p : Y.Proc} {k : Y.Call p}
    {q : Prog I (Y.Exn × Y.Attrs) (Y.Value × Y.Attrs)} {s : S}
    (hidle : (c.threads p).current = none)
    (h : Alone exec (Y.body p k (c.threads p).attrs) c.store q s) :
    ∃ c', System.Run exec c c' ∧ c'.store = s ∧
      c'.threads p = { c.threads p with current := some (k, q) } ∧
      ∀ p', p' ≠ p → c'.threads p' = c.threads p' := by
  obtain ⟨c₁, hr, hs, ht, hother⟩ := System.Run.operations
    (c := c.with p c.store
      { c.threads p with current := some (k, Y.body p k (c.threads p).attrs) })
    (p := p) (k := k) (by simp [System.Config.with]) h
  refine ⟨c₁, .head (.start c p k hidle) hr, hs, ?_, fun p' hp => ?_⟩
  · rw [ht]
    simp [System.Config.with]
  · rw [hother p' hp]
    simp [System.Config.with, hp]

/-- A running process performs its last operations and returns. -/
theorem System.Run.finish {c : Y.Config S} {p : Y.Proc} {k : Y.Call p}
    {m : Prog I (Y.Exn × Y.Attrs) (Y.Value × Y.Attrs)} {v : Y.Value} {w : Y.Attrs} {s : S}
    (hcur : (c.threads p).current = some (k, m))
    (h : Alone exec m c.store (.ret (v, w)) s) :
    ∃ c', System.Run exec c c' ∧ c'.store = s ∧
      c'.threads p = ⟨(k, .ok v) :: (c.threads p).history, w, none⟩ ∧
      ∀ p', p' ≠ p → c'.threads p' = c.threads p' := by
  obtain ⟨c₁, hr, hs, ht, hother⟩ := System.Run.operations hcur h
  refine ⟨c₁.with p c₁.store ⟨(k, .ok v) :: (c₁.threads p).history, w, none⟩,
    hr.tail (.ret c₁ p k v w (by rw [ht])), hs, ?_, fun p' hp => ?_⟩
  · simp [System.Config.with, ht]
  · simp [System.Config.with, hp, hother p' hp]

/-- An idle process may perform one of its calls alone. -/
theorem System.Run.alone {c : Y.Config S} {p : Y.Proc} {k : Y.Call p} {v : Y.Value}
    {w : Y.Attrs} {s : S} (hidle : (c.threads p).current = none)
    (h : Alone exec (Y.body p k (c.threads p).attrs) c.store (.ret (v, w)) s) :
    ∃ c', System.Run exec c c' ∧ c'.store = s ∧
      c'.threads p = ⟨(k, .ok v) :: (c.threads p).history, w, none⟩ ∧
      ∀ q, q ≠ p → c'.threads q = c.threads q := by
  obtain ⟨c₁, hr₁, hs₁, ht₁, hother₁⟩ := System.Run.begin hidle h
  obtain ⟨c₂, hr₂, hs₂, ht₂, hother₂⟩ := System.Run.finish (c := c₁) (p := p) (k := k)
    (by rw [ht₁]) (.done _ _)
  refine ⟨c₂, hr₁.trans hr₂, hs₂.trans hs₁, ?_, fun q hq => ?_⟩
  · rw [ht₂, ht₁]
  · rw [hother₂ q hq, hother₁ q hq]

end Runs

-- programs are taken apart by the rules above, never by evaluation
attribute [irreducible] Safe Ends

end LmResiliency.Interleave
