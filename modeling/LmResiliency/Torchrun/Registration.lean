/-
# Registration — what a refused registration leaves behind

`register_node` appends its record and then decodes the whole log, so a
registration that the log refuses is in the log all the same.  What a log
refuses, every longer log refuses: from the first such registration on,
every reader of the log fails.

The main result is `refused_registration`; it separates the refusals that come
before the append, which leave nothing behind.
-/
import LmResiliency.Torchrun.Placement
import LmResiliency.Torchrun.Undisturbed

namespace LmResiliency.Torchrun

open Interleave

/-! ## Logs that are refused -/

theorem scanRegistrations_append {ls ls' : List String} {acc : List (String × String)} :
    scanRegistrations (ls ++ ls') acc =
      (scanRegistrations ls acc).bind fun out => scanRegistrations ls' out := by
  induction ls generalizing acc with
  | nil => rfl
  | cons l ls ih =>
      rw [List.cons_append, scanRegistrations, scanRegistrations]
      cases decodeRegistration l with
      | error e => rfl
      | ok r =>
          simp only [bind, Except.bind]
          split
          · rfl
          split
          · rfl
          split
          · exact ih
          · exact ih

theorem scanRegistrations_length {ls : List String} {acc out : List (String × String)}
    (h : scanRegistrations ls acc = .ok out) : acc.length ≤ out.length := by
  induction ls generalizing acc with
  | nil =>
      cases h
      exact le_refl _
  | cons l ls ih =>
      rw [scanRegistrations] at h
      cases hd : decodeRegistration l with
      | error e => rw [hd] at h; cases h
      | ok r =>
          rw [hd] at h
          simp only [bind, Except.bind] at h
          split at h
          · cases h
          split at h
          · cases h
          split at h
          · have := ih h
            rw [List.length_append, List.length_singleton] at this
            omega
          · exact ih h

/-- The log of these registrations is refused under this bound. -/
def Refused (rs : List Registration) (maxNodes : Int) : Prop :=
  ∃ e, registrationsOf (logText rs) maxNodes = .error e

/-- A longer log is refused as well, and under a smaller bound. -/
theorem Refused.append {rs : List Registration} {n m : Int} (h : Refused rs n) (hm : m ≤ n)
    (rs' : List Registration) : Refused (rs ++ rs') m := by
  have hsize : (logText rs).utf8ByteSize ≤ (logText (rs ++ rs')).utf8ByteSize := by
    rw [logText_concat, String.utf8ByteSize_append]
    omega
  obtain ⟨e, he⟩ := h
  rw [Refused, registrationsOf]
  split
  · exact ⟨_, rfl⟩
  · rename_i hsmall
    rw [registrationsOf, if_neg (by omega)] at he
    rw [splitLines_logText] at he ⊢
    rw [List.map_append, scanRegistrations_append]
    cases hs : scanRegistrations (rs.map Registration.line) [] with
    | error e' => exact ⟨e', rfl⟩
    | ok out =>
        rw [hs] at he
        simp only [bind, Except.bind] at he ⊢
        split at he
        · rename_i hmany
          cases hs' : scanRegistrations (rs'.map Registration.line) out with
          | error e' => exact ⟨e', rfl⟩
          | ok out' =>
              have := scanRegistrations_length hs'
              exact ⟨_, if_pos (by omega)⟩
        · cases he

/-! ## Calls one after the other -/

/-- What an agent, or the manager, asks of the registrations. -/
inductive RegistryCall where
  | registerNode (nodeId agentId : String) (maxNodes : Int)
  | registeredNodes (maxNodes : Option Int)
  | ensureInitialNodes (minNodes maxNodes : Int)

namespace RegistryCall

def body : RegistryCall → StoreM (Option (List String))
  | .registerNode nodeId agentId maxNodes => do
      PlanStore.registerNode nodeId agentId maxNodes
      pure none
  | .registeredNodes maxNodes => do
      let nodes ← PlanStore.registeredNodes maxNodes
      pure (some nodes)
  | .ensureInitialNodes minNodes maxNodes => PlanStore.ensureInitialNodes minNodes maxNodes

end RegistryCall

/-- What a call ended with. -/
abbrev RegistryReply : Type := Except Raised (Option (List String))

/-- The program that has ended so. -/
def RegistryReply.ended : RegistryReply → StoreM (Option (List String))
  | .ok v => .ret v
  | .error e => .raise e

/-- The call, made on the store `s`, ended with `x` and left `s'`. -/
def Called (k : RegistryCall) (s : Store) (x : RegistryReply) (s' : Store) : Prop :=
  Alone exec k.body s (RegistryReply.ended x) s'

/-- Calls made one after the other, by whomever. -/
inductive Calls : Store → List (RegistryCall × RegistryReply) → Store → Prop where
  | nil (s : Store) : Calls s [] s
  | cons {s s' s'' : Store} {k : RegistryCall} {x : RegistryReply}
      {rest : List (RegistryCall × RegistryReply)} (h : Called k s x s') (hr : Calls s' rest s'') :
      Calls s ((k, x) :: rest) s''

theorem Called.ends {k : RegistryCall} {s s' : Store} {x : RegistryReply}
    {Q : Option (List String) → Store → Prop} {E : Raised → Store → Prop}
    (h : Called k s x s') (he : Ends exec Q E k.body s) :
    match x with | .ok v => Q v s' | .error e => E e s' := by
  cases x with
  | ok v => exact (he.alone h).of_ret
  | error e => exact (he.alone h).of_raise

/-! ## What each call does -/

/-- The log decodes under this bound. -/
def Readable (s : Store) (maxNodes : Int) : Prop :=
  ∃ v out, s .registrations = some v ∧ registrationsOf v maxNodes = .ok out

/-- `register_node` gets as far as its append. -/
def Appends (nodeId agentId : String) (maxNodes : Int) (s : Store) : Prop :=
  Text.nonBlank nodeId = true ∧ Text.nonBlank agentId = true ∧ 1 ≤ maxNodes ∧
    (s .maxNodes = none ∨ s .maxNodes = some (Text.str maxNodes))

/-- … and has appended its record to the log of `s`. -/
structure Appended (nodeId agentId : String) (maxNodes : Int) (s s' : Store) : Prop where
  maxNodes : s' .maxNodes = some (Text.str maxNodes)
  log : ∃ r : Registration, r.nodeId = Text.strip nodeId ∧ r.agentId = Text.strip agentId ∧
    s' .registrations = some (logOf s ++ logText [r])

/-- What calls leave in the registry: a log of records, and the bound under
which the first of them was made. -/
structure RegistryInv (s : Store) : Prop where
  log : ∃ rs, logOf s = logText rs
  maxNodes : s .maxNodes = none ∨ ∃ n, 1 ≤ n ∧ s .maxNodes = some (Text.str n)

namespace PlanStore

variable {s : Store}

theorem ends_decodeRegistrations (maxNodes : Int) :
    Ends exec (fun _ s' => s' = s ∧ Readable s maxNodes)
      (fun _ s' => s' = s ∧ ¬ Readable s maxNodes) (decodeRegistrations maxNodes) s := by
  cases hv : s .registrations with
  | none =>
      refine ends_get_missing shared_exec hv ⟨rfl, ?_⟩
      rintro ⟨v, out, h, -⟩
      rw [hv] at h
      cases h
  | some v =>
      refine ends_get shared_exec hv ?_
      cases hd : registrationsOf v maxNodes with
      | ok out => exact Ends.ret ⟨rfl, v, out, hv, hd⟩
      | error e =>
          refine Ends.raise ⟨rfl, ?_⟩
          rintro ⟨v', out, h, hd'⟩
          obtain rfl := Option.some.inj (hv.symm.trans h)
          rw [hd] at hd'
          cases hd'

theorem nonempty_of_nonBlank {value name : String} (h : Text.nonBlank value = true) :
    nonempty value name = .ok (Text.strip value) := if_pos h

/-- The bound of the run: the first one that anybody asked for. -/
theorem compareSet_maxNodes (hs : RegistryInv s) (maxNodes : Int) :
    ((s.compareSet .maxNodes "" (Text.str maxNodes)).1 = Text.str maxNodes ∧
      (s .maxNodes = none ∨ s .maxNodes = some (Text.str maxNodes)) ∧
      (s.compareSet .maxNodes "" (Text.str maxNodes)).2 .maxNodes =
        some (Text.str maxNodes) ∧
      (s.compareSet .maxNodes "" (Text.str maxNodes)).2 .registrations = s .registrations) ∨
    ((s.compareSet .maxNodes "" (Text.str maxNodes)).1 ≠ Text.str maxNodes ∧
      (s.compareSet .maxNodes "" (Text.str maxNodes)).2 = s ∧
      ¬ (s .maxNodes = none ∨ s .maxNodes = some (Text.str maxNodes))) := by
  rcases hs.maxNodes with hnone | ⟨n, -, hn⟩
  · have hkeep : s.put .maxNodes (Text.str maxNodes) .registrations = s .registrations :=
      Store.put_of_ne (by simp) s _
    have hput : s.put .maxNodes (Text.str maxNodes) .maxNodes = some (Text.str maxNodes) :=
      Store.put_self ..
    rw [Store.compareSet_missing hnone]
    exact .inl ⟨rfl, .inl hnone, hput, hkeep⟩
  · have heq : s.compareSet .maxNodes "" (Text.str maxNodes) = (Text.str n, s) := by
      rw [Store.compareSet, hn]
      exact if_neg (Text.str_ne_empty n)
    rw [heq, hn]
    by_cases hsame : n = maxNodes
    · subst hsame
      exact .inl ⟨rfl, .inr rfl, hn, rfl⟩
    · refine .inr ⟨fun h => hsame (Text.str_injective h), rfl, ?_⟩
      rintro (h | h)
      · cases h
      · exact hsame (Text.str_injective (Option.some.inj h))

/-- `register_node` is refused before its append, and then nothing has
changed, or appends and returns exactly if the log is readable then. -/
theorem ends_registerNode (hs : RegistryInv s) (nodeId agentId : String) (maxNodes : Int) :
    Ends exec
      (fun _ s' => Appends nodeId agentId maxNodes s ∧
        Appended nodeId agentId maxNodes s s' ∧ Readable s' maxNodes)
      (fun _ s' => ¬ Appends nodeId agentId maxNodes s ∧ s' = s ∨
        Appends nodeId agentId maxNodes s ∧ Appended nodeId agentId maxNodes s s' ∧
          ¬ Readable s' maxNodes)
      (registerNode nodeId agentId maxNodes) s := by
  rw [registerNode]
  refine ends_ofExcept (fun node hnode => ?_) fun e he => .inl ⟨fun h => ?_, rfl⟩
  swap
  · rw [nonempty_of_nonBlank h.1] at he
    cases he
  refine ends_ofExcept (fun agent hagent => ?_) fun e he => .inl ⟨fun h => ?_, rfl⟩
  swap
  · rw [nonempty_of_nonBlank h.2.1] at he
    cases he
  refine ends_ofExcept (fun m hm => ?_) fun e he => .inl ⟨fun h => ?_, rfl⟩
  swap
  · rw [positiveInt, if_neg (by have := h.2.2.1; omega)] at he
    cases he
  have hpos : 1 ≤ maxNodes := by
    rw [positiveInt] at hm
    split at hm
    · cases hm
    · omega
  have hblank : Text.nonBlank nodeId = true ∧ Text.nonBlank agentId = true := by
    rw [nonempty] at hnode hagent
    constructor
    · by_contra hb
      rw [if_neg hb] at hnode
      cases hnode
    · by_contra hb
      rw [if_neg hb] at hagent
      cases hagent
  obtain ⟨hn, hn'⟩ := nonempty_eq_ok hnode
  obtain ⟨ha, ha'⟩ := nonempty_eq_ok hagent
  let r : Registration := ⟨node, agent, hn, hn', ha, ha'⟩
  refine ends_compareSet shared_exec ?_
  rcases compareSet_maxNodes hs maxNodes with ⟨hval, hmax, hmax', hlog⟩ |
    ⟨hval, hsame, hother⟩
  · rw [if_neg (not_not.mpr hval)]
    refine ends_append shared_exec ?_
    set s₁ := (s.compareSet .maxNodes "" (Text.str maxNodes)).2
    have happ : Appended nodeId agentId maxNodes s
        (s₁.put .registrations ((s₁ .registrations).getD "" ++
          (canonicalJson (registrationRecord node agent) ++ "\n"))) := by
      refine ⟨by rw [Store.put_of_ne (by simp), hmax'], r, ?_, ?_, ?_⟩
      · rw [nonempty_of_nonBlank hblank.1] at hnode
        exact (Except.ok.inj hnode).symm
      · rw [nonempty_of_nonBlank hblank.2] at hagent
        exact (Except.ok.inj hagent).symm
      rw [Store.put_self, hlog, logText_singleton]
      rfl
    have hall : Appends nodeId agentId maxNodes s := ⟨hblank.1, hblank.2, hpos, hmax⟩
    refine Ends.bind (Ends.mono (ends_decodeRegistrations maxNodes) ?_ ?_) fun _ _ h => ends_ret h
    · rintro _ _ ⟨rfl, hread⟩
      exact ⟨hall, happ, hread⟩
    · rintro _ _ ⟨rfl, hread⟩
      exact .inr ⟨hall, happ, hread⟩
  · rw [if_pos hval, hsame]
    refine ends_raise (.inl ?_)
    exact ⟨fun h => hother h.2.2.2, rfl⟩

/-- `ensure_initial_nodes` returns only if the log is readable, and writes
the placement at most. -/
theorem ends_ensureInitialNodes (minNodes maxNodes : Int) :
    Ends exec (fun _ s' => Readable s maxNodes ∧ ∀ k, k ≠ .initialNodes → s' k = s k)
      (fun _ s' => ∀ k, k ≠ .initialNodes → s' k = s k)
      (ensureInitialNodes minNodes maxNodes) s := by
  refine ends_ofExcept (fun _ _ => ?_) fun _ _ _ _ => rfl
  refine ends_ofExcept (fun _ _ => ?_) fun _ _ _ _ => rfl
  split
  · exact ends_raise fun _ _ => rfl
  refine Ends.bind (Ends.mono (ends_decodeRegistrations maxNodes) (fun _ _ h => h) ?_) ?_
  · rintro _ s ⟨rfl, -⟩
    exact fun _ _ => rfl
  rintro registrations s ⟨rfl, hread⟩
  split
  · exact ends_ret ⟨hread, fun _ _ => rfl⟩
  refine ends_compareSet shared_exec ?_
  have hkeep : ∀ v k, k ≠ Key.initialNodes → (s.compareSet .initialNodes "" v).2 k = s k := by
    intro v k hk
    rcases compareSet_cases s .initialNodes "" v with ⟨heq, -⟩ | ⟨w, heq, -⟩
    · rw [heq]
      exact Store.put_of_ne hk s v
    · rw [heq]
  refine ends_ofExcept (fun _ _ => ?_) fun _ _ => hkeep _
  split
  · exact ends_raise (hkeep _)
  · exact ends_ret ⟨hread, hkeep _⟩

theorem ends_committedMaxNodes (hs : RegistryInv s) (maxNodes : Option Int) :
    Ends exec
      (fun n s' => 1 ≤ n ∧ s' .maxNodes = some (Text.str n) ∧
        (s' = s ∨ s .maxNodes = none ∧ s' = s.put .maxNodes (Text.str n)))
      (fun _ s' => s' = s) (committedMaxNodes maxNodes) s := by
  refine ends_check shared_exec ?_
  rcases hs.maxNodes with hnone | ⟨n, hn, hmax⟩
  · have hall : [Key.maxNodes].all (fun k => (s k).isSome) = false := by simp [hnone]
    rw [hall]
    cases maxNodes with
    | none => exact ends_raise rfl
    | some n =>
        refine ends_ofExcept (fun m hm => ?_) fun _ _ => rfl
        have hm : 1 ≤ m := by
          rw [positiveInt] at hm
          split at hm
          · cases hm
          · cases hm
            omega
        have hput : s.put .maxNodes (Text.str m) .maxNodes = some (Text.str m) :=
          Store.put_self ..
        refine ends_compareSet shared_exec ?_
        rw [Store.compareSet_missing hnone]
        exact ends_ret ⟨hm, hput, .inr ⟨hnone, rfl⟩⟩
  · have hall : [Key.maxNodes].all (fun k => (s k).isSome) = true := by simp [hmax]
    rw [hall]
    refine ends_get shared_exec hmax ?_
    rw [decodePositiveInteger_str hn]
    exact Ends.ret ⟨hn, hmax, .inl rfl⟩

/-- `registered_nodes` returns only if the log is readable under the
committed bound, which it commits itself if nobody has. -/
theorem ends_registeredNodes_any (hs : RegistryInv s) (maxNodes : Option Int) :
    Ends exec
      (fun _ s' => ∃ n, 1 ≤ n ∧ s' .maxNodes = some (Text.str n) ∧ Readable s n ∧
        (s .maxNodes = none ∨ s' = s) ∧ ∀ k, k ≠ .maxNodes → s' k = s k)
      (fun _ s' => s' = s ∨ ∃ n, 1 ≤ n ∧ s .maxNodes = none ∧
        s' = s.put .maxNodes (Text.str n))
      (registeredNodes maxNodes) s := by
  refine Ends.bind
    (Ends.mono (ends_committedMaxNodes hs maxNodes) (fun _ _ h => h) fun _ _ h => .inl h) ?_
  rintro n s₁ ⟨hn, hmax, hs₁⟩
  have hkeep : ∀ k, k ≠ Key.maxNodes → s₁ k = s k := by
    intro k hk
    rcases hs₁ with rfl | ⟨-, rfl⟩
    · rfl
    · exact Store.put_of_ne hk s _
  have hraised : s₁ = s ∨ ∃ n, 1 ≤ n ∧ s .maxNodes = none ∧
      s₁ = s.put .maxNodes (Text.str n) := by
    rcases hs₁ with rfl | ⟨hnone, rfl⟩
    · exact .inl rfl
    · exact .inr ⟨n, hn, hnone, rfl⟩
  split
  · exact ends_raise hraised
  refine Ends.bind (Ends.mono (ends_decodeRegistrations n) (fun _ _ h => h) ?_) ?_
  · rintro _ s₁ ⟨rfl, -⟩
    exact hraised
  rintro out s₁ ⟨rfl, v, out', hv, hout⟩
  refine ends_ret ⟨n, hn, hmax, ⟨v, out', ?_, hout⟩, ?_, hkeep⟩
  · rw [← hv, hkeep _ (by simp)]
  · rcases hs₁ with h | ⟨hnone, -⟩
    · exact .inr h
    · exact .inl hnone

end PlanStore

/-! ## Calls keep the registry, and its poison -/

theorem RegistryInv.appended {nodeId agentId : String} {n : Int} {s s' : Store}
    (hs : RegistryInv s) (hn : 1 ≤ n) (h : Appended nodeId agentId n s s') :
    RegistryInv s' := by
  obtain ⟨rs, hrs⟩ := hs.log
  obtain ⟨r, -, -, hr⟩ := h.log
  exact ⟨⟨rs ++ [r], by rw [logOf, hr, hrs, logText_concat]; rfl⟩, .inr ⟨n, hn, h.maxNodes⟩⟩

theorem RegistryInv.of_agree {s s' : Store} (hs : RegistryInv s)
    (h : ∀ k, k ≠ .initialNodes → s' k = s k) : RegistryInv s' :=
  ⟨by rw [logOf, h _ (by simp)]; exact hs.log, by rw [h _ (by simp)]; exact hs.maxNodes⟩

theorem RegistryInv.put_maxNodes {s : Store} (hs : RegistryInv s) {n : Int} (hn : 1 ≤ n) :
    RegistryInv (s.put .maxNodes (Text.str n)) :=
  ⟨by rw [logOf, Store.put_of_ne (by simp)]; exact hs.log, .inr ⟨n, hn, Store.put_self ..⟩⟩

/-- Step lemma: every call leaves a registry. -/
theorem Called.inv {k : RegistryCall} {s s' : Store} {x : RegistryReply}
    (h : Called k s x s') (hs : RegistryInv s) : RegistryInv s' := by
  have hends : Ends exec (fun _ s' => RegistryInv s') (fun _ s' => RegistryInv s') k.body s := by
    cases k with
    | registerNode nodeId agentId n =>
        refine Ends.bind (Ends.mono (PlanStore.ends_registerNode hs nodeId agentId n)
          (fun _ _ h => hs.appended h.1.2.2.1 h.2.1) ?_) fun _ _ h => ends_ret h
        rintro _ s' (⟨-, rfl⟩ | ⟨happ, h, -⟩)
        · exact hs
        · exact hs.appended happ.2.2.1 h
    | registeredNodes n =>
        refine Ends.bind (Ends.mono (PlanStore.ends_registeredNodes_any hs n) ?_ ?_)
          fun _ _ h => ends_ret h
        · rintro _ s' ⟨m, hm, hmax, -, -, hkeep⟩
          exact ⟨by rw [logOf, hkeep _ (by simp)]; exact hs.log, .inr ⟨m, hm, hmax⟩⟩
        · rintro _ s' (rfl | ⟨m, hm, -, rfl⟩)
          · exact hs
          · exact hs.put_maxNodes hm
    | ensureInitialNodes min n =>
        exact Ends.mono (PlanStore.ends_ensureInitialNodes min n)
          (fun _ _ h => hs.of_agree h.2) fun _ _ h => hs.of_agree h
  have := h.ends hends
  cases x <;> exact this

theorem Calls.inv {l : List (RegistryCall × RegistryReply)} {s s' : Store} (h : Calls s l s')
    (hs : RegistryInv s) : RegistryInv s' := by
  induction h with
  | nil => exact hs
  | cons h _ ih => exact ih (h.inv hs)

/-- The log is there and refused, under the committed bound. -/
structure Poisoned (n : Int) (rs : List Registration) (s : Store) : Prop where
  pos : 1 ≤ n
  maxNodes : s .maxNodes = some (Text.str n)
  log : s .registrations = some (logText rs)
  refused : Refused rs n

namespace Poisoned

variable {n : Int} {rs : List Registration} {s s' : Store}

theorem inv (h : Poisoned n rs s) : RegistryInv s :=
  ⟨⟨rs, by rw [logOf, h.log]; rfl⟩, .inr ⟨n, h.pos, h.maxNodes⟩⟩

theorem not_readable (h : Poisoned n rs s) {m : Int} (hm : Refused rs m) :
    ¬ Readable s m := by
  rintro ⟨v, out, hv, hout⟩
  obtain rfl := Option.some.inj (h.log.symm.trans hv)
  obtain ⟨e, he⟩ := hm
  rw [hout] at he
  cases he

theorem refused_le (h : Poisoned n rs s) {m : Int} (hm : m ≤ n) : Refused rs m := by
  have := h.refused.append hm []
  rwa [List.append_nil] at this

/-- A log that is not readable under the committed bound. -/
theorem of_not_readable (hn : 1 ≤ n) (hmax : s .maxNodes = some (Text.str n))
    (hlog : s .registrations = some (logText rs)) (h : ¬ Readable s n) :
    Poisoned n rs s := by
  refine ⟨hn, hmax, hlog, ?_⟩
  cases hd : registrationsOf (logText rs) n with
  | error e => exact ⟨e, hd⟩
  | ok out => exact absurd ⟨_, out, hlog, hd⟩ h

/-- An append makes a poisoned log longer, and no better. -/
theorem appended (h : Poisoned n rs s) {nodeId agentId : String} {m : Int}
    (ha : Appended nodeId agentId m s s') (hm : m = n) : ∃ r, Poisoned n (rs ++ [r]) s' := by
  subst hm
  obtain ⟨r, -, -, hr⟩ := ha.log
  refine ⟨r, h.pos, ha.maxNodes, ?_, h.refused.append (le_refl _) _⟩
  rw [hr, logOf, h.log, Option.getD_some, logText_concat]

theorem of_agree (h : Poisoned n rs s) (hk : ∀ k, k ≠ .initialNodes → s' k = s k) :
    Poisoned n rs s' :=
  ⟨h.pos, by rw [hk _ (by simp)]; exact h.maxNodes, by rw [hk _ (by simp)]; exact h.log,
    h.refused⟩

end Poisoned

/-- The call reads the log under a bound that it is refused under. -/
def RegistryCall.ReadsRefused (n : Int) (rs : List Registration) : RegistryCall → Prop
  | .ensureInitialNodes _ m => m ≤ n ∨ ∀ m', Refused rs m'
  | _ => True

/-- Step lemma: a call on a poisoned log raises and leaves a poisoned log. -/
theorem Called.poisoned {k : RegistryCall} {n : Int} {rs : List Registration} {s s' : Store}
    {x : RegistryReply} (h : Called k s x s') (hp : Poisoned n rs s) :
    (∃ rs', Poisoned n (rs ++ rs') s') ∧ (k.ReadsRefused n rs → ∃ e, x = .error e) := by
  have hsame : ∀ {t : Store}, Poisoned n rs t → ∃ rs', Poisoned n (rs ++ rs') t :=
    fun h => ⟨[], by rwa [List.append_nil]⟩
  have hbound : ∀ {nodeId agentId m}, Appends nodeId agentId m s → m = n := fun happ => by
    rcases happ.2.2.2 with hnone | hsome
    · exact absurd (hnone.symm.trans hp.maxNodes) (Option.some_ne_none _).symm
    · exact Text.str_injective (Option.some.inj (hsome.symm.trans hp.maxNodes))
  have hends : Ends exec
      (fun _ s' => (∃ rs', Poisoned n (rs ++ rs') s') ∧ ¬ k.ReadsRefused n rs)
      (fun _ s' => ∃ rs', Poisoned n (rs ++ rs') s') k.body s := by
    cases k with
    | registerNode nodeId agentId m =>
        refine Ends.bind (Q := fun _ _ => False) (Ends.mono
          (PlanStore.ends_registerNode hp.inv nodeId agentId m) ?_ ?_) fun _ _ h => h.elim
        · rintro _ s' ⟨hm, happ, hread⟩
          obtain rfl := hbound hm
          obtain ⟨r, hp'⟩ := hp.appended happ rfl
          exact hp'.not_readable hp'.refused hread
        · rintro _ s' (⟨-, rfl⟩ | ⟨hm, happ, -⟩)
          · exact hsame hp
          · obtain ⟨r, hp'⟩ := hp.appended happ (hbound hm)
            exact ⟨[r], hp'⟩
    | registeredNodes m =>
        refine Ends.bind (Q := fun _ _ => False) (Ends.mono
          (PlanStore.ends_registeredNodes_any hp.inv m) ?_ ?_) fun _ _ h => h.elim
        · rintro _ s' ⟨m', -, hmax, hread, hsome, -⟩
          rcases hsome with hnone | rfl
          · exact absurd (hnone.symm.trans hp.maxNodes) (Option.some_ne_none _).symm
          · obtain rfl := Text.str_injective (Option.some.inj (hmax.symm.trans hp.maxNodes))
            exact hp.not_readable hp.refused hread
        · rintro _ s' (rfl | ⟨m', -, hnone, -⟩)
          · exact hsame hp
          · exact absurd (hnone.symm.trans hp.maxNodes) (Option.some_ne_none _).symm
    | ensureInitialNodes min m =>
        refine Ends.mono (PlanStore.ends_ensureInitialNodes min m) ?_ fun _ _ h =>
          hsame (hp.of_agree h)
        rintro _ s' ⟨hread, hkeep⟩
        refine ⟨hsame (hp.of_agree hkeep), ?_⟩
        rintro (hm | hall)
        · exact hp.not_readable (hp.refused_le hm) hread
        · exact hp.not_readable (hall m) hread
  have hx := h.ends hends
  cases x with
  | ok v => exact ⟨hx.1, fun hr => absurd hr hx.2⟩
  | error e => exact ⟨hx, fun _ => ⟨e, rfl⟩⟩

theorem RegistryCall.ReadsRefused.append {k : RegistryCall} {n : Int} {rs : List Registration}
    (h : k.ReadsRefused n rs) (rs' : List Registration) : k.ReadsRefused n (rs ++ rs') := by
  cases k with
  | registerNode => trivial
  | registeredNodes => trivial
  | ensureInitialNodes min m =>
      exact h.imp id fun hall m' => (hall m').append (le_refl _) rs'

/-- **Run lemma**: every call after a poisoned log that reads it raises. -/
theorem Calls.poisoned {l : List (RegistryCall × RegistryReply)} {n : Int}
    {rs : List Registration} {s s' : Store} (h : Calls s l s') (hp : Poisoned n rs s) :
    ∀ k x, (k, x) ∈ l → k.ReadsRefused n rs → ∃ e, x = .error e := by
  induction h generalizing rs with
  | nil => exact fun k x hmem => by cases hmem
  | cons h _ ih =>
      intro k x hmem hreads
      obtain ⟨⟨rs', hp'⟩, hx⟩ := h.poisoned hp
      rcases List.mem_cons.mp hmem with heq | hmem
      · cases heq
        exact hx hreads
      · exact ih hp' k x hmem (hreads.append rs')

/-! ## A refused registration -/

theorem registryInv_fresh : RegistryInv fresh :=
  ⟨⟨[], rfl⟩, .inl rfl⟩

/-- **A registration that is refused.**  Whatever calls came before it: if it
was refused before its append, the store is as it was; if after it, the record
stays, and from then on every `register_node` and `registered_nodes` raises,
and so does every `ensure_initial_nodes` whose bound is at most the committed
one, or any if no bound makes the log readable. -/
theorem refused_registration {before after : List (RegistryCall × RegistryReply)}
    {s s' s'' : Store} {nodeId agentId : String} {maxNodes : Int} {e : Raised}
    (hbefore : Calls fresh before s)
    (hcall : Called (.registerNode nodeId agentId maxNodes) s (.error e) s')
    (hafter : Calls s' after s'') :
    (¬ Appends nodeId agentId maxNodes s → s' = s) ∧
    (Appends nodeId agentId maxNodes s → ∀ k x, (k, x) ∈ after →
      (∀ minNodes m, k = .ensureInitialNodes minNodes m →
        m ≤ maxNodes ∨ ∀ m', ¬ Readable s' m') → ∃ e', x = .error e') := by
  have hs := hbefore.inv registryInv_fresh
  have hends : ¬ Appends nodeId agentId maxNodes s ∧ s' = s ∨
      Appends nodeId agentId maxNodes s ∧ Appended nodeId agentId maxNodes s s' ∧
        ¬ Readable s' maxNodes :=
    hcall.ends (Q := fun _ _ => True)
      (Ends.bind (PlanStore.ends_registerNode hs nodeId agentId maxNodes)
        fun _ _ _ => ends_ret trivial)
  rcases hends with ⟨hnot, rfl⟩ | ⟨happ, hlog, hread⟩
  · exact ⟨fun _ => rfl, fun h => absurd h hnot⟩
  · refine ⟨fun h => absurd happ h, fun _ k x hmem hensure => ?_⟩
    obtain ⟨rs, hrs⟩ := hs.log
    obtain ⟨r, -, -, hr⟩ := hlog.log
    rw [hrs, ← logText_concat] at hr
    have hp := Poisoned.of_not_readable happ.2.2.1 hlog.maxNodes hr hread
    refine hafter.poisoned hp k x hmem ?_
    cases k with
    | registerNode => trivial
    | registeredNodes => trivial
    | ensureInitialNodes min m =>
        refine (hensure min m rfl).imp id fun hall m' => ?_
        cases hd : registrationsOf (logText (rs ++ [r])) m' with
        | error e => exact ⟨e, hd⟩
        | ok out => exact absurd ⟨_, out, hr, hd⟩ (hall m')

theorem refused_of_conflict {r r' : Registration} (hnode : r'.nodeId = r.nodeId)
    (hagent : r'.agentId ≠ r.agentId) (n : Int) : Refused [r, r'] n := by
  have hne : ¬ some r.agentId = some r'.agentId := fun h => hagent (Option.some.inj h).symm
  rw [Refused, registrationsOf]
  split
  · exact ⟨_, rfl⟩
  · refine ⟨.planCorrupt "multiple torchrun agents resolved to the same machine identity", ?_⟩
    rw [splitLines_logText]
    simp only [List.map_cons, List.map_nil, scanRegistrations, r.decode_line, r'.decode_line,
      bind, Except.bind]
    simp [hnode, hne]

/-- The store after one node has registered. -/
def oneNode : Store :=
  (fresh.put .maxNodes (Text.str 4)).put .registrations (logText [sampleRegistration])

theorem size_sampleRegistration :
    (logText [sampleRegistration]).utf8ByteSize ≤ maxRegistrationBytes := by decide

theorem calls_oneNode :
    Calls fresh [(.registerNode "node-a" "agent-a" 4, .ok none)] oneNode :=
  .cons (Alone.bind (registerNode_alone (r := sampleRegistration) (by decide)
    size_sampleRegistration rfl rfl) (.done _ _)) (.nil _)

/-- Another agent registers the node of the first, and is refused: the
manager's next look at the registered nodes fails. -/
theorem conflict_oneNode : ∃ s e t x, Appends "node-a" "agent-b" 4 oneNode ∧
    Called (.registerNode "node-a" "agent-b" 4) oneNode (.error e) s ∧
    (∃ r, Poisoned 4 [sampleRegistration, r] s) ∧ Called (.registeredNodes none) s x t := by
  have hs := calls_oneNode.inv registryInv_fresh
  have happ : Appends "node-a" "agent-b" 4 oneNode :=
    ⟨by decide, by decide, by decide, .inr rfl⟩
  have hpoison : ∀ s, Appended "node-a" "agent-b" 4 oneNode s →
      ∃ r, Poisoned 4 [sampleRegistration, r] s := by
    intro s h
    obtain ⟨r, hnode, hagent, hlog⟩ := h.log
    refine ⟨r, by decide, h.maxNodes, hlog.trans ?_, refused_of_conflict ?_ ?_ 4⟩
    · rw [show [sampleRegistration, r] = [sampleRegistration] ++ [r] from rfl, logText_concat]
      rfl
    · exact hnode.trans (by decide)
    · rw [hagent]
      decide
  have hends : Ends exec (fun _ _ => False)
      (fun _ s => ∃ r, Poisoned 4 [sampleRegistration, r] s)
      (RegistryCall.registerNode "node-a" "agent-b" 4).body oneNode := by
    refine Ends.bind (Q := fun _ _ => False)
      (Ends.mono (PlanStore.ends_registerNode hs "node-a" "agent-b" 4) ?_ ?_)
      fun _ _ h => h.elim
    · rintro _ s ⟨-, h, hread⟩
      obtain ⟨r, hp⟩ := hpoison s h
      exact hp.not_readable hp.refused hread
    · rintro _ s (⟨hnot, -⟩ | ⟨-, h, -⟩)
      · exact absurd happ hnot
      · exact hpoison s h
  rcases hends.finishes with ⟨_, _, -, h⟩ | ⟨e, s, hrun, hp⟩
  · exact h.elim
  obtain ⟨r, hp'⟩ := hp
  have hlook : Ends exec (fun _ _ => True) (fun _ _ => True)
      (RegistryCall.registeredNodes none).body s :=
    Ends.bind (Ends.mono (PlanStore.ends_registeredNodes_any hp'.inv none)
      (fun _ _ h => h) fun _ _ _ => trivial) fun _ _ _ => ends_ret trivial
  rcases hlook.finishes with ⟨v, t, hlook, -⟩ | ⟨e', t, hlook, -⟩
  · exact ⟨s, e, t, .ok v, happ, hrun, ⟨r, hp'⟩, hlook⟩
  · exact ⟨s, e, t, .error e', happ, hrun, ⟨r, hp'⟩, hlook⟩

/-- The refused registration, and what the theorem says of the next call. -/
theorem refused_registration_oneNode : ∃ s e t x,
    Calls fresh [(.registerNode "node-a" "agent-a" 4, .ok none)] oneNode ∧
    Called (.registerNode "node-a" "agent-b" 4) oneNode (.error e) s ∧
    Called (.registeredNodes none) s x t ∧ ∃ e', x = .error e' := by
  obtain ⟨s, e, t, x, happ, hcall, -, hlook⟩ := conflict_oneNode
  exact ⟨s, e, t, x, calls_oneNode, hcall, hlook,
    (refused_registration calls_oneNode hcall (.cons hlook (.nil t))).2 happ _ x
      List.mem_cons_self fun _ _ h => by cases h⟩

/-- **A refused registration has an effect on the others.**  With it, the
registered nodes cannot be read any more; without it, they can. -/
theorem refused_registration_poisons : ∃ s e,
    Calls fresh [(.registerNode "node-a" "agent-a" 4, .ok none)] oneNode ∧
    Called (.registerNode "node-a" "agent-b" 4) oneNode (.error e) s ∧
    (∃ t, Called (.registeredNodes none) oneNode (.ok (some ["node-a"])) t) ∧
    ¬ ∃ v t, Called (.registeredNodes none) s (.ok v) t := by
  obtain ⟨s, e, -, -, -, hcall, ⟨r, hp⟩, -⟩ := conflict_oneNode
  refine ⟨s, e, calls_oneNode, hcall, ⟨oneNode, ?_⟩, ?_⟩
  · have hregs := registrationsOf_singleton (show (1 : Int) ≤ 4 by decide)
      size_sampleRegistration
    refine Alone.bind (a := ["node-a"]) (t := oneNode) ?_ (.done _ _)
    refine Alone.bind (a := (4 : Int)) (t := oneNode) ?_ ?_
    · have hdecode : decodePositiveInteger (Text.str 4) "registered max_nodes" = .ok 4 :=
        decodePositiveInteger_str (by decide) _
      refine alone_perform (o := .check [.maxNodes]) true ⟨rfl, rfl⟩ ?_
      refine alone_get (v := Text.str 4) rfl ?_
      rw [hdecode]
      exact .done _ _
    · rw [if_neg (fun h => h.1 rfl), PlanStore.decodeRegistrations, bind_assoc]
      exact alone_get (v := logText [sampleRegistration]) rfl
        (alone_ofExcept hregs (.done _ _))
  · rintro ⟨v, t, hlook⟩
    obtain ⟨e', he'⟩ := (hlook.poisoned hp).2 trivial
    cases he'

end LmResiliency.Torchrun
