/-
# LeaseOrder — the lease sequence under several renewers

A renewal draws its number with one atomic operation and publishes it with
another.  Renewers that overlap may publish in the other order, and a reader
then sees the sequence fall; where each renewal publishes in its turn, no
reader ever does.

The main result is `sequences_in_turn`; its condition looks at the store before
each set.  `sequences_undisturbed` derives it from the schedule, where the
atomicity of `add` is load-bearing.
-/
import LmResiliency.Torchrun.PlanLog
import LmResiliency.Torchrun.RendezvousInv

namespace LmResiliency.Torchrun

open Interleave

/-! ## The lease record -/

theorem loads_leaseRecord (remainingMs sequence : Int) :
    Json.loads (canonicalJson (leaseRecord remainingMs sequence)) =
      some (.obj (leaseRecord remainingMs sequence)) := by
  have hkeys : Json.keys (leaseRecord remainingMs sequence) =
      ["remaining_ms", "schema_version", "sequence"] := rfl
  refine Json.loads_dumps_record ⟨by rw [hkeys]; decide, ?_⟩ (by rw [hkeys]; decide)
    fun m hm => ?_
  · simp only [leaseRecord, Json.PlainMembers, Json.Plain, and_self]
  · simp only [leaseRecord, List.mem_cons, List.not_mem_nil, or_false] at hm
    rcases hm with rfl | rfl | rfl <;> rfl

theorem decodePlanLease_leaseRecord {remainingMs sequence : Int} (hms : 0 ≤ remainingMs)
    (hseq : 1 ≤ sequence) :
    decodePlanLease (canonicalJson (leaseRecord remainingMs sequence)) =
      .ok (sequence, remainingMs) := by
  have hrecord : recordWith ["remaining_ms", "schema_version", "sequence"]
      (.obj (leaseRecord remainingMs sequence)) = some (leaseRecord remainingMs sequence) := rfl
  have hnumber : Json.get? "sequence" (leaseRecord remainingMs sequence) =
      some (.int sequence) := rfl
  have hremaining : Json.get? "remaining_ms" (leaseRecord remainingMs sequence) =
      some (.int remainingMs) := rfl
  simp only [decodePlanLease, loads_leaseRecord, hrecord, hnumber, hremaining]
  rw [if_neg]
  rintro (h | h | h)
  · omega
  · omega
  · exact h rfl

/-! ## Renewers and readers -/

/-- What a process may call. -/
inductive LeaseCall where
  | renew (remainingMs : Int)
  | read

/-- What its call returns. -/
inductive LeaseAnswer where
  | renewed (sequence : Int)
  | seen (lease : Option (Int × Int))

/-- Any number of processes that renew and read the lease of one plan. -/
def renewers (self : PlanStore) (plan : RestartPlan) (ι : Type) : System iface where
  Proc := ι
  Call _ := LeaseCall
  Attrs := Unit
  Value := LeaseAnswer
  Exn := Raised
  body
    | _, .renew remainingMs => .lift (self.renewPlanLease plan remainingMs >>= fun n =>
        pure (.renewed n))
    | _, .read => .lift (self.readPlanLease plan >>= fun lease => pure (.seen lease))

/-- The sequence numbers that a process has seen, the latest first. -/
def sequencesSeen (history : List (LeaseCall × Except Raised LeaseAnswer)) : List Int :=
  history.filterMap fun
    | (_, .ok (.seen (some (sequence, _)))) => some sequence
    | _ => none

/-- The sequence of a lease record. -/
def leaseSequence (encoded : String) : Option Int := (decodePlanLease encoded).toOption.map Prod.fst

section

variable (self : PlanStore) (plan : RestartPlan)

/-- The sequence of the stored lease. -/
def storedSequence (s : Store) : Option Int := (s (self.leaseKey plan)).bind leaseSequence

/-- The operations, where no renewal publishes over a record with a later number. -/
def inTurn (s : Store) (o : Op) (r : o.Res) (s' : Store) : Prop :=
  exec s o r s' ∧ ∀ v, o = .set (self.leaseKey plan) v → ∀ n m,
    storedSequence self plan s = some n → leaseSequence v = some m → n ≤ m

/-- Renewals in turn: the stored sequence never falls. -/
def leaseWorld : World iface Store where
  exec := inTurn self plan
  inv _ := True
  guar s s' := ∀ n, storedSequence self plan s = some n →
    ∃ n', storedSequence self plan s' = some n' ∧ n ≤ n'

variable {self plan} {s s' : Store}

theorem storedSequence_later (h : (leaseWorld self plan).Later s s') {n : Int}
    (hn : storedSequence self plan s = some n) :
    ∃ n', storedSequence self plan s' = some n' ∧ n ≤ n' := by
  refine World.Later.keeps (P := fun t => ∃ n', storedSequence self plan t = some n' ∧ n ≤ n')
    (fun t t' _ hguar ⟨m, hm, hle⟩ => ?_) h trivial ⟨n, hn, Int.le_refl n⟩
  obtain ⟨m', hm', hle'⟩ := hguar m hm
  exact ⟨m', hm', Int.le_trans hle hle'⟩

variable {α : Type} {Q : α → Store → Prop} {E : Raised → Store → Prop}

theorem safe_beside {o : Op} {k : o.Res → StoreM α}
    (hbeside : ∀ s₁ r s₂, exec s₁ o r s₂ → s₂ (self.leaseKey plan) = s₁ (self.leaseKey plan))
    (hk : ∀ r s₂, Safe (leaseWorld self plan) Q E (k r) s₂) :
    Safe (leaseWorld self plan) Q E (.call o k) s := by
  refine Safe.write trivial (fun s₁ r s₂ _ _ hx => .inr ⟨trivial, fun n hn => ⟨n, ?_, le_refl n⟩⟩)
    fun _ r s₂ _ _ _ _ _ => hk r s₂
  rw [storedSequence, hbeside s₁ r s₂ hx.1]
  exact hn

theorem safe_addBeside {k : Key} {n : Int} {f : Int → StoreM α} (hk : self.leaseKey plan ≠ k)
    (h : ∀ m t, Safe (leaseWorld self plan) Q E (f m) t) :
    Safe (leaseWorld self plan) Q E (add k n >>= f) s :=
  safe_beside (o := .add k n) (fun _ _ _ hx => by rw [hx.2, Store.put_of_ne hk]) h

theorem safe_read_any {g : Int} {f : Option RestartPlan → StoreM α}
    (hE : ∀ e t, E e t) (h : ∀ r t, Safe (leaseWorld self plan) Q E (f r) t) :
    Safe (leaseWorld self plan) Q E (self.read g >>= f) s := by
  rw [PlanStore.read]
  split
  · exact h none s
  refine safe_beside (o := .check [.plan g]) (fun _ _ _ hx => by rw [hx.1]) fun found s₁ => ?_
  cases found with
  | false => exact h none s₁
  | true =>
      refine safe_beside (o := .get (.plan g)) (fun _ _ _ hx => by rw [hx.1]) fun r s₂ => ?_
      cases r with
      | none => exact Safe.raise fun t _ => hE _ t
      | some v =>
          show Safe _ Q E ((ofExcept (decodePlan self.runId v g) >>= _) >>= f) s₂
          cases decodePlan self.runId v g with
          | error e => exact Safe.raise fun t _ => hE _ t
          | ok p => exact h (some p) s₂

theorem safe_publishLease {remainingMs n : Int} (hms : 0 ≤ remainingMs) (hn : 1 ≤ n)
    {Q : Int → Store → Prop} (hQ : ∀ n t, Q n t) :
    Safe (leaseWorld self plan) Q E (set (self.leaseKey plan)
      (canonicalJson (leaseRecord remainingMs n)) >>= fun _ => pure n) s := by
  have hrecord : leaseSequence (canonicalJson (leaseRecord remainingMs n)) = some n := by
    rw [leaseSequence, decodePlanLease_leaseRecord hms hn]
    rfl
  generalize canonicalJson (leaseRecord remainingMs n) = v at hrecord
  refine Safe.write trivial (fun t _ t' _ _ hx => .inr ⟨trivial, fun m hm => ⟨n, ?_, ?_⟩⟩)
    fun _ _ t' _ _ _ _ _ => Safe.ret fun t'' _ => hQ n t''
  · have hput : t' = t.put (self.leaseKey plan) v := hx.1
    rw [hput, storedSequence, Store.put_self]
    exact hrecord
  · exact hx.2 v rfl m n hm hrecord

/-- A renewal whose publication is in its turn is safe. -/
theorem safe_renewInTurn {remainingMs : Int} (hE : ∀ e t, E e t)
    {Q : Int → Store → Prop} (hQ : ∀ n t, Q n t) :
    Safe (leaseWorld self plan) Q E (self.renewPlanLease plan remainingMs) s := by
  rw [PlanStore.renewPlanLease]
  split
  · exact Safe.raise fun t _ => hE _ t
  split
  · exact Safe.raise fun t _ => hE _ t
  rename_i hms
  refine safe_read_any hE fun r s₁ => ?_
  split
  · exact Safe.raise fun t _ => hE _ t
  refine safe_addBeside (by simp [PlanStore.leaseSequenceKey, PlanStore.leaseKey])
    fun n s₂ => ?_
  split
  · exact Safe.raise fun t _ => hE _ t
  · rename_i hseq
    exact safe_publishLease (Int.not_lt.mp hms) (Int.not_lt.mp hseq) hQ

/-- A reader sees the stored sequence, which is not behind what it was before. -/
theorem safe_readInTurn (hE : ∀ e t, E e t) :
    Safe (leaseWorld self plan)
      (fun r t => ∀ n ms, r = some (n, ms) →
        (∀ m, storedSequence self plan s = some m → m ≤ n) ∧
          ∃ n', storedSequence self plan t = some n' ∧ n ≤ n') E
      (self.readPlanLease plan) s := by
  rw [PlanStore.readPlanLease]
  split
  · exact Safe.raise fun t _ => hE _ t
  refine Safe.read trivial (fun _ _ _ hx => hx.1.1) fun s₁ found _ hl₁ _ => ?_
  cases found with
  | false => exact Safe.ret fun _ _ n ms h => by cases h
  | true =>
      refine Safe.read trivial (fun _ _ _ hx => hx.1.1) fun s₂ r _ hl₂ hx => ?_
      obtain ⟨-, rfl⟩ := hx.1
      cases hkey : s₂ (self.leaseKey plan) with
      | none => exact Safe.raise fun t _ => hE _ t
      | some v =>
          show Safe _ _ E (ofExcept (decodePlanLease v) >>= _) s₂
          cases hdec : decodePlanLease v with
          | error e => exact Safe.raise fun t _ => hE _ t
          | ok lease =>
              refine Safe.ret fun t hl n ms h => ?_
              cases h
              have hstored : storedSequence self plan s₂ = some n := by
                rw [storedSequence, hkey, Option.bind_some, leaseSequence, hdec]
                rfl
              refine ⟨fun m hm => ?_, storedSequence_later hl hstored⟩
              obtain ⟨m', hm', hle⟩ := storedSequence_later (hl₁.trans hl₂) hm
              cases Option.some.inj (hstored.symm.trans hm')
              exact hle

/-- Of each process: what it has seen never fell, and the stored sequence is not behind it. -/
def SeenInTurn (self : PlanStore) (plan : RestartPlan) (ι : Type) :
    (renewers self plan ι).Known Store :=
  fun _ l _ s => (sequencesSeen l).Pairwise (fun later earlier => earlier ≤ later) ∧
    ∀ n ∈ sequencesSeen l, ∃ n', storedSequence self plan s = some n' ∧ n ≤ n'

theorem SeenInTurn.later {ι : Type} {p : ι} {w : Unit} {l : (renewers self plan ι).History p}
    (hl : (leaseWorld self plan).Later s s') (h : SeenInTurn self plan ι p l w s) :
    SeenInTurn self plan ι p l w s' := by
  refine ⟨h.1, fun n hn => ?_⟩
  obtain ⟨m, hm, hle⟩ := h.2 n hn
  obtain ⟨m', hm', hle'⟩ := storedSequence_later hl hm
  exact ⟨m', hm', Int.le_trans hle hle'⟩

theorem renewers_proof (ι : Type) :
    System.Proof (leaseWorld self plan) (SeenInTurn self plan ι) where
  keeps _ _ _ _ _ _ hl h := h.later hl
  call p k l w s _ h := by
    cases k with
    | renew remainingMs =>
        have hrenew : Safe (leaseWorld self plan) (fun a _ => ∃ n, a = LeaseAnswer.renewed n)
            (fun _ _ => True) (self.renewPlanLease plan remainingMs >>= fun n =>
              pure (.renewed n)) s :=
          Safe.bind trivial (safe_renewInTurn (Q := fun _ _ => True) (fun _ _ => trivial)
            fun _ _ => trivial) fun n _ _ _ _ => Safe.ret fun _ _ => ⟨n, rfl⟩
        refine Safe.lift (Safe.mono trivial hrenew (fun a s' _ hl ha => ?_)
          fun e s' _ hl _ => h.later hl)
        obtain ⟨n, rfl⟩ := ha
        exact h.later hl
    | read =>
        have hread : Safe (leaseWorld self plan)
            (fun a t => ∃ lease, a = LeaseAnswer.seen lease ∧ ∀ n ms, lease = some (n, ms) →
              (∀ m, storedSequence self plan s = some m → m ≤ n) ∧
                ∃ n', storedSequence self plan t = some n' ∧ n ≤ n')
            (fun _ _ => True) (self.readPlanLease plan >>= fun lease => pure (.seen lease)) s := by
          refine Safe.bind trivial (safe_readInTurn fun _ _ => trivial) fun lease s' _ _ hseen =>
            Safe.ret fun s'' hl => ⟨lease, rfl, fun n ms hn => ?_⟩
          obtain ⟨hbefore, n', hn', hle⟩ := hseen n ms hn
          obtain ⟨n'', hn'', hle'⟩ := storedSequence_later hl hn'
          exact ⟨hbefore, n'', hn'', Int.le_trans hle hle'⟩
        refine Safe.lift (Safe.mono trivial hread (fun a s' _ hl ha => ?_)
          fun e s' _ hl _ => h.later hl)
        obtain ⟨lease, rfl, hseen⟩ := ha
        cases lease with
        | none => exact h.later hl
        | some lease =>
            obtain ⟨n, ms⟩ := lease
            obtain ⟨hbefore, hafter⟩ := hseen n ms rfl
            refine ⟨List.pairwise_cons.mpr ⟨fun m hm => ?_, h.1⟩, fun m hm => ?_⟩
            · obtain ⟨m', hm', hle⟩ := h.2 m hm
              exact Int.le_trans hle (hbefore m' hm')
            · rcases List.mem_cons.mp hm with rfl | hm
              · exact hafter
              · exact (h.later hl).2 m hm

/-- **Where every renewal publishes in its turn, no reader sees the sequence fall.** -/
theorem sequences_in_turn {ι : Type} {c : (renewers self plan ι).Config Store}
    (h : System.Run (inTurn self plan) ((renewers self plan ι).idle s ()) c) (p : ι) :
    (sequencesSeen (c.threads p).history).Pairwise fun later earlier => earlier ≤ later := by
  have hinit := System.Inv.idle (W := leaseWorld self plan) (Y := renewers self plan ι)
    (K := SeenInTurn self plan ι) (s := s) (w := ()) trivial
    fun p => ⟨List.Pairwise.nil, fun n hn => absurd hn List.not_mem_nil⟩
  exact ((System.Run.sound (renewers_proof ι) hinit h).1.threads p).1.1

/-! ## Renewals that do not overlap -/

/-- The operations of renewals and reads. -/
def IsLeaseOp (self : PlanStore) (plan : RestartPlan) : Op → Prop
  | .check _ => True
  | .get _ => True
  | .add k n => k = self.leaseSequenceKey plan ∧ n = 1
  | .set k _ => k = self.leaseKey plan
  | _ => False

/-- The operations, where no renewal draws a number between the draw and the publication of
another: what is published carries the number that was drawn last. -/
def undisturbed (self : PlanStore) (plan : RestartPlan) (s : Store) (o : Op) (r : o.Res)
    (s' : Store) : Prop :=
  exec s o r s' ∧ ∀ v, o = .set (self.leaseKey plan) v → ∀ n, leaseSequence v = some n →
    s.counter (self.leaseSequenceKey plan) = n

/-- The stored number was drawn. -/
def Drawn (self : PlanStore) (plan : RestartPlan) (s : Store) : Prop :=
  ∀ n, storedSequence self plan s = some n → n ≤ s.counter (self.leaseSequenceKey plan)

theorem counter_put {k : Key} {n : Int} : (s.put k (Text.str n)).counter k = n := by
  rw [Store.counter, Store.put_self, Option.bind_some, Text.int?_str]
  rfl

/-- **The counter moves with every draw**, so that a number drawn last is not behind the stored
one, and stays so until it is published. -/
theorem undisturbed_inTurn {o : Op} {r : o.Res} (ho : IsLeaseOp self plan o)
    (hs : Drawn self plan s) (h : undisturbed self plan s o r s') :
    Drawn self plan s' ∧ inTurn self plan s o r s' := by
  refine ⟨?_, h.1, fun v hv n m hn hm => (hs n hn).trans (h.2 v hv m hm).le⟩
  obtain ⟨hx, hlast⟩ := h
  cases o with
  | check ks =>
      rw [hx.1]
      exact hs
  | get k =>
      rw [hx.1]
      exact hs
  | add k n =>
      obtain ⟨rfl, rfl⟩ := ho
      have hkey : self.leaseKey plan ≠ self.leaseSequenceKey plan := by
        simp [PlanStore.leaseSequenceKey, PlanStore.leaseKey]
      intro n hn
      rw [hx.2, storedSequence, Store.put_of_ne hkey] at hn
      rw [hx.2, counter_put]
      exact (hs n hn).trans (by omega)
  | set k v =>
      obtain rfl := ho
      have hkey : self.leaseSequenceKey plan ≠ self.leaseKey plan := by
        simp [PlanStore.leaseSequenceKey, PlanStore.leaseKey]
      have hput : s' = s.put (self.leaseKey plan) v := hx
      intro n hn
      rw [hput, storedSequence, Store.put_self, Option.bind_some] at hn
      rw [hput, Store.counter, Store.put_of_ne hkey]
      exact (hlast v rfl n hn).ge
  | _ => exact ho.elim

theorem only_read (g : Int) : (self.read g).Only (IsLeaseOp self plan) := by
  rw [PlanStore.read]
  split
  · trivial
  refine ⟨trivial, fun found => ?_⟩
  cases found with
  | false => trivial
  | true =>
      refine ⟨trivial, fun r => ?_⟩
      cases r with
      | none => trivial
      | some v =>
          change Prog.Only _ (ofExcept (decodePlan self.runId v g) >>= _)
          cases decodePlan self.runId v g <;> trivial

theorem only_renewPlanLease (remainingMs : Int) :
    (self.renewPlanLease plan remainingMs).Only (IsLeaseOp self plan) := by
  rw [PlanStore.renewPlanLease]
  split
  · trivial
  split
  · trivial
  refine (only_read _).bind fun committed => ?_
  split
  · trivial
  refine ⟨⟨rfl, rfl⟩, fun n => ?_⟩
  change Prog.Only _ (if (show Int from n) < 1 then _ else _)
  split
  · trivial
  · exact ⟨rfl, fun _ => trivial⟩

theorem only_readPlanLease : (self.readPlanLease plan).Only (IsLeaseOp self plan) := by
  rw [PlanStore.readPlanLease]
  split
  · trivial
  refine ⟨trivial, fun found => ?_⟩
  cases found with
  | false => trivial
  | true =>
      refine ⟨trivial, fun r => ?_⟩
      cases r with
      | none => trivial
      | some v =>
          change Prog.Only _ (ofExcept (decodePlanLease v) >>= _)
          cases decodePlanLease v <;> trivial

/-- **Where renewals do not overlap, no reader sees the sequence fall.** -/
theorem sequences_undisturbed {ι : Type} {c : (renewers self plan ι).Config Store}
    (hs : Drawn self plan s)
    (h : System.Run (undisturbed self plan) ((renewers self plan ι).idle s ()) c) (p : ι) :
    (sequencesSeen (c.threads p).history).Pairwise fun later earlier => earlier ≤ later := by
  refine sequences_in_turn (System.Run.each (P := IsLeaseOp self plan) (J := Drawn self plan)
    (fun p k w => ?_) (fun _ _ _ _ => undisturbed_inTurn) (.idle hs) h).2 p
  cases k with
  | renew remainingMs =>
      refine Meth.only_lift ((only_renewPlanLease remainingMs).bind fun n => ?_) w
      trivial
  | read =>
      refine Meth.only_lift (only_readPlanLease.bind fun lease => ?_) w
      trivial

/-! ## Renewers that run alone -/

/-- The operations `exec` that do not publish a lease are among those of `ex`. -/
def Admits (self : PlanStore) (plan : RestartPlan)
    (ex : Store → (o : Op) → o.Res → Store → Prop) : Prop :=
  ∀ s o r s', exec s o r s' → (∀ v, o ≠ .set (self.leaseKey plan) v) → ex s o r s'

theorem admits_exec : Admits self plan exec := fun _ _ _ _ h _ => h

theorem admits_inTurn : Admits self plan (inTurn self plan) := fun _ _ _ _ h hne =>
  ⟨h, fun v hv => absurd hv (hne v)⟩

variable {ex : Store → (o : Op) → o.Res → Store → Prop}

theorem alone_admitted {β : Type} {s₁ : Store} {q : StoreM β} (hex : Admits self plan ex) {o : Op}
    {f : o.Res → StoreM β} (r : o.Res) (hx : exec s o r s₁)
    (hne : ∀ v, o ≠ .set (self.leaseKey plan) v) (h : Alone ex (f r) s₁ q s') :
    Alone ex (perform o >>= f) s q s' := .op r (hex _ _ _ _ hx hne) h

theorem alone_admittedGet {β : Type} {q : StoreM β} (hex : Admits self plan ex) {k : Key}
    {v : String} {f : String → StoreM β} (hk : s k = some v) (h : Alone ex (f v) s q s') :
    Alone ex (get k >>= f) s q s' :=
  .op (some v) (hex s (.get k) (some v) s ⟨rfl, hk.symm⟩ (by rintro v ⟨⟩)) h

theorem alone_decoded {β γ : Type} {q : StoreM β} {x : Except Raised γ} {a : γ}
    {f : γ → StoreM β} (hx : x = .ok a) (h : Alone ex (f a) s q s') :
    Alone ex (ofExcept x >>= f) s q s' := by
  subst hx
  exact h

/-- A renewal of a committed plan draws its number, and has its record to publish. -/
theorem renewPlanLease_draws (hex : Admits self plan ex) {remainingMs n : Int}
    (hrun : plan.runId = self.runId) (hc : Committed plan s) (hms : 0 ≤ remainingMs)
    (hn : 1 ≤ n) (hcounter : s.counter (self.leaseSequenceKey plan) + 1 = n) :
    Alone ex (self.renewPlanLease plan remainingMs) s
      (set (self.leaseKey plan) (canonicalJson (leaseRecord remainingMs n)) >>= fun _ => pure n)
      (s.put (self.leaseSequenceKey plan) (Text.str n)) := by
  have hto := plan.valid.toGeneration
  have hc' : s (.plan plan.toGeneration) = some plan.toJson := hc
  have hall : [Key.plan plan.toGeneration].all (fun k => (s k).isSome) = true := by simp [hc']
  rw [PlanStore.renewPlanLease, if_neg (not_not.mpr hrun), if_neg (Int.not_lt.mpr hms)]
  have hread : Alone ex (self.read plan.toGeneration) s (.ret (some plan)) s := by
    rw [PlanStore.read, if_neg (by omega)]
    refine alone_admitted hex (o := .check [.plan plan.toGeneration]) true ⟨rfl, hall.symm⟩
      (by rintro v ⟨⟩) ?_
    exact alone_admittedGet hex hc' (alone_decoded (decodePlan_toJson hrun) (.done _ _))
  refine Alone.bind hread ?_
  rw [if_neg (not_not.mpr rfl)]
  refine alone_admitted hex (o := .add (self.leaseSequenceKey plan) 1) n
    ⟨hcounter.symm, by rw [hcounter]⟩ (by rintro v ⟨⟩) ?_
  rw [if_neg (Int.not_lt.mpr hn)]
  exact .done _ _

theorem readPlanLease_alone (hex : Admits self plan ex) {remainingMs n : Int}
    (hrun : plan.runId = self.runId) (hms : 0 ≤ remainingMs) (hn : 1 ≤ n)
    (hs : s (self.leaseKey plan) = some (canonicalJson (leaseRecord remainingMs n))) :
    Alone ex (self.readPlanLease plan) s (.ret (some (n, remainingMs))) s := by
  have hall : [self.leaseKey plan].all (fun k => (s k).isSome) = true := by simp [hs]
  rw [PlanStore.readPlanLease, if_neg (not_not.mpr hrun)]
  refine alone_admitted hex (o := .check [self.leaseKey plan]) true ⟨rfl, hall.symm⟩
    (by rintro v ⟨⟩) ?_
  exact alone_admittedGet hex hs
    (alone_decoded (decodePlanLease_leaseRecord hms hn) (.done _ _))

/-- A process calls `read` while a record is stored. -/
theorem reads_lease (hex : Admits self plan ex) {ι : Type}
    {c : (renewers self plan ι).Config Store} {p : ι} {remainingMs n : Int}
    (hidle : (c.threads p).current = none) (hrun : plan.runId = self.runId)
    (hms : 0 ≤ remainingMs) (hn : 1 ≤ n)
    (hs : c.store (self.leaseKey plan) = some (canonicalJson (leaseRecord remainingMs n))) :
    ∃ c', System.Run ex c c' ∧ (c'.threads p).current = none ∧
      sequencesSeen (c'.threads p).history = n :: sequencesSeen (c.threads p).history ∧
      ∀ q, q ≠ p → c'.threads q = c.threads q := by
  have hbody : Alone ex ((renewers self plan ι).body p .read (c.threads p).attrs) c.store
      (.ret (.seen (some (n, remainingMs)), (c.threads p).attrs)) c.store :=
    Alone.lift (Alone.bind (readPlanLease_alone hex hrun hms hn hs) (.done _ _))
  obtain ⟨c', hsteps, -, ht, hother⟩ := System.Run.alone hidle hbody
  exact ⟨c', hsteps, by rw [ht], by rw [ht]; rfl, hother⟩

end

/-- The plan store of the run of the sample plan. -/
def samplePlans : PlanStore := ⟨"run", id⟩

/-- The store in which the sample plan is committed, and has no lease yet. -/
def committedStore : Store :=
  (fresh.put (.plan 1) samplePlan.toJson).put .generation (Text.str 1)

theorem committed_samplePlan : Committed samplePlan committedStore := by
  rw [Committed, committedStore, Store.put_of_ne (by simp)]
  exact Store.put_self ..

/-- Two renewers and a reader. -/
inductive LeaseParty where
  | first
  | second
  | reader

/-- A renewer publishes the number 1 in its turn, and the reader sees it. -/
theorem sequences_in_turn_sample :
    ∃ c : (renewers samplePlans samplePlan LeaseParty).Config Store,
      System.Run (inTurn samplePlans samplePlan)
        ((renewers samplePlans samplePlan LeaseParty).idle committedStore ()) c ∧
      sequencesSeen (c.threads LeaseParty.reader).history = [1] ∧
      (sequencesSeen (c.threads LeaseParty.reader).history).Pairwise
        fun later earlier => earlier ≤ later := by
  have hrun : samplePlan.runId = samplePlans.runId := rfl
  let Y := renewers samplePlans samplePlan LeaseParty
  have hdraw : Alone (inTurn samplePlans samplePlan) (samplePlans.renewPlanLease samplePlan 50)
      committedStore _ _ :=
    renewPlanLease_draws (n := 1) admits_inTurn hrun committed_samplePlan (by decide) (by decide)
      rfl
  have hpublish : Alone (inTurn samplePlans samplePlan)
      (samplePlans.renewPlanLease samplePlan 50) committedStore (.ret 1) _ :=
    hdraw.trans (.op () ⟨rfl, by rintro v ⟨⟩ n m ⟨⟩⟩ (.done _ _))
  have hfirst : Alone (inTurn samplePlans samplePlan) (Y.body LeaseParty.first (.renew 50) ())
      committedStore (.ret (.renewed 1, ())) _ :=
    Alone.lift (Alone.bind hpublish (.done _ _))
  obtain ⟨c₁, hrun₁, hs₁, -, hother₁⟩ := System.Run.alone
    (c := Y.idle committedStore ()) (p := LeaseParty.first) rfl hfirst
  have hlease : c₁.store (samplePlans.leaseKey samplePlan) =
      some (canonicalJson (leaseRecord 50 1)) := by rw [hs₁, Store.put_self]
  have hreader : c₁.threads LeaseParty.reader = (Y.idle committedStore ()).threads LeaseParty.reader :=
    hother₁ LeaseParty.reader (by rintro ⟨⟩)
  obtain ⟨c₂, hrun₂, -, hseen₂, -⟩ := reads_lease admits_inTurn (p := LeaseParty.reader)
    (by rw [hreader]; rfl) hrun (by decide) (by decide) hlease
  refine ⟨c₂, hrun₁.trans hrun₂, ?_, sequences_in_turn (hrun₁.trans hrun₂) LeaseParty.reader⟩
  rw [hseen₂, hreader]
  rfl

/-- One renewer draws the number 1, another one draws and publishes 2, and then the first one
publishes: a reader sees 2 and then 1. -/
theorem lease_sequence_falls :
    Committed samplePlan committedStore ∧
    committedStore (samplePlans.leaseKey samplePlan) = none ∧
    ∃ c : (renewers samplePlans samplePlan LeaseParty).Config Store,
      System.Run exec ((renewers samplePlans samplePlan LeaseParty).idle committedStore ()) c ∧
      ¬(sequencesSeen (c.threads LeaseParty.reader).history).Pairwise
        fun later earlier => earlier ≤ later := by
  have hrun : samplePlan.runId = samplePlans.runId := rfl
  have hplan : ∀ {s : Store} {v}, Committed samplePlan s →
      Committed samplePlan (s.put (samplePlans.leaseSequenceKey samplePlan) v) := fun h => by
    rw [Committed, Store.put_of_ne (by simp [PlanStore.leaseSequenceKey])]
    exact h
  let Y := renewers samplePlans samplePlan LeaseParty
  -- the first renewer draws its number and stops
  have hdraw₁ : Alone exec (samplePlans.renewPlanLease samplePlan 50) committedStore _ _ :=
    renewPlanLease_draws (n := 1) admits_exec hrun committed_samplePlan (by decide) (by decide)
      rfl
  have hfirst : Alone exec (Y.body LeaseParty.first (.renew 50) ()) committedStore _ _ :=
    hdraw₁.segment.lift_segment
  obtain ⟨c₁, hrun₁, hs₁, ht₁, hother₁⟩ := System.Run.begin
    (c := Y.idle committedStore ()) (p := LeaseParty.first) rfl hfirst
  -- the second one renews
  have hcounter : c₁.store.counter (samplePlans.leaseSequenceKey samplePlan) + 1 = 2 := by
    rw [hs₁, Store.counter, Store.put_self]
    decide +kernel
  have hdraw₂ : Alone exec (samplePlans.renewPlanLease samplePlan 40) c₁.store _ _ :=
    renewPlanLease_draws admits_exec hrun (hs₁ ▸ hplan committed_samplePlan) (by decide)
      (by decide) hcounter
  have hsecond : Alone exec (Y.body LeaseParty.second (.renew 40) (c₁.threads LeaseParty.second).attrs)
      c₁.store (.ret (.renewed 2, (c₁.threads LeaseParty.second).attrs)) _ :=
    Alone.lift (Alone.bind (hdraw₂.trans (.op () rfl (.done _ _))) (.done _ _))
  obtain ⟨c₂, hrun₂, hs₂, -, hother₂⟩ := System.Run.alone
    (by rw [hother₁ LeaseParty.second (by rintro ⟨⟩)]; rfl) hsecond
  -- the reader sees 2
  have hlease₂ : c₂.store (samplePlans.leaseKey samplePlan) =
      some (canonicalJson (leaseRecord 40 2)) := by rw [hs₂, Store.put_self]
  obtain ⟨c₃, hrun₃, hidle₃, hseen₃, hother₃⟩ := reads_lease admits_exec (p := LeaseParty.reader)
    (by rw [hother₂ LeaseParty.reader (by rintro ⟨⟩), hother₁ LeaseParty.reader (by rintro ⟨⟩)]; rfl)
    hrun (by decide) (by decide) hlease₂
  -- the first one publishes
  have hcurrent : (c₃.threads LeaseParty.first).current = (c₁.threads LeaseParty.first).current := by
    rw [hother₃ LeaseParty.first (by rintro ⟨⟩), hother₂ LeaseParty.first (by rintro ⟨⟩)]
  rw [ht₁] at hcurrent
  have hpublish : Alone exec (set (samplePlans.leaseKey samplePlan)
      (canonicalJson (leaseRecord 50 1)) >>= fun _ => pure (1 : Int)) c₃.store (.ret 1) _ :=
    .op () rfl (.done _ _)
  obtain ⟨c₄, hrun₄, hs₄, -, hother₄⟩ := System.Run.finish hcurrent
    (Alone.lift (Alone.bind hpublish (.done _ _)))
  -- and the reader sees 1
  have hreader : c₄.threads LeaseParty.reader = c₃.threads LeaseParty.reader :=
    hother₄ LeaseParty.reader (by rintro ⟨⟩)
  have hlease₄ : c₄.store (samplePlans.leaseKey samplePlan) =
      some (canonicalJson (leaseRecord 50 1)) := by rw [hs₄, Store.put_self]
  obtain ⟨c₅, hrun₅, -, hseen₅, -⟩ := reads_lease admits_exec (p := LeaseParty.reader)
    (by rw [hreader, hidle₃]) hrun (by decide) (by decide) hlease₄
  refine ⟨committed_samplePlan, rfl, c₅,
    hrun₁.trans (hrun₂.trans (hrun₃.trans (hrun₄.trans hrun₅))), fun hp => ?_⟩
  rw [hseen₅, hreader, hseen₃] at hp
  exact absurd (List.rel_of_pairwise_cons hp List.mem_cons_self) (by decide)

end LmResiliency.Torchrun
