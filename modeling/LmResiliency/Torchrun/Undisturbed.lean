/-
# Undisturbed — the methods of a process that no other process disturbs

What each method of the plan store does from a given store when nobody else
touches it: how it ends, and with which store.  The clock and the flags of
the process itself may answer anything that `X` lets them.
-/
import LmResiliency.Torchrun.PlanLog

namespace LmResiliency.Torchrun

open Interleave

/-- The operations on the shared store. -/
def Op.OnStore : Op → Prop
  | .get _ | .check _ | .compareSet _ _ _ | .set _ _ | .append _ _ | .add _ _ => True
  | _ => False

/-- Operations that are those of the store, whatever the environment answers. -/
def Shared (X : Store → (o : Op) → o.Res → Store → Prop) : Prop :=
  ∀ s (o : Op) r s', o.OnStore → (X s o r s' ↔ exec s o r s')

theorem shared_exec : Shared exec := fun _ _ _ _ _ => Iff.rfl

section Operations

variable {X : Store → (o : Op) → o.Res → Store → Prop} (hX : Shared X) {α β : Type}
  {Q : β → Store → Prop} {E : Raised → Store → Prop} {s : Store}

theorem ends_ret {a : β} (h : Q a s) : Ends X Q E (pure a : StoreM β) s := Ends.ret h

theorem ends_raise {e : Raised} (h : E e s) : Ends X Q E (raise e : StoreM β) s :=
  Ends.raise h

theorem ends_ofExcept {x : Except Raised α} {f : α → StoreM β}
    (h : ∀ a, x = .ok a → Ends X Q E (f a) s) (hE : ∀ e, x = .error e → E e s) :
    Ends X Q E (ofExcept x >>= f) s := by
  cases x with
  | ok a => exact h a rfl
  | error e => exact Ends.raise (hE e rfl)

include hX

/-- An operation on the store that can end in one way only. -/
theorem ends_op {o : Op} {f : o.Res → StoreM β} (ho : o.OnStore) (r : o.Res) (s' : Store)
    (hx : exec s o r s') (hone : ∀ r' t, exec s o r' t → r' = r ∧ t = s')
    (h : Ends X Q E (f r) s') : Ends X Q E (Prog.call (I := iface) o f) s :=
  Ends.op (I := iface) (o := o) r s' ((hX _ _ _ _ ho).mpr hx)
    (fun r' t hx' => hone r' t ((hX _ _ _ _ ho).mp hx')) h

theorem ends_get {k : Key} {v : String} {f : String → StoreM β} (hk : s k = some v)
    (h : Ends X Q E (f v) s) : Ends X Q E (get k >>= f) s :=
  ends_op hX (o := .get k) trivial (some v) s ⟨rfl, hk.symm⟩
    (fun _ _ hx => ⟨hx.2.trans hk, hx.1⟩) h

/-- A `get` of a missing key blocks until it gives up. -/
theorem ends_get_missing {k : Key} {f : String → StoreM β} (hk : s k = none)
    (hE : E .storeTimeout s) : Ends X Q E (get k >>= f) s :=
  ends_op hX (o := .get k) trivial none s ⟨rfl, hk.symm⟩
    (fun _ _ hx => ⟨hx.2.trans hk, hx.1⟩) (Ends.raise hE)

theorem ends_check {ks : List Key} {f : Bool → StoreM β}
    (h : Ends X Q E (f (ks.all fun k => (s k).isSome)) s) :
    Ends X Q E (check ks >>= f) s :=
  ends_op hX (o := .check ks) trivial _ s ⟨rfl, rfl⟩ (fun _ _ hx => ⟨hx.2, hx.1⟩) h

theorem ends_compareSet {k : Key} {expected desired : String} {f : String → StoreM β}
    (h : Ends X Q E (f (s.compareSet k expected desired).1)
      (s.compareSet k expected desired).2) :
    Ends X Q E (compareSet k expected desired >>= f) s :=
  ends_op hX (o := .compareSet k expected desired) trivial _ _ ⟨rfl, rfl⟩
    (fun _ _ hx => hx) h

theorem ends_append {k : Key} {v : String} {f : Unit → StoreM β}
    (h : Ends X Q E (f ()) (s.put k ((s k).getD "" ++ v))) :
    Ends X Q E (append k v >>= f) s :=
  ends_op hX (o := .append k v) trivial () _ rfl (fun _ _ hx => ⟨rfl, hx⟩) h

theorem ends_set {k : Key} {v : String} {f : Unit → StoreM β}
    (h : Ends X Q E (f ()) (s.put k v)) : Ends X Q E (set k v >>= f) s :=
  ends_op hX (o := .set k v) trivial () _ rfl (fun _ _ hx => ⟨rfl, hx⟩) h

theorem ends_add {k : Key} {n : Int} {f : Int → StoreM β}
    (h : Ends X Q E (f (s.counter k + n)) (s.put k (Text.str (s.counter k + n)))) :
    Ends X Q E (add k n >>= f) s :=
  ends_op hX (o := .add k n) trivial _ _ ⟨rfl, rfl⟩ (fun _ _ hx => hx) h

end Operations

/-! ## The plan store -/

namespace PlanStore

variable {X : Store → (o : Op) → o.Res → Store → Prop} (hX : Shared X) {s : Store}
include hX

theorem ends_currentGeneration {E : Raised → Store → Prop} {g : Int} (hg : 0 ≤ g)
    (h : s .generation = some (Text.str g)) :
    Ends X (fun g' s' => g' = g ∧ s' = s) E currentGeneration s := by
  refine ends_get hX h ?_
  rw [decodeGeneration_str hg]
  exact Ends.ret ⟨rfl, rfl⟩

theorem ends_read (self : PlanStore) {E : Raised → Store → Prop} {p : RestartPlan}
    (hrun : p.runId = self.runId) (hc : Committed p s) :
    Ends X (fun r s' => r = some p ∧ s' = s) E (self.read p.toGeneration) s := by
  have hto := p.valid.toGeneration
  have hall : [Key.plan p.toGeneration].all (fun k => (s k).isSome) = true := by
    rw [Committed] at hc
    simp [hc]
  rw [PlanStore.read, if_neg (by omega)]
  refine ends_check hX ?_
  rw [hall]
  refine ends_get hX hc ?_
  rw [decodePlan_toJson hrun]
  exact Ends.ret ⟨rfl, rfl⟩

theorem ends_readInitialNodes {E : Raised → Store → Prop} {ids : List String}
    (hids : PlacedNodes ids) (h : Initial ids s) :
    Ends X (fun r s' => r = some ids ∧ s' = s) E readInitialNodes s := by
  have hall : [Key.initialNodes].all (fun k => (s k).isSome) = true := by
    rw [Initial] at h
    simp [h]
  refine ends_check hX ?_
  rw [hall]
  refine ends_get hX h ?_
  rw [decodeInitialNodes_encode hids, if_neg (by simp)]
  exact Ends.ret ⟨rfl, rfl⟩

/-- The node is one that `registered_nodes` returns. -/
def Registered (node : String) (s : Store) : Prop :=
  ∃ v n log out, s .maxNodes = some v ∧
    decodePositiveInteger v "registered max_nodes" = .ok n ∧ s .registrations = some log ∧
    registrationsOf log n = .ok out ∧ node ∈ out.map Prod.fst

theorem ends_registeredNodes {E : Raised → Store → Prop} {node : String}
    (h : Registered node s) :
    Ends X (fun r s' => node ∈ r ∧ s' = s) E (registeredNodes none) s := by
  obtain ⟨v, n, log, out, hmax, hdec, hlog, hout, hmem⟩ := h
  have hall : [Key.maxNodes].all (fun k => (s k).isSome) = true := by simp [hmax]
  refine Ends.bind (Q := fun m s' => m = n ∧ s' = s) ?_ ?_
  · refine ends_check hX ?_
    rw [hall]
    refine ends_get hX hmax ?_
    rw [hdec]
    exact Ends.ret ⟨rfl, rfl⟩
  · rintro _ s ⟨rfl, rfl⟩
    rw [if_neg (fun h => h.1 rfl), decodeRegistrations, bind_assoc]
    refine ends_get hX hlog ?_
    rw [hout]
    exact Ends.ret ⟨hmem, rfl⟩

/-- A publisher on the predecessor's generation that finds nothing under the
plan's key commits its plan and moves the generation on. -/
theorem ends_publish (self : PlanStore) {E : Raised → Store → Prop} {p : RestartPlan}
    (hrun : p.runId = self.runId) (hgen : s .generation = some (Text.str p.fromGeneration))
    (hnone : s (.plan p.toGeneration) = none) :
    Ends X (fun _ s' => s' = (s.put (.plan p.toGeneration) p.toJson).put .generation
      (Text.str p.toGeneration)) E (self.publish p) s := by
  have hto : p.fromGeneration ≠ p.toGeneration := by rw [p.valid.successor]; omega
  have hnext : decodeGeneration (Text.str p.toGeneration) = .ok p.toGeneration :=
    decodeGeneration_str (by have := p.valid.toGeneration; omega)
  rw [PlanStore.publish, if_neg (not_not.mpr hrun)]
  refine Ends.bind (ends_currentGeneration hX p.valid.fromGeneration hgen) ?_
  rintro _ s ⟨rfl, rfl⟩
  rw [if_neg hto, if_neg (not_not.mpr rfl)]
  refine ends_compareSet hX ?_
  rw [Store.compareSet_missing hnone, if_neg (not_not.mpr rfl)]
  dsimp only
  have hadvance : (s.put (.plan p.toGeneration) p.toJson).compareSet .generation
      (Text.str p.fromGeneration) (Text.str p.toGeneration) = (Text.str p.toGeneration,
        (s.put (.plan p.toGeneration) p.toJson).put .generation (Text.str p.toGeneration)) := by
    rw [Store.compareSet, Store.put_of_ne (by simp), hgen]
    exact if_pos rfl
  refine ends_compareSet hX ?_
  rw [hadvance, hnext]
  exact ends_ofExcept (fun a ha => by
    cases ha
    rw [if_neg (not_not.mpr rfl)]
    exact ends_ret rfl) fun e he => by cases he

/-- Where another plan is under that key, it conflicts, and nothing changes. -/
theorem ends_publish_taken (self : PlanStore) {Q : Unit → Store → Prop} {p q : RestartPlan}
    (hrun : p.runId = self.runId) (hgen : s .generation = some (Text.str p.fromGeneration))
    (hq : Committed q s) (hqrun : q.runId = self.runId)
    (hto : q.toGeneration = p.toGeneration) (hne : q ≠ p) :
    Ends X Q (fun e s' => e = .planConflict "another plan is committed for this generation" ∧
      s' = s) (self.publish p) s := by
  have hfrom : p.fromGeneration ≠ p.toGeneration := by rw [p.valid.successor]; omega
  rw [Committed, hto] at hq
  have hset : s.compareSet (.plan p.toGeneration) "" p.toJson = (q.toJson, s) := by
    rw [Store.compareSet, hq]
    exact if_neg q.toJson_ne_empty
  have hjson : q.toJson ≠ p.toJson := fun h => hne (RestartPlan.toJson_injective h)
  rw [PlanStore.publish, if_neg (not_not.mpr hrun)]
  refine Ends.bind (ends_currentGeneration hX p.valid.fromGeneration hgen) ?_
  rintro _ s ⟨rfl, rfl⟩
  rw [if_neg hfrom, if_neg (not_not.mpr rfl)]
  refine ends_compareSet hX ?_
  rw [hset, if_pos hjson, ← hto, decodePlan_toJson hqrun]
  refine ends_ofExcept (fun a ha => ?_) fun e he => by cases he
  cases ha
  rw [if_pos hne]
  exact ends_raise ⟨rfl, rfl⟩

/-- A renewal of the lease of a committed plan leaves the plans and the
generation as they are, whatever the counter of the lease says. -/
theorem ends_renewPlanLease (self : PlanStore) {p : RestartPlan} {ms : Int}
    (hrun : p.runId = self.runId) (hc : Committed p s) (hms : 0 ≤ ms) :
    Ends X (fun _ s' => (∀ k, s' (.plan k) = s (.plan k)) ∧ s' .generation = s .generation)
      (fun _ s' => (∀ k, s' (.plan k) = s (.plan k)) ∧ s' .generation = s .generation)
      (self.renewPlanLease p ms) s := by
  rw [PlanStore.renewPlanLease, if_neg (not_not.mpr hrun), if_neg (by omega)]
  refine Ends.bind (ends_read hX self hrun hc) ?_
  rintro _ s ⟨rfl, rfl⟩
  rw [if_neg (not_not.mpr rfl)]
  refine ends_add hX ?_
  have hkeep : ∀ n : Int, (∀ k, s.put (self.leaseSequenceKey p) (Text.str n) (.plan k) =
      s (.plan k)) ∧
      s.put (self.leaseSequenceKey p) (Text.str n) .generation = s .generation := fun n =>
    ⟨fun k => Store.put_of_ne (by simp [leaseSequenceKey]) s _,
      Store.put_of_ne (by simp [leaseSequenceKey]) s _⟩
  split
  · exact ends_raise (hkeep _)
  · refine ends_set hX (ends_ret ⟨fun k => ?_, ?_⟩)
    · rw [Store.put_of_ne (by simp [leaseKey]), (hkeep _).1 k]
    · rw [Store.put_of_ne (by simp [leaseKey]), (hkeep _).2]

end PlanStore

end LmResiliency.Torchrun
