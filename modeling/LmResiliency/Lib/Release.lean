/-
# Release — what was acquired, and what was given back

A ledger has an entry for everything that was acquired and for every attempt to give
it back, with how the attempt ended.  What is in hand is somebody's own account of what
is left to give back; `Held` says that the account is right, and that nothing was given
back that was not owed.  An account that is empty in the end has left nothing out.
-/
import Mathlib.Data.Multiset.AddSub

namespace LmResiliency.Release

variable {X : Type}

/-- An entry: something was acquired, or there was an attempt to give it back. -/
inductive Entry (X : Type) where
  | acquire (x : X)
  | release (x : X) (returned : Bool)

def Entry.acquires : Entry X → Bool
  | acquire _ => true
  | release _ _ => false

open Classical in
/-- One more entry. -/
noncomputable def owing (m : Multiset X) : Entry X → Multiset X
  | .acquire x => x ::ₘ m
  | .release x true => m.erase x
  | .release _ false => m

/-- What was acquired and is not given back. -/
noncomputable def owed (es : List (Entry X)) : Multiset X := es.foldl owing 0

theorem owed_concat (es : List (Entry X)) (e : Entry X) :
    owed (es ++ [e]) = owing (owed es) e := List.foldl_concat owing 0 e es

/-- Nothing is given back that is not owed. -/
def Orderly (es : List (Entry X)) : Prop :=
  ∀ before x returned after, es = before ++ .release x returned :: after → x ∈ owed before

/-- **Every acquisition of `x`** is followed by an attempt to give it back. -/
def Tried (es : List (Entry X)) (x : X) : Prop :=
  ∀ before after, es = before ++ .acquire x :: after → ∃ returned, .release x returned ∈ after

/-- **The account**: what is in hand is owed, and whatever else was acquired there was an attempt
to give back. -/
structure Held (es : List (Entry X)) (hand : Multiset X) : Prop where
  owed : hand ≤ owed es
  tried : ∀ x, x ∈ hand ∨ Tried es x
  orderly : Orderly es

/-- A list that is cut at one of its entries, or at one that is added. -/
theorem concat_cut {es before after : List (Entry X)} {e e' : Entry X}
    (h : es ++ [e] = before ++ e' :: after) :
    (es = before ∧ e = e' ∧ after = []) ∨ ∃ rest, after = rest ++ [e] ∧ es = before ++ e' :: rest := by
  rcases List.eq_nil_or_concat after with rfl | ⟨rest, last, rfl⟩
  · obtain ⟨rfl, hlast⟩ := List.append_inj' h rfl
    exact Or.inl ⟨rfl, List.singleton_inj.mp hlast, rfl⟩
  · rw [List.concat_eq_append, ← List.cons_append, ← List.append_assoc] at h
    obtain ⟨rfl, hlast⟩ := List.append_inj' h rfl
    exact Or.inr ⟨rest, by rw [List.concat_eq_append, List.singleton_inj.mp hlast], rfl⟩

variable {es : List (Entry X)} {hand : Multiset X} {x y : X} {returned : Bool}

theorem Tried.nil (x : X) : Tried [] x := fun before after h => by
  cases before <;> cases h

theorem Tried.concat (h : Tried es x) {e : Entry X} (he : e ≠ .acquire x) :
    Tried (es ++ [e]) x := by
  intro before after hcut
  obtain ⟨-, rfl, -⟩ | ⟨rest, rfl, rfl⟩ := concat_cut hcut
  · exact absurd rfl he
  · obtain ⟨returned, hmem⟩ := h before rest rfl
    exact ⟨returned, List.mem_append_left _ hmem⟩

theorem Tried.release (es : List (Entry X)) (x : X) (returned : Bool) :
    Tried (es ++ [.release x returned]) x := by
  intro before after hcut
  obtain ⟨-, he, -⟩ | ⟨rest, rfl, rfl⟩ := concat_cut hcut
  · cases he
  · exact ⟨returned, List.mem_append_right _ List.mem_cons_self⟩

theorem Orderly.concat (h : Orderly es) {e : Entry X}
    (he : ∀ x returned, e = .release x returned → x ∈ Release.owed es) : Orderly (es ++ [e]) := by
  intro before x returned after hcut
  obtain ⟨rfl, rfl, -⟩ | ⟨rest, rfl, rfl⟩ := concat_cut hcut
  · exact he x returned rfl
  · exact h before x returned rest rfl

namespace Held

theorem nil : Held ([] : List (Entry X)) 0 where
  owed := Multiset.zero_le _
  tried x := Or.inr (.nil x)
  orderly before x returned after h := by cases before <;> cases h

theorem acquire (h : Held es hand) (x : X) : Held (es ++ [.acquire x]) (x ::ₘ hand) where
  owed := by
    rw [owed_concat]
    exact (Multiset.cons_le_cons_iff x).mpr h.owed
  tried y := by
    by_cases heq : y = x
    · rw [heq]
      exact Or.inl (Multiset.mem_cons_self x hand)
    · rcases h.tried y with hin | htried
      · exact Or.inl (Multiset.mem_cons_of_mem hin)
      · refine Or.inr (htried.concat fun he => heq ?_)
        exact (Entry.acquire.inj he).symm
  orderly := h.orderly.concat nofun

/-- What is in hand is given up with the attempt. -/
theorem release (h : Held es (x ::ₘ hand)) (returned : Bool) :
    Held (es ++ [.release x returned]) hand where
  owed := by
    classical
    rw [owed_concat]
    cases returned with
    | true =>
        have herase := Multiset.erase_le_erase x h.owed
        rwa [Multiset.erase_cons_head] at herase
    | false => exact (Multiset.le_cons_self hand x).trans h.owed
  tried y := by
    by_cases heq : y = x
    · rw [heq]
      exact Or.inr (.release es x returned)
    · rcases h.tried y with hin | htried
      · exact Or.inl ((Multiset.mem_cons.mp hin).resolve_left heq)
      · exact Or.inr (htried.concat nofun)
  orderly := h.orderly.concat fun y r he => by
    obtain ⟨rfl, -⟩ := Entry.release.inj he
    exact Multiset.mem_of_le h.owed (Multiset.mem_cons_self x hand)

/-- What is in hand is kept after an attempt that has failed. -/
theorem retry (h : Held es (x ::ₘ hand)) : Held (es ++ [.release x false]) (x ::ₘ hand) where
  owed := by
    rw [owed_concat]
    exact h.owed
  tried y := (h.tried y).imp id fun htried => htried.concat nofun
  orderly := (h.release false).orderly

/-- What there was an attempt to give back may be given up. -/
theorem drop (h : Held es (x ::ₘ hand)) (hx : Tried es x) : Held es hand where
  owed := (Multiset.le_cons_self hand x).trans h.owed
  tried y := by
    rcases h.tried y with hin | htried
    · rcases Multiset.mem_cons.mp hin with rfl | hin
      · exact Or.inr hx
      · exact Or.inl hin
    · exact Or.inr htried
  orderly := h.orderly

/-- All of some things that there was an attempt to give back. -/
theorem drop_all {gone : Multiset X} (h : Held es (gone + hand)) (hgone : ∀ x ∈ gone, Tried es x) :
    Held es hand := by
  induction gone using Multiset.induction with
  | empty => rwa [Multiset.zero_add] at h
  | cons x gone ih =>
      rw [Multiset.cons_add] at h
      refine ih (h.drop (hgone x (Multiset.mem_cons_self x gone))) fun y hy => ?_
      exact hgone y (Multiset.mem_cons_of_mem hy)

/-- **Nothing is in hand**: everything that was acquired there was an attempt to give back. -/
theorem settled (h : Held es 0) (x : X) : Tried es x :=
  (h.tried x).resolve_left (Multiset.notMem_zero x)

end Held

end LmResiliency.Release
