/-
# Pareto — the maximal elements of a preorder cover it with the fewest

A relation that is a preorder on some elements, and lists of elements that
cover others.  Keeping what no other element strictly dominates, one of each
class, gives a cover whose members are apart, and no cover has fewer members.
-/
import Mathlib.Data.List.Nodup
import Mathlib.Data.List.Perm.Subperm
import Mathlib.Data.List.Pairwise

namespace LmResiliency.Pareto

variable {α : Type} {R : α → α → Prop} {S : List α}

/-- A preorder on the elements of a list. -/
structure PreorderOn (R : α → α → Prop) (S : List α) : Prop where
  refl : ∀ a ∈ S, R a a
  trans : ∀ a ∈ S, ∀ b ∈ S, ∀ c ∈ S, R a b → R b c → R a c

/-- Some member of the list is related to the element. -/
def Covered (R : α → α → Prop) (C : List α) (x : α) : Prop := ∃ c ∈ C, R c x

/-- No member is related to another. -/
def Apart (R : α → α → Prop) (C : List α) : Prop := C.Pairwise fun a b => ¬R a b ∧ ¬R b a

theorem Apart.eq_of {C : List α} (h : Apart R C) {a b : α} (ha : a ∈ C) (hb : b ∈ C)
    (hab : R a b) : a = b := by
  by_contra hne
  have : Std.Symm fun a b => ¬R a b ∧ ¬R b a := ⟨fun _ _ h => h.symm⟩
  exact (h.forall ha hb hne).1 hab

theorem Apart.nodup {C : List α} (h : Apart R C) (hrefl : ∀ c ∈ C, R c c) : C.Nodup :=
  h.imp_of_mem fun ha _ hab heq => hab.1 (heq ▸ hrefl _ ha)

/-- **A cover whose members are apart has the fewest members.** -/
theorem length_le_of_covers (hR : PreorderOn R S) {C D : List α} (hC : C ⊆ S) (hD : D ⊆ S)
    (happart : Apart R C) (hCD : ∀ d ∈ D, Covered R C d) (hDC : ∀ c ∈ C, Covered R D c) :
    C.length ≤ D.length := by
  classical
  have hchoice : ∀ c : α, ∃ d, c ∈ C → d ∈ D ∧ R d c := by
    intro c
    by_cases hc : c ∈ C
    · obtain ⟨d, hd, hdc⟩ := hDC c hc
      exact ⟨d, fun _ => ⟨hd, hdc⟩⟩
    · exact ⟨c, fun h => absurd h hc⟩
  choose f hf using hchoice
  -- a member of the cover is the only one above what is chosen for it
  have habove : ∀ c ∈ C, ∀ c' ∈ C, R c' (f c) → c' = c := fun c hc c' hc' h =>
    happart.eq_of hc' hc (hR.trans _ (hC hc') _ (hD (hf c hc).1) _ (hC hc) h (hf c hc).2)
  have hinj : ∀ a ∈ C, ∀ b ∈ C, f a = f b → a = b := by
    intro a ha b hb heq
    obtain ⟨c, hc, hca⟩ := hCD (f a) (hf a ha).1
    exact (habove a ha c hc hca).symm.trans (habove b hb c hc (heq ▸ hca))
  have hnodup : (C.map f).Nodup :=
    List.Nodup.map_on hinj (happart.nodup fun c hc => hR.refl c (hC hc))
  have hsubset : C.map f ⊆ D := by
    intro d hd
    obtain ⟨c, hc, rfl⟩ := List.mem_map.mp hd
    exact (hf c hc).1
  have hle := (List.subperm_of_subset hnodup hsubset).length_le
  rwa [List.length_map] at hle

/-! ## Keeping the maximal elements -/

variable [DecidableRel R]

/-- What is kept when an element that nothing kept strictly dominates is met: what it
is not related to, and one of its class. -/
def replace (R : α → α → Prop) [DecidableRel R] (kept : List α) (x w : α) : List α :=
  kept.filter (fun e => ¬R x e) ++ [w]

/-- The member stands for the element's class. -/
structure Stands (R : α → α → Prop) (S : List α) (x w : α) : Prop where
  mem : w ∈ S
  above : R w x
  below : R x w

theorem apart_replace (hR : PreorderOn R S) {kept : List α} {x w : α} (hkept : kept ⊆ S)
    (hx : x ∈ S) (hw : Stands R S x w) (happart : Apart R kept)
    (hfree : ∀ e ∈ kept, R e x → R x e) : Apart R (replace R kept x w) := by
  refine List.pairwise_append.mpr ⟨happart.filter _, List.pairwise_singleton _ _, ?_⟩
  intro e he w' hw'
  rw [List.mem_singleton.mp hw']
  obtain ⟨hmem, hnot⟩ := List.mem_filter.mp he
  have hnot : ¬R x e := of_decide_eq_true hnot
  constructor
  · exact fun h => hnot (hfree e hmem (hR.trans _ (hkept hmem) _ hw.mem _ hx h hw.above))
  · exact fun h => hnot (hR.trans _ hx _ hw.mem _ (hkept hmem) hw.below h)

theorem covered_replace (hR : PreorderOn R S) {kept : List α} {x w y : α} (hkept : kept ⊆ S)
    (hx : x ∈ S) (hw : Stands R S x w) (hy : y ∈ S) (h : Covered R kept y ∨ R x y) :
    Covered R (replace R kept x w) y := by
  have hlast : w ∈ replace R kept x w := List.mem_append_right _ (List.mem_singleton.mpr rfl)
  rcases h with ⟨c, hc, hcy⟩ | hxy
  · by_cases hxc : R x c
    · exact ⟨w, hlast, hR.trans _ hw.mem _ hx _ hy hw.above
        (hR.trans _ hx _ (hkept hc) _ hy hxc hcy)⟩
    · exact ⟨c, List.mem_append_left _ (List.mem_filter.mpr ⟨hc, decide_eq_true hxc⟩), hcy⟩
  · exact ⟨w, hlast, hR.trans _ hw.mem _ hx _ hy hw.above hxy⟩

theorem replace_subset {kept : List α} {x w : α} (hkept : kept ⊆ S) (hw : w ∈ S) :
    replace R kept x w ⊆ S := by
  intro e he
  rcases List.mem_append.mp he with he | he
  · exact hkept (List.mem_of_mem_filter he)
  · exact List.mem_singleton.mp he ▸ hw

end LmResiliency.Pareto
