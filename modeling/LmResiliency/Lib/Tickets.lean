/-
# Tickets — numbers drawn per key from a shared table

Holders draw the next number of some keys at once, use the numbers they hold one by
one, or give all of them back while the table is as they left it.  A holder may vanish
at any point, and the table may grow by itself.  No number of a key is used twice, and
none that the table does not hold.
-/
import Mathlib.Algebra.Order.Ring.Int
import Mathlib.Data.List.Basic
import Mathlib.Data.List.Nodup
import Mathlib.Logic.Function.Basic
import Mathlib.Logic.Relation

namespace LmResiliency.Tickets

variable {ι κ : Type}

/-- What a holder has drawn and not used. -/
structure Draw (κ : Type) where
  before : κ → Int
  left : List κ
  fresh : Bool

/-- The table, the holders, and the numbers used. -/
structure Table (ι κ : Type) where
  counts : κ → Int
  holds : ι → Option (Draw κ)
  used : List (κ × Int)

section Bump

variable [DecidableEq κ]

/-- The counts after one number of each of the keys was drawn. -/
def bump (counts : κ → Int) (keys : List κ) : κ → Int :=
  fun k => if k ∈ keys then counts k + 1 else counts k

theorem le_bump (counts : κ → Int) (keys : List κ) (k : κ) : counts k ≤ bump counts keys k := by
  rw [bump]
  split <;> omega

theorem bump_cons {counts : κ → Int} {key : κ} {keys : List κ} (hnew : key ∉ keys) :
    bump (bump counts [key]) keys = bump counts (key :: keys) := by
  funext k
  simp only [bump, List.mem_cons, List.not_mem_nil, or_false]
  by_cases hk : k = key
  · rw [if_neg (hk ▸ hnew), if_pos hk, if_pos (Or.inl hk)]
  · by_cases hmem : k ∈ keys
    · rw [if_pos hmem, if_neg hk, if_pos (Or.inr hmem)]
    · rw [if_neg hmem, if_neg hk, if_neg (not_or.mpr ⟨hk, hmem⟩)]

end Bump

variable [DecidableEq ι]

/-- One step. -/
inductive Step [DecidableEq κ] : Table ι κ → Table ι κ → Prop where
  | draw (t : Table ι κ) (i : ι) (keys : List κ) : t.holds i = none → keys.Nodup →
      Step t ⟨bump t.counts keys, Function.update t.holds i (some ⟨t.counts, keys, true⟩), t.used⟩
  | keep (t : Table ι κ) (i : ι) (d : Draw κ) : t.holds i = some d →
      Step t ⟨t.counts, Function.update t.holds i (some { d with fresh := false }), t.used⟩
  | use (t : Table ι κ) (i : ι) (d : Draw κ) (k : κ) (rest : List κ) : t.holds i = some d →
      d.left = k :: rest →
      Step t ⟨t.counts, Function.update t.holds i (some ⟨d.before, rest, false⟩),
        t.used ++ [(k, d.before k + 1)]⟩
  | giveBack (t : Table ι κ) (i : ι) (d : Draw κ) : t.holds i = some d → d.fresh = true →
      t.counts = bump d.before d.left →
      Step t ⟨d.before, Function.update t.holds i none, t.used⟩
  | forget (t : Table ι κ) (i : ι) : Step t ⟨t.counts, Function.update t.holds i none, t.used⟩
  | grow (t : Table ι κ) (counts : κ → Int) : (∀ k, t.counts k ≤ counts k) →
      Step t ⟨counts, t.holds, t.used⟩

/-- The numbers used are in the table and distinct, and those still held are in the table,
unused, and of one holder each. -/
structure Inv (t : Table ι κ) : Prop where
  used_le : ∀ n ∈ t.used, n.2 ≤ t.counts n.1
  used_nodup : t.used.Nodup
  left_nodup : ∀ i d, t.holds i = some d → d.left.Nodup
  held : ∀ i d, t.holds i = some d → ∀ k ∈ d.left,
    d.before k + 1 ≤ t.counts k ∧ (k, d.before k + 1) ∉ t.used
  apart : ∀ i j d e, i ≠ j → t.holds i = some d → t.holds j = some e →
    ∀ k ∈ d.left, k ∈ e.left → d.before k ≠ e.before k

omit [DecidableEq ι] in
theorem inv_of_unheld {t : Table ι κ} (hused : t.used = []) (hholds : ∀ i, t.holds i = none) :
    Inv t := by
  refine ⟨fun n hn => ?_, hused ▸ List.nodup_nil, fun i d h => ?_, fun i d h => ?_,
    fun i j d e _ h => ?_⟩
  · rw [hused] at hn
    exact absurd hn List.not_mem_nil
  all_goals
    rw [hholds] at h
    cases h

theorem holds_update {t : Table ι κ} {i : ι} {new : Option (Draw κ)} {j : ι} {d : Draw κ}
    (h : Function.update t.holds i new j = some d) :
    (j = i ∧ new = some d) ∨ (j ≠ i ∧ t.holds j = some d) := by
  by_cases hj : j = i
  · subst hj
    rw [Function.update_self] at h
    exact Or.inl ⟨rfl, h⟩
  · rw [Function.update_of_ne hj] at h
    exact Or.inr ⟨hj, h⟩

/-- Fewer numbers held, with nothing used and nothing lost. -/
theorem Inv.shrink {t : Table ι κ} (h : Inv t) (i : ι) (new : Option (Draw κ))
    (hnew : ∀ d, new = some d → ∃ e, t.holds i = some e ∧ e.before = d.before ∧ d.left = e.left) :
    Inv ⟨t.counts, Function.update t.holds i new, t.used⟩ := by
  have hold : ∀ j d, Function.update t.holds i new j = some d →
      ∃ e, t.holds j = some e ∧ e.before = d.before ∧ d.left = e.left := by
    intro j d hd
    rcases holds_update hd with ⟨hj, hd'⟩ | ⟨-, hd'⟩
    · exact hj ▸ hnew d hd'
    · exact ⟨d, hd', rfl, rfl⟩
  refine ⟨h.used_le, h.used_nodup, fun j d hd => ?_, fun j d hd k hk => ?_,
    fun j j' d d' hne hd hd' k hk hk' => ?_⟩
  · obtain ⟨e, he, -, hleft⟩ := hold j d hd
    exact hleft ▸ h.left_nodup j e he
  · obtain ⟨e, he, hbefore, hleft⟩ := hold j d hd
    exact hbefore ▸ h.held j e he k (hleft ▸ hk)
  · obtain ⟨e, he, hbefore, hleft⟩ := hold j d hd
    obtain ⟨e', he', hbefore', hleft'⟩ := hold j' d' hd'
    rw [← hbefore, ← hbefore']
    exact h.apart j j' e e' hne he he' k (hleft ▸ hk) (hleft' ▸ hk')

theorem Inv.use {t : Table ι κ} (h : Inv t) {i : ι} {d : Draw κ} {k : κ} {rest : List κ}
    (hd : t.holds i = some d) (hleft : d.left = k :: rest) :
    Inv ⟨t.counts, Function.update t.holds i (some ⟨d.before, rest, false⟩),
      t.used ++ [(k, d.before k + 1)]⟩ := by
  have hmem : k ∈ d.left := hleft ▸ List.mem_cons_self
  have hnd := h.left_nodup i d hd
  rw [hleft, List.nodup_cons] at hnd
  obtain ⟨hle, hunused⟩ := h.held i d hd k hmem
  have hrest : ∀ k' ∈ rest, k' ∈ d.left := fun k' hk' => hleft ▸ List.mem_cons_of_mem k hk'
  refine ⟨fun n hn => ?_, ?_, fun j e he => ?_, fun j e he k' hk' => ?_,
    fun j j' e e' hne he he' k' hk' hk'' => ?_⟩
  · rcases List.mem_append.mp hn with hn | hn
    · exact h.used_le n hn
    · rw [List.mem_singleton.mp hn]
      exact hle
  · refine h.used_nodup.append (List.nodup_singleton _) fun n hn hn' => ?_
    rw [List.mem_singleton.mp hn'] at hn
    exact hunused hn
  · rcases holds_update he with ⟨-, he⟩ | ⟨-, he⟩
    · obtain rfl := Option.some.inj he
      exact hnd.2
    · exact h.left_nodup j e he
  · rcases holds_update he with ⟨-, he⟩ | ⟨hne, he⟩
    · obtain rfl := Option.some.inj he
      obtain ⟨hle', hunused'⟩ := h.held i d hd k' (hrest k' hk')
      refine ⟨hle', fun hused => ?_⟩
      rcases List.mem_append.mp hused with hused | hused
      · exact hunused' hused
      · have hkey : k' = k := congrArg Prod.fst (List.mem_singleton.mp hused)
        exact hnd.1 (hkey ▸ hk')
    · obtain ⟨hle', hunused'⟩ := h.held j e he k' hk'
      refine ⟨hle', fun hused => ?_⟩
      rcases List.mem_append.mp hused with hused | hused
      · exact hunused' hused
      · obtain ⟨hkey, hnumber⟩ := Prod.mk.inj (List.mem_singleton.mp hused)
        have hne' := h.apart j i e d hne he hd k' hk' (hkey ▸ hmem)
        rw [hkey] at hnumber hne'
        exact hne' (by omega)
  · rcases holds_update he with ⟨hj, he⟩ | ⟨hj, he⟩ <;>
      rcases holds_update he' with ⟨hj', he'⟩ | ⟨hj', he'⟩
    · exact absurd (hj.trans hj'.symm) hne
    · obtain rfl := Option.some.inj he
      exact h.apart i j' d e' (hj ▸ hne) hd he' k' (hrest k' hk') hk''
    · obtain rfl := Option.some.inj he'
      exact h.apart j i e d (hj' ▸ hne) he hd k' hk' (hrest k' hk'')
    · exact h.apart j j' e e' hne he he' k' hk' hk''

variable [DecidableEq κ]

theorem Inv.draw {t : Table ι κ} (h : Inv t) {i : ι} {keys : List κ} (hnd : keys.Nodup) :
    Inv ⟨bump t.counts keys, Function.update t.holds i (some ⟨t.counts, keys, true⟩), t.used⟩ := by
  have hnew : ∀ k ∈ keys, bump t.counts keys k = t.counts k + 1 := fun k hk => if_pos hk
  refine ⟨fun n hn => (h.used_le n hn).trans (le_bump _ _ _), h.used_nodup, fun j d hd => ?_,
    fun j d hd k hk => ?_, fun j j' d d' hne hd hd' k hk hk' => ?_⟩
  · rcases holds_update hd with ⟨-, hd⟩ | ⟨-, hd⟩
    · obtain rfl := Option.some.inj hd
      exact hnd
    · exact h.left_nodup j d hd
  · rcases holds_update hd with ⟨-, hd⟩ | ⟨-, hd⟩
    · obtain rfl := Option.some.inj hd
      refine ⟨(hnew k hk).ge, fun hused => ?_⟩
      have hle := h.used_le _ hused
      dsimp only at hle
      omega
    · obtain ⟨hle, hunused⟩ := h.held j d hd k hk
      exact ⟨hle.trans (le_bump _ _ _), hunused⟩
  · -- a number that is held is at most the count, and the new one is above it
    rcases holds_update hd with ⟨hj, hd⟩ | ⟨-, hd⟩ <;>
      rcases holds_update hd' with ⟨hj', hd'⟩ | ⟨-, hd'⟩
    · exact absurd (hj.trans hj'.symm) hne
    · obtain rfl := Option.some.inj hd
      have hle := (h.held j' d' hd' k hk').1
      dsimp only
      omega
    · obtain rfl := Option.some.inj hd'
      have hle := (h.held j d hd k hk).1
      dsimp only
      omega
    · exact h.apart j j' d d' hne hd hd' k hk hk'

theorem Inv.giveBack {t : Table ι κ} (h : Inv t) {i : ι} {d : Draw κ} (hd : t.holds i = some d)
    (hcounts : t.counts = bump d.before d.left) :
    Inv ⟨d.before, Function.update t.holds i none, t.used⟩ := by
  -- a number of the table that is not one of those given back stays in it
  have hstays : ∀ k n, n ≤ t.counts k → (k ∈ d.left → n ≠ d.before k + 1) → n ≤ d.before k := by
    intro k n hle hne
    rw [hcounts, bump] at hle
    split at hle
    · rename_i hk
      have := hne hk
      omega
    · exact hle
  refine ⟨fun n hn => ?_, h.used_nodup, fun j e he => ?_, fun j e he k hk => ?_,
    fun j j' e e' hne he he' => ?_⟩
  · refine hstays n.1 n.2 (h.used_le n hn) fun hk heq => ?_
    exact (h.held i d hd n.1 hk).2 (heq ▸ hn)
  · rcases holds_update he with ⟨-, he⟩ | ⟨-, he⟩
    · cases he
    · exact h.left_nodup j e he
  · rcases holds_update he with ⟨-, he⟩ | ⟨hj, he⟩
    · cases he
    · obtain ⟨hle, hunused⟩ := h.held j e he k hk
      refine ⟨hstays k _ hle fun hk' heq => ?_, hunused⟩
      exact h.apart j i e d hj he hd k hk hk' (by omega)
  · rcases holds_update he with ⟨-, he⟩ | ⟨hj, he⟩
    · cases he
    · rcases holds_update he' with ⟨-, he'⟩ | ⟨hj', he'⟩
      · cases he'
      · exact h.apart j j' e e' hne he he'

theorem Inv.step {t t' : Table ι κ} (h : Inv t) (hstep : Step t t') : Inv t' := by
  cases hstep with
  | draw i keys _ hnd => exact h.draw hnd
  | keep i d hd =>
      refine h.shrink i _ fun e he => ⟨d, hd, ?_⟩
      obtain rfl := Option.some.inj he
      exact ⟨rfl, rfl⟩
  | use i d k rest hd hleft => exact h.use hd hleft
  | giveBack i d hd _ hcounts => exact h.giveBack hd hcounts
  | forget i =>
      refine h.shrink i none fun e he => ?_
      cases he
  | grow counts hle =>
      exact ⟨fun n hn => (h.used_le n hn).trans (hle _), h.used_nodup, h.left_nodup,
        fun i d hd k hk => ⟨(h.held i d hd k hk).1.trans (hle k), (h.held i d hd k hk).2⟩, h.apart⟩

/-- **Over any run no number is used twice, and each one used is in the table.** -/
theorem Inv.run {t t' : Table ι κ} (h : Inv t) (hrun : Relation.ReflTransGen Step t t') :
    Inv t' := by
  induction hrun with
  | refl => exact h
  | tail _ hstep ih => exact ih.step hstep

end LmResiliency.Tickets
