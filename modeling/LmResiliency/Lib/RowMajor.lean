/-
# RowMajor — the elements of an array, by their number

The elements of an array of a shape are numbered with the last dimension running
fastest.  The coordinates of a number are its digits in the mixed radix of the
dimensions, so that different numbers below the size have different coordinates.

`scatter` writes values to places one after another: a place that is named once has the
value that was written to it, and a place that is not named keeps its own.
-/
import Mathlib.Algebra.BigOperators.Group.List.Basic
import Mathlib.Data.List.Nodup
import Mathlib.Logic.Function.Basic

namespace LmResiliency.RowMajor

/-! ## Coordinates -/

/-- The digits of a number, the first dimension running fastest. -/
def digits : Nat → List Nat → List Nat
  | _, [] => []
  | n, d :: ds => n % d :: digits (n / d) ds

/-- A number is determined by its digits. -/
theorem digits_injective {n m : Nat} {ds : List Nat} (hn : n < ds.prod) (hm : m < ds.prod)
    (h : digits n ds = digits m ds) : n = m := by
  induction ds generalizing n m with
  | nil =>
      rw [List.prod_nil] at hn hm
      omega
  | cons d ds ih =>
      rw [List.prod_cons] at hn hm
      rw [digits, digits, List.cons.injEq] at h
      have hquot : n / d = m / d :=
        ih (Nat.div_lt_of_lt_mul hn) (Nat.div_lt_of_lt_mul hm) h.2
      rw [← Nat.div_add_mod n d, ← Nat.div_add_mod m d, h.1, hquot]

/-- The coordinates of an element. -/
def coordinates (shape : List Nat) (n : Nat) : List Nat := (digits n shape.reverse).reverse

theorem coordinates_injective {shape : List Nat} {n m : Nat} (hn : n < shape.prod)
    (hm : m < shape.prod) (h : coordinates shape n = coordinates shape m) : n = m := by
  have hprod : shape.reverse.prod = shape.prod := shape.reverse_perm.prod_eq
  exact digits_injective (hprod.symm ▸ hn) (hprod.symm ▸ hm) (List.reverse_injective h)

/-- Different numbers below the size are different places. -/
theorem nodup_coordinates {shape indices : List Nat} (hnd : indices.Nodup)
    (hlt : ∀ i ∈ indices, i < shape.prod) : (indices.map (coordinates shape)).Nodup :=
  hnd.map_on fun _ hi _ hj => coordinates_injective (hlt _ hi) (hlt _ hj)

/-- An element is at one of the places just when it is one of the elements. -/
theorem mem_coordinates_iff {shape indices : List Nat} {n : Nat} (hn : n < shape.prod)
    (hlt : ∀ i ∈ indices, i < shape.prod) :
    coordinates shape n ∈ indices.map (coordinates shape) ↔ n ∈ indices := by
  rw [List.mem_map]
  constructor
  · rintro ⟨i, hi, heq⟩
    exact coordinates_injective (hlt i hi) hn heq ▸ hi
  · intro hn
    exact ⟨n, hn, rfl⟩

/-! ## Writing to several places -/

section Scatter

variable {κ α : Type} [DecidableEq κ]

/-- The values at these places, one after another. -/
def scatter (a : κ → α) (writes : List (κ × α)) : κ → α :=
  writes.foldl (fun a w => Function.update a w.1 w.2) a

theorem scatter_of_not_mem {a : κ → α} {writes : List (κ × α)} {c : κ}
    (hc : c ∉ writes.map Prod.fst) : scatter a writes c = a c := by
  induction writes generalizing a with
  | nil => rfl
  | cons w ws ih =>
      rw [List.map_cons, List.mem_cons, not_or] at hc
      rw [scatter, List.foldl_cons, ← scatter, ih hc.2, Function.update_of_ne hc.1]

/-- **A place that is named once has the value written to it.** -/
theorem scatter_of_mem {a : κ → α} {writes : List (κ × α)} (hnd : (writes.map Prod.fst).Nodup)
    {c : κ} {v : α} (hc : (c, v) ∈ writes) : scatter a writes c = v := by
  induction writes generalizing a with
  | nil => exact (List.not_mem_nil hc).elim
  | cons w ws ih =>
      rw [List.map_cons, List.nodup_cons] at hnd
      rw [scatter, List.foldl_cons, ← scatter]
      rcases List.mem_cons.mp hc with rfl | hc
      · rw [scatter_of_not_mem hnd.1, Function.update_self]
      · exact ih hnd.2 hc

/-- A place that is not among those that are written keeps its value. -/
theorem scatter_zip_of_not_mem {a : κ → α} {places : List κ} {values : List α} {c : κ}
    (hc : c ∉ places) : scatter a (places.zip values) c = a c := by
  refine scatter_of_not_mem fun hmem => hc ?_
  obtain ⟨w, hw, rfl⟩ := List.mem_map.mp hmem
  exact (List.of_mem_zip hw).1

/-- The places have the values that were written to them, one for one. -/
theorem scatter_getElem {a : κ → α} {places : List κ} {values : List α} (hnd : places.Nodup)
    (hlength : values.length = places.length) {k : Nat} (hk : k < places.length) :
    scatter a (places.zip values) (places[k]) = values.get ⟨k, hlength ▸ hk⟩ := by
  have hkeys : (places.zip values).map Prod.fst = places := List.map_fst_zip (Nat.le_of_eq hlength.symm)
  refine scatter_of_mem (hkeys.symm ▸ hnd) (List.mem_iff_getElem.mpr ⟨k, ?_, ?_⟩)
  · rw [List.length_zip, hlength, Nat.min_self]
    exact hk
  · rw [List.getElem_zip]
    rfl

end Scatter

end LmResiliency.RowMajor
