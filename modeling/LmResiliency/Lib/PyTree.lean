/-
# PyTree — nested containers and their leaves

A container is known by its kind and keys, and holds its children in order.
Flattening lists the leaves; putting changed leaves back is a map.
-/
import Mathlib.Data.List.Forall2

namespace LmResiliency

/-- A value, or a container of trees. -/
inductive PyTree (τ : Type) where
  | leaf (value : τ)
  | node (spec : String) (children : List (PyTree τ))

namespace PyTree

variable {τ : Type}

mutual

/-- The leaves of `tree_flatten`. -/
def leaves : PyTree τ → List τ
  | .leaf value => [value]
  | .node _ children => leavesOf children

def leavesOf : List (PyTree τ) → List τ
  | [] => []
  | tree :: trees => tree.leaves ++ leavesOf trees

end

mutual

/-- `tree_unflatten` of the leaves, each of them changed. -/
def map (f : τ → τ) : PyTree τ → PyTree τ
  | .leaf value => .leaf (f value)
  | .node spec children => .node spec (mapOf f children)

def mapOf (f : τ → τ) : List (PyTree τ) → List (PyTree τ)
  | [] => []
  | tree :: trees => tree.map f :: mapOf f trees

end

mutual

theorem leaves_map (f : τ → τ) : ∀ tree : PyTree τ, (tree.map f).leaves = tree.leaves.map f
  | .leaf _ => rfl
  | .node _ children => leavesOf_mapOf f children

theorem leavesOf_mapOf (f : τ → τ) : ∀ trees : List (PyTree τ),
    leavesOf (mapOf f trees) = (leavesOf trees).map f
  | [] => rfl
  | tree :: trees => by
      rw [mapOf, leavesOf, leavesOf, List.map_append, leaves_map f tree, leavesOf_mapOf f trees]

end

/-- Two trees with as many leaves, related one by one. -/
def Rel (R : τ → τ → Prop) (a b : PyTree τ) : Prop := List.Forall₂ R a.leaves b.leaves

theorem rel_map {R : τ → τ → Prop} {f : τ → τ} {tree : PyTree τ}
    (h : ∀ value ∈ tree.leaves, R value (f value)) : tree.Rel R (tree.map f) := by
  rw [Rel, leaves_map]
  exact List.forall₂_map_right_iff.mpr (List.forall₂_same.mpr h)

theorem Rel.mono {R S : τ → τ → Prop} (h : ∀ a b, R a b → S a b) {a b : PyTree τ}
    (hab : a.Rel R b) : a.Rel S b := List.Forall₂.imp h hab

theorem rel_leaf {R : τ → τ → Prop} {a b : τ} (h : R a b) : (leaf a).Rel R (leaf b) :=
  .cons h .nil

end PyTree

/-- One item of a related list in another's place. -/
theorem forall₂_set {α β : Type} {R : α → β → Prop} {xs : List α} {ys : List β}
    (h : List.Forall₂ R xs ys) {i : Nat} {y : β} (hy : ∀ x, xs[i]? = some x → R x y) :
    List.Forall₂ R xs (ys.set i y) := by
  induction h generalizing i with
  | nil => exact .nil
  | @cons x _ xs _ hxy hrest ih =>
      cases i with
      | zero => exact .cons (hy x rfl) hrest
      | succ i => exact .cons hxy (ih fun x' hx' => hy x' hx')

end LmResiliency
