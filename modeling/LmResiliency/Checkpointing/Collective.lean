/-
# Collective — the collective operations of a checkpoint group

`all_reduce` over a tensor of integers, with the two operations that the
checkpoint code uses.  A manager without a process group, or alone in one,
skips the operation.
-/
import LmResiliency.Lib.Lockstep
import Mathlib.Data.Fintype.EquivFin
import Mathlib.Data.Fin.VecNotation
import Mathlib.Data.Finset.Max
import Mathlib.Data.Finset.Lattice.Fold

namespace LmResiliency.Checkpointing

open Lockstep

/-- `dist.ReduceOp`. -/
inductive ReduceOp where
  | min
  | max

/-- `all_reduce` on a tensor of a given size. -/
abbrev allReduces : Collective where
  Kind := ReduceOp × Nat
  Val k := Fin k.2 → Int
  Res k := Fin k.2 → Int

/-- The exceptions of the checkpoint code. -/
inductive CheckpointError where
  | valueError (message : String)
  | runtimeError (message : String)
  | fileNotFound
  /-- `CheckpointFormatError` -/
  | format
  /-- `ChecksumMismatch` -/
  | checksum

/-- Code that one rank runs. -/
abbrev RankM (α : Type) : Type := Prog allReduces.iface CheckpointError α

/-- `dist.all_reduce(tensor, op=op)`. -/
def allReduce (op : ReduceOp) {n : Nat} (values : Fin n → Int) : RankM (Fin n → Int) :=
  Prog.op (I := allReduces.iface) ⟨(op, n), values⟩

/-- What a manager knows of its process group. -/
structure ProcessGroup where
  /-- `dist.is_initialized()` -/
  initialized : Bool
  worldSize : Int

/-- `_collective_min_step`, of steps below `2 ^ 63`: a larger one does not fit `torch.int64`. -/
def collectiveMinStep (group : ProcessGroup) (localStep : Int) : RankM Int :=
  if ¬ group.initialized ∨ group.worldSize = 1 then pure localStep
  else do
    let reduced ← allReduce .min ![localStep]
    pure (reduced (Fin.last 0))

/-! ## The ranks of one group -/

section Ranks

variable {ι : Type} [Fintype ι] [Nonempty ι]

/-- The least of one value of each rank. -/
def least (vs : ι → Int) : Int := Finset.univ.inf' Finset.univ_nonempty vs

/-- The greatest of one value of each rank. -/
def greatest (vs : ι → Int) : Int := Finset.univ.sup' Finset.univ_nonempty vs

/-- What `all_reduce` returns to every rank. -/
def reduce : (k : allReduces.Kind) → (ι → allReduces.Val k) → allReduces.Res k
  | (.min, _), vs => fun j => least fun i => vs i j
  | (.max, _), vs => fun j => greatest fun i => vs i j

theorem le_least_iff {c : Int} {vs : ι → Int} : c ≤ least vs ↔ ∀ i, c ≤ vs i := by
  simp [least, Finset.le_inf'_iff]

theorem least_le (vs : ι → Int) (i : ι) : least vs ≤ vs i :=
  Finset.inf'_le vs (Finset.mem_univ i)

theorem exists_least (vs : ι → Int) : ∃ i, least vs = vs i := by
  obtain ⟨i, -, hi⟩ := Finset.exists_mem_eq_inf' Finset.univ_nonempty vs
  exact ⟨i, hi⟩

/-- The group that the ranks belong to. -/
structure Grouped (group : ι → ProcessGroup) : Prop where
  worldSize : ∀ i, (group i).worldSize = (Fintype.card ι : Int)
  initialized : ∀ i, (group i).initialized = true

/-- All ranks end alike: they call one number of collective operations,
every one of them together, and end as `as`. -/
def Together {α : Type} (ps : ι → RankM α) (as : ι → Except CheckpointError α) : Prop :=
  ∃ n, Runs reduce ps n as

theorem Together.pure {α : Type} {as : ι → α} :
    Together (fun i => Pure.pure (as i)) fun i => .ok (as i) := ⟨0, .ret⟩

theorem Together.of_eq_ret {α : Type} {ps : ι → RankM α} {as : ι → α}
    (h : ∀ i, ps i = .ret (as i)) : Together ps fun i => .ok (as i) := ⟨0, .done h⟩

theorem Together.bind {α β : Type} {ps : ι → RankM α} {f : ι → α → RankM β} {as : ι → α}
    {bs : ι → Except CheckpointError β} (h : Together ps fun i => .ok (as i))
    (h' : Together (fun i => f i (as i)) bs) : Together (fun i => ps i >>= f i) bs := by
  obtain ⟨n, hn⟩ := h
  obtain ⟨m, hm⟩ := h'
  exact ⟨n + m, hn.bind hm⟩

omit [Nonempty ι] in
/-- In a group of more than one rank the reduction is called. -/
theorem collectiveMinStep_eq_call {group : ι → ProcessGroup} (hg : Grouped group)
    (hone : Fintype.card ι ≠ 1) (i : ι) (v : Int) :
    collectiveMinStep (group i) v = .call ⟨(.min, 1), ![v]⟩ fun reduced => .ret (reduced 0) := by
  refine if_neg ?_
  rintro (h | h)
  · exact h (hg.initialized i)
  · rw [hg.worldSize i] at h
    exact hone (by exact_mod_cast h)

/-- **The spec of `_collective_min_step`**: the least step, on every rank. -/
theorem together_collectiveMinStep {group : ι → ProcessGroup} (hg : Grouped group)
    (vs : ι → Int) :
    Together (fun i => collectiveMinStep (group i) (vs i)) fun _ => .ok (least vs) := by
  by_cases hone : Fintype.card ι = 1
  · have : Subsingleton ι := Fintype.card_le_one_iff_subsingleton.mp hone.le
    have hskip : (fun i => collectiveMinStep (group i) (vs i)) =
        fun _ => (Pure.pure (least vs) : RankM Int) := by
      funext i
      obtain ⟨j, hj⟩ := exists_least vs
      have hsize := hg.worldSize i
      rw [hone] at hsize
      rw [collectiveMinStep, if_pos (.inr hsize), hj, Subsingleton.elim j i]
    rw [hskip]
    exact Together.pure
  · simp only [collectiveMinStep_eq_call hg hone]
    exact ⟨1, Runs.call .ret⟩

end Ranks

end LmResiliency.Checkpointing
