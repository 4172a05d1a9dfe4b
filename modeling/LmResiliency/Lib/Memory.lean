/-
# Memory — assignments to locations, one after another

What a location holds at the end is what the last assignment to it wrote, and
what it held before when nothing was assigned to it.
-/
import Mathlib.Data.List.Nodup
import Mathlib.Logic.Function.Basic

namespace LmResiliency.Memory

variable {κ α : Type} [DecidableEq κ]

/-- `memory[w.1] = w.2` for each assignment in turn. -/
def assign (memory : κ → α) (ws : List (κ × α)) : κ → α :=
  ws.foldl (fun memory w => Function.update memory w.1 w.2) memory

@[simp] theorem assign_nil (memory : κ → α) : assign memory [] = memory := rfl

theorem assign_append (memory : κ → α) (ws vs : List (κ × α)) :
    assign memory (ws ++ vs) = assign (assign memory ws) vs := List.foldl_append

/-- The frame: what nothing is assigned to stays. -/
theorem assign_of_not_mem {ws : List (κ × α)} {c : κ} (h : c ∉ ws.map Prod.fst)
    (memory : κ → α) : assign memory ws c = memory c := by
  induction ws generalizing memory with
  | nil => rfl
  | cons w ws ih =>
      rw [List.map_cons, List.mem_cons, not_or] at h
      rw [assign, List.foldl_cons, ← assign, ih h.2, Function.update_of_ne h.1]

theorem exists_last {ws : List (κ × α)} {c : κ} (h : c ∈ ws.map Prod.fst) :
    ∃ before v after, ws = before ++ (c, v) :: after ∧ c ∉ after.map Prod.fst := by
  induction ws with
  | nil => cases h
  | cons w ws ih =>
      by_cases hlater : c ∈ ws.map Prod.fst
      · obtain ⟨before, v, after, rfl, hnot⟩ := ih hlater
        exact ⟨w :: before, v, after, rfl, hnot⟩
      · obtain rfl : c = w.1 := (List.mem_cons.mp h).resolve_right hlater
        exact ⟨[], w.2, ws, rfl, hlater⟩

/-- The last assignment stands. -/
theorem assign_of_last {before after : List (κ × α)} {c : κ} {v : α}
    (h : c ∉ after.map Prod.fst) (memory : κ → α) :
    assign memory (before ++ (c, v) :: after) c = v := by
  rw [assign_append, assign, List.foldl_cons, ← assign, assign_of_not_mem h,
    Function.update_self]

/-- What a location holds at the end was assigned to it, if anything was. -/
theorem assign_mem {ws : List (κ × α)} {c : κ} (h : c ∈ ws.map Prod.fst) (memory : κ → α) :
    (c, assign memory ws c) ∈ ws := by
  obtain ⟨before, v, after, rfl, hnot⟩ := exists_last h
  rw [assign_of_last hnot]
  exact List.mem_append_right _ List.mem_cons_self

/-- Assignments that agree on a location leave their value there. -/
theorem assign_of_agree {ws : List (κ × α)} {c : κ} {v : α} (h : (c, v) ∈ ws)
    (hagree : ∀ w, (c, w) ∈ ws → w = v) (memory : κ → α) : assign memory ws c = v :=
  hagree _ (assign_mem (List.mem_map_of_mem (f := Prod.fst) h) memory)

/-! ## Assignments in groups -/

section Groups

variable {ι : Type} {f : ι → List (κ × α)}

theorem exists_last_group {xs : List ι} {c : κ} (h : c ∈ (xs.flatMap f).map Prod.fst) :
    ∃ before x after v, xs = before ++ x :: after ∧ (c, v) ∈ f x ∧
      ∀ y ∈ after, c ∉ (f y).map Prod.fst := by
  induction xs with
  | nil => cases h
  | cons x xs ih =>
      by_cases hlater : c ∈ (xs.flatMap f).map Prod.fst
      · obtain ⟨before, y, after, v, rfl, hv, hnot⟩ := ih hlater
        exact ⟨x :: before, y, after, v, rfl, hv, hnot⟩
      · rw [List.flatMap_cons, List.map_append, List.mem_append] at h
        obtain ⟨⟨c', v⟩, hv, rfl⟩ := List.mem_map.mp (h.resolve_right hlater)
        refine ⟨[], x, xs, v, rfl, hv, fun y hy hin => hlater ?_⟩
        obtain ⟨w, hw, hwc⟩ := List.mem_map.mp hin
        exact List.mem_map.mpr ⟨w, List.mem_flatMap.mpr ⟨y, hy, hw⟩, hwc⟩

/-- **The last group stands**, where it assigns once to a location. -/
theorem assign_of_last_group {before after : List ι} {x : ι} {c : κ} {v : α}
    (hnd : ((f x).map Prod.fst).Nodup) (hv : (c, v) ∈ f x)
    (hnot : ∀ y ∈ after, c ∉ (f y).map Prod.fst) (memory : κ → α) :
    assign memory ((before ++ x :: after).flatMap f) c = v := by
  have hlater : c ∉ (after.flatMap f).map Prod.fst := by
    intro hin
    obtain ⟨w, hw, rfl⟩ := List.mem_map.mp hin
    obtain ⟨y, hy, hw⟩ := List.mem_flatMap.mp hw
    exact hnot y hy (List.mem_map_of_mem hw)
  rw [List.flatMap_append, List.flatMap_cons, assign_append, assign_append,
    assign_of_not_mem hlater]
  refine assign_of_agree hv (fun w hw => ?_) _
  exact congrArg Prod.snd (List.inj_on_of_nodup_map hnd hw hv rfl)

end Groups

end LmResiliency.Memory
