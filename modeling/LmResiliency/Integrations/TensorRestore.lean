/-
# TensorRestore — copying a checkpoint into the live tensors

`load_checkpoint_tensors` compares the numbers of tensors and then copies one
after another.  `copy_` broadcasts what it copies and converts it, so a layout
that differs is found only where it cannot be broadcast, and then the tensors
before it are already overwritten.

The main result is `loadCheckpointTensors_exact_iff`, with aliasing of the live
tensors allowed.
-/
import Mathlib.Data.List.TakeWhile
import LmResiliency.Integrations.AdapterTensors

namespace LmResiliency.Integrations

variable {δ α ε : Type}

/-! ## Broadcasting -/

/-- A shape with ones in front, where it is shorter than the target. -/
def padTo (target shape : List Nat) : List Nat :=
  List.replicate (target.length - shape.length) 1 ++ shape

/-- Whether a tensor of one shape can be broadcast to the other. -/
def Broadcasts (shape target : List Nat) : Prop :=
  List.Forall₂ (fun m n => m = n ∨ m = 1) (padTo target shape) target

instance (shape target : List Nat) : Decidable (Broadcasts shape target) :=
  inferInstanceAs (Decidable (List.Forall₂ _ _ _))

/-- The elements of a tensor after it is expanded to shape of as many dimensions. -/
def expandTo : List Nat → List Nat → List α → List α
  | m :: shape, n :: target, data =>
    if m = n then
      (List.range n).flatMap fun i =>
        expandTo shape target ((data.drop (i * shape.prod)).take shape.prod)
    else
      (List.replicate n (expandTo shape target data)).flatten
  | _, _, data => data

def SavedTensor.expand (self : SavedTensor α) (target : List Nat) : List α :=
  expandTo (padTo target self.shape) target self.data

theorem flatMap_blocks (data : List α) (size n : Nat) :
    ((List.range n).flatMap fun i => (data.drop (i * size)).take size) =
      data.take (n * size) := by
  induction n with
  | zero => simp
  | succ n ih =>
      rw [List.range_succ, List.flatMap_append, ih, List.flatMap_singleton, Nat.succ_mul,
        List.take_add]

theorem length_block {data : List α} {size n i : Nat} (h : data.length = n * size) (hi : i < n) :
    ((data.drop (i * size)).take size).length = size := by
  have hle : (i + 1) * size ≤ n * size := Nat.mul_le_mul_right _ hi
  rw [Nat.succ_mul] at hle
  rw [List.length_take, List.length_drop, h]
  omega

theorem expandTo_self (shape : List Nat) (data : List α) (h : data.length = shape.prod) :
    expandTo shape shape data = data := by
  induction shape generalizing data with
  | nil => rfl
  | cons n shape ih =>
      rw [List.prod_cons] at h
      have hblock : ∀ i ∈ List.range n,
          expandTo shape shape ((data.drop (i * shape.prod)).take shape.prod) =
            (data.drop (i * shape.prod)).take shape.prod :=
        fun i hi => ih _ (length_block h (List.mem_range.mp hi))
      rw [expandTo, if_pos rfl, List.flatMap_congr hblock, flatMap_blocks, ← h, List.take_length]

theorem length_expandTo {shape target : List Nat}
    (h : List.Forall₂ (fun m n => m = n ∨ m = 1) shape target) (data : List α)
    (hlen : data.length = shape.prod) : (expandTo shape target data).length = target.prod := by
  induction h generalizing data with
  | nil => exact hlen
  | @cons m n shape target hdim _ ih =>
      rw [List.prod_cons] at hlen
      rw [expandTo, List.prod_cons]
      split
      · rename_i heq
        have hblock : ∀ i ∈ List.range n,
            (expandTo shape target ((data.drop (i * shape.prod)).take shape.prod)).length =
              target.prod :=
          fun i hi => ih _ (length_block (heq ▸ hlen) (List.mem_range.mp hi))
        rw [List.length_flatMap, List.map_congr_left hblock, List.map_const',
          List.sum_replicate_nat, List.length_range]
      · rename_i hne
        rw [hdim.resolve_left hne, Nat.one_mul] at hlen
        rw [List.length_flatten, List.map_replicate, List.sum_replicate_nat, ih data hlen]

theorem padTo_self (shape : List Nat) : padTo shape shape = shape := by
  rw [padTo, Nat.sub_self, List.replicate_zero, List.nil_append]

namespace SavedTensor

/-- Nothing changes where the shapes are the same. -/
theorem expand_of_shape {self : SavedTensor α} {target : List Nat} (h : self.shape = target) :
    self.expand target = self.data := by
  subst h
  rw [expand, padTo_self, expandTo_self _ _ self.length_data]

theorem length_expand {self : SavedTensor α} {target : List Nat}
    (h : Broadcasts self.shape target) : (self.expand target).length = target.prod := by
  refine length_expandTo h _ ?_
  rw [padTo, List.prod_append_nat, List.prod_replicate_nat, Nat.one_pow, Nat.one_mul,
    self.length_data]

end SavedTensor

/-! ## Loading -/

section Writes

variable {convert : δ → α → α} {live : Tensor δ} {saved : SavedTensor α}

/-- What `copy_` assigns to the elements of a tensor. -/
def copyWrites (convert : δ → α → α) (live : Tensor δ) (saved : SavedTensor α) :
    List (Location δ × α) :=
  live.cells.zip ((saved.expand live.shape).map (convert live.dtype))

theorem fst_mem_cells {w : Location δ × α} (h : w ∈ copyWrites convert live saved) :
    w.1 ∈ live.cells := (List.of_mem_zip h).1

theorem map_fst_copyWrites (h : Broadcasts saved.shape live.shape) :
    (copyWrites convert live saved).map Prod.fst = live.cells := by
  rw [copyWrites, List.map_fst_zip]
  rw [List.length_map, SavedTensor.length_expand h, Tensor.length_cells]

theorem nodup_fst_copyWrites (h : Broadcasts saved.shape live.shape) :
    ((copyWrites convert live saved).map Prod.fst).Nodup :=
  (map_fst_copyWrites h).symm ▸ live.nodup_cells

/-- Where the shapes are the same, every element is the saved one, converted. -/
theorem mem_copyWrites_of_shape (h : saved.shape = live.shape) {c : Location δ} {v : α} :
    (c, v) ∈ copyWrites convert live saved ↔
      ∃ x, (c, x) ∈ live.cells.zip saved.data ∧ convert live.dtype x = v := by
  rw [copyWrites, SavedTensor.expand_of_shape h, List.zip_map_right, List.mem_map]
  constructor
  · rintro ⟨⟨c', x⟩, hx, heq⟩
    cases heq
    exact ⟨x, hx, rfl⟩
  · rintro ⟨x, hx, rfl⟩
    exact ⟨(c, x), hx, rfl⟩

/-- The pairs that are copied: those before the first that cannot be broadcast. -/
def copied (pairs : List (Tensor δ × SavedTensor α)) : List (Tensor δ × SavedTensor α) :=
  pairs.takeWhile fun p => Broadcasts p.2.shape p.1.shape

/-- A pair that cannot be broadcast raises, and so does an observer. -/
def Fails (pairs : List (Tensor δ × SavedTensor α)) (observers : List (Option ε)) : Prop :=
  (∃ p ∈ pairs, ¬ Broadcasts p.2.shape p.1.shape) ∨ ∃ error, some error ∈ observers

theorem mem_of_mem_copied {pairs : List (Tensor δ × SavedTensor α)}
    {p : Tensor δ × SavedTensor α} (h : p ∈ copied pairs) :
    p ∈ pairs ∧ Broadcasts p.2.shape p.1.shape :=
  ⟨(List.takeWhile_sublist _).mem h, by simpa using List.mem_takeWhile_imp h⟩

theorem copied_eq_self {pairs : List (Tensor δ × SavedTensor α)}
    (h : ∀ p ∈ pairs, Broadcasts p.2.shape p.1.shape) : copied pairs = pairs :=
  List.takeWhile_eq_self_iff.mpr fun p hp => by simpa using h p hp

end Writes

section Load

variable [DecidableEq δ] (convert : δ → α → α)

/-- `Tensor.copy_`. -/
def Tensor.copy_ (memory : Location δ → α) (live : Tensor δ) (saved : SavedTensor α) :
    Except (LoadError ε) (Location δ → α) :=
  if Broadcasts saved.shape live.shape then
    .ok (Memory.assign memory (copyWrites convert live saved))
  else .error .runtime

/-- One copy after another, up to the first that raises. -/
def copyTensors (memory : Location δ → α) :
    List (Tensor δ × SavedTensor α) → Option (LoadError ε) × (Location δ → α)
  | [] => (none, memory)
  | (live, saved) :: rest =>
    match live.copy_ convert memory saved with
    | .error error => (some error, memory)
    | .ok memory => copyTensors memory rest

/-- `notify_checkpoint_tensor_load`, on what each observer raises: all of them are called,
and the first error is raised. -/
def notifyCheckpointTensorLoad (observers : List (Option ε)) : Except (LoadError ε) Unit :=
  match observers.findSome? id with
  | some error => .error (.observer error)
  | none => .ok ()

/-- What both adapters do with the tensors that they have collected. -/
def restoreTensors (observers : List (Option ε)) (memory : Location δ → α)
    (live : List (Tensor δ)) (saved : List (SavedTensor α)) :
    Except (LoadError ε) Unit × (Location δ → α) :=
  if saved.length ≠ live.length then (.error (.assertion saved.length live.length), memory)
  else
    match copyTensors convert memory (live.zip saved) with
    | (some error, memory) => (.error error, memory)
    | (none, memory) => (notifyCheckpointTensorLoad observers, memory)

def MegatronAdapter.loadCheckpointTensors (self : MegatronAdapter δ)
    (observers : List (Option ε)) (memory : Location δ → α) (saved : List (SavedTensor α)) :
    Except (LoadError ε) Unit × (Location δ → α) :=
  match self.collectCheckpointTensors with
  | .error error => (.error error, memory)
  | .ok live => restoreTensors convert observers memory live saved

def DeepSpeedAdapter.loadCheckpointTensors (self : DeepSpeedAdapter δ)
    (observers : List (Option ε)) (memory : Location δ → α) (saved : List (SavedTensor α)) :
    Except (LoadError ε) Unit × (Location δ → α) :=
  restoreTensors convert observers memory self.collectCheckpointTensors saved

def TensorAdapter.loadCheckpointTensors (observers : List (Option ε))
    (memory : Location δ → α) (saved : List (SavedTensor α)) :
    TensorAdapter δ → Except (LoadError ε) Unit × (Location δ → α)
  | .megatron adapter => adapter.loadCheckpointTensors convert observers memory saved
  | .deepSpeed adapter => adapter.loadCheckpointTensors convert observers memory saved

theorem TensorAdapter.loadCheckpointTensors_eq {adapter : TensorAdapter δ}
    {live : List (Tensor δ)} (h : adapter.collectCheckpointTensors (ε := ε) = .ok live)
    (observers : List (Option ε)) (memory : Location δ → α) (saved : List (SavedTensor α)) :
    adapter.loadCheckpointTensors convert observers memory saved =
      restoreTensors convert observers memory live saved := by
  cases adapter with
  | megatron adapter =>
      rw [loadCheckpointTensors, MegatronAdapter.loadCheckpointTensors]
      rw [collectCheckpointTensors] at h
      rw [h]
  | deepSpeed adapter =>
      cases h
      rfl

/-! ## What a load leaves -/

omit [DecidableEq δ] in
/-- A tensor holds the saved elements when each of its locations does. -/
theorem read_eq_iff {live : Tensor δ} {saved : SavedTensor α} (h : saved.shape = live.shape)
    {memory : Location δ → α} :
    live.read memory = saved.data ↔
      ∀ w ∈ live.cells.zip saved.data, memory w.1 = w.2 := by
  have hlen : live.cells.length = saved.data.length := by
    rw [Tensor.length_cells, saved.length_data, h]
  rw [Tensor.read]
  generalize live.cells = cells at hlen
  generalize saved.data = data at hlen
  induction cells generalizing data with
  | nil =>
      obtain rfl : data = [] := List.length_eq_zero_iff.mp hlen.symm
      exact ⟨fun _ _ hw => absurd hw List.not_mem_nil, fun _ => rfl⟩
  | cons c cells ih =>
      cases data with
      | nil => cases hlen
      | cons x data =>
          have hrest := ih data (Nat.succ.inj hlen)
          rw [List.map_cons, List.cons.injEq, List.zip_cons_cons, List.forall_mem_cons]
          exact and_congr Iff.rfl hrest

omit [DecidableEq δ] in
theorem exists_cell_of_mem_data {live : Tensor δ} {saved : SavedTensor α}
    (h : saved.shape = live.shape) {x : α} (hx : x ∈ saved.data) :
    ∃ c, (c, x) ∈ live.cells.zip saved.data := by
  have hlen : saved.data.length ≤ live.cells.length := by
    rw [Tensor.length_cells, saved.length_data, h]
  rw [← List.map_snd_zip hlen] at hx
  obtain ⟨w, hw, rfl⟩ := List.mem_map.mp hx
  exact ⟨w.1, hw⟩

/-- What the copies leave in memory, and whether one raises. -/
theorem copyTensors_eq (pairs : List (Tensor δ × SavedTensor α)) (memory : Location δ → α) :
    copyTensors (ε := ε) convert memory pairs =
      (if ∀ p ∈ pairs, Broadcasts p.2.shape p.1.shape then none else some .runtime,
        Memory.assign memory ((copied pairs).flatMap fun p => copyWrites convert p.1 p.2)) := by
  induction pairs generalizing memory with
  | nil => rfl
  | cons p pairs ih =>
      obtain ⟨live, saved⟩ := p
      rw [copyTensors, Tensor.copy_]
      by_cases h : Broadcasts saved.shape live.shape
      · simp only [ih, List.forall_mem_cons, h, true_and, copied,
          List.takeWhile_cons, decide_true, if_true, List.flatMap_cons, Memory.assign_append]
      · simp only [List.forall_mem_cons, h, false_and, if_false, copied,
          List.takeWhile_cons, decide_false, Bool.false_eq_true, List.flatMap_nil,
          Memory.assign_nil]

/-- What the live tensors hold is what was saved, element by element. -/
def Restored (memory : Location δ → α) (live : List (Tensor δ)) (saved : List (SavedTensor α)) :
    Prop :=
  List.Forall₂ (fun tensor saved => saved.shape = tensor.shape ∧
    tensor.read memory = saved.data) live saved

/-- A load that raises leaves every live tensor as it was, and one that returns has
restored all of them. -/
def ExactOrNone (memory : Location δ → α) (live : List (Tensor δ))
    (saved : List (SavedTensor α)) (out : Except (LoadError ε) Unit × (Location δ → α)) : Prop :=
  match out.1 with
  | .error _ => ∀ tensor ∈ live, tensor.read out.2 = tensor.read memory
  | .ok () => Restored out.2 live saved

/-- The copies write what is there: each location holds what the last of the copied pairs
that covers it would write. -/
def AlreadyHeld (memory : Location δ → α) (pairs : List (Tensor δ × SavedTensor α)) : Prop :=
  ∀ before p after, copied pairs = before ++ p :: after →
    ∀ w ∈ copyWrites convert p.1 p.2, (∀ q ∈ after, w.1 ∉ q.1.cells) → memory w.1 = w.2

/-- The saved tensors have the shapes of the live ones, their elements are ones that the live
types store, and live tensors that share a location are to hold one value there. -/
structure SameLayout (pairs : List (Tensor δ × SavedTensor α)) : Prop where
  shape : ∀ p ∈ pairs, p.2.shape = p.1.shape
  stored : ∀ p ∈ pairs, ∀ x ∈ p.2.data, convert p.1.dtype x = x
  agree : ∀ p ∈ pairs, ∀ q ∈ pairs, ∀ v ∈ p.1.cells.zip p.2.data,
    ∀ w ∈ q.1.cells.zip q.2.data, v.1 = w.1 → v.2 = w.2

section Leaves

variable {convert} {pairs : List (Tensor δ × SavedTensor α)}

variable (convert pairs) in
/-- Nothing changes exactly when the copies write what is there. -/
theorem copied_unchanged_iff (memory : Location δ → α) :
    (∀ p ∈ pairs, p.1.read (Memory.assign memory
        ((copied pairs).flatMap fun p => copyWrites convert p.1 p.2)) = p.1.read memory) ↔
      AlreadyHeld convert memory pairs := by
  constructor
  · intro h before p after hsplit w hw hnot
    have hp : p ∈ copied pairs := hsplit ▸ List.mem_append_right _ List.mem_cons_self
    obtain ⟨hpin, hfits⟩ := mem_of_mem_copied hp
    have hlater : ∀ q ∈ after, w.1 ∉ (copyWrites convert q.1 q.2).map Prod.fst := by
      intro q hq hin
      obtain ⟨v, hv, hvw⟩ := List.mem_map.mp hin
      exact hnot q hq (hvw ▸ fst_mem_cells hv)
    have hlast : Memory.assign memory
        ((before ++ p :: after).flatMap fun p => copyWrites convert p.1 p.2) w.1 = w.2 :=
      Memory.assign_of_last_group (f := fun p : Tensor δ × SavedTensor α => copyWrites _ p.1 p.2)
        (nodup_fst_copyWrites hfits) hw hlater memory
    have hsame := List.map_inj_left.mp (h p hpin) w.1 (fst_mem_cells hw)
    rw [← hsame, hsplit, hlast]
  · intro h p hp
    refine List.map_congr_left fun c _ => ?_
    by_cases hin : c ∈ ((copied pairs).flatMap fun p => copyWrites convert p.1 p.2).map Prod.fst
    · obtain ⟨before, q, after, v, hsplit, hv, hnot⟩ := Memory.exists_last_group hin
      have hq : q ∈ copied pairs := hsplit ▸ List.mem_append_right _ List.mem_cons_self
      have hlast : Memory.assign memory
          ((before ++ q :: after).flatMap fun p => copyWrites convert p.1 p.2) c = v :=
        Memory.assign_of_last_group
          (f := fun p : Tensor δ × SavedTensor α => copyWrites _ p.1 p.2)
          (nodup_fst_copyWrites (mem_of_mem_copied hq).2) hv hnot memory
      rw [hsplit, hlast]
      refine (h before q after hsplit (c, v) hv fun r hr hcell => hnot r hr ?_).symm
      have hr' : r ∈ copied pairs :=
        hsplit ▸ List.mem_append_right _ (List.mem_cons_of_mem _ hr)
      rw [map_fst_copyWrites (mem_of_mem_copied hr').2]
      exact hcell
    · exact Memory.assign_of_not_mem hin memory

/-- All pairs are restored exactly when their layouts are the same. -/
theorem copied_restored_iff (hfits : ∀ p ∈ pairs, Broadcasts p.2.shape p.1.shape)
    (memory : Location δ → α) :
    (∀ p ∈ pairs, p.2.shape = p.1.shape ∧ p.1.read (Memory.assign memory
        (pairs.flatMap fun p => copyWrites convert p.1 p.2)) = p.2.data) ↔
      SameLayout convert pairs := by
  have hkeys : ∀ {p c x}, p ∈ pairs → (c, x) ∈ p.1.cells.zip p.2.data →
      c ∈ (pairs.flatMap fun p => copyWrites convert p.1 p.2).map Prod.fst := by
    intro p c x hp hx
    rw [List.map_flatMap, List.mem_flatMap]
    exact ⟨p, hp, (map_fst_copyWrites (hfits p hp)).symm ▸ (List.of_mem_zip hx).1⟩
  constructor
  · intro h
    have hheld : ∀ {p c x}, p ∈ pairs → (c, x) ∈ p.1.cells.zip p.2.data →
        Memory.assign memory (pairs.flatMap fun p => copyWrites convert p.1 p.2) c = x :=
      fun hp hx => (read_eq_iff (h _ hp).1).mp (h _ hp).2 _ hx
    refine ⟨fun p hp => (h p hp).1, fun p hp x hx => ?_, fun p hp q hq v hv w hw heq => ?_⟩
    · obtain ⟨c, hc⟩ := exists_cell_of_mem_data (h p hp).1 hx
      -- the last pair that covers the location writes its own element there, converted
      obtain ⟨q, hq, hwrite⟩ := List.mem_flatMap.mp (Memory.assign_mem (hkeys hp hc) memory)
      rw [hheld hp hc] at hwrite
      obtain ⟨y, hy, hconv⟩ := (mem_copyWrites_of_shape (h q hq).1).mp hwrite
      obtain rfl : x = y := (hheld hp hc).symm.trans (hheld hq hy)
      rw [← Tensor.dtype_of_mem_cells (List.of_mem_zip hc).1,
        Tensor.dtype_of_mem_cells (List.of_mem_zip hy).1, hconv]
    · rw [← hheld hp hv, ← hheld hq hw, heq]
  · intro h p hp
    refine ⟨h.shape p hp, (read_eq_iff (h.shape p hp)).mpr fun w hw => ?_⟩
    obtain ⟨q, hq, hwrite⟩ := List.mem_flatMap.mp (Memory.assign_mem (hkeys hp hw) memory)
    obtain ⟨y, hy, hconv⟩ := (mem_copyWrites_of_shape (h.shape q hq)).mp hwrite
    rw [← hconv, h.stored q hq y (List.of_mem_zip hy).2]
    exact h.agree q hq p hp _ hy w hw rfl

/-- **A load is exact or has no effect** exactly when the numbers of tensors differ, or it
raises having written what was there, or all layouts are the same. -/
theorem loadCheckpointTensors_exact_iff {adapter : TensorAdapter δ} {live : List (Tensor δ)}
    (h : adapter.collectCheckpointTensors (ε := ε) = .ok live) (observers : List (Option ε))
    (memory : Location δ → α) (saved : List (SavedTensor α)) :
    ExactOrNone memory live saved
        (adapter.loadCheckpointTensors convert observers memory saved) ↔
      saved.length ≠ live.length ∨
      Fails (live.zip saved) observers ∧ AlreadyHeld convert memory (live.zip saved) ∨
      ¬ Fails (live.zip saved) observers ∧ SameLayout convert (live.zip saved) := by
  rw [TensorAdapter.loadCheckpointTensors_eq convert h, restoreTensors]
  by_cases hcount : saved.length = live.length
  swap
  · rw [if_pos hcount]
    exact iff_of_true (fun _ _ => rfl) (Or.inl hcount)
  rw [if_neg (not_not.mpr hcount), copyTensors_eq]
  have hlive : ∀ {P : Tensor δ → Prop}, (∀ tensor ∈ live, P tensor) ↔
      ∀ p ∈ live.zip saved, P p.1 := by
    intro P
    rw [← List.forall_mem_map (f := Prod.fst), List.map_fst_zip (le_of_eq hcount.symm)]
  by_cases hfits : ∀ p ∈ live.zip saved, Broadcasts p.2.shape p.1.shape
  · rw [if_pos hfits, copied_eq_self hfits]
    cases hraise : observers.findSome? id with
    | some error =>
        have hfails : Fails (live.zip saved) observers := by
          obtain ⟨o, ho, heq⟩ := List.exists_of_findSome?_eq_some hraise
          exact Or.inr ⟨error, (show o = some error from heq) ▸ ho⟩
        have hout : notifyCheckpointTensorLoad observers = .error (.observer error) := by
          rw [notifyCheckpointTensorLoad, hraise]
        have hunchanged := copied_unchanged_iff convert (live.zip saved) memory
        rw [copied_eq_self hfits] at hunchanged
        simp only [ExactOrNone, hout, hlive, hcount, hfails, hunchanged, ne_eq,
          not_true_eq_false, false_or, true_and, false_and, or_false]
    | none =>
        have hfails : ¬ Fails (live.zip saved) observers := by
          rintro (⟨p, hp, hnot⟩ | ⟨error, herror⟩)
          · exact hnot (hfits p hp)
          · exact Option.some_ne_none _ (List.findSome?_eq_none_iff.mp hraise _ herror)
        have hout : notifyCheckpointTensorLoad observers = .ok () := by
          rw [notifyCheckpointTensorLoad, hraise]
        simp only [ExactOrNone, hout, Restored, hcount, hfails, ne_eq, not_true_eq_false,
          not_false_eq_true, false_or, true_and, false_and]
        rw [← copied_restored_iff hfits memory, List.forall₂_iff_zip]
        exact ⟨fun h p hp => h.2 hp, fun h => ⟨hcount.symm, fun {a b} hp => h (a, b) hp⟩⟩
  · rw [if_neg hfits]
    have hfails : Fails (live.zip saved) observers := by
      push Not at hfits
      exact Or.inl hfits
    simp only [ExactOrNone, hlive, hcount, hfails, copied_unchanged_iff, ne_eq,
      not_true_eq_false, false_or, true_and, false_and, or_false]

end Leaves

end Load

/-! ## A load that broadcasts, and one that stops half way -/

/-- A flat tensor at the given addresses. -/
def flatTensor (dtype : String) (start size : Nat) : Tensor String where
  dtype := dtype
  shape := [size]
  addresses := List.range' start size
  length_addresses := by simp
  nodup_addresses := List.nodup_range'

def flatSaved (data : List Int) : SavedTensor Int where
  shape := [data.length]
  data := data
  length_data := by simp

/-- A Megatron rank with one parameter, its master weight and one moment. -/
def sampleMegatron : MegatronAdapter String where
  model := [.wrapper [] (.base [⟨0, flatTensor "bfloat16" 0 2⟩])]
  optimizer :=
    { optimizer := some
        { paramGroups := [[⟨1, flatTensor "float32" 2 2⟩]]
          state := [(1, [("step", .other), ("exp_avg", .tensor (flatTensor "float32" 4 2))])] }
      inner := none
      optim := none
      wrapper := none }

/-- A DeepSpeed rank with one group of parameters and its master weights. -/
def sampleDeepSpeed : DeepSpeedAdapter String where
  zeroStage := 1
  optimizer :=
    { bit16GroupsFlat := [⟨0, flatTensor "bfloat16" 0 2⟩]
      singlePartitionOfFp32Groups := [⟨1, flatTensor "float32" 2 2⟩]
      fp16PartitionedGroupsFlat := []
      fp32PartitionedGroupsFlat := []
      optimizer := { paramGroups := [], state := [] } }


theorem loadCheckpointTensors_exact_sample :
    ExactOrNone (ε := Unit) (fun _ => 0)
      [flatTensor "bfloat16" 0 2, flatTensor "float32" 2 2, flatTensor "float32" 4 2]
      [flatSaved [1, 2], flatSaved [3, 4], flatSaved [5, 6]]
      ((TensorAdapter.megatron sampleMegatron).loadCheckpointTensors (fun _ x => x) []
        (fun _ => 0) [flatSaved [1, 2], flatSaved [3, 4], flatSaved [5, 6]]) := by
  refine (loadCheckpointTensors_exact_iff (by rfl) [] _ _).mpr (Or.inr (Or.inr ⟨?_, ?_, ?_, ?_⟩))
  · rintro (⟨p, hp, hnot⟩ | ⟨error, herror⟩)
    · revert p
      decide
    · cases herror
  · decide
  · intro p _ x _
    rfl
  · decide

theorem loadCheckpointTensors_broadcasts :
    ¬ ExactOrNone (ε := Unit) (fun _ => 0)
        [flatTensor "bfloat16" 0 2, flatTensor "float32" 2 2, flatTensor "float32" 4 2]
        [flatSaved [1, 2], flatSaved [3], flatSaved [5, 6]]
        ((TensorAdapter.megatron sampleMegatron).loadCheckpointTensors (fun _ x => x) []
          (fun _ => 0) [flatSaved [1, 2], flatSaved [3], flatSaved [5, 6]]) ∧
      ¬ ExactOrNone (ε := Unit) (fun _ => 0)
        [flatTensor "bfloat16" 0 2, flatTensor "float32" 2 2]
        [flatSaved [1, 2], flatSaved [3, 4, 5]]
        ((TensorAdapter.deepSpeed sampleDeepSpeed).loadCheckpointTensors (fun _ x => x) []
          (fun _ => 0) [flatSaved [1, 2], flatSaved [3, 4, 5]]) := by
  constructor
  · intro h
    have h2 := List.forall₂_cons.mp h
    exact absurd (List.forall₂_cons.mp h2.2).1.1 (by decide)
  · intro h
    have := h (flatTensor "bfloat16" 0 2) List.mem_cons_self
    revert this
    decide
end LmResiliency.Integrations
