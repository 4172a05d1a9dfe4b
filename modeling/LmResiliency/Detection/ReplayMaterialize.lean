/-
# ReplayMaterialize — captured expert inputs, resized to a replay shape

The materializers resize every tensor that is aligned with the packed tokens,
as a whole: its rows are repeated in their order or cut off.  The counts of the
experts are not asked which rows are whose.

The main result is `materialize_consistent`; it therefore claims nothing about
which expert a repeated row went to.
-/
import Mathlib.Data.List.GetD
import LmResiliency.Detection.ShapeCycle
import LmResiliency.Lib.Dict
import LmResiliency.Lib.Outcome
import LmResiliency.Lib.PyTree

namespace LmResiliency.Detection

open Outcome

/-! ## Captured invocations -/

/-- The dtype of a tensor, with the least and the greatest value of an integer one. -/
inductive ElementKind where
  | bool
  | integer (least greatest : Int)
  | floating
  | complex
deriving DecidableEq

/-- An element: an integer, or a value of another type. -/
inductive Element (α : Type) where
  | int (value : Int)
  | other (value : α)
deriving DecidableEq

/-- `int(element)` of an element of an integer tensor. -/
def Element.toInt {α : Type} : Element α → Int
  | .int value => value
  | .other _ => 0

/-- A tensor of a captured call, with the object it is (`none` for a tensor that nothing else
holds) and its elements by their index. -/
structure ReplayTensor (α : Type) where
  identity : Option Nat
  isDTensor : Bool
  kind : ElementKind
  shape : List Nat
  entry : List Nat → Element α

/-- A leaf of the arguments: a tensor or not. -/
inductive ReplayLeaf (α β : Type) where
  | tensor (value : ReplayTensor α)
  | other (value : β)

/-- `isinstance(leaf, torch.Tensor)`. -/
def ReplayLeaf.tensor? {α β : Type} : ReplayLeaf α β → Option (ReplayTensor α)
  | .tensor value => some value
  | .other _ => none

/-- `ReplayInvocation`. -/
structure ReplayInvocation (α β : Type) where
  args : List (PyTree (ReplayLeaf α β))
  kwargs : List (String × PyTree (ReplayLeaf α β))
  inputRequiresGrad : List Bool
  gradOutput : PyTree (ReplayLeaf α β)
  autocastEnabled : Bool
  autocastDeviceType : String
  autocastDtype : Option String
  distinct : (kwargs.map Prod.fst).Nodup

namespace ReplayTensor

variable {α : Type}

/-- `tensor.shape[dimension]`. -/
def extent (self : ReplayTensor α) (dimension : Nat) : Nat := self.shape.getD dimension 0

/-- `self is other`. -/
def same (self other : ReplayTensor α) : Bool :=
  self.identity.isSome && self.identity = other.identity

def numel (self : ReplayTensor α) : Nat := self.shape.prod

/-- The elements of a one-dimensional integer tensor. -/
def toInts (self : ReplayTensor α) : List Int :=
  (List.range self.numel).map fun k => (self.entry [k]).toInt

/-- `_resize_tensor_dimension`. -/
def resizeDimension (self : ReplayTensor α) (dimension target : Nat) : ReplayTensor α :=
  let source := self.extent dimension
  if target = source then self
  else
    { self with
      identity := none
      shape := self.shape.set dimension target
      entry := fun index => self.entry (index.modify dimension (· % source)) }

end ReplayTensor

/-- The leaves of the arguments, positional ones first. -/
def ReplayInvocation.inputLeaves {α β : Type} (self : ReplayInvocation α β) :
    List (ReplayLeaf α β) :=
  self.args.flatMap PyTree.leaves ++ self.kwargs.flatMap fun item => item.2.leaves

/-! ## Resizing a tree -/

section Resize

variable {α β : Type} (dimension : Nat) (excluded : Option (ReplayTensor α))
  (source target : Nat)

/-- The tensors that are resized: not the excluded one, and of the source's extent. -/
def tokenAligned (tensor : ReplayTensor α) : Bool :=
  !excluded.any tensor.same && !tensor.isDTensor && dimension < tensor.shape.length &&
    tensor.extent dimension = source

def leafAligned (leaf : ReplayLeaf α β) : Bool :=
  leaf.tensor?.any (tokenAligned dimension excluded source)

def resizeLeaf : ReplayLeaf α β → ReplayLeaf α β
  | .tensor tensor =>
    if tokenAligned dimension excluded source tensor then
      .tensor (tensor.resizeDimension dimension target)
    else .tensor tensor
  | .other value => .other value

/-- `_resize_tree`, of one tree. -/
def resizeTree (tree : PyTree (ReplayLeaf α β)) : PyTree (ReplayLeaf α β) :=
  tree.map (resizeLeaf dimension excluded source target)

/-- An invocation with all of its trees resized, the excluded tensor among the arguments
aside. -/
def resizeInvocation (invocation : ReplayInvocation α β) : ReplayInvocation α β :=
  { invocation with
    args := invocation.args.map (resizeTree dimension excluded source target)
    kwargs := invocation.kwargs.map fun item =>
      (item.1, resizeTree dimension excluded source target item.2)
    gradOutput := resizeTree dimension none source target invocation.gradOutput
    distinct := by
      rw [List.map_map]
      exact invocation.distinct }

/-- `resized_args + resized_kwargs`. -/
def resizedInputs (invocation : ReplayInvocation α β) : Nat :=
  invocation.inputLeaves.countP (leafAligned dimension excluded source)

end Resize

/-! ## The materializers -/

/-- What a materializer raises: a `ValueError`, or an error of PyTorch. -/
inductive MaterializeError where
  | value (message : String)
  | runtime
deriving DecidableEq

/-- `LeadingDimensionMaterializer`. -/
structure LeadingDimensionMaterializer where
  dimension : Nat

/-- Which argument holds the counts: a position, or a name. -/
inductive CountsInput where
  | index (position : Nat)
  | name (key : String) (nonempty : key ≠ "")

/-- `GroupedExpertMaterializer`. -/
structure GroupedExpertMaterializer where
  countsInput : CountsInput
  dimension : Nat
  alignment : Nat
  alignment_pos : 0 < alignment

def cannotExpand : MaterializeError :=
  .value "cannot expand an empty captured replay dimension"

section Materialize

variable {α β : Type}

/-- The one dimension of a concrete shape. -/
def oneDimension (shape : ReplayShape) (message : String) : Except MaterializeError Nat :=
  match shape.dimensions with
  | some [dimension] => .ok dimension
  | _ => .error (.value message)

namespace LeadingDimensionMaterializer

variable (self : LeadingDimensionMaterializer)

/-- The first input tensor with the dimension. -/
def sourceTensor (invocation : ReplayInvocation α β) :
    Except MaterializeError (ReplayTensor α) :=
  match (invocation.inputLeaves.filterMap ReplayLeaf.tensor?).find?
      fun tensor => self.dimension < tensor.shape.length with
  | some source => .ok source
  | none => .error (.value s!"captured invocation has no tensor with dimension {self.dimension}")

def call (invocation : ReplayInvocation α β) (shape : ReplayShape) :
    Except MaterializeError (ReplayInvocation α β) := do
  let target ← oneDimension shape
    "LeadingDimensionMaterializer requires one concrete replay dimension"
  let source ← self.sourceTensor invocation
  raiseIf source.isDTensor (.value ("LeadingDimensionMaterializer does not support DTensor " ++
    "inputs; provide a framework-specific materializer"))
  let extent := source.extent self.dimension
  raiseIf (0 < target ∧ extent = 0) cannotExpand
  if target = extent then return invocation
  raiseIf (resizedInputs self.dimension none extent invocation = 0)
    (.value "replay shape materializer did not resize an input tensor")
  return resizeInvocation self.dimension none extent target invocation

end LeadingDimensionMaterializer

namespace GroupedExpertMaterializer

variable (self : GroupedExpertMaterializer)

/-- The argument that `counts_input` selects. -/
def countsArgument (invocation : ReplayInvocation α β) :
    Except MaterializeError (PyTree (ReplayLeaf α β)) :=
  match self.countsInput with
  | .index position =>
    match invocation.args[position]? with
    | some tree => .ok tree
    | none =>
      .error (.value s!"grouped-expert counts input index {position} is out of range")
  | .name key _ =>
    match invocation.kwargs.lookup key with
    | some tree => .ok tree
    | none => .error (.value s!"grouped-expert counts input '{key}' is missing")

def countsTensor (invocation : ReplayInvocation α β) :
    Except MaterializeError (ReplayTensor α) := do
  match ← self.countsArgument invocation with
  | .leaf (.tensor counts) => return counts
  | _ => throw (.value "grouped-expert counts input must be a tensor")

def sourceTensor (invocation : ReplayInvocation α β) (counts : ReplayTensor α) :
    Except MaterializeError (ReplayTensor α) :=
  match (invocation.inputLeaves.filterMap ReplayLeaf.tensor?).find? fun tensor =>
      !tensor.same counts && !tensor.isDTensor && self.dimension < tensor.shape.length with
  | some source => .ok source
  | none =>
    .error (.value ("captured grouped-expert invocation has no tensor with dimension " ++
      toString self.dimension))

/-- The checks of the captured counts. -/
def checkCounts (counts : ReplayTensor α) : Except MaterializeError Unit := do
  raiseIf (counts.shape.length ≠ 1 ∨ counts.numel = 0)
    (.value "grouped-expert counts must be a non-empty one-dimensional tensor")
  match counts.kind with
  | .integer _ _ => pure ()
  | _ => throw (.value "grouped-expert counts must use an integer dtype")
  raiseIf (∃ count ∈ counts.toInts, count < 0)
    (.value "grouped-expert counts must be non-negative")

/-- `counts.sum(dtype=torch.int64)`. -/
def countedExtent (counts : ReplayTensor α) : Int := counts.toInts.sum.bmod (2 ^ 64)

/-- `torch.full((counts.numel(),), n_exec, dtype=counts.dtype)`. -/
def fullCounts (counts : ReplayTensor α) (nExec : Nat) :
    Except MaterializeError (ReplayTensor α) :=
  match counts.kind with
  | .integer least greatest =>
    if least ≤ nExec ∧ nExec ≤ greatest then
      .ok
        { identity := none
          isDTensor := false
          kind := counts.kind
          shape := [counts.numel]
          entry := fun _ => .int nExec }
    else .error .runtime
  | _ => .error .runtime

/-- The new counts in the place of the captured ones. -/
def setCounts (invocation : ReplayInvocation α β) (counts : ReplayTensor α) :
    ReplayInvocation α β :=
  match self.countsInput with
  | .index position =>
    { invocation with args := invocation.args.set position (.leaf (.tensor counts)) }
  | .name key _ =>
    { invocation with
      kwargs := Dict.put invocation.kwargs (key, .leaf (.tensor counts))
      distinct := Dict.nodup_keys_put invocation.distinct _ }

def call (invocation : ReplayInvocation α β) (shape : ReplayShape) :
    Except MaterializeError (ReplayInvocation α β) := do
  let nExec ← oneDimension shape
    "GroupedExpertMaterializer requires one concrete per-expert replay dimension"
  let counts ← self.countsTensor invocation
  checkCounts counts
  raiseIf (nExec % self.alignment ≠ 0) (.value
    s!"per-expert replay extent {nExec} is not aligned to {self.alignment} rows")
  let target := nExec * counts.numel
  let source ← self.sourceTensor invocation counts
  let extent := source.extent self.dimension
  raiseIf (countedExtent counts ≠ extent) (.value
    (s!"grouped-expert counts must sum to the captured token extent " ++
      s!"({countedExtent counts} != {extent})"))
  raiseIf (0 < target ∧ extent = 0) cannotExpand
  raiseIf (target ≠ extent ∧ resizedInputs self.dimension (some counts) extent invocation = 0)
    (.value "grouped-expert materializer did not resize a token tensor")
  let newCounts ← fullCounts counts nExec
  return self.setCounts
    (resizeInvocation self.dimension (some counts) extent target invocation) newCounts

end GroupedExpertMaterializer

end Materialize

/-! ## What a resized invocation holds -/

section Relate

variable {α β : Type}

/-- The rows of a tensor, repeated in their order or cut off at a new extent. -/
structure RowsRepeated (dimension source target : Nat) (tensor resized : ReplayTensor α) :
    Prop where
  shape : resized.shape = tensor.shape.set dimension target
  entry : ∀ index, index.getD dimension 0 < target →
    resized.entry index = tensor.entry (index.set dimension (index.getD dimension 0 % source))

/-- A leaf of a resized tree: the rows of an aligned tensor are repeated, and the others stay
as they are. -/
def LeafResized (dimension : Nat) (excluded : Option (ReplayTensor α)) (source target : Nat)
    (leaf resized : ReplayLeaf α β) : Prop :=
  (∃ tensor tensor', leaf = .tensor tensor ∧ resized = .tensor tensor' ∧
    tokenAligned dimension excluded source tensor ∧
    RowsRepeated dimension source target tensor tensor') ∨
  leafAligned dimension excluded source leaf = false ∧ resized = leaf

/-- An invocation whose leaves are those of another one, related one by one. -/
structure Relates (inputs grads : ReplayLeaf α β → ReplayLeaf α β → Prop)
    (invocation resized : ReplayInvocation α β) : Prop where
  args : List.Forall₂ (PyTree.Rel inputs) invocation.args resized.args
  kwargs : List.Forall₂ (fun item item' => item.1 = item'.1 ∧ item.2.Rel inputs item'.2)
    invocation.kwargs resized.kwargs
  gradOutput : invocation.gradOutput.Rel grads resized.gradOutput
  inputRequiresGrad : resized.inputRequiresGrad = invocation.inputRequiresGrad
  autocastEnabled : resized.autocastEnabled = invocation.autocastEnabled
  autocastDeviceType : resized.autocastDeviceType = invocation.autocastDeviceType
  autocastDtype : resized.autocastDtype = invocation.autocastDtype

theorem modify_mod {index : List Nat} {dimension source : Nat} :
    index.modify dimension (· % source) =
      index.set dimension (index.getD dimension 0 % source) := by
  rw [List.modify_eq_set, List.getD_eq_getElem?_getD]
  rfl

theorem resizeDimension_rows {tensor : ReplayTensor α} {dimension source target : Nat}
    (hdim : dimension < tensor.shape.length) (hsource : tensor.extent dimension = source) :
    RowsRepeated dimension source target tensor (tensor.resizeDimension dimension target) := by
  rw [ReplayTensor.resizeDimension, hsource]
  split
  · rename_i heq
    have hget : tensor.shape[dimension] = target := by
      rw [heq, ← hsource, ReplayTensor.extent, List.getD_eq_getElem _ _ hdim]
    refine ⟨?_, fun index hindex => ?_⟩
    · rw [← hget, List.set_getElem_self]
    · rw [Nat.mod_eq_of_lt (heq ▸ hindex)]
      by_cases hin : dimension < index.length
      · rw [List.getD_eq_getElem _ _ hin, List.set_getElem_self]
      · rw [List.set_eq_of_length_le (Nat.not_lt.mp hin)]
  · exact ⟨rfl, fun index _ => congrArg tensor.entry modify_mod⟩

theorem resizeLeaf_resized (dimension : Nat) (excluded : Option (ReplayTensor α))
    (source target : Nat) (leaf : ReplayLeaf α β) :
    LeafResized dimension excluded source target leaf
      (resizeLeaf dimension excluded source target leaf) := by
  cases leaf with
  | other value => exact Or.inr ⟨rfl, rfl⟩
  | tensor tensor =>
      rw [resizeLeaf]
      split
      · rename_i haligned
        have hparts := haligned
        simp only [tokenAligned, Bool.and_eq_true, decide_eq_true_eq] at hparts
        exact Or.inl ⟨tensor, _, rfl, rfl, haligned, resizeDimension_rows hparts.1.2 hparts.2⟩
      · rename_i hnot
        exact Or.inr ⟨Bool.eq_false_iff.mpr hnot, rfl⟩

theorem resizeInvocation_relates (dimension : Nat) (excluded : Option (ReplayTensor α))
    (source target : Nat) (invocation : ReplayInvocation α β) :
    Relates (LeafResized dimension excluded source target)
      (LeafResized dimension none source target) invocation
      (resizeInvocation dimension excluded source target invocation) where
  args := List.forall₂_map_right_iff.mpr (List.forall₂_same.mpr fun _ _ =>
    PyTree.rel_map fun leaf _ => resizeLeaf_resized dimension excluded source target leaf)
  kwargs := List.forall₂_map_right_iff.mpr (List.forall₂_same.mpr fun _ _ =>
    ⟨rfl, PyTree.rel_map fun leaf _ => resizeLeaf_resized dimension excluded source target leaf⟩)
  gradOutput := PyTree.rel_map fun leaf _ => resizeLeaf_resized dimension none source target leaf
  inputRequiresGrad := rfl
  autocastEnabled := rfl
  autocastDeviceType := rfl
  autocastDtype := rfl

theorem Relates.mono {R S G : ReplayLeaf α β → ReplayLeaf α β → Prop}
    {invocation resized : ReplayInvocation α β} (h : Relates R G invocation resized)
    (hRS : ∀ a b, R a b → S a b) : Relates S G invocation resized where
  args := h.args.imp fun _ _ hab => hab.mono hRS
  kwargs := h.kwargs.imp fun _ _ hab => ⟨hab.1, hab.2.mono hRS⟩
  gradOutput := h.gradOutput
  inputRequiresGrad := h.inputRequiresGrad
  autocastEnabled := h.autocastEnabled
  autocastDeviceType := h.autocastDeviceType
  autocastDtype := h.autocastDtype

theorem kwargs_keys {R G : ReplayLeaf α β → ReplayLeaf α β → Prop}
    {invocation resized : ReplayInvocation α β} (h : Relates R G invocation resized) :
    invocation.kwargs.map Prod.fst = resized.kwargs.map Prod.fst :=
  List.forall₂_eq_eq_eq ▸ List.forall₂_map_left_iff.mpr
    (List.forall₂_map_right_iff.mpr (h.kwargs.imp fun _ _ hab => hab.1))

namespace GroupedExpertMaterializer

variable {self : GroupedExpertMaterializer}

theorem countsArgument_of_countsTensor {invocation : ReplayInvocation α β}
    {counts : ReplayTensor α} (h : self.countsTensor invocation = .ok counts) :
    self.countsArgument invocation = .ok (.leaf (.tensor counts)) := by
  obtain ⟨tree, htree, hcounts⟩ := bind_ok_iff.mp h
  rw [htree]
  split at hcounts
  · cases hcounts
    rfl
  · cases hcounts

/-- The counts stand where the captured ones stood, and nothing else is touched. -/
theorem setCounts_relates {R G : ReplayLeaf α β → ReplayLeaf α β → Prop}
    {invocation resized : ReplayInvocation α β} {counts newCounts : ReplayTensor α}
    (h : Relates R G invocation resized) (hcounts : self.countsTensor invocation = .ok counts)
    (hnew : R (.tensor counts) (.tensor newCounts)) :
    Relates R G invocation (self.setCounts resized newCounts) := by
  have harg := countsArgument_of_countsTensor hcounts
  rw [countsArgument] at harg
  rw [setCounts]
  cases hinput : self.countsInput with
  | index position =>
      rw [hinput] at harg
      refine { h with args := forall₂_set h.args fun tree htree => ?_ }
      simp only [htree, Except.ok.injEq] at harg
      exact harg ▸ PyTree.rel_leaf hnew
  | name key nonempty =>
      rw [hinput] at harg
      have hlookup : invocation.kwargs.lookup key = some (.leaf (.tensor counts)) := by
        cases hfound : invocation.kwargs.lookup key with
        | none => simp only [hfound, reduceCtorEq] at harg
        | some tree =>
            simp only [hfound, Except.ok.injEq] at harg
            rw [harg]
      refine { h with kwargs := ?_ }
      have hin : key ∈ resized.kwargs.map Prod.fst := by
        rw [← kwargs_keys h]
        exact List.mem_map_of_mem (f := Prod.fst) (Dict.mem_of_lookup hlookup)
      have hitems := (List.forall₂_and_left
        (p := fun item => item ∈ invocation.kwargs) _ _).mpr ⟨fun _ hitem => hitem, h.kwargs⟩
      show List.Forall₂ _ invocation.kwargs (if key ∈ _ then _ else _)
      rw [if_pos hin]
      refine List.forall₂_map_right_iff.mpr (hitems.imp fun item item' hrel => ?_)
      obtain ⟨hitem, hkey, htree⟩ := hrel
      split
      · rename_i heq
        have hvalue := Dict.lookup_of_mem invocation.distinct hitem
        rw [hkey, heq, hlookup, Option.some.injEq] at hvalue
        exact ⟨hkey.trans heq, hvalue ▸ PyTree.rel_leaf hnew⟩
      · exact ⟨hkey, htree⟩

/-- The new counts are what `counts_input` selects. -/
theorem countsTensor_setCounts {R G : ReplayLeaf α β → ReplayLeaf α β → Prop}
    {invocation resized : ReplayInvocation α β} {counts : ReplayTensor α}
    (h : Relates R G invocation resized) (hcounts : self.countsTensor invocation = .ok counts)
    (newCounts : ReplayTensor α) :
    self.countsTensor (self.setCounts resized newCounts) = .ok newCounts := by
  have harg := countsArgument_of_countsTensor hcounts
  rw [countsArgument] at harg
  rw [countsTensor, countsArgument, setCounts]
  cases hinput : self.countsInput with
  | index position =>
      rw [hinput] at harg
      have hlt : position < resized.args.length := by
        rw [← h.args.length_eq]
        by_contra hnot
        simp only [List.getElem?_eq_none (Nat.not_lt.mp hnot), reduceCtorEq] at harg
      simp only [List.getElem?_set_self hlt]
      rfl
  | name key nonempty =>
      simp only [Dict.lookup_put, if_true]
      rfl

end GroupedExpertMaterializer

/-! ## What the materializers keep -/

/-- An input of a grouped invocation: resized, or the counts, which are replaced. -/
def InputMaterialized (dimension : Nat) (counts newCounts : ReplayTensor α) (source target : Nat)
    (leaf resized : ReplayLeaf α β) : Prop :=
  LeafResized dimension (some counts) source target leaf resized ∨
    leaf = .tensor counts ∧ resized = .tensor newCounts

/-- The captured counts sum to the extent of the source tensor, and the new ones to that of
its resized form and of all that is aligned with it; the rows of each of these tensors are
repeated in their packed order. -/
structure GroupedConsistent (self : GroupedExpertMaterializer)
    (invocation resized : ReplayInvocation α β) (nExec extent : Nat)
    (counts newCounts : ReplayTensor α) : Prop where
  captured : self.countsTensor invocation = .ok counts
  replaced : self.countsTensor resized = .ok newCounts
  packed : ∃ source, self.sourceTensor invocation counts = .ok source ∧
    ReplayLeaf.tensor source ∈ invocation.inputLeaves ∧
    tokenAligned self.dimension (some counts) extent source
  counted : GroupedExpertMaterializer.countedExtent counts = extent
  uniform : newCounts.toInts = List.replicate counts.numel (nExec : Int)
  total : newCounts.toInts.sum = (nExec * counts.numel : Nat)
  relates : Relates
    (InputMaterialized self.dimension counts newCounts extent (nExec * counts.numel))
    (LeafResized self.dimension none extent (nExec * counts.numel)) invocation resized

/-- The rows of the first tensor, and of all of its extent, are repeated in their order. -/
structure LeadingConsistent (self : LeadingDimensionMaterializer)
    (invocation resized : ReplayInvocation α β) (target extent : Nat) : Prop where
  packed : ∃ source, self.sourceTensor invocation = .ok source ∧
    ReplayLeaf.tensor source ∈ invocation.inputLeaves ∧
    tokenAligned self.dimension none extent source
  relates : Relates (LeafResized self.dimension none extent target)
    (LeafResized self.dimension none extent target) invocation resized

theorem mem_inputs_of_find {leaves : List (ReplayLeaf α β)} {p : ReplayTensor α → Bool}
    {source : ReplayTensor α} (h : (leaves.filterMap ReplayLeaf.tensor?).find? p = some source) :
    ReplayLeaf.tensor source ∈ leaves ∧ p source = true := by
  refine ⟨?_, List.find?_some h⟩
  obtain ⟨leaf, hleaf, hsome⟩ := List.mem_filterMap.mp (List.mem_of_find?_eq_some h)
  cases leaf with
  | tensor tensor =>
      cases hsome
      exact hleaf
  | other value => cases hsome

theorem oneDimension_ok {shape : ReplayShape} {message : String} {n : Nat}
    (h : oneDimension shape message = .ok n) : shape.dimensions = some [n] := by
  rw [oneDimension] at h
  split at h
  · rename_i m hdims
    cases h
    exact hdims
  · cases h

/-- Resizing to the extent that is there changes no leaf. -/
theorem resizeLeaf_self (dimension extent : Nat) (leaf : ReplayLeaf α β) :
    resizeLeaf dimension none extent extent leaf = leaf := by
  cases leaf with
  | other value => rfl
  | tensor tensor =>
      rw [resizeLeaf]
      split
      · rename_i haligned
        simp only [tokenAligned, Bool.and_eq_true, decide_eq_true_eq] at haligned
        rw [ReplayTensor.resizeDimension, if_pos haligned.2.symm]
      · rfl

theorem relates_self (dimension extent : Nat) (invocation : ReplayInvocation α β) :
    Relates (LeafResized dimension none extent extent) (LeafResized dimension none extent extent)
      invocation invocation := by
  have hleaf : ∀ leaf : ReplayLeaf α β, LeafResized dimension none extent extent leaf leaf := by
    intro leaf
    have hresized := resizeLeaf_resized dimension none extent extent leaf
    rwa [resizeLeaf_self] at hresized
  have htree : ∀ tree : PyTree (ReplayLeaf α β),
      tree.Rel (LeafResized dimension none extent extent) tree :=
    fun tree => List.forall₂_same.mpr fun leaf _ => hleaf leaf
  exact
    { args := List.forall₂_same.mpr fun tree _ => htree tree
      kwargs := List.forall₂_same.mpr fun item _ => ⟨rfl, htree item.2⟩
      gradOutput := htree invocation.gradOutput
      inputRequiresGrad := rfl
      autocastEnabled := rfl
      autocastDeviceType := rfl
      autocastDtype := rfl }

namespace LeadingDimensionMaterializer

variable {self : LeadingDimensionMaterializer}

/-- What a leading-dimension materializer returns. -/
theorem call_consistent {invocation resized : ReplayInvocation α β} {shape : ReplayShape}
    (h : self.call invocation shape = .ok resized) :
    ∃ target extent, shape.dimensions = some [target] ∧
      LeadingConsistent self invocation resized target extent := by
  simp only [call, bind_ok_iff, raiseIf_ok_iff] at h
  obtain ⟨target, htarget, source, hsource, -, hdtensor, -, -, h⟩ := h
  refine ⟨target, source.extent self.dimension, oneDimension_ok htarget,
    ⟨source, hsource, ?_⟩, ?_⟩
  · rw [sourceTensor] at hsource
    split at hsource
    · rename_i found hfind
      cases hsource
      obtain ⟨hmem, hdim⟩ := mem_inputs_of_find hfind
      refine ⟨hmem, ?_⟩
      simp only [tokenAligned, Option.any_none, Bool.not_false, hdtensor, hdim, Bool.and_self,
        decide_true]
    · cases hsource
  · split at h
    · rename_i heq
      cases h
      rw [← heq]
      exact relates_self self.dimension target invocation
    · obtain ⟨-, -, h⟩ := bind_ok_iff.mp h
      cases h
      exact resizeInvocation_relates self.dimension none _ target invocation

end LeadingDimensionMaterializer

namespace GroupedExpertMaterializer

variable {self : GroupedExpertMaterializer}

theorem fullCounts_spec {counts newCounts : ReplayTensor α} {nExec : Nat}
    (h : fullCounts counts nExec = .ok newCounts) :
    newCounts.toInts = List.replicate counts.numel (nExec : Int) := by
  rw [fullCounts] at h
  split at h
  · split at h
    · cases h
      simp only [ReplayTensor.toInts, ReplayTensor.numel, List.prod_singleton, Element.toInt,
        List.map_const', List.length_range]
    · cases h
  · cases h

theorem call_consistent {invocation resized : ReplayInvocation α β} {shape : ReplayShape}
    (h : self.call invocation shape = .ok resized) :
    ∃ nExec extent counts newCounts, shape.dimensions = some [nExec] ∧
      GroupedConsistent self invocation resized nExec extent counts newCounts := by
  simp only [call, bind_ok_iff, raiseIf_ok_iff] at h
  obtain ⟨nExec, hdims, counts, hcounts, -, -, -, -, source, hsource, -, hcounted, -, -, -, -,
    newCounts, hnew, h⟩ := h
  cases h
  have hrelates : Relates (InputMaterialized self.dimension counts newCounts
      (source.extent self.dimension) (nExec * counts.numel)) _ invocation _ :=
    (resizeInvocation_relates self.dimension (some counts) (source.extent self.dimension)
      (nExec * counts.numel) invocation).mono fun _ _ hab => Or.inl hab
  have hfull := fullCounts_spec hnew
  refine ⟨nExec, source.extent self.dimension, counts, newCounts, oneDimension_ok hdims, hcounts,
    countsTensor_setCounts hrelates hcounts newCounts, ⟨source, hsource, ?_⟩,
    not_not.mp hcounted, hfull, ?_, setCounts_relates hrelates hcounts (Or.inr ⟨rfl, rfl⟩)⟩
  · rw [sourceTensor] at hsource
    split at hsource
    · rename_i found hfind
      cases hsource
      obtain ⟨hmem, hparts⟩ := mem_inputs_of_find hfind
      refine ⟨hmem, ?_⟩
      simpa only [tokenAligned, Option.any_some, decide_true, Bool.and_true] using hparts
    · cases hsource
  · rw [hfull, List.sum_replicate_int]
    push_cast
    ring

end GroupedExpertMaterializer

/-- The materializers. -/
inductive ShapeMaterializer where
  | grouped (materializer : GroupedExpertMaterializer)
  | leading (materializer : LeadingDimensionMaterializer)

/-- `materializer(invocation, shape)`. -/
def ShapeMaterializer.call (invocation : ReplayInvocation α β) (shape : ReplayShape) :
    ShapeMaterializer → Except MaterializeError (ReplayInvocation α β)
  | .grouped materializer => materializer.call invocation shape
  | .leading materializer => materializer.call invocation shape

/-- What a materializer keeps of an invocation that it resizes to a shape. -/
def ShapeMaterializer.Consistent (invocation resized : ReplayInvocation α β)
    (shape : ReplayShape) : ShapeMaterializer → Prop
  | .grouped materializer => ∃ nExec extent counts newCounts, shape.dimensions = some [nExec] ∧
      GroupedConsistent materializer invocation resized nExec extent counts newCounts
  | .leading materializer => ∃ target extent, shape.dimensions = some [target] ∧
      LeadingConsistent materializer invocation resized target extent

/-- **Resized expert inputs are consistent as a whole**: the new counts sum to the extent of
the packed tensors, whose rows are repeated in their packed order. -/
theorem materialize_consistent {materializer : ShapeMaterializer}
    {invocation resized : ReplayInvocation α β} {shape : ReplayShape}
    (h : materializer.call invocation shape = .ok resized) :
    materializer.Consistent invocation resized shape := by
  cases materializer with
  | grouped materializer => exact GroupedExpertMaterializer.call_consistent h
  | leading materializer => exact LeadingDimensionMaterializer.call_consistent h

/-- A flat tensor of integers. -/
def flatTensor (identity : Nat) (values : List Int) : ReplayTensor Empty where
  identity := some identity
  isDTensor := false
  kind := .integer (-(2 ^ 63)) (2 ^ 63 - 1)
  shape := [values.length]
  entry := fun index => .int (values.getD (index.getD 0 0) 0)

/-- A call of experts with packed tokens and their counts. -/
def sampleInvocation (tokens counts : List Int) : ReplayInvocation Empty Unit where
  args := [.leaf (.tensor (flatTensor 0 tokens)), .leaf (.tensor (flatTensor 1 counts))]
  kwargs := []
  inputRequiresGrad := [true, false]
  gradOutput := .leaf (.tensor (flatTensor 2 tokens))
  autocastEnabled := false
  autocastDeviceType := "cuda"
  autocastDtype := none
  distinct := List.nodup_nil

def sampleMaterializer : GroupedExpertMaterializer where
  countsInput := .index 1
  dimension := 0
  alignment := 1
  alignment_pos := Nat.one_pos

/-- `ReplayShape(shape_id="n_exec", dimensions=(n_exec,))`. -/
def sampleShape (nExec : Nat) : ReplayShape where
  shapeId := "n_exec"
  dimensions := some [nExec]
  nonempty := by decide

theorem materialize_consistent_sample :
    ∃ resized, (ShapeMaterializer.grouped sampleMaterializer).call
        (sampleInvocation [10, 11, 12, 13, 14] [3, 0, 2]) (sampleShape 10) = .ok resized ∧
      (ShapeMaterializer.grouped sampleMaterializer).Consistent
        (sampleInvocation [10, 11, 12, 13, 14] [3, 0, 2]) resized (sampleShape 10) := by
  obtain ⟨resized, h⟩ : ∃ resized, (ShapeMaterializer.grouped sampleMaterializer).call
      (sampleInvocation [10, 11, 12, 13, 14] [3, 0, 2]) (sampleShape 10) = .ok resized :=
    ⟨_, rfl⟩
  exact ⟨resized, h, materialize_consistent h⟩

/-- Where the rows of an expert begin. -/
def expertOffset (counts : List Int) (expert : Nat) : Nat := (counts.take expert).sum.toNat

/-- The rows of every expert are its own, repeated or cut off in their order. -/
def ExpertRowsKept (dimension : Nat) (counts newCounts : List Int)
    (packed resized : ReplayTensor α) : Prop :=
  ∀ expert row : Nat, (row : Int) < newCounts.getD expert 0 →
    ∀ index : List Nat,
      resized.entry (index.set dimension (expertOffset newCounts expert + row)) =
        packed.entry (index.set dimension
          (expertOffset counts expert + row % (counts.getD expert 0).toNat))

/-- Experts with one and three rows are given two each: the second row of the first one is a
row of the other. -/
theorem materialize_mixes_experts :
    ∃ resized packed, sampleMaterializer.call (sampleInvocation [10, 11, 12, 13] [1, 3])
        (sampleShape 2) = .ok resized ∧
      resized.args.head? = some (.leaf (.tensor packed)) ∧
      ¬ ExpertRowsKept 0 [1, 3] [2, 2] (flatTensor 0 [10, 11, 12, 13]) packed := by
  refine ⟨_, _, rfl, rfl, fun h => ?_⟩
  have hrow := h 0 1 (by decide) [0]
  exact absurd hrow (by decide)

end Relate

end LmResiliency.Detection
