/-
# PeerGroup — who compares results with whom

The ranks of a mesh are split along one dimension, the peer dimension.  Every rank
creates the groups of all subgroups, in the same order, and keeps its own; its peers
it also reads from the mesh by another way, which gives the same ranks.

The main result is `dpSubgroups_partition`.  The mesh's own `get_group` is code
from outside; `HoldsGroups` is all that is assumed of it, at dimensions that
the mesh has.
-/
import Mathlib.Algebra.GroupWithZero.Nat
import Mathlib.Data.List.Forall2
import Mathlib.Data.List.Sort
import Mathlib.Data.List.Nodup
import Mathlib.Data.List.GetD
import Mathlib.Data.List.Induction

namespace LmResiliency.Detection.PeerGroup

/-! ## Meshes -/

/-- `itertools.product` of the ranges of these sizes. -/
def product : List Nat → List (List Nat)
  | [] => [[]]
  | n :: sizes => (List.range n).flatMap fun i => (product sizes).map (i :: ·)

/-- The mesh of a `DeviceMesh`: distinct ranks in row-major order, and perhaps a name for
each dimension. -/
structure Mesh where
  shape : List Nat
  ranks : List Nat
  dimNames : Option (List String)
  length_ranks : ranks.length = shape.prod
  distinct : ranks.Nodup
  length_dimNames : ∀ names, dimNames = some names → names.length = shape.length

/-- The ranks with their coordinates. -/
def Mesh.cells (mesh : Mesh) : List (List Nat × Nat) := (product mesh.shape).zip mesh.ranks

/-- An item of a tensor holds an index or `slice(None)` for each dimension. -/
def fits (item : List (Option Nat)) (coordinates : List Nat) : Bool :=
  (item.zip coordinates).all fun (index, i) => index.all (· == i)

/-- `rank_tensor[tuple(item)].flatten().tolist()`. -/
def Mesh.select (mesh : Mesh) (item : List (Option Nat)) : List Nat :=
  (mesh.cells.filter fun cell => fits item cell.1).map Prod.snd

/-- What a rank sees of the mesh: besides the mesh, the ranks of its group along each
dimension. -/
structure DeviceMesh where
  mesh : Mesh
  getGroup : Nat → List Nat

/-- The rank, and the number of ranks. -/
structure World where
  rank : Nat
  size : Nat

/-! ## The peer dimension -/

def dpDimNames : List String := ["dp", "dp_replicate", "dp_shard", "fsdp", "efsdp"]

/-- The `ValueError` names the dimensions and those that were expected. -/
structure NoDpDimension where
  found : List String
  expected : List String

def findDpDim (names : List String) : Except NoDpDimension Nat :=
  match dpDimNames.find? (· ∈ names) with
  | some name => .ok (names.idxOf name)
  | none => .error { found := names, expected := dpDimNames }

def findPeerDim (mesh : Mesh) : Except NoDpDimension Nat :=
  let names := mesh.dimNames.getD []
  if "dp" ∈ names then .ok (names.idxOf "dp")
  else if "dp_replicate" ∈ names ∧ 1 < mesh.shape.getD (names.idxOf "dp_replicate") 0 then
    .ok (names.idxOf "dp_replicate")
  else
    match ["dp_shard", "fsdp", "efsdp"].find? (· ∈ names) with
    | some name => .ok (names.idxOf name)
    | none =>
        if "dp_replicate" ∈ names then .ok (names.idxOf "dp_replicate")
        else findDpDim names

/-! ## The subgroups -/

def allDimSubgroups (mesh : Mesh) (selectedDim : Nat) : List (List Nat) :=
  let otherDims := (List.range mesh.shape.length).filter (· ≠ selectedDim)
  let otherSizes := otherDims.map fun dim => mesh.shape.getD dim 0
  (product otherSizes).map fun indices =>
    let item := (otherDims.zip indices).foldl
      (fun item (dim, index) => item.set dim (some index))
      (List.replicate mesh.shape.length none)
    (mesh.select item).insertionSort (· ≤ ·)

def allDpSubgroups (world : World) : Option DeviceMesh → Except NoDpDimension (List (List Nat))
  | none => .ok [List.range world.size]
  | some device =>
      match device.mesh.dimNames with
      | none => .ok (allDimSubgroups device.mesh 0)
      | some names =>
          if names.any (· ∈ dpDimNames) then do
            let peerDim ← findPeerDim device.mesh
            return allDimSubgroups device.mesh peerDim
          else .ok (device.mesh.ranks.map ([·]))

def extractDpRanks (world : World) : Option DeviceMesh → Except NoDpDimension (List Nat)
  | none => .ok (List.range world.size)
  | some device =>
      match device.mesh.dimNames with
      | none => .ok (device.getGroup 0)
      | some names =>
          if names.any (· ∈ dpDimNames) then do
            let peerDim ← findPeerDim device.mesh
            return device.getGroup peerDim
          else .ok [world.rank]

/-! ## Coordinates -/

theorem mem_product {sizes cs : List Nat} :
    cs ∈ product sizes ↔ List.Forall₂ (· < ·) cs sizes := by
  induction sizes generalizing cs with
  | nil => rw [product, List.mem_singleton, List.forall₂_nil_right_iff]
  | cons n sizes ih =>
      simp only [product, List.mem_flatMap, List.mem_range, List.mem_map]
      constructor
      · rintro ⟨i, hi, cs, hc, rfl⟩
        exact List.Forall₂.cons hi (ih.mp hc)
      · intro h
        cases h with
        | cons hi hc => exact ⟨_, hi, _, ih.mpr hc, rfl⟩

theorem nodup_product (sizes : List Nat) : (product sizes).Nodup := by
  induction sizes with
  | nil => exact List.nodup_singleton _
  | cons n sizes ih =>
      refine List.nodup_flatMap.mpr ⟨fun i _ => ih.map fun _ _ h => (List.cons.inj h).2, ?_⟩
      refine List.nodup_range.imp fun hne => ?_
      intro cs hc hc'
      obtain ⟨_, -, rfl⟩ := List.mem_map.mp hc
      obtain ⟨_, -, h⟩ := List.mem_map.mp hc'
      exact hne (List.cons.inj h).1.symm

theorem length_product (sizes : List Nat) : (product sizes).length = sizes.prod := by
  induction sizes with
  | nil => rfl
  | cons n sizes ih => simp [product, ih]

namespace Mesh

variable {mesh : Mesh}

theorem map_fst_cells : mesh.cells.map Prod.fst = product mesh.shape :=
  List.map_fst_zip (by rw [length_product, mesh.length_ranks])

theorem map_snd_cells : mesh.cells.map Prod.snd = mesh.ranks :=
  List.map_snd_zip (by rw [length_product, mesh.length_ranks])

theorem coordinates_lt {cell : List Nat × Nat} (h : cell ∈ mesh.cells) :
    List.Forall₂ (· < ·) cell.1 mesh.shape := by
  have hmem := List.mem_map_of_mem (f := Prod.fst) h
  rw [map_fst_cells] at hmem
  exact mem_product.mp hmem

theorem mem_ranks {rank : Nat} : rank ∈ mesh.ranks ↔ ∃ cs, (cs, rank) ∈ mesh.cells := by
  rw [← map_snd_cells, List.mem_map]
  constructor
  · rintro ⟨⟨cs, r⟩, h, rfl⟩
    exact ⟨cs, h⟩
  · rintro ⟨cs, h⟩
    exact ⟨_, h, rfl⟩

theorem coordinates_unique {cs cs' : List Nat} {rank : Nat} (h : (cs, rank) ∈ mesh.cells)
    (h' : (cs', rank) ∈ mesh.cells) : cs = cs' := by
  have hnd : (mesh.cells.map Prod.snd).Nodup := by
    rw [map_snd_cells]
    exact mesh.distinct
  exact congrArg Prod.fst (List.inj_on_of_nodup_map hnd h h' rfl)

end Mesh

/-! ## One subgroup -/

theorem fits_iff {item : List (Option Nat)} {cs : List Nat} (hlen : item.length = cs.length) :
    fits item cs = true ↔ ∀ d i : Nat, item[d]? = some (some i) → cs[d]? = some i := by
  induction item generalizing cs with
  | nil =>
      obtain rfl := List.length_eq_zero_iff.mp hlen.symm
      exact ⟨fun _ _ _ h => absurd h (by simp), fun _ => rfl⟩
  | cons index item ih =>
      obtain ⟨j, cs, rfl⟩ := List.exists_cons_of_length_eq_add_one hlen.symm
      have hrest := ih (Nat.succ.inj hlen)
      have hfirst : index.all (· == j) = true ↔ ∀ i, index = some i → j = i := by
        cases index with
        | none => simp
        | some i =>
            rw [Option.all_some, beq_iff_eq]
            exact ⟨fun h _ hi => h.symm.trans (Option.some.inj hi), fun h => (h i rfl).symm⟩
      rw [fits, List.zip_cons_cons, List.all_cons, ← fits, Bool.and_eq_true, hrest, hfirst]
      constructor
      · rintro ⟨hzero, hlater⟩ (_ | d) i hi
        · exact congrArg some (hzero i (Option.some.inj hi))
        · exact hlater d i hi
      · intro h
        exact ⟨fun i hi => Option.some.inj (h 0 i (congrArg some hi)), fun d i => h (d + 1) i⟩

/-- The item that sets indices in some dimensions. -/
def itemOf (ndim : Nat) (assigned : List (Nat × Nat)) : List (Option Nat) :=
  assigned.foldl (fun item (dim, index) => item.set dim (some index)) (List.replicate ndim none)

theorem itemOf_append (ndim : Nat) (assigned : List (Nat × Nat)) (d i : Nat) :
    itemOf ndim (assigned ++ [(d, i)]) = (itemOf ndim assigned).set d (some i) := by
  rw [itemOf, List.foldl_append]
  rfl

theorem length_itemOf (ndim : Nat) (assigned : List (Nat × Nat)) :
    (itemOf ndim assigned).length = ndim := by
  induction assigned using List.reverseRecOn with
  | nil => exact List.length_replicate
  | append_singleton assigned m ih => rw [itemOf_append, List.length_set, ih]

theorem itemOf_getElem? {ndim : Nat} {assigned : List (Nat × Nat)}
    (hnd : (assigned.map Prod.fst).Nodup) (hlt : ∀ m ∈ assigned, m.1 < ndim) {d i : Nat} :
    (itemOf ndim assigned)[d]? = some (some i) ↔ (d, i) ∈ assigned := by
  induction assigned using List.reverseRecOn with
  | nil =>
      rw [itemOf, List.foldl_nil, List.getElem?_replicate]
      split
      · simp
      · simp
  | append_singleton assigned m ih =>
      obtain ⟨d', i'⟩ := m
      rw [List.map_append, List.nodup_append] at hnd
      have hbound := hlt (d', i') (List.mem_append_right _ (List.mem_singleton.mpr rfl))
      have hrest := ih hnd.1 fun m hm => hlt m (List.mem_append_left _ hm)
      rw [itemOf_append, List.getElem?_set, length_itemOf, List.mem_append, List.mem_singleton,
        Prod.mk.injEq]
      by_cases hd : d' = d
      · subst hd
        have hnot : (d', i) ∉ assigned := fun hin =>
          hnd.2.2 d' (List.mem_map_of_mem (f := Prod.fst) hin) d'
            (List.mem_singleton.mpr rfl) rfl
        rw [if_pos rfl, if_pos hbound, Option.some.injEq, Option.some.injEq]
        exact ⟨fun h => Or.inr ⟨rfl, h.symm⟩,
          fun h => h.elim (fun hin => absurd hin hnot) fun h => h.2.symm⟩
      · rw [if_neg hd, hrest]
        exact ⟨Or.inl, fun h => h.elim id fun h => absurd h.1.symm hd⟩

/-- The dimensions other than the selected one. -/
def otherDims (ndim selectedDim : Nat) : List Nat := (List.range ndim).filter (· ≠ selectedDim)

/-- The indices of a place in some dimensions. -/
def indicesIn (dims cs : List Nat) : List Nat := dims.map fun dim => cs.getD dim 0

theorem fits_itemOf {dims indices cs : List Nat} (hnd : dims.Nodup)
    (hlt : ∀ d ∈ dims, d < cs.length)
    (hlen : dims.length = indices.length) :
    fits (itemOf cs.length (dims.zip indices)) cs = true ↔ indicesIn dims cs = indices := by
  have hfst : (dims.zip indices).map Prod.fst = dims := List.map_fst_zip hlen.le
  rw [fits_iff (length_itemOf _ _)]
  simp only [itemOf_getElem? (hfst ▸ hnd) fun m hm => hlt m.1 (List.of_mem_zip hm).1]
  have hforall : (∀ d i, (d, i) ∈ dims.zip indices → cs[d]? = some i) ↔
      List.Forall₂ (fun d i => cs.getD d 0 = i) dims indices := by
    rw [List.forall₂_iff_zip]
    constructor
    · intro h
      refine ⟨hlen, fun hm => ?_⟩
      rw [List.getD_eq_getElem?_getD, h _ _ hm, Option.getD_some]
    · rintro ⟨-, h⟩ d i hm
      have hd := hlt d (List.of_mem_zip hm).1
      have hi := h hm
      rw [List.getD_eq_getElem _ _ hd] at hi
      rw [List.getElem?_eq_getElem hd, hi]
  rw [hforall, indicesIn, ← List.forall₂_eq_eq_eq, List.forall₂_map_left_iff]

theorem nodup_otherDims (ndim selectedDim : Nat) : (otherDims ndim selectedDim).Nodup :=
  List.nodup_range.filter _

theorem mem_otherDims {ndim selectedDim d : Nat} :
    d ∈ otherDims ndim selectedDim ↔ d < ndim ∧ d ≠ selectedDim := by
  rw [otherDims, List.mem_filter, List.mem_range, decide_eq_true_eq]

namespace Mesh

variable {mesh : Mesh}

/-- The ranks whose places have these indices in the dimensions other than the selected
one. -/
def subgroup (mesh : Mesh) (selectedDim : Nat) (indices : List Nat) : List Nat :=
  ((mesh.cells.filter fun cell =>
    indicesIn (otherDims mesh.shape.length selectedDim) cell.1 = indices).map Prod.snd).insertionSort
      (· ≤ ·)

theorem mem_subgroup {selectedDim : Nat} {indices : List Nat} {rank : Nat} :
    rank ∈ mesh.subgroup selectedDim indices ↔ ∃ cs, (cs, rank) ∈ mesh.cells ∧
      indicesIn (otherDims mesh.shape.length selectedDim) cs = indices := by
  rw [subgroup, (List.perm_insertionSort _ _).mem_iff, List.mem_map]
  constructor
  · rintro ⟨⟨cs, r⟩, hcell, rfl⟩
    obtain ⟨hcell, hindices⟩ := List.mem_filter.mp hcell
    exact ⟨cs, hcell, of_decide_eq_true hindices⟩
  · rintro ⟨cs, hcell, hindices⟩
    exact ⟨(cs, rank), List.mem_filter.mpr ⟨hcell, decide_eq_true hindices⟩, rfl⟩

/-- The indices of all subgroups. -/
def subgroupIndices (mesh : Mesh) (selectedDim : Nat) : List (List Nat) :=
  product ((otherDims mesh.shape.length selectedDim).map fun dim => mesh.shape.getD dim 0)

theorem allDimSubgroups_eq (selectedDim : Nat) :
    allDimSubgroups mesh selectedDim =
      (mesh.subgroupIndices selectedDim).map (mesh.subgroup selectedDim) := by
  refine List.map_congr_left fun indices hindices => ?_
  change (mesh.select (itemOf mesh.shape.length
    ((otherDims mesh.shape.length selectedDim).zip indices))).insertionSort _ = _
  have hlen : (otherDims mesh.shape.length selectedDim).length = indices.length := by
    rw [(mem_product.mp hindices).length_eq, List.length_map, otherDims]
  rw [select, subgroup]
  congr 2
  refine List.filter_congr fun cell hcell => ?_
  have hshape := (coordinates_lt hcell).length_eq
  rw [← hshape] at hlen ⊢
  rw [Bool.eq_iff_iff,
    fits_itemOf (nodup_otherDims _ _) (fun d hd => (mem_otherDims.mp hd).1) hlen,
    decide_eq_true_eq]

/-- The indices of a place are among those of the subgroups. -/
theorem indicesIn_mem {selectedDim : Nat} {cell : List Nat × Nat} (h : cell ∈ mesh.cells) :
    indicesIn (otherDims mesh.shape.length selectedDim) cell.1 ∈
      mesh.subgroupIndices selectedDim := by
  have hlt := coordinates_lt h
  rw [subgroupIndices, mem_product, indicesIn, List.forall₂_map_left_iff,
    List.forall₂_map_right_iff, List.forall₂_same]
  intro d hd
  obtain ⟨hd, -⟩ := mem_otherDims.mp hd
  have hd' : d < cell.1.length := hlt.length_eq ▸ hd
  rw [List.getD_eq_getElem _ _ hd, List.getD_eq_getElem _ _ hd']
  exact List.Forall₂.get hlt hd' hd

/-- The ranks have the same coordinates but in one dimension. -/
def SameBut (mesh : Mesh) (dim rank rank' : Nat) : Prop :=
  ∃ cs cs', (cs, rank) ∈ mesh.cells ∧ (cs', rank') ∈ mesh.cells ∧
    ∀ d : Nat, d ≠ dim → cs[d]? = cs'[d]?

theorem indicesIn_eq_iff {selectedDim : Nat} {cs cs' : List Nat}
    (h : cs.length = mesh.shape.length)
    (h' : cs'.length = mesh.shape.length) :
    indicesIn (otherDims mesh.shape.length selectedDim) cs =
        indicesIn (otherDims mesh.shape.length selectedDim) cs' ↔
      ∀ d : Nat, d ≠ selectedDim → cs[d]? = cs'[d]? := by
  rw [indicesIn, indicesIn, List.map_inj_left]
  simp only [mem_otherDims, List.getD_eq_getElem?_getD]
  constructor
  · intro hsame d hd
    by_cases hlt : d < mesh.shape.length
    · have hget := hsame d ⟨hlt, hd⟩
      rw [List.getElem?_eq_getElem (h ▸ hlt), List.getElem?_eq_getElem (h' ▸ hlt)] at hget ⊢
      exact congrArg some hget
    · rw [List.getElem?_eq_none (by omega), List.getElem?_eq_none (by omega)]
  · intro hsame d hd
    rw [hsame d hd.2]

theorem sameBut_iff {selectedDim rank rank' : Nat} {cs : List Nat}
    (hc : (cs, rank) ∈ mesh.cells) :
    mesh.SameBut selectedDim rank rank' ↔
      rank' ∈ mesh.subgroup selectedDim
        (indicesIn (otherDims mesh.shape.length selectedDim) cs) := by
  rw [mem_subgroup]
  constructor
  · rintro ⟨c₁, cs', hc₁, hc', hsame⟩
    obtain rfl := coordinates_unique hc hc₁
    exact ⟨cs', hc', ((indicesIn_eq_iff (coordinates_lt hc).length_eq
      (coordinates_lt hc').length_eq).mpr hsame).symm⟩
  · rintro ⟨cs', hc', hindices⟩
    exact ⟨cs, cs', hc, hc', (indicesIn_eq_iff (coordinates_lt hc).length_eq
      (coordinates_lt hc').length_eq).mp hindices.symm⟩

/-- Subgroups of different indices share no rank. -/
theorem pairwise_disjoint (selectedDim : Nat) :
    (allDimSubgroups mesh selectedDim).Pairwise List.Disjoint := by
  rw [allDimSubgroups_eq, List.pairwise_map]
  refine (nodup_product _).imp fun hne rank h h' => hne ?_
  obtain ⟨cs, hc, rfl⟩ := mem_subgroup.mp h
  obtain ⟨cs', hc', rfl⟩ := mem_subgroup.mp h'
  rw [coordinates_unique hc hc']

/-- Every rank is in a subgroup, and nothing else is. -/
theorem mem_ranks_iff (selectedDim : Nat) {rank : Nat} :
    rank ∈ mesh.ranks ↔ ∃ group ∈ allDimSubgroups mesh selectedDim, rank ∈ group := by
  rw [mem_ranks, allDimSubgroups_eq]
  simp only [List.mem_map, exists_exists_and_eq_and]
  constructor
  · rintro ⟨cs, hc⟩
    exact ⟨_, indicesIn_mem hc, mem_subgroup.mpr ⟨cs, hc, rfl⟩⟩
  · rintro ⟨indices, -, hrank⟩
    obtain ⟨cs, hc, -⟩ := mem_subgroup.mp hrank
    exact ⟨cs, hc⟩

/-- The subgroup of a rank holds those with the same other coordinates. -/
theorem mem_group_iff {selectedDim rank rank' : Nat} {group : List Nat}
    (hgroup : group ∈ allDimSubgroups mesh selectedDim) (hrank : rank ∈ group) :
    rank' ∈ group ↔ mesh.SameBut selectedDim rank rank' := by
  rw [allDimSubgroups_eq] at hgroup
  obtain ⟨indices, -, rfl⟩ := List.mem_map.mp hgroup
  obtain ⟨cs, hc, rfl⟩ := mem_subgroup.mp hrank
  exact (sameBut_iff hc).symm

end Mesh

/-! ## Every rank's view -/

/-- The names of a peer dimension, the preferred ones first: several replicas come
before the shards of a state, a single one after them. -/
def preferredNames (replicas : Nat) : List String :=
  if 1 < replicas then ["dp", "dp_replicate", "dp_shard", "fsdp", "efsdp"]
  else ["dp", "dp_shard", "fsdp", "efsdp", "dp_replicate"]

/-- The dimension along which the mesh is split, where there is one: the first that has
the most preferred of the names, or the first of all without names. -/
def Mesh.peerDim (mesh : Mesh) : Option Nat :=
  match mesh.dimNames with
  | none => some 0
  | some names =>
      ((preferredNames (mesh.shape.getD (names.idxOf "dp_replicate") 0)).find? (· ∈ names)).map
        fun name => names.idxOf name

theorem mem_preferredNames {replicas : Nat} {name : String} :
    name ∈ preferredNames replicas ↔ name ∈ dpDimNames := by
  rw [preferredNames]
  split
  · rfl
  · simp only [dpDimNames, List.mem_cons, List.not_mem_nil, or_false]
    tauto

/-- A mesh is split unless its names are all of other dimensions. -/
theorem Mesh.peerDim_eq_none_iff {mesh : Mesh} :
    mesh.peerDim = none ↔
      ∃ names, mesh.dimNames = some names ∧ ∀ name ∈ names, name ∉ dpDimNames := by
  rw [Mesh.peerDim]
  cases mesh.dimNames with
  | none => simp
  | some names =>
      simp only [Option.map_eq_none_iff, List.find?_eq_none, mem_preferredNames,
        decide_eq_true_eq, Option.some.injEq, exists_eq_left']
      exact ⟨fun h name hname hdp => h name hdp hname, fun h name hdp hname => h name hname hdp⟩

/-- A mesh that has a dimension has its peer dimension. -/
theorem Mesh.peerDim_lt {mesh : Mesh} (hmesh : mesh.shape ≠ []) {dim : Nat}
    (h : mesh.peerDim = some dim) : dim < mesh.shape.length := by
  rw [Mesh.peerDim] at h
  split at h
  · obtain rfl := Option.some.inj h
    exact List.length_pos_iff.mpr hmesh
  · next names hnames =>
      obtain ⟨name, hfind, rfl⟩ := Option.map_eq_some_iff.mp h
      have hname : name ∈ names := by simpa using List.find?_some hfind
      exact mesh.length_dimNames names hnames ▸ List.idxOf_lt_length_of_mem hname

/-- Without the name `dp`, a single replica counts only if there are no shards. -/
theorem find?_preferredNames {names : List String} (hdp : "dp" ∉ names) (replicas : Nat) :
    (preferredNames replicas).find? (· ∈ names) =
      if "dp_replicate" ∈ names ∧ 1 < replicas then some "dp_replicate"
      else (["dp_shard", "fsdp", "efsdp"].find? (· ∈ names)).or
        (if "dp_replicate" ∈ names then some "dp_replicate" else none) := by
  have hshards : ∀ rest : List String,
      (["dp_shard", "fsdp", "efsdp"] ++ rest).find? (· ∈ names) =
        (["dp_shard", "fsdp", "efsdp"].find? (· ∈ names)).or (rest.find? (· ∈ names)) :=
    fun rest => List.find?_append
  have hdp : decide ("dp" ∈ names) = false := decide_eq_false hdp
  rw [preferredNames]
  by_cases hreplicate : "dp_replicate" ∈ names
  · by_cases hreplicas : 1 < replicas
    · simp [hdp, hreplicate, hreplicas]
    · rw [if_neg hreplicas, if_neg fun hc => hreplicas hc.2, if_pos hreplicate]
      simpa [hdp, hreplicate] using hshards ["dp_replicate"]
  · split
    · simp [hdp, hreplicate]
    · simpa [hdp, hreplicate] using hshards ["dp_replicate"]

/-- **The code's choice is the preferred dimension.** -/
theorem findPeerDim_eq {mesh : Mesh} {names : List String} (hnames : mesh.dimNames = some names)
    {dim : Nat} (h : mesh.peerDim = some dim) : findPeerDim mesh = .ok dim := by
  rw [Mesh.peerDim, hnames] at h
  simp only [findPeerDim, hnames, Option.getD_some] at h ⊢
  generalize mesh.shape.getD (names.idxOf "dp_replicate") 0 = replicas at h ⊢
  by_cases hdp : "dp" ∈ names
  · rw [preferredNames] at h
    split at h <;> simpa [hdp] using h
  rw [find?_preferredNames hdp] at h
  rw [if_neg hdp]
  split
  · next hreplicas => simpa [hreplicas] using h
  · next hreplicas =>
      rw [if_neg hreplicas] at h
      cases hshard : ["dp_shard", "fsdp", "efsdp"].find? (· ∈ names) with
      | some name => simpa [hshard] using h
      | none =>
          by_cases hreplicate : "dp_replicate" ∈ names
          · simpa [hshard, hreplicate] using h
          · simp [hshard, hreplicate] at h

/-- A group along a dimension holds the ranks that share the other coordinates. -/
def DeviceMesh.HoldsGroups (device : DeviceMesh) (world : World) : Prop :=
  ∀ dim < device.mesh.shape.length, ∀ rank,
    rank ∈ device.getGroup dim ↔ device.mesh.SameBut dim world.rank rank

theorem subgroups_of_peerDim {mesh : Mesh} {dim : Nat} (h : mesh.peerDim = some dim)
    (world : World) {device : DeviceMesh} (hdevice : device.mesh = mesh) :
    allDpSubgroups world (some device) = .ok (allDimSubgroups mesh dim) ∧
      extractDpRanks world (some device) = .ok (device.getGroup dim) := by
  obtain rfl := hdevice
  rw [allDpSubgroups, extractDpRanks]
  cases hnames : device.mesh.dimNames with
  | none =>
      rw [Mesh.peerDim, hnames] at h
      obtain rfl := Option.some.inj h
      exact ⟨rfl, rfl⟩
  | some names =>
      have hany : names.any (· ∈ dpDimNames) = true := by
        by_contra hnot
        rw [Mesh.peerDim_eq_none_iff.mpr ⟨names, hnames, fun name hname hdp =>
          hnot (List.any_eq_true.mpr ⟨name, hname, decide_eq_true hdp⟩)⟩] at h
        cases h
      dsimp only
      rw [if_pos hany, if_pos hany, findPeerDim_eq hnames h]
      exact ⟨rfl, rfl⟩

theorem subgroups_of_none {mesh : Mesh} (h : mesh.peerDim = none)
    (world : World) {device : DeviceMesh} (hdevice : device.mesh = mesh) :
    allDpSubgroups world (some device) = .ok (mesh.ranks.map ([·])) ∧
      extractDpRanks world (some device) = .ok [world.rank] := by
  obtain rfl := hdevice
  obtain ⟨names, hnames, hother⟩ := Mesh.peerDim_eq_none_iff.mp h
  have hnot : ¬ names.any (· ∈ dpDimNames) = true := by
    rw [List.any_eq_true]
    rintro ⟨name, hname, hdp⟩
    exact hother name hname (of_decide_eq_true hdp)
  rw [allDpSubgroups, extractDpRanks, hnames]
  dsimp only
  rw [if_neg hnot, if_neg hnot]
  exact ⟨rfl, rfl⟩

/-- **The subgroups partition the mesh**: every rank computes the same list; each rank of the
mesh is in one of its members; a member holds the ranks that differ in the peer dimension
only, or is single where no name is of a data-parallel dimension; and a rank's peers are the
member it is in. -/
theorem dpSubgroups_partition (mesh : Mesh) :
    ∃ groups : List (List Nat),
      (∀ (world : World) (device : DeviceMesh), device.mesh = mesh →
        allDpSubgroups world (some device) = .ok groups) ∧
      groups.Pairwise List.Disjoint ∧
      (∀ rank, rank ∈ mesh.ranks ↔ ∃ group ∈ groups, rank ∈ group) ∧
      (∀ dim, mesh.peerDim = some dim → ∀ group ∈ groups, ∀ rank ∈ group, ∀ rank',
        rank' ∈ group ↔ mesh.SameBut dim rank rank') ∧
      (mesh.peerDim = none → (∃ names, mesh.dimNames = some names ∧
        ∀ name ∈ names, name ∉ dpDimNames) ∧ ∀ group ∈ groups, ∃ rank, group = [rank]) ∧
      ∀ (world : World) (device : DeviceMesh), device.mesh = mesh → mesh.shape ≠ [] →
        device.HoldsGroups world →
        ∃ ranks, extractDpRanks world (some device) = .ok ranks ∧
          ∀ group ∈ groups, world.rank ∈ group → ∀ rank, rank ∈ ranks ↔ rank ∈ group := by
  cases hdim : mesh.peerDim with
  | some dim =>
      refine ⟨allDimSubgroups mesh dim,
        fun world device hdevice => (subgroups_of_peerDim hdim world hdevice).1,
        Mesh.pairwise_disjoint dim, fun _ => Mesh.mem_ranks_iff dim, ?_, nofun,
        fun world device hdevice hmesh hgroups =>
          ⟨_, (subgroups_of_peerDim hdim world hdevice).2, fun group hgroup hrank rank => ?_⟩⟩
      · intro dim' hdim' group hgroup rank hrank rank'
        obtain rfl := Option.some.inj hdim'
        exact Mesh.mem_group_iff hgroup hrank
      · obtain rfl := hdevice
        rw [hgroups dim (Mesh.peerDim_lt hmesh hdim) rank, Mesh.mem_group_iff hgroup hrank]
  | none =>
      refine ⟨mesh.ranks.map ([·]),
        fun world device hdevice => (subgroups_of_none hdim world hdevice).1, ?_, ?_, nofun, ?_,
        fun world device hdevice _ _ =>
          ⟨_, (subgroups_of_none hdim world hdevice).2, fun group hgroup hrank rank => ?_⟩⟩
      · rw [List.pairwise_map]
        exact mesh.distinct.imp fun hne rank h h' =>
          hne ((List.mem_singleton.mp h).symm.trans (List.mem_singleton.mp h'))
      · intro rank
        simp only [List.mem_map, exists_exists_and_eq_and, List.mem_singleton]
        exact ⟨fun h => ⟨rank, h, rfl⟩, fun ⟨_, h, he⟩ => he ▸ h⟩
      · refine fun _ => ⟨Mesh.peerDim_eq_none_iff.mp hdim, fun group hgroup => ?_⟩
        obtain ⟨rank, -, rfl⟩ := List.mem_map.mp hgroup
        exact ⟨rank, rfl⟩
      · obtain ⟨rank', -, rfl⟩ := List.mem_map.mp hgroup
        rw [← List.mem_singleton.mp hrank]

/-- Four replicas of two shards. -/
def sampleMesh : Mesh where
  shape := [4, 2]
  ranks := List.range 8
  dimNames := some ["dp_replicate", "dp_shard"]
  length_ranks := by decide
  distinct := by decide
  length_dimNames := by
    rintro names ⟨⟩
    rfl

/-- What rank 3 of that mesh sees. -/
def sampleDevice : DeviceMesh where
  mesh := sampleMesh
  getGroup dim := if dim = 0 then [1, 3, 5, 7] else [2, 3]

theorem sampleDevice_holdsGroups : sampleDevice.HoldsGroups ⟨3, 8⟩ := by
  have hcell : ([1, 1], 3) ∈ sampleDevice.mesh.cells := by decide
  intro dim hdim rank
  rw [Mesh.sameBut_iff hcell]
  obtain rfl | rfl : dim = 0 ∨ dim = 1 := by
    have hdim : dim < 2 := hdim
    omega
  · rw [show sampleDevice.mesh.subgroup 0 _ = sampleDevice.getGroup 0 from by decide]
  · rw [show sampleDevice.mesh.subgroup 1 _ = sampleDevice.getGroup 1 from by decide]

/-- Rank 3 compares its results with the other replicas of its shard. -/
theorem dpSubgroups_partition_sample :
    ∃ groups, allDpSubgroups ⟨3, 8⟩ (some sampleDevice) = .ok groups ∧
      groups = [[0, 2, 4, 6], [1, 3, 5, 7]] ∧
      ∃ ranks, extractDpRanks ⟨3, 8⟩ (some sampleDevice) = .ok ranks ∧
        ∀ group ∈ groups, 3 ∈ group → ∀ rank, rank ∈ ranks ↔ rank ∈ group := by
  obtain ⟨groups, hall, -, -, -, -, hextract⟩ := dpSubgroups_partition sampleMesh
  have hgroups := hall ⟨3, 8⟩ sampleDevice rfl
  refine ⟨groups, hgroups, ?_,
    hextract ⟨3, 8⟩ sampleDevice rfl (List.cons_ne_nil _ _) sampleDevice_holdsGroups⟩
  exact Except.ok.inj (hgroups.symm.trans rfl)

end LmResiliency.Detection.PeerGroup
