/-
# Pairing — which rank holds whose replica

The ranks are cut into segments of twice the jump, and a rank of the first
half of a segment is paired with the one a jump further on.  The source says
so three times: as a formula (`_compute_peer_rank`), as the process groups that
are made for all pairs (`_create_group`), and as a map in the topology that
the checkpoint identity is taken of (`_checkpoint_topology`).  All three are
the same perfect matching.

`pairing_agrees` is stated for every jump and every world of whole segments.  That
the groups are made by all ranks in one order is not needed for it and not shown.
-/
import LmResiliency.Lib.Dict
import LmResiliency.Lib.Text
import Mathlib.Data.Sym.Sym2

namespace LmResiliency.Checkpointing

/-! ## The three forms -/

/-- What is checked before a peer backend is made (`_GlooPeerBackend.__init__`). -/
def checkJump (replicationJump : Int) (worldSize : Nat) : Except String Unit :=
  if replicationJump ≤ 0 then
    .error ("replication_jump must be > 0, got " ++ Text.str replicationJump)
  else if (worldSize : Int) % (replicationJump * 2) ≠ 0 then
    .error ("world_size (" ++ Text.str worldSize ++ ") must be divisible by " ++
      "2 * replication_jump (" ++ Text.str (2 * replicationJump) ++ ")")
  else .ok ()

def computePeerRank (jump rank : Nat) : Nat :=
  let segmentSize := jump * 2
  let segmentStart := rank / segmentSize * segmentSize
  let offsetInSegment := rank - segmentStart
  if offsetInSegment < jump then rank + jump else rank - jump

/-- The ranks of the groups, in the order they are made: by segment
(`range(0, world_size, segment_size)`), then by offset. -/
def groupRanks (jump worldSize : Nat) : List (Nat × Nat) :=
  let segmentSize := jump * 2
  (List.range' 0 ((worldSize + segmentSize - 1) / segmentSize) segmentSize).flatMap fun segStart =>
    (List.range jump).map fun offset => (segStart + offset, segStart + offset + jump)

/-- `_create_group`: the last group made that has the rank in it, which there
must be. -/
def createGroup (jump worldSize rank : Nat) : Except String (Nat × Nat) :=
  let myGroup := (groupRanks jump worldSize).foldl
    (fun mine group => if rank = group.1 ∨ rank = group.2 then some group else mine) none
  match myGroup with
  | some group => .ok group
  | none => .error ("Rank " ++ Text.str rank ++ " not found in any replication group")

/-- The topology that `_checkpoint_topology` describes. -/
structure CheckpointTopology where
  worldSize : Nat
  checkpointGroupRanks : List Nat
  replicationJump : Option Nat
  replicationPeers : List (String × Nat)

/-- `_checkpoint_topology`; without a process group the ranks are all of them. -/
def checkpointTopology (worldSize : Nat) (processGroup : Option (List Nat))
    (skipReplication : Bool) (replicationJump : Nat) : CheckpointTopology :=
  let ranks := processGroup.getD (List.range worldSize)
  let peerMap :=
    if skipReplication = false ∧ 1 < worldSize then
      let segmentSize := replicationJump * 2
      Dict.ofItems (ranks.map fun (rank : Nat) =>
        let segmentStart := rank / segmentSize * segmentSize
        let offset := rank - segmentStart
        (Text.str rank,
          if offset < replicationJump then rank + replicationJump else rank - replicationJump))
    else []
  { worldSize
    checkpointGroupRanks := ranks
    replicationJump := if peerMap.isEmpty then none else some replicationJump
    replicationPeers := peerMap }

/-! ## A rank within its segment -/

/-- The segments below a multiple of the segment size are whole. -/
theorem segment_lt {s k offset : Nat} (h : offset < jump * 2) :
    s * (jump * 2) + offset < k * (jump * 2) ↔ s < k := by
  constructor
  · intro hlt
    by_contra hge
    have hmul := Nat.mul_le_mul_right (jump * 2) (not_lt.mp hge)
    omega
  · intro hlt
    have hmul := Nat.mul_le_mul_right (jump * 2) (Nat.succ_le_of_lt hlt)
    rw [Nat.succ_mul] at hmul
    omega

section Segments

variable {jump : Nat} (hjump : 1 ≤ jump)
include hjump

/-- A rank of the first half of segment `s` is paired with the second half. -/
theorem computePeerRank_first {s offset : Nat} (h : offset < jump) :
    computePeerRank jump (s * (jump * 2) + offset) = s * (jump * 2) + offset + jump := by
  have hpos : 0 < jump * 2 := by omega
  have hdiv : (s * (jump * 2) + offset) / (jump * 2) = s := by
    rw [Nat.mul_comm, Nat.mul_add_div hpos, Nat.div_eq_of_lt (by omega), Nat.add_zero]
  have hoffset : s * (jump * 2) + offset - s * (jump * 2) = offset := Nat.add_sub_cancel_left _ _
  rw [computePeerRank]
  simp only [hdiv, hoffset, if_pos h]

/-- A rank of the second half is paired with the first. -/
theorem computePeerRank_second {s offset : Nat} (h : offset < jump) :
    computePeerRank jump (s * (jump * 2) + offset + jump) = s * (jump * 2) + offset := by
  have hpos : 0 < jump * 2 := by omega
  have hdiv : (s * (jump * 2) + offset + jump) / (jump * 2) = s := by
    rw [Nat.add_assoc, Nat.mul_comm, Nat.mul_add_div hpos, Nat.div_eq_of_lt (by omega),
      Nat.add_zero]
  have hoffset : s * (jump * 2) + offset + jump - s * (jump * 2) = offset + jump := by omega
  rw [computePeerRank]
  simp only [hdiv, hoffset, if_neg (show ¬offset + jump < jump by omega), Nat.add_sub_cancel]

/-- Every rank is in the first or the second half of some segment. -/
theorem rank_cases (rank : Nat) : ∃ s offset, offset < jump ∧
    (rank = s * (jump * 2) + offset ∨ rank = s * (jump * 2) + offset + jump) := by
  have hpos : 0 < jump * 2 := by omega
  have hlt := Nat.mod_lt rank hpos
  have hdm := Nat.div_add_mod' rank (jump * 2)
  by_cases h : rank % (jump * 2) < jump
  · exact ⟨rank / (jump * 2), rank % (jump * 2), h, Or.inl hdm.symm⟩
  · exact ⟨rank / (jump * 2), rank % (jump * 2) - jump, by omega, Or.inr (by omega)⟩

end Segments

section Matching

variable {jump k : Nat} (hjump : 1 ≤ jump)
include hjump

/-- The formula is a perfect matching of the ranks of whole segments. -/
theorem computePeerRank_matching {rank : Nat} (h : rank < k * (jump * 2)) :
    computePeerRank jump rank < k * (jump * 2) ∧ computePeerRank jump rank ≠ rank ∧
      computePeerRank jump (computePeerRank jump rank) = rank := by
  obtain ⟨s, offset, ho, rfl | rfl⟩ := rank_cases hjump rank
  · have hs : s < k := (segment_lt (by omega)).mp h
    have hpeer := (segment_lt (show offset + jump < jump * 2 by omega)).mpr hs
    rw [computePeerRank_first hjump ho, computePeerRank_second hjump ho]
    exact ⟨by omega, by omega, rfl⟩
  · have hs : s < k := (segment_lt (show offset + jump < jump * 2 by omega)).mp (by omega)
    have hpeer := (segment_lt (show offset < jump * 2 by omega)).mpr hs
    rw [computePeerRank_second hjump ho, computePeerRank_first hjump ho]
    exact ⟨hpeer, by omega, rfl⟩

/-! ## The process groups -/

theorem mem_groupRanks {g : Nat × Nat} :
    g ∈ groupRanks jump (k * (jump * 2)) ↔
      ∃ s < k, ∃ offset < jump, g = (s * (jump * 2) + offset, s * (jump * 2) + offset + jump) := by
  have hcount : (k * (jump * 2) + jump * 2 - 1) / (jump * 2) = k := by
    rw [Nat.add_sub_assoc (by omega), Nat.mul_comm, Nat.mul_add_div (by omega),
      Nat.div_eq_of_lt (by omega), Nat.add_zero]
  simp only [groupRanks, hcount, List.mem_flatMap, List.mem_map, List.mem_range, List.mem_range',
    Nat.zero_add]
  constructor
  · rintro ⟨_, ⟨s, hs, rfl⟩, offset, ho, rfl⟩
    exact ⟨s, hs, offset, ho, by rw [Nat.mul_comm]⟩
  · rintro ⟨s, hs, offset, ho, rfl⟩
    exact ⟨jump * 2 * s, ⟨s, hs, rfl⟩, offset, ho, by rw [Nat.mul_comm]⟩

/-- A group has a rank of a first half and its peer. -/
theorem group_is_pair {g : Nat × Nat} (hg : g ∈ groupRanks jump (k * (jump * 2))) :
    g.1 < k * (jump * 2) ∧ g.2 = g.1 + jump ∧ computePeerRank jump g.1 = g.2 ∧
      computePeerRank jump g.2 = g.1 := by
  obtain ⟨s, hs, offset, ho, rfl⟩ := (mem_groupRanks hjump).mp hg
  exact ⟨(segment_lt (by omega)).mpr hs, rfl, computePeerRank_first hjump ho,
    computePeerRank_second hjump ho⟩

theorem mem_groupRanks_of_rank {rank : Nat} (h : rank < k * (jump * 2)) :
    (rank, computePeerRank jump rank) ∈ groupRanks jump (k * (jump * 2)) ∨
      (computePeerRank jump rank, rank) ∈ groupRanks jump (k * (jump * 2)) := by
  obtain ⟨s, offset, ho, rfl | rfl⟩ := rank_cases hjump rank
  · have hs : s < k := (segment_lt (by omega)).mp h
    rw [computePeerRank_first hjump ho]
    exact Or.inl ((mem_groupRanks hjump).mpr ⟨s, hs, offset, ho, rfl⟩)
  · have hs : s < k := (segment_lt (show offset + jump < jump * 2 by omega)).mp (by omega)
    rw [computePeerRank_second hjump ho]
    exact Or.inr ((mem_groupRanks hjump).mpr ⟨s, hs, offset, ho, rfl⟩)

theorem nodup_groupRanks : (groupRanks jump (k * (jump * 2))).Nodup := by
  rw [groupRanks, List.nodup_flatMap]
  constructor
  · intro segStart _
    refine List.nodup_range.map fun a b hab => ?_
    exact Nat.add_left_cancel (congrArg Prod.fst hab)
  · -- Two segments have no rank in common.
    refine (List.nodup_range' (jump * 2) (by omega)).imp_of_mem fun {a b} ha hb hne => ?_
    obtain ⟨s, -, rfl⟩ := List.mem_range'.mp ha
    obtain ⟨t, -, rfl⟩ := List.mem_range'.mp hb
    intro g hg hg'
    obtain ⟨o, ho, rfl⟩ := List.mem_map.mp hg
    obtain ⟨o', ho', heq⟩ := List.mem_map.mp hg'
    have ho := List.mem_range.mp ho
    have ho' := List.mem_range.mp ho'
    have hfst : 0 + jump * 2 * t + o' = 0 + jump * 2 * s + o := congrArg Prod.fst heq
    have hst : s = t := by
      have hs : (jump * 2 * s + o) / (jump * 2) = s := by
        rw [Nat.mul_add_div (by omega), Nat.div_eq_of_lt (by omega), Nat.add_zero]
      have ht : (jump * 2 * t + o') / (jump * 2) = t := by
        rw [Nat.mul_add_div (by omega), Nat.div_eq_of_lt (by omega), Nat.add_zero]
      rw [← hs, ← ht]
      exact congrArg (· / (jump * 2)) (by omega)
    exact hne (by rw [hst])

/-- **The groups are the pairs of the formula, each listed once.** -/
theorem groups_are_pairs :
    ((groupRanks jump (k * (jump * 2))).map fun g => s(g.1, g.2)).Nodup ∧
      ∀ e, e ∈ (groupRanks jump (k * (jump * 2))).map (fun g => s(g.1, g.2)) ↔
        ∃ rank < k * (jump * 2), e = s(rank, computePeerRank jump rank) := by
  constructor
  · refine List.Nodup.map_on (fun g hg g' hg' heq => ?_) (nodup_groupRanks hjump)
    obtain ⟨-, hsnd, -⟩ := group_is_pair hjump hg
    obtain ⟨-, hsnd', -⟩ := group_is_pair hjump hg'
    rcases Sym2.eq_iff.mp heq with ⟨h₁, h₂⟩ | ⟨h₁, h₂⟩
    · exact Prod.ext h₁ h₂
    · omega
  · intro e
    rw [List.mem_map]
    constructor
    · rintro ⟨g, hg, rfl⟩
      obtain ⟨hlt, -, hpeer, -⟩ := group_is_pair hjump hg
      exact ⟨g.1, hlt, by rw [hpeer]⟩
    · rintro ⟨rank, hrank, rfl⟩
      rcases mem_groupRanks_of_rank hjump hrank with h | h
      · exact ⟨_, h, rfl⟩
      · exact ⟨_, h, Sym2.eq_swap⟩

end Matching

/-- A loop that keeps the last match ends with the only one there is. -/
theorem foldl_last_match {α : Type} (p : α → Prop) [DecidablePred p] {a : α} :
    ∀ {xs : List α} {mine : Option α}, (∀ x ∈ xs, p x → x = a) →
      (a ∈ xs ∧ p a) ∨ mine = some a →
      xs.foldl (fun mine x => if p x then some x else mine) mine = some a
  | [], mine, _, h => h.resolve_left fun hmem => List.not_mem_nil hmem.1
  | x :: xs, mine, honly, h => by
      rw [List.foldl_cons]
      refine foldl_last_match p (fun y hy => honly y (List.mem_cons_of_mem x hy)) ?_
      by_cases hx : p x
      · rw [if_pos hx, honly x List.mem_cons_self hx]
        exact Or.inr rfl
      · rw [if_neg hx]
        refine h.imp (fun hmem => ⟨?_, hmem.2⟩) id
        exact (List.mem_cons.mp hmem.1).resolve_left fun heq => hx (heq ▸ hmem.2)

/-- The group of a rank is the pair that it is in. -/
theorem createGroup_ok {jump k rank : Nat} (hjump : 1 ≤ jump) (h : rank < k * (jump * 2)) :
    ∃ g, createGroup jump (k * (jump * 2)) rank = .ok g ∧
      s(g.1, g.2) = s(rank, computePeerRank jump rank) := by
  obtain ⟨g, hg, hin, hpair⟩ : ∃ g ∈ groupRanks jump (k * (jump * 2)),
      (rank = g.1 ∨ rank = g.2) ∧ s(g.1, g.2) = s(rank, computePeerRank jump rank) := by
    rcases mem_groupRanks_of_rank hjump h with hmem | hmem
    · exact ⟨_, hmem, Or.inl rfl, rfl⟩
    · exact ⟨_, hmem, Or.inr rfl, Sym2.eq_swap⟩
  have honly : ∀ g' ∈ groupRanks jump (k * (jump * 2)), rank = g'.1 ∨ rank = g'.2 → g' = g := by
    intro g' hg' hin'
    obtain ⟨-, hsnd, hp, hp'⟩ := group_is_pair hjump hg
    obtain ⟨-, hsnd', hq, hq'⟩ := group_is_pair hjump hg'
    have hfst : g'.1 = g.1 := by
      rcases hin with hin | hin <;> rcases hin' with hin' | hin'
      · omega
      · rw [← hin', hin, hp] at hq'
        omega
      · rw [← hin', hin, hp'] at hq
        omega
      · omega
    exact Prod.ext hfst (by omega)
  refine ⟨g, ?_, hpair⟩
  have hfold : (groupRanks jump (k * (jump * 2))).foldl
      (fun mine group => if rank = group.1 ∨ rank = group.2 then some group else mine) none =
      some g :=
    foldl_last_match (fun g : Nat × Nat => rank = g.1 ∨ rank = g.2) honly (Or.inl ⟨hg, hin⟩)
  simp only [createGroup, hfold]

/-! ## The topology -/

/-- **The map of the topology is the formula**, for whichever ranks checkpoint together. -/
theorem replicationPeers_eq {worldSize jump : Nat} (processGroup : Option (List Nat))
    (hworld : 1 < worldSize) :
    let peers := (checkpointTopology worldSize processGroup false jump).replicationPeers
    (peers.map Prod.fst).Nodup ∧ ∀ name peer, (name, peer) ∈ peers ↔
      ∃ rank ∈ processGroup.getD (List.range worldSize),
        name = Text.str (rank : Nat) ∧ peer = computePeerRank jump rank := by
  have hpeers : (checkpointTopology worldSize processGroup false jump).replicationPeers =
      Dict.ofItems ((processGroup.getD (List.range worldSize)).map fun (rank : Nat) =>
        (Text.str rank, computePeerRank jump rank)) := if_pos ⟨rfl, hworld⟩
  intro peers
  change peers = _ at hpeers
  rw [hpeers]
  refine ⟨Dict.nodup_keys_update List.nodup_nil, fun name peer => ?_⟩
  rw [Dict.mem_ofItems_iff, List.mem_map]
  · constructor
    · rintro ⟨rank, hrank, heq⟩
      exact ⟨rank, hrank, (congrArg Prod.fst heq).symm, (congrArg Prod.snd heq).symm⟩
    · rintro ⟨rank, hrank, rfl, rfl⟩
      exact ⟨rank, hrank, rfl⟩
  · intro m hm n hn hkey
    obtain ⟨rank, -, rfl⟩ := List.mem_map.mp hm
    obtain ⟨rank', -, rfl⟩ := List.mem_map.mp hn
    have heq : rank = rank' := Int.ofNat.inj (Text.str_injective hkey)
    rw [heq]

/-- **Replica pairing.**  For every jump and every number of ranks that fills
whole segments, the formula is a matching of the ranks without fixed point, and
the process groups and the map of the topology are its pairs. -/
theorem pairing_agrees {jump worldSize : Nat} (hjump : 1 ≤ jump) (hworld : 0 < worldSize)
    (hsegments : 2 * jump ∣ worldSize) :
    (∀ rank < worldSize, computePeerRank jump rank < worldSize ∧
      computePeerRank jump rank ≠ rank ∧
      computePeerRank jump (computePeerRank jump rank) = rank) ∧
    (((groupRanks jump worldSize).map fun g => s(g.1, g.2)).Nodup ∧
      ∀ e, e ∈ (groupRanks jump worldSize).map (fun g => s(g.1, g.2)) ↔
        ∃ rank < worldSize, e = s(rank, computePeerRank jump rank)) ∧
    (∀ rank < worldSize, ∃ g, createGroup jump worldSize rank = .ok g ∧
      s(g.1, g.2) = s(rank, computePeerRank jump rank)) ∧
    ∀ processGroup,
      let peers := (checkpointTopology worldSize processGroup false jump).replicationPeers
      (peers.map Prod.fst).Nodup ∧ ∀ name peer, (name, peer) ∈ peers ↔
        ∃ rank ∈ processGroup.getD (List.range worldSize),
          name = Text.str (rank : Nat) ∧ peer = computePeerRank jump rank := by
  obtain ⟨k, rfl⟩ := hsegments
  have hk : 2 * jump * k = k * (jump * 2) := by rw [Nat.mul_comm 2 jump, Nat.mul_comm]
  rw [hk] at hworld ⊢
  refine ⟨fun rank h => computePeerRank_matching hjump h, groups_are_pairs hjump,
    fun rank h => createGroup_ok hjump h, fun processGroup => replicationPeers_eq processGroup ?_⟩
  have hpos : 0 < k := Nat.pos_of_mul_pos_right hworld
  have hmul := Nat.mul_le_mul_right (jump * 2) (Nat.succ_le_of_lt hpos)
  omega

/-- Two segments of four ranks, a jump of two. -/
theorem pairing_agrees_sample :
    (groupRanks 2 8 = [(0, 2), (1, 3), (4, 6), (5, 7)] ∧ checkJump 2 8 = .ok ()) ∧
      computePeerRank 2 (computePeerRank 2 5) = 5 :=
  ⟨⟨by decide, rfl⟩,
    ((pairing_agrees (show 1 ≤ 2 by decide) (show 0 < 8 by decide) (by decide)).1 5
      (by decide)).2.2⟩

end LmResiliency.Checkpointing
