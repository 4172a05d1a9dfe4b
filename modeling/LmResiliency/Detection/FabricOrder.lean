/-
# FabricOrder — a dump whose blocks and links come in another order

The headers of two such dumps are the same but for their order, and so are the
links of the switches.  Switches, neighbours and leaves are sets of what is there,
so they are the same.  The leaf of a host is what the last link of its adapters
says: it is settled when they are all linked to one switch.

The main result is `reordered_read`; of a host that is not settled it says
nothing.
-/
import LmResiliency.Detection.FabricPaths

namespace LmResiliency.Detection.IbTopology

open Fabric

/-! ## Blocks -/

/-- A header and the lines under it. -/
structure Block where
  head : List Char
  body : List (List Char)
deriving DecidableEq

/-- The lines before the first header, and the blocks. -/
def blocksOf : List (List Char) → List (List Char) × List Block
  | [] => ([], [])
  | line :: lines =>
      if (header (Text.stripChars line)).isSome then
        ([], ⟨line, (blocksOf lines).1⟩ :: (blocksOf lines).2)
      else (line :: (blocksOf lines).1, (blocksOf lines).2)

/-- The headers of a block: there is one. -/
def Block.headers (block : Block) : List Header :=
  (header (Text.stripChars block.head)).toList

/-- The links of a block. -/
def Block.links (block : Block) : List (String × String) :=
  let current := (header (Text.stripChars block.head)).map fun h => (h.1, h.2.1)
  block.body.flatMap fun line => (linkOf current line).toList

/-- The lines of a block, in another order. -/
structure SameBlock (b c : Block) : Prop where
  head : b.head = c.head
  body : b.body.Perm c.body

/-- The blocks of a text in another order, and the lines under each header too. -/
def Reordered (text text' : String) : Prop :=
  ∃ blocks, ((blocksOf (splitLines [] text.toList)).2).Perm blocks ∧
    List.Forall₂ SameBlock blocks (blocksOf (splitLines [] text'.toList)).2

/-! ## The headers and the links, block by block -/

theorem headersOf_eq (lines : List (List Char)) :
    headersOf lines = (blocksOf lines).2.flatMap Block.headers := by
  induction lines with
  | nil => rfl
  | cons line lines ih =>
      rw [headersOf, List.filterMap_cons, ← headersOf, ih, blocksOf]
      cases hheader : header (Text.stripChars line) with
      | none => simp
      | some h => simp [Block.headers, hheader]

theorem linksOf_eq (current : Option (BlockKind × String)) (lines : List (List Char)) :
    linksOf current lines =
      (blocksOf lines).1.flatMap (fun line => (linkOf current line).toList) ++
        (blocksOf lines).2.flatMap Block.links := by
  induction lines generalizing current with
  | nil => rfl
  | cons line lines ih =>
      rw [linksOf, blocksOf]
      cases hheader : header (Text.stripChars line) with
      | none => simp [ih, List.append_assoc]
      | some h => simp [ih, Block.links, hheader]

theorem linksOf_none (lines : List (List Char)) :
    linksOf none lines = (blocksOf lines).2.flatMap Block.links := by
  have hbefore : (blocksOf lines).1.flatMap (fun line => (linkOf none line).toList) = [] :=
    List.flatMap_eq_nil_iff.mpr fun line _ => rfl
  rw [linksOf_eq, hbefore, List.nil_append]

/-- What is collected block by block is the same but for the order. -/
theorem flatMap_perm {α : Type} {f : Block → List α}
    (hf : ∀ b c, SameBlock b c → (f b).Perm (f c)) {blocks mid blocks' : List Block}
    (hperm : blocks.Perm mid) (hsame : List.Forall₂ SameBlock mid blocks') :
    (blocks.flatMap f).Perm (blocks'.flatMap f) := by
  refine (hperm.flatMap_right f).trans ?_
  clear hperm
  induction hsame with
  | nil => exact .nil
  | cons h _ ih =>
      rw [List.flatMap_cons, List.flatMap_cons]
      exact (hf _ _ h).append ih

theorem SameBlock.headers {b c : Block} (h : SameBlock b c) : b.headers.Perm c.headers := by
  rw [Block.headers, Block.headers, h.head]

theorem SameBlock.links {b c : Block} (h : SameBlock b c) : b.links.Perm c.links := by
  rw [Block.links, Block.links, h.head]
  exact h.body.flatMap_right _

/-- The headers and the links of a reordered dump. -/
theorem Reordered.perm {text text' : String} (h : Reordered text text') :
    (headersOf (splitLines [] text.toList)).Perm (headersOf (splitLines [] text'.toList)) ∧
      (linksOf none (splitLines [] text.toList)).Perm
        (linksOf none (splitLines [] text'.toList)) := by
  obtain ⟨mid, hperm, hsame⟩ := h
  rw [headersOf_eq, headersOf_eq, linksOf_none, linksOf_none]
  exact ⟨flatMap_perm (fun _ _ => SameBlock.headers) hperm hsame,
    flatMap_perm (fun _ _ => SameBlock.links) hperm hsame⟩

/-! ## What the fabric has, by headers and links -/

section Members

variable (text : String)

/-- The headers of a text. -/
def headers : List Header := headersOf (splitLines [] text.toList)

/-- The links of the switches of a text. -/
def links : List (String × String) := linksOf none (splitLines [] text.toList)

/-- The fabric after the first pass. -/
def known : Fabric := (headers text).foldl addHeader Fabric.empty

theorem parse_eq : parseIbnetdiscover text =
    (links text).foldl (fun fabric l => fabric.addLink l.1 l.2) (known text) := by
  rw [parseIbnetdiscover, ofLines_eq]
  rfl

variable {text} {u v : String}

theorem mem_switchGuids :
    u ∈ (parseIbnetdiscover text).switchGuids ↔
      ∃ desc, (BlockKind.switch, u, desc) ∈ headers text := by
  rw [parse_eq, foldl_addLink_same.2, known, mem_switchGuids_foldl]
  exact or_iff_right List.not_mem_nil

theorem caHost_known :
    (known text).caHost = Dict.ofItems ((headers text).filterMap adapter) := caHost_foldl

/-- The adapters of a text, each with a host that it is described under. -/
def Described (text guid host : String) : Prop :=
  (guid, host) ∈ (headers text).filterMap adapter

theorem described_of_lookup {guid host : String}
    (h : (known text).caHost.lookup guid = some host) : Described text guid host := by
  rw [caHost_known] at h
  exact (Dict.mem_of_mem_update (Dict.mem_of_lookup h)).resolve_right List.not_mem_nil

theorem Described.lookup {guid host : String} (h : Described text guid host) :
    ∃ host', (known text).caHost.lookup guid = some host' := by
  obtain ⟨⟨guid', host'⟩, hin, rfl⟩ := Dict.mem_update_of_key (d := []) h
  rw [caHost_known]
  exact Option.ne_none_iff_exists'.mp (Dict.lookup_ne_none hin)

theorem isSome_caHost {guid : String} :
    ((known text).caHost.lookup guid).isSome ↔ ∃ host, Described text guid host := by
  rw [Option.isSome_iff_exists]
  constructor
  · rintro ⟨host, h⟩
    exact ⟨host, described_of_lookup h⟩
  · rintro ⟨host, h⟩
    exact h.lookup

theorem mem_leafGuids :
    u ∈ (parseIbnetdiscover text).leafGuids ↔
      ∃ guid host, (u, guid) ∈ links text ∧ Described text guid host := by
  have hfirst : (known text).leafGuids = [] := leaves_foldl_addHeader.1
  rw [parse_eq, mem_leafGuids_foldl, hfirst, or_iff_right List.not_mem_nil]
  simp only [attachment, Option.isSome_map, isSome_caHost]
  constructor
  · rintro ⟨⟨u', guid⟩, hl, rfl, host, h⟩
    exact ⟨guid, host, hl, h⟩
  · rintro ⟨guid, host, hl, h⟩
    exact ⟨(u, guid), hl, rfl, host, h⟩

/-- A link between two switches. -/
def Tied (text u v : String) : Prop :=
  (u, v) ∈ links text ∧ (¬∃ host, Described text v host) ∧
    ∃ desc, (BlockKind.switch, v, desc) ∈ headers text

theorem ties_known {l : String × String} :
    l ∈ links text ∧ ties (known text) l = true ↔ Tied text l.1 l.2 := by
  have hswitch : l.2 ∈ (known text).switchGuids ↔
      ∃ desc, (BlockKind.switch, l.2, desc) ∈ headers text := by
    rw [known, mem_switchGuids_foldl]
    exact or_iff_right List.not_mem_nil
  rw [Tied, ties, Bool.and_eq_true, decide_eq_true_iff, hswitch, ← isSome_caHost,
    Bool.not_eq_true, Option.isSome_eq_false_iff]

theorem mem_adjacent :
    v ∈ (parseIbnetdiscover text).adjacent u ↔ Tied text u v ∨ Tied text v u := by
  have hfirst : (known text).adjacent u = [] := adjacency_foldl_addHeader (fun _ => rfl) u
  rw [parse_eq, mem_adjacent_foldl, hfirst, or_iff_right List.not_mem_nil]
  constructor
  · rintro ⟨l, hl, hties, rfl | rfl⟩
    · exact Or.inl (ties_known.mp ⟨hl, hties⟩)
    · exact Or.inr (ties_known.mp ⟨hl, hties⟩)
  · rintro (h | h)
    · have h' := ties_known (l := (u, v)).mpr h
      exact ⟨(u, v), h'.1, h'.2, Or.inl rfl⟩
    · have h' := ties_known (l := (v, u)).mpr h
      exact ⟨(v, u), h'.1, h'.2, Or.inr rfl⟩

/-- The switches that have a place in the adjacency. -/
def placed (fabric : Fabric) (u : String) : Prop := (fabric.adjacency.lookup u).isSome

theorem placed_addNeighbour {fabric : Fabric} {x y : String} :
    placed (fabric.addNeighbour x y) u ↔ placed fabric u ∨ u = x := by
  rw [placed, placed, addNeighbour]
  dsimp only
  rw [Dict.lookup_put]
  by_cases hx : u = x
  · simp [hx]
  · simp [hx]

theorem placed_foldl_addHeader {hs : List Header} {fabric : Fabric} :
    placed (hs.foldl addHeader fabric) u ↔
      placed fabric u ∨ ∃ desc, (BlockKind.switch, u, desc) ∈ hs := by
  induction hs generalizing fabric with
  | nil => simp
  | cons h hs ih =>
      rw [List.foldl_cons, ih]
      obtain ⟨kind, guid, desc⟩ := h
      cases kind with
      | switch =>
          have hhere : placed (fabric.addHeader (.switch, guid, desc)) u ↔
              placed fabric u ∨ u = guid := by
            rw [placed, placed, addHeader]
            dsimp only
            split
            · rename_i hguid
              refine (or_iff_left_of_imp ?_).symm
              rintro rfl
              exact hguid
            · rw [List.lookup_append, Option.isSome_or, Bool.or_eq_true, List.lookup_cons]
              cases hu : u == guid with
              | true => simp [beq_iff_eq.mp hu]
              | false => simp [beq_eq_false_iff_ne.mp hu]
          rw [hhere, or_assoc]
          refine or_congr_right ?_
          constructor
          · rintro (rfl | ⟨d, h⟩)
            · exact ⟨desc, List.mem_cons_self⟩
            · exact ⟨d, List.mem_cons_of_mem _ h⟩
          · rintro ⟨d, h⟩
            rcases List.mem_cons.mp h with heq | h
            · exact Or.inl (Prod.mk.inj (Prod.mk.inj heq).2).1
            · exact Or.inr ⟨d, h⟩
      | ca =>
          refine or_congr Iff.rfl (exists_congr fun d => ?_)
          simp

/-- The keys of the adjacency are the switches. -/
theorem placed_iff : placed (parseIbnetdiscover text) u ↔
    u ∈ (parseIbnetdiscover text).switchGuids := by
  have hstep : ∀ {fabric : Fabric} {ls : List (String × String)},
      (∀ l ∈ ls, placed fabric l.1) → (∀ w ∈ fabric.switchGuids, placed fabric w) →
      (placed (ls.foldl (fun fabric l => fabric.addLink l.1 l.2) fabric) u ↔
        placed fabric u) := by
    intro fabric ls hfrom hto
    induction ls generalizing fabric with
    | nil => rfl
    | cons l ls ih =>
        have hhere : ∀ w, placed (fabric.addLink l.1 l.2) w ↔ placed fabric w := by
          intro w
          rw [addLink]
          split
          · rfl
          · split
            · rename_i hpeer
              rw [placed_addNeighbour, placed_addNeighbour, or_assoc]
              refine or_iff_left_of_imp ?_
              rintro (rfl | rfl)
              · exact hfrom l List.mem_cons_self
              · exact hto _ hpeer
            · rfl
        rw [List.foldl_cons, ih, hhere]
        · exact fun l' hl' => (hhere _).mpr (hfrom l' (List.mem_cons_of_mem _ hl'))
        · intro w hw
          rw [(addLink_same fabric l).2] at hw
          exact (hhere w).mpr (hto w hw)
  have hknown : ∀ w, placed (known text) w ↔
      ∃ desc, (BlockKind.switch, w, desc) ∈ headers text := by
    intro w
    rw [known, placed_foldl_addHeader]
    exact or_iff_right (by simp [placed, Fabric.empty])
  rw [mem_switchGuids, ← hknown, parse_eq]
  refine hstep (fun l hl => ?_) fun w hw => ?_
  · rcases mem_linksOf (u := l.1) (v := l.2) hl with h | h
    · cases h
    · exact (hknown l.1).mpr h
  · rw [known, mem_switchGuids_foldl] at hw
    exact (hknown w).mpr (hw.resolve_left List.not_mem_nil)

/-! ## The leaf of a host -/

/-- A link of an adapter that is described as the host's. -/
def MayAttach (text host leaf : String) : Prop :=
  ∃ guid, (leaf, guid) ∈ links text ∧ Described text guid host

/-- The host has no linked adapter; or they are all on one switch, and one of them is
described as no other host's. -/
def Settled (text host : String) : Option String → Prop
  | none => ∀ leaf, ¬MayAttach text host leaf
  | some leaf => (∀ leaf', MayAttach text host leaf' → leaf' = leaf) ∧
      ∃ guid, (leaf, guid) ∈ links text ∧ Described text guid host ∧
        ∀ other, Described text guid other → other = host

theorem nodeLeaf_eq :
    (parseIbnetdiscover text).nodeLeaf =
      Dict.ofItems ((links text).filterMap (attachment (known text))) := by
  have hfirst : (known text).nodeLeaf = [] := leaves_foldl_addHeader.2
  rw [parse_eq, nodeLeaf_foldl_addLink, hfirst]
  rfl

theorem mayAttach_of_lookup {host leaf : String}
    (h : (parseIbnetdiscover text).nodeLeaf.lookup host = some leaf) :
    MayAttach text host leaf := by
  rw [nodeLeaf_eq] at h
  have hin := (Dict.mem_of_mem_update (Dict.mem_of_lookup h)).resolve_right List.not_mem_nil
  obtain ⟨⟨u, guid⟩, hl, hatt⟩ := List.mem_filterMap.mp hin
  obtain ⟨host', hhost, heq⟩ := Option.map_eq_some_iff.mp hatt
  obtain ⟨rfl, rfl⟩ := Prod.mk.inj heq
  exact ⟨guid, hl, described_of_lookup hhost⟩

/-- **A settled host** is attached to the switch of its adapters. -/
theorem lookup_of_settled {host : String} {leaf : Option String}
    (h : Settled text host leaf) : (parseIbnetdiscover text).nodeLeaf.lookup host = leaf := by
  cases leaf with
  | none =>
      refine Option.eq_none_iff_forall_ne_some.mpr fun leaf hleaf => ?_
      exact h leaf (mayAttach_of_lookup hleaf)
  | some leaf =>
      obtain ⟨hone, guid, hl, hdesc, honly⟩ := h
      -- the adapter that has this host alone is attached, by whatever comes last
      obtain ⟨host', hhost⟩ := hdesc.lookup
      obtain rfl := honly host' (described_of_lookup hhost)
      have hitem : (host', leaf) ∈ (links text).filterMap (attachment (known text)) :=
        List.mem_filterMap.mpr ⟨(leaf, guid), hl, by rw [attachment, hhost]; rfl⟩
      obtain ⟨⟨host, leaf'⟩, hin, rfl⟩ := Dict.mem_update_of_key (d := []) hitem
      have hsome : (parseIbnetdiscover text).nodeLeaf.lookup host ≠ none := by
        rw [nodeLeaf_eq]
        exact Dict.lookup_ne_none hin
      obtain ⟨found, hfound⟩ := Option.ne_none_iff_exists'.mp hsome
      rw [hfound, hone found (mayAttach_of_lookup hfound)]

end Members

/-- **A dump is read the same in any order of its blocks and of the lines in them**: the same
switches, the same adjacency, the same leaves, and every settled host on the same leaf. -/
theorem reordered_read {text text' : String} (h : Reordered text text') :
    (∀ u, u ∈ (parseIbnetdiscover text).switchGuids ↔
        u ∈ (parseIbnetdiscover text').switchGuids) ∧
      (∀ u, ((parseIbnetdiscover text).adjacency.lookup u).isSome ↔
        ((parseIbnetdiscover text').adjacency.lookup u).isSome) ∧
      (∀ u v, v ∈ (parseIbnetdiscover text).adjacent u ↔
        v ∈ (parseIbnetdiscover text').adjacent u) ∧
      (∀ u, u ∈ (parseIbnetdiscover text).leafGuids ↔
        u ∈ (parseIbnetdiscover text').leafGuids) ∧
      ∀ host leaf, Settled text host leaf →
        (parseIbnetdiscover text).nodeLeaf.lookup host = leaf ∧
          (parseIbnetdiscover text').nodeLeaf.lookup host = leaf := by
  obtain ⟨hheaders, hlinks⟩ := h.perm
  have hdesc : ∀ guid host, Described text guid host ↔ Described text' guid host :=
    fun _ _ => (hheaders.filterMap adapter).mem_iff
  have htied : ∀ u v, Tied text u v ↔ Tied text' u v := by
    intro u v
    rw [Tied, Tied, links, links, headers, headers, hlinks.mem_iff]
    simp only [hdesc, hheaders.mem_iff]
  have hswitch : ∀ u, u ∈ (parseIbnetdiscover text).switchGuids ↔
      u ∈ (parseIbnetdiscover text').switchGuids := by
    intro u
    rw [mem_switchGuids, mem_switchGuids, headers, headers]
    simp only [hheaders.mem_iff]
  have hmay : ∀ host leaf, MayAttach text host leaf ↔ MayAttach text' host leaf := by
    intro host leaf
    rw [MayAttach, MayAttach, links, links]
    simp only [hlinks.mem_iff, hdesc]
  refine ⟨hswitch, fun u => ?_, fun u v => ?_, fun u => ?_, fun host leaf hsettled =>
    ⟨lookup_of_settled hsettled, lookup_of_settled ?_⟩⟩
  · exact placed_iff.trans ((hswitch u).trans placed_iff.symm)
  · rw [mem_adjacent, mem_adjacent, htied, htied]
  · rw [mem_leafGuids, mem_leafGuids, links, links]
    simp only [hlinks.mem_iff, hdesc]
  · cases leaf with
    | none => exact fun leaf hmay' => hsettled leaf ((hmay host leaf).mpr hmay')
    | some leaf =>
        obtain ⟨hone, guid, hl, hguid, honly⟩ := hsettled
        refine ⟨fun leaf' h' => hone leaf' ((hmay host leaf').mpr h'), guid, ?_, ?_, ?_⟩
        · exact hlinks.mem_iff.mp hl
        · exact (hdesc guid host).mp hguid
        · exact fun other h' => honly other ((hdesc guid other).mpr h')

/-- A switch and the host on it. -/
def switchFirst : String := "Switch 1 \"a\"\n[1] \"g\"\nCa 1 \"g\"  # \"n0 m\"\n"

/-- The same, with the host before. -/
def hostFirst : String := "Ca 1 \"g\"  # \"n0 m\"\nSwitch 1 \"a\"\n[1] \"g\"\n"

theorem reordered_of_swap {text text' : String} {b c : Block} {r : List Block}
    (h : (blocksOf (splitLines [] text.toList)).2 = b :: c :: r)
    (h' : (blocksOf (splitLines [] text'.toList)).2 = c :: b :: r) :
    Reordered text text' := by
  refine ⟨c :: b :: r, h ▸ .swap _ _ _, h' ▸ ?_⟩
  exact List.forall₂_same.mpr fun _ _ => ⟨rfl, .refl _⟩

theorem reordered_read_switchFirst :
    (parseIbnetdiscover switchFirst).leafGuids = ["a"] ∧
      "a" ∈ (parseIbnetdiscover hostFirst).leafGuids := by
  have hleaf : (parseIbnetdiscover switchFirst).leafGuids = ["a"] := by decide +kernel
  have hswap : Reordered switchFirst hostFirst :=
    reordered_of_swap
      (b := Block.mk "Switch 1 \"a\"".toList ["[1] \"g\"".toList])
      (c := Block.mk "Ca 1 \"g\"  # \"n0 m\"".toList []) (r := [])
      (by decide +kernel) (by decide +kernel)
  refine ⟨hleaf, ((reordered_read hswap).2.2.2.1 "a").mp ?_⟩
  rw [hleaf]
  exact List.mem_singleton.mpr rfl

/-- Two switches with an adapter each; the adapters are in one host. -/
def twoRails (first second : String) : String :=
  first ++ second ++ "Ca 1 \"g\"  # \"n0 m\"\nCa 1 \"h\"  # \"n0 k\"\n"

def railA : String := "Switch 1 \"a\"\n[1] \"g\"\n"
def railB : String := "Switch 1 \"b\"\n[1] \"h\"\n"

/-- **A host on two switches** is attached to the one that comes last. -/
theorem twoRails_attached :
    Reordered (twoRails railA railB) (twoRails railB railA) ∧
      (parseIbnetdiscover (twoRails railA railB)).nodeLeaf = [("n0", "b")] ∧
      (parseIbnetdiscover (twoRails railB railA)).nodeLeaf = [("n0", "a")] := by
  refine ⟨?_, ?_, ?_⟩
  · refine reordered_of_swap
      (b := Block.mk "Switch 1 \"a\"".toList ["[1] \"g\"".toList])
      (c := Block.mk "Switch 1 \"b\"".toList ["[1] \"h\"".toList])
      (r := [Block.mk "Ca 1 \"g\"  # \"n0 m\"".toList [],
        Block.mk "Ca 1 \"h\"  # \"n0 k\"".toList []]) ?_ ?_
    · decide +kernel
    · decide +kernel
  · decide +kernel
  · decide +kernel

end LmResiliency.Detection.IbTopology
