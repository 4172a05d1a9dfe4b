/-
# FabricPaths — the switches between two hosts of a discovered fabric

The path that is searched between two leaves is a shortest one over the switches
that were discovered, and there is none exactly when the leaves are not connected.
The first spine on it carries the pair.  A path without a spine leaves the pair to
the default spine, which no such path has.

The main result is `fabric_paths`, over every fabric that the parser makes of a
text.  Among several shortest paths the one found is not characterized.
-/
import LmResiliency.Detection.IbTopology

namespace LmResiliency.Detection

/-! ## Sorted texts -/

theorem mem_sortedTexts {texts : List String} {t : String} :
    t ∈ sortedTexts texts ↔ t ∈ texts := by
  rw [sortedTexts, List.mem_insertionSort, List.mem_dedup]

theorem pairwise_sortedTexts (texts : List String) :
    (sortedTexts texts).Pairwise (· < ·) := by
  have hle : (sortedTexts texts).Pairwise (· ≤ ·) := List.pairwise_insertionSort _ _
  have hnodup : (sortedTexts texts).Nodup :=
    (List.perm_insertionSort _ _).nodup_iff.mpr (List.nodup_dedup texts)
  exact (hle.and hnodup).imp fun ⟨h, hne⟩ => lt_of_le_of_ne h hne

theorem sortedTexts_pair {s t : String} (hne : s ≠ t) :
    sortedTexts [s, t] = [min s t, max s t] := by
  have hdedup : [s, t].dedup = [s, t] := by
    rw [List.dedup_eq_self]
    simpa using hne
  rw [sortedTexts, hdedup]
  rcases le_total s t with h | h
  · rw [min_eq_left h, max_eq_right h]
    exact List.orderedInsert_cons_of_le _ _ h
  · have hnot : ¬s ≤ t := fun h' => hne (le_antisymm h' h)
    rw [min_eq_right h, max_eq_left h]
    exact List.orderedInsert_of_not_le _ _ hnot

namespace IbTopology

open Fabric

/-! ## What every discovered fabric is like -/

/-- What holds of a fabric that was read. -/
structure Parsed (fabric : Fabric) : Prop where
  named : ∀ u ∈ fabric.switchGuids, u ≠ ""
  leaf : ∀ u ∈ fabric.leafGuids, u ∈ fabric.switchGuids
  attached : ∀ host u, fabric.nodeLeaf.lookup host = some u → u ∈ fabric.leafGuids
  adjacent : ∀ u, ∀ v ∈ fabric.adjacent u, v ∈ fabric.switchGuids

theorem quotedGuid_ne {cs rest : List Char} {guid : String}
    (h : quotedGuid cs = some (guid, rest)) : guid ≠ "" := by
  unfold quotedGuid at h
  split at h
  · cases h
  · rename_i name rest' hname hquoted
    cases h
    exact fun hempty => hname (String.ofList_eq_empty_iff.mp hempty)
  · cases h

theorem header_ne {line : List Char} {h : Header} (hh : header line = some h) : h.2.1 ≠ "" := by
  have hrest : ∀ kind cs, headerRest kind cs = some h → h.2.1 ≠ "" := by
    intro kind cs hcs
    simp only [headerRest, Option.bind_eq_bind, Option.bind_eq_some_iff] at hcs
    obtain ⟨_, -, _, -, _, -, ⟨guid, rest⟩, hguid, hout⟩ := hcs
    cases hout
    exact quotedGuid_ne hguid
  unfold header at hh
  split at hh
  · exact hrest _ _ hh
  · exact hrest _ _ hh
  · cases hh

/-- The headers of a dump name what they are about. -/
theorem headersOf_ne {lines : List (List Char)} {h : Header} (hin : h ∈ headersOf lines) :
    h.2.1 ≠ "" := by
  obtain ⟨line, -, hline⟩ := List.mem_filterMap.mp hin
  exact header_ne hline

/-- Every discovered fabric: its leaves and neighbours are switches, with names. -/
theorem parsed_ofLines (lines : List (List Char)) : Parsed (ofLines lines) := by
  rw [ofLines_eq, assemble]
  set first := (headersOf lines).foldl addHeader Fabric.empty with hfirst
  have hswitch : ∀ u, u ∈ first.switchGuids ↔
      ∃ desc, (BlockKind.switch, u, desc) ∈ headersOf lines := by
    intro u
    rw [hfirst, mem_switchGuids_foldl]
    exact or_iff_right List.not_mem_nil
  have hlink : ∀ l ∈ linksOf none lines, l.1 ∈ first.switchGuids := by
    intro l hl
    rcases mem_linksOf (u := l.1) (v := l.2) hl with h | h
    · cases h
    · exact (hswitch l.1).mpr h
  have hleaves : first.leafGuids = [] ∧ first.nodeLeaf = [] := leaves_foldl_addHeader
  refine ⟨?_, ?_, ?_, ?_⟩
  · intro u hu
    rw [foldl_addLink_same.2, hswitch] at hu
    obtain ⟨desc, hdesc⟩ := hu
    exact headersOf_ne hdesc
  · intro u hu
    rw [foldl_addLink_same.2]
    rw [mem_leafGuids_foldl, hleaves.1] at hu
    obtain ⟨l, hl, rfl, -⟩ := hu.resolve_left List.not_mem_nil
    exact hlink l hl
  · intro host u h
    rw [nodeLeaf_foldl_addLink, hleaves.2] at h
    rcases Dict.mem_of_mem_update (Dict.mem_of_lookup h) with hin | hin
    · obtain ⟨l, hl, hatt⟩ := List.mem_filterMap.mp hin
      rw [mem_leafGuids_foldl]
      refine Or.inr ⟨l, hl, ?_, by rw [hatt]; rfl⟩
      obtain ⟨host', -, heq⟩ := Option.map_eq_some_iff.mp hatt
      cases heq
      rfl
    · cases hin
  · intro u v hv
    rw [foldl_addLink_same.2]
    have hempty : first.adjacent u = [] := adjacency_foldl_addHeader (fun _ => rfl) u
    rw [mem_adjacent_foldl, hempty] at hv
    obtain ⟨l, hl, hties, rfl | rfl⟩ := hv.resolve_left List.not_mem_nil
    · exact of_decide_eq_true (Bool.and_elim_right hties)
    · exact hlink _ hl

/-! ## Paths over the switches -/

/-- A path of adjacent switches. -/
structure IsPath (fabric : Fabric) (src dst : String) (path : List String) : Prop where
  switches : ∀ u ∈ path, u ∈ fabric.switchGuids
  adjacent : path.IsChain fun u v => v ∈ fabric.adjacent u
  src : path.head? = some src
  dst : path.getLast? = some dst

/-- A path of the least length; or nothing, where the two are not connected. -/
structure IsShortest (fabric : Fabric) (src dst : String) (path : List String) : Prop where
  isPath : path ≠ [] → IsPath fabric src dst path
  least : ∀ other, IsPath fabric src dst other → path.length ≤ other.length
  empty : path = [] ↔ ¬∃ other, IsPath fabric src dst other

variable {fabric : Fabric}

theorem switches_of_chain (hp : Parsed fabric) {path : List String} {src : String}
    (hsrc : src ∈ fabric.switchGuids) (hhead : path.head? = some src)
    (hchain : path.IsChain fun u v => v ∈ fabric.adjacent u) :
    ∀ u ∈ path, u ∈ fabric.switchGuids := by
  induction path generalizing src with
  | nil => cases hhead
  | cons v path ih =>
      obtain rfl : v = src := Option.some.inj hhead
      intro u hu
      rcases List.mem_cons.mp hu with rfl | hu
      · exact hsrc
      · cases path with
        | nil => cases hu
        | cons w path =>
            rw [List.isChain_cons_cons] at hchain
            exact ih (hp.adjacent v w hchain.1) rfl hchain.2 u hu

/-- The paths that are searched are the paths over the switches. -/
theorem isPath_iff (hp : Parsed fabric) {src dst : String} (hsrc : src ∈ fabric.switchGuids)
    {path : List String} :
    Bfs.IsPath (fun u => sortedTexts (fabric.adjacent u)) src dst path ↔
      IsPath fabric src dst path := by
  constructor
  · intro h
    have hchain : path.IsChain fun u v => v ∈ fabric.adjacent u :=
      h.chain.imp fun _ _ hv => mem_sortedTexts.mp hv
    exact ⟨switches_of_chain hp hsrc h.head hchain, hchain, h.head, h.last⟩
  · intro h
    exact ⟨h.adjacent.imp fun _ _ hv => mem_sortedTexts.mpr hv, h.src, h.dst⟩

/-- The search finds a shortest path, where there is one. -/
theorem isShortest_shortestPath (hp : Parsed fabric) {src : String} (dst : String)
    (hsrc : src ∈ fabric.switchGuids) :
    IsShortest fabric src dst (fabric.shortestPath src dst) := by
  have hclosed : Bfs.Closed (fun u => sortedTexts (fabric.adjacent u)) src
      (fabric.nodes src) := by
    refine ⟨List.mem_cons_self, fun u _ v hv => List.mem_cons_of_mem _ ?_⟩
    have hv' : v ∈ fabric.adjacent u := mem_sortedTexts.mp hv
    rw [Fabric.adjacent, Dict.get] at hv'
    cases hlookup : fabric.adjacency.lookup u with
    | none =>
        rw [hlookup] at hv'
        cases hv'
    | some vs =>
        rw [hlookup] at hv'
        exact List.mem_flatMap.mpr ⟨(u, vs), Dict.mem_of_lookup hlookup, hv'⟩
  obtain ⟨hpath, hempty⟩ := Bfs.shortestPath_spec hclosed dst
  refine ⟨fun hne => (isPath_iff hp hsrc).mp (hpath hne).1, fun other h => ?_, ?_⟩
  · by_cases hnil : fabric.shortestPath src dst = []
    · rw [hnil]
      exact Nat.zero_le _
    · exact (hpath hnil).2 other ((isPath_iff hp hsrc).mpr h)
  · exact hempty.trans (not_congr (exists_congr fun _ => isPath_iff hp hsrc))

/-! ## The spine of a pair of leaves -/

theorem mem_pairs {texts : List String} (h : texts.Pairwise (· < ·)) {s t : String} :
    (s, t) ∈ pairs texts ↔ s ∈ texts ∧ t ∈ texts ∧ s < t := by
  induction texts with
  | nil => simp [pairs]
  | cons u texts ih =>
      rw [List.pairwise_cons] at h
      rw [pairs, List.mem_append, List.mem_map, ih h.2, List.mem_cons, List.mem_cons]
      constructor
      · rintro (⟨w, hw, heq⟩ | ⟨hs, ht, hlt⟩)
        · obtain ⟨rfl, rfl⟩ := Prod.mk.inj heq
          exact ⟨Or.inl rfl, Or.inr hw, h.1 _ hw⟩
        · exact ⟨Or.inr hs, Or.inr ht, hlt⟩
      · rintro ⟨rfl | hs, rfl | ht, hlt⟩
        · exact absurd hlt (lt_irrefl _)
        · exact Or.inl ⟨t, ht, rfl⟩
        · exact absurd (h.1 s hs) (lt_asymm hlt)
        · exact Or.inr ⟨hs, ht, hlt⟩

/-- The first spine on the path from one leaf to the other. -/
def spineOnPath (fabric : Fabric) (src dst : String) : Option String :=
  ((fabric.shortestPath src dst).filter (· ∈ fabric.spineGuids)).head?

/-- **The route of two leaves** is the first spine on the path between them. -/
theorem lookup_spineRoute {src dst : String} (hsrc : src ∈ fabric.leafGuids)
    (hdst : dst ∈ fabric.leafGuids) (hlt : src < dst) :
    fabric.toTopology.spineRoute.lookup s(src, dst) = spineOnPath fabric src dst := by
  have hsorted := pairwise_sortedTexts fabric.leafGuids
  -- a set of two leaves is the key of one pair only, the one in order
  have hpair : ∀ m ∈ (pairs (sortedTexts fabric.leafGuids)).filterMap fabric.routeOf,
      ∃ x y spine, x < y ∧ m = (s(x, y), spine) ∧ spineOnPath fabric x y = some spine := by
    intro m hm
    obtain ⟨⟨x, y⟩, hxy, hroute⟩ := List.mem_filterMap.mp hm
    obtain ⟨spine, hspine, rfl⟩ := Option.map_eq_some_iff.mp hroute
    exact ⟨x, y, spine, ((mem_pairs hsorted).mp hxy).2.2, rfl, hspine⟩
  have hsame : ∀ {x y x' y' : String}, x < y → x' < y' → s(x, y) = s(x', y') →
      x = x' ∧ y = y' := by
    intro x y x' y' h h' heq
    rcases Sym2.eq_iff.mp heq with heq | ⟨rfl, rfl⟩
    · exact heq
    · exact absurd h (lt_asymm h')
  have hagree : ∀ m ∈ (pairs (sortedTexts fabric.leafGuids)).filterMap fabric.routeOf,
      ∀ n ∈ (pairs (sortedTexts fabric.leafGuids)).filterMap fabric.routeOf,
      m.1 = n.1 → m = n := by
    intro m hm n hn hkey
    obtain ⟨x, y, spine, hxy, rfl, hspine⟩ := hpair m hm
    obtain ⟨x', y', spine', hxy', rfl, hspine'⟩ := hpair n hn
    obtain ⟨rfl, rfl⟩ := hsame hxy hxy' hkey
    rw [Option.some.inj (hspine.symm.trans hspine')]
  refine Option.ext fun spine => ?_
  rw [toTopology]
  dsimp only
  rw [Dict.lookup_ofItems hagree]
  constructor
  · intro hm
    obtain ⟨x, y, spine', hxy, heq, hspine⟩ := hpair _ hm
    cases (Prod.mk.inj heq).2
    obtain ⟨rfl, rfl⟩ := hsame hlt hxy (Prod.mk.inj heq).1
    exact hspine
  · intro hspine
    refine List.mem_filterMap.mpr ⟨(src, dst), ?_, Option.map_eq_some_iff.mpr ⟨_, hspine, rfl⟩⟩
    exact (mem_pairs hsorted).mpr ⟨mem_sortedTexts.mpr hsrc, mem_sortedTexts.mpr hdst, hlt⟩

/-- The default spine is a spine, or it names no switch. -/
theorem defaultSpine_of (hp : Parsed fabric) :
    fabric.toTopology.defaultSpine ∈ fabric.spineGuids ∨
      fabric.toTopology.defaultSpine ∉ fabric.switchGuids := by
  rw [toTopology]
  dsimp only
  cases hspines : sortedTexts fabric.spineGuids with
  | nil => exact Or.inr fun hin => hp.named _ hin rfl
  | cons spine spines =>
      refine Or.inl (mem_sortedTexts.mp ?_)
      rw [hspines]
      exact List.mem_cons_self

/-- The switches that are reported for two leaves. -/
theorem switchesOnPath_pair (topology : FabricTopology) {a b la lb : String}
    (ha : topology.nodeLeaf.lookup a = some la) (hb : topology.nodeLeaf.lookup b = some lb)
    (hne : la ≠ lb) :
    ∃ switches, topology.switchesOnPath [a, b] = .ok switches ∧
      ∀ u, u ∈ switches ↔
        u = la ∨ u = lb ∨ u = topology.spine (min la lb) (max la lb) := by
  have hleaves : [a, b].mapM topology.leafOf = .ok [la, lb] := by
    have hla : topology.leafOf a = .ok la := by rw [FabricTopology.leafOf, ha]
    have hlb : topology.leafOf b = .ok lb := by rw [FabricTopology.leafOf, hb]
    simp [List.mapM_cons, hla, hlb]
    rfl
  refine ⟨_, by rw [FabricTopology.switchesOnPath, hleaves]; rfl, fun u => ?_⟩
  rw [List.mem_dedup, List.mem_append, mem_sortedTexts, sortedTexts_pair hne]
  simp [FabricTopology.spinesBetween, or_assoc]

/-- The path between two leaves has both of them, or it is empty. -/
theorem IsPath.ends {path : List String} {src dst : String} (h : IsPath fabric src dst path) :
    src ∈ path ∧ dst ∈ path :=
  ⟨List.mem_of_mem_head? h.src, List.mem_of_mem_getLast? h.dst⟩

/-- **The switches between two leaves** all lie on the path exactly when a spine does. -/
theorem reported_on_path (hp : Parsed fabric) {src dst : String}
    (hsrc : src ∈ fabric.leafGuids) (hdst : dst ∈ fabric.leafGuids) (hlt : src < dst) :
    (src ∈ fabric.shortestPath src dst ∧ dst ∈ fabric.shortestPath src dst ∧
        fabric.toTopology.spine src dst ∈ fabric.shortestPath src dst) ↔
      ∃ u ∈ fabric.shortestPath src dst, u ∈ fabric.spineGuids := by
  have hshortest := isShortest_shortestPath hp dst (hp.leaf src hsrc)
  rw [FabricTopology.spine, lookup_spineRoute hsrc hdst hlt]
  cases hspine : spineOnPath fabric src dst with
  | some spine =>
      have hon : spine ∈ fabric.shortestPath src dst ∧ spine ∈ fabric.spineGuids := by
        have hmem := List.mem_filter.mp (List.mem_of_mem_head? hspine)
        exact ⟨hmem.1, of_decide_eq_true hmem.2⟩
      have hpath := hshortest.isPath (List.ne_nil_of_mem hon.1)
      exact iff_of_true ⟨hpath.ends.1, hpath.ends.2, hon.1⟩ ⟨spine, hon⟩
  | none =>
      have hnone : ∀ u ∈ fabric.shortestPath src dst, u ∉ fabric.spineGuids := by
        intro u hu hin
        rw [spineOnPath, List.head?_eq_none_iff, List.filter_eq_nil_iff] at hspine
        exact hspine u hu (decide_eq_true hin)
      refine iff_of_false ?_ fun ⟨u, hu, hin⟩ => hnone u hu hin
      rintro ⟨hhead, -, hdefault⟩
      rw [Option.getD_none] at hdefault
      rcases defaultSpine_of hp with hin | hnot
      · exact hnone _ hdefault hin
      · exact hnot ((hshortest.isPath (List.ne_nil_of_mem hhead)).switches _ hdefault)

/-- **The paths of a discovered fabric.**  Between the leaves of two hosts the search finds a
shortest path of adjacent switches, or nothing exactly when there is no path.  The switches
that are reported are the two leaves and one more, the first spine of the path; they all lie
on the path exactly when a spine does, and otherwise the third one is the default spine. -/
theorem fabric_paths (text : String) {a b la lb : String}
    (ha : (parseIbnetdiscover text).nodeLeaf.lookup a = some la)
    (hb : (parseIbnetdiscover text).nodeLeaf.lookup b = some lb) (hne : la ≠ lb) :
    IsShortest (parseIbnetdiscover text) la lb
        ((parseIbnetdiscover text).shortestPath la lb) ∧
      ∃ switches,
        (parseIbnetdiscover text).toTopology.switchesOnPath [a, b] = .ok switches ∧
        (∀ u, u ∈ switches ↔ u = la ∨ u = lb ∨
          u = (spineOnPath (parseIbnetdiscover text) (min la lb) (max la lb)).getD
            (parseIbnetdiscover text).toTopology.defaultSpine) ∧
        ((∀ u ∈ switches,
            u ∈ (parseIbnetdiscover text).shortestPath (min la lb) (max la lb)) ↔
          ∃ u ∈ (parseIbnetdiscover text).shortestPath (min la lb) (max la lb),
            u ∈ (parseIbnetdiscover text).spineGuids) := by
  have hp : Parsed (parseIbnetdiscover text) := parsed_ofLines _
  have hla := hp.attached a la ha
  have hlb := hp.attached b lb hb
  have hlt : min la lb < max la lb := min_lt_max.mpr hne
  have hmin : min la lb ∈ (parseIbnetdiscover text).leafGuids := by
    rcases min_choice la lb with h | h <;> rw [h] <;> assumption
  have hmax : max la lb ∈ (parseIbnetdiscover text).leafGuids := by
    rcases max_choice la lb with h | h <;> rw [h] <;> assumption
  obtain ⟨switches, hswitches, hmem⟩ := switchesOnPath_pair
    (parseIbnetdiscover text).toTopology ha hb hne
  have hspine := lookup_spineRoute hmin hmax hlt
  refine ⟨isShortest_shortestPath hp lb (hp.leaf la hla), switches, hswitches, ?_, ?_⟩
  · intro u
    rw [hmem, FabricTopology.spine, hspine]
  · rw [← reported_on_path hp hmin hmax hlt]
    have hboth : ∀ P : String → Prop, (P la ∧ P lb) ↔ (P (min la lb) ∧ P (max la lb)) := by
      intro P
      rcases le_total la lb with h | h
      · rw [min_eq_left h, max_eq_right h]
      · rw [min_eq_right h, max_eq_left h, and_comm]
    rw [← and_assoc,
      ← hboth (· ∈ (parseIbnetdiscover text).shortestPath (min la lb) (max la lb)), and_assoc]
    simp only [hmem, forall_eq_or_imp, forall_eq]

/-- Two leaves under one spine. -/
def twoTiers : String :=
  "Switch 2 \"a\"\n[1] \"g\"\n[2] \"s\"\nSwitch 2 \"b\"\n[1] \"h\"\n[2] \"s\"\n" ++
    "Switch 2 \"s\"\n[1] \"a\"\n[2] \"b\"\nCa 1 \"g\"\nCa 1 \"h\"\n"

theorem fabric_paths_twoTiers :
    (parseIbnetdiscover twoTiers).shortestPath "a" "b" = ["a", "s", "b"] ∧
      IsShortest (parseIbnetdiscover twoTiers) "a" "b" ["a", "s", "b"] := by
  have hpath : (parseIbnetdiscover twoTiers).shortestPath "a" "b" = ["a", "s", "b"] := by
    decide +kernel
  refine ⟨hpath, hpath ▸ (fabric_paths twoTiers (a := "g") (b := "h") ?_ ?_ ?_).1⟩
  · decide +kernel
  · decide +kernel
  · decide

/-- The two leaves are linked to each other, and a third switch to none of them. -/
def directLink : String :=
  "Switch 2 \"a\"\n[1] \"g\"\n[2] \"b\"\nSwitch 2 \"b\"\n[1] \"h\"\n[2] \"a\"\n" ++
    "Switch 2 \"s\"\nCa 1 \"g\"\nCa 1 \"h\"\n"

/-- Of two leaves that are linked directly a switch is reported that is on no path. -/
theorem directLink_reports :
    (parseIbnetdiscover directLink).nodeLeaf.lookup "g" = some "a" ∧
      (parseIbnetdiscover directLink).nodeLeaf.lookup "h" = some "b" ∧
      (parseIbnetdiscover directLink).shortestPath "a" "b" = ["a", "b"] ∧
      (parseIbnetdiscover directLink).toTopology.switchesOnPath ["g", "h"] =
        .ok ["a", "b", "s"] := by
  refine ⟨?_, ?_, ?_, ?_⟩
  · decide +kernel
  · decide +kernel
  · decide +kernel
  · decide +kernel

end IbTopology

end LmResiliency.Detection
