/-
# IbTopology — the fabric that `ibnetdiscover` prints

`parse_ibnetdiscover` reads the text twice: first the headers, so that every
switch and every host adapter is known, then the links under each header.
`to_topology` names a spine for every pair of leaves, the first one on a shortest
path between them; a pair without one is given the default.

A Python set is the list of its members, each once.
-/
import LmResiliency.Detection.SwitchLocalizer
import LmResiliency.Lib.Bfs
import LmResiliency.Torchrun.WorkerContext

namespace LmResiliency.Detection.IbTopology

/-! ## The lines of the dump -/

/-- What a header is about. -/
inductive BlockKind where
  /-- `Switch` -/
  | switch
  /-- `Ca` -/
  | ca
deriving DecidableEq

/-- Where `str.splitlines` splits. -/
def isLineBreak (c : Char) : Bool :=
  let n := c.toNat
  (10 ≤ n && n ≤ 13) || (28 ≤ n && n ≤ 30) || n == 0x85 || n == 0x2028 || n == 0x2029

/-- `str.splitlines`, after what stands in the line already, backwards. -/
def splitLines : List Char → List Char → List (List Char)
  | [], [] => []
  | line, [] => [line.reverse]
  | line, '\r' :: '\n' :: cs => line.reverse :: splitLines [] cs
  | line, c :: cs =>
      if isLineBreak c then line.reverse :: splitLines [] cs else splitLines (c :: line) cs

/-- One or more characters of a class, and the rest. -/
def oneOrMore (p : Char → Bool) (cs : List Char) : Option (List Char) :=
  if (cs.takeWhile p).isEmpty then none else some (cs.dropWhile p)

def isDecimal (c : Char) : Bool := (Torchrun.WorkerAdapter.decimalDigit c).isSome

/-- `"([^"]*)"`, and the rest. -/
def quoted : List Char → Option (List Char × List Char)
  | '"' :: cs =>
      match cs.dropWhile (· ≠ '"') with
      | _ :: rest => some (cs.takeWhile (· ≠ '"'), rest)
      | [] => none
  | _ => none

/-- `"([^"]+)"`, and the rest. -/
def quotedGuid (cs : List Char) : Option (String × List Char) :=
  match quoted cs with
  | some ([], _) => none
  | some (guid, rest) => some (String.ofList guid, rest)
  | none => none

/-- `(?:.*?#\s*"([^"]*)")?` -/
def description : List Char → Option (List Char)
  | [] => none
  | c :: cs =>
      match if c = '#' then quoted (cs.dropWhile Text.isSpace) else none with
      | some (desc, _) => some desc
      | none => description cs

/-- A literal at the start, and the rest. -/
def literal (text : String) (cs : List Char) : Option (List Char) :=
  if text.toList.isPrefixOf cs then some (cs.drop text.toList.length) else none

/-- The part of `_HEADER` after the kind. -/
def headerRest (kind : BlockKind) (cs : List Char) :
    Option (BlockKind × String × Option (List Char)) := do
  let cs ← oneOrMore Text.isSpace cs
  let cs ← oneOrMore isDecimal cs
  let cs ← oneOrMore Text.isSpace cs
  let (guid, cs) ← quotedGuid cs
  return (kind, guid, description cs)

def header (line : List Char) : Option (BlockKind × String × Option (List Char)) :=
  match literal "Switch" line, literal "Ca" line with
  | some cs, _ => headerRest .switch cs
  | none, some cs => headerRest .ca cs
  | none, none => none

/-- `(?:\([^)]*\))?`, where the next character is no parenthesis after it. -/
def skipParenthesis : List Char → Option (List Char)
  | '(' :: cs =>
      match cs.dropWhile (· ≠ ')') with
      | _ :: rest => some rest
      | [] => none
  | cs => some cs

/-- `_LINK`: the peer. -/
def link (line : List Char) : Option String := do
  let cs ← literal "[" line
  let cs ← oneOrMore isDecimal cs
  let cs ← literal "]" cs
  let cs ← skipParenthesis cs
  let cs ← oneOrMore Text.isSpace cs
  let (peer, _) ← quotedGuid cs
  return peer

/-! ## The fabric -/

/-- `Fabric` -/
structure Fabric where
  switchGuids : List String
  caHost : List (String × String)
  nodeLeaf : List (String × String)
  adjacency : List (String × List String)
  leafGuids : List String
  switchName : List (String × String)

namespace Fabric

def empty : Fabric := ⟨[], [], [], [], [], []⟩

/-- `adjacency.get(u, ())` -/
def adjacent (fabric : Fabric) (u : String) : List String := Dict.get fabric.adjacency u

/-- `adjacency.setdefault(u, set()).add(v)` -/
def addNeighbour (fabric : Fabric) (u v : String) : Fabric :=
  { fabric with adjacency := Dict.put fabric.adjacency (u, (fabric.adjacent u).insert v) }

def spineGuids (fabric : Fabric) : List String :=
  fabric.switchGuids.filter (· ∉ fabric.leafGuids)

/-- Every node that a path from a switch can have. -/
def nodes (fabric : Fabric) (src : String) : List String :=
  src :: fabric.adjacency.flatMap Prod.snd

def shortestPath (fabric : Fabric) (src dst : String) : List String :=
  Bfs.shortestPath (fun u => sortedTexts (fabric.adjacent u)) (fabric.nodes src).length src dst

/-- The pairs of a list, the earlier one first. -/
def pairs : List String → List (String × String)
  | [] => []
  | a :: rest => rest.map (a, ·) ++ pairs rest

/-- The spine that carries a pair of leaves. -/
def routeOf (fabric : Fabric) (pair : String × String) : Option (Sym2 String × String) :=
  ((fabric.shortestPath pair.1 pair.2).filter (· ∈ fabric.spineGuids)).head?.map
    fun spine => (s(pair.1, pair.2), spine)

def toTopology (fabric : Fabric) : FabricTopology where
  nodeLeaf := fabric.nodeLeaf
  spineRoute := Dict.ofItems ((pairs (sortedTexts fabric.leafGuids)).filterMap fabric.routeOf)
  defaultSpine := (sortedTexts fabric.spineGuids).headD ""

/-! ## Reading -/

/-- A header that was recognized: its kind, the guid and the description. -/
abbrev Header : Type := BlockKind × String × Option (List Char)

/-- The host of an adapter: the first word of the description, or the guid. -/
def hostName (guid : String) (desc : Option (List Char)) : String :=
  let name := ((desc.getD []).dropWhile Text.isSpace).takeWhile (!Text.isSpace ·)
  if name = [] then guid else String.ofList name

/-- A header, in the first pass. -/
def addHeader (fabric : Fabric) : Header → Fabric
  | (.switch, guid, desc) =>
      { fabric with
        switchGuids := fabric.switchGuids.insert guid
        switchName := Dict.put fabric.switchName
          (guid, String.ofList (Text.stripChars (desc.getD [])))
        adjacency := if (fabric.adjacency.lookup guid).isSome then fabric.adjacency
          else fabric.adjacency ++ [(guid, [])] }
  | (.ca, guid, desc) =>
      { fabric with caHost := Dict.put fabric.caHost (guid, hostName guid desc) }

/-- The first pass, of one line. -/
def readHeader (fabric : Fabric) (line : List Char) : Fabric :=
  match header (Text.stripChars line) with
  | none => fabric
  | some h => fabric.addHeader h

/-- A link of a switch to a peer. -/
def addLink (fabric : Fabric) (guid peer : String) : Fabric :=
  match fabric.caHost.lookup peer with
  | some host =>
      { fabric with
        leafGuids := fabric.leafGuids.insert guid
        nodeLeaf := Dict.put fabric.nodeLeaf (host, guid) }
  | none =>
      if peer ∈ fabric.switchGuids then
        (fabric.addNeighbour guid peer).addNeighbour peer guid
      else fabric

/-- The second pass, of one line, under the header that came last. -/
def readLink (s : Option (BlockKind × String) × Fabric) (line : List Char) :
    Option (BlockKind × String) × Fabric :=
  match header (Text.stripChars line) with
  | some (kind, guid, _) => (some (kind, guid), s.2)
  | none =>
      match s.1, link (Text.stripChars line) with
      | some (.switch, guid), some peer => (s.1, s.2.addLink guid peer)
      | _, _ => s

/-- `parse_ibnetdiscover`, of the lines. -/
def ofLines (lines : List (List Char)) : Fabric :=
  (lines.foldl readLink (none, lines.foldl readHeader empty)).2

def parseIbnetdiscover (text : String) : Fabric := ofLines (splitLines [] text.toList)

end Fabric

open Fabric

/-! ## The headers and the links of a dump -/

/-- The headers, in their order. -/
def headersOf (lines : List (List Char)) : List Header :=
  lines.filterMap fun line => header (Text.stripChars line)

/-- The link that a line is, under a header. -/
def linkOf (current : Option (BlockKind × String)) (line : List Char) :
    Option (String × String) :=
  match current, link (Text.stripChars line) with
  | some (.switch, guid), some peer => some (guid, peer)
  | _, _ => none

/-- The links of the switches, in their order, after a header. -/
def linksOf : Option (BlockKind × String) → List (List Char) → List (String × String)
  | _, [] => []
  | current, line :: lines =>
      match header (Text.stripChars line) with
      | some (kind, guid, _) => linksOf (some (kind, guid)) lines
      | none => (linkOf current line).toList ++ linksOf current lines

/-- What is made of headers and links. -/
def assemble (headers : List Header) (links : List (String × String)) : Fabric :=
  links.foldl (fun fabric l => fabric.addLink l.1 l.2) (headers.foldl addHeader Fabric.empty)

theorem foldl_readHeader (fabric : Fabric) (lines : List (List Char)) :
    lines.foldl readHeader fabric = (headersOf lines).foldl addHeader fabric := by
  induction lines generalizing fabric with
  | nil => rfl
  | cons line lines ih =>
      rw [List.foldl_cons, ih, readHeader, headersOf, headersOf, List.filterMap_cons]
      split <;> simp [*]

theorem readLink_of_none {current : Option (BlockKind × String)} {fabric : Fabric}
    {line : List Char} (h : header (Text.stripChars line) = none) :
    readLink (current, fabric) line =
      (current, (linkOf current line).toList.foldl (fun fabric l => fabric.addLink l.1 l.2)
        fabric) := by
  unfold readLink linkOf
  rw [h]
  dsimp only
  split <;> rfl

theorem foldl_readLink (current : Option (BlockKind × String)) (fabric : Fabric)
    (lines : List (List Char)) :
    (lines.foldl readLink (current, fabric)).2 =
      (linksOf current lines).foldl (fun fabric l => fabric.addLink l.1 l.2) fabric := by
  induction lines generalizing current fabric with
  | nil => rfl
  | cons line lines ih =>
      rw [List.foldl_cons, linksOf]
      cases hheader : header (Text.stripChars line) with
      | none =>
          rw [readLink_of_none hheader, ih, List.foldl_append]
      | some h =>
          rw [readLink, hheader]
          exact ih _ _

/-- **The fabric is made of the headers and the links.** -/
theorem ofLines_eq (lines : List (List Char)) :
    ofLines lines = assemble (headersOf lines) (linksOf none lines) := by
  rw [ofLines, foldl_readLink, foldl_readHeader]
  rfl

theorem mem_linksOf {current : Option (BlockKind × String)} {lines : List (List Char)}
    {u v : String} (h : (u, v) ∈ linksOf current lines) :
    current = some (.switch, u) ∨ ∃ desc, (BlockKind.switch, u, desc) ∈ headersOf lines := by
  induction lines generalizing current with
  | nil => cases h
  | cons line lines ih =>
      rw [linksOf] at h
      rw [headersOf, List.filterMap_cons]
      cases hheader : header (Text.stripChars line) with
      | some found =>
          rw [hheader] at h
          obtain ⟨kind, guid, desc⟩ := found
          rcases ih h with hcurrent | ⟨desc', hin⟩
          · cases hcurrent
            exact Or.inr ⟨desc, List.mem_cons_self⟩
          · exact Or.inr ⟨desc', List.mem_cons_of_mem _ hin⟩
      | none =>
          rw [hheader] at h
          rcases List.mem_append.mp h with hhere | hrest
          · refine Or.inl ?_
            unfold linkOf at hhere
            split at hhere
            · cases List.mem_singleton.mp hhere
              rfl
            · cases hhere
          · exact ih hrest

/-! ## What is read off them -/

section Assemble

variable {headers : List Header} {links : List (String × String)} {fabric : Fabric}

theorem mem_switchGuids_foldl {u : String} :
    u ∈ (headers.foldl addHeader fabric).switchGuids ↔
      u ∈ fabric.switchGuids ∨ ∃ desc, (BlockKind.switch, u, desc) ∈ headers := by
  induction headers generalizing fabric with
  | nil => simp
  | cons h headers ih =>
      rw [List.foldl_cons, ih]
      obtain ⟨kind, guid, desc⟩ := h
      cases kind with
      | switch =>
          simp only [addHeader, List.mem_insert_iff, List.mem_cons, Prod.mk.injEq]
          constructor
          · rintro ((rfl | h) | ⟨d, h⟩)
            · exact Or.inr ⟨desc, Or.inl ⟨trivial, rfl, rfl⟩⟩
            · exact Or.inl h
            · exact Or.inr ⟨d, Or.inr h⟩
          · rintro (h | ⟨d, ⟨-, rfl, -⟩ | h⟩)
            · exact Or.inl (Or.inr h)
            · exact Or.inl (Or.inl rfl)
            · exact Or.inr ⟨d, h⟩
      | ca => simp [addHeader]

/-- The adapter that a header is about, with its host. -/
def adapter : Header → Option (String × String)
  | (.ca, guid, desc) => some (guid, hostName guid desc)
  | (.switch, _, _) => none

theorem caHost_foldl :
    (headers.foldl addHeader fabric).caHost =
      Dict.update fabric.caHost (headers.filterMap adapter) := by
  induction headers generalizing fabric with
  | nil => rfl
  | cons h headers ih =>
      rw [List.foldl_cons, ih]
      obtain ⟨kind, guid, desc⟩ := h
      cases kind <;> rfl

theorem leaves_foldl_addHeader :
    (headers.foldl addHeader fabric).leafGuids = fabric.leafGuids ∧
      (headers.foldl addHeader fabric).nodeLeaf = fabric.nodeLeaf := by
  induction headers generalizing fabric with
  | nil => exact ⟨rfl, rfl⟩
  | cons h headers ih =>
      obtain ⟨kind, guid, desc⟩ := h
      cases kind <;> exact ih

/-- The first pass gives every switch a place, without neighbours. -/
theorem adjacency_foldl_addHeader (h : ∀ u, fabric.adjacent u = []) (u : String) :
    (headers.foldl addHeader fabric).adjacent u = [] := by
  induction headers generalizing fabric with
  | nil => exact h u
  | cons header headers ih =>
      obtain ⟨kind, guid, desc⟩ := header
      cases kind with
      | switch =>
          refine ih fun v => ?_
          rw [addHeader, adjacent]
          dsimp only
          split
          · exact h v
          · rename_i hnew
            rw [Dict.get, List.lookup_append]
            cases hlookup : fabric.adjacency.lookup v with
            | some vs =>
                have hold := h v
                rw [adjacent, Dict.get, hlookup] at hold
                exact hold
            | none =>
                rw [Option.none_or, List.lookup_cons, List.lookup_nil]
                split <;> rfl
      | ca => exact ih h

/-- The links that tie two switches. -/
def ties (fabric : Fabric) (l : String × String) : Bool :=
  (fabric.caHost.lookup l.2).isNone && decide (l.2 ∈ fabric.switchGuids)

/-- The attachment that a link is. -/
def attachment (fabric : Fabric) (l : String × String) : Option (String × String) :=
  (fabric.caHost.lookup l.2).map fun host => (host, l.1)

/-- A link leaves what the first pass has found as it is. -/
theorem addLink_same (fabric : Fabric) (l : String × String) :
    (fabric.addLink l.1 l.2).caHost = fabric.caHost ∧
      (fabric.addLink l.1 l.2).switchGuids = fabric.switchGuids := by
  unfold addLink addNeighbour
  split
  · exact ⟨rfl, rfl⟩
  · split <;> exact ⟨rfl, rfl⟩

theorem foldl_addLink_same :
    (links.foldl (fun fabric l => fabric.addLink l.1 l.2) fabric).caHost = fabric.caHost ∧
      (links.foldl (fun fabric l => fabric.addLink l.1 l.2) fabric).switchGuids =
        fabric.switchGuids := by
  induction links generalizing fabric with
  | nil => exact ⟨rfl, rfl⟩
  | cons l links ih =>
      obtain ⟨hca, hswitch⟩ := addLink_same fabric l
      rw [List.foldl_cons, ih.1, ih.2]
      exact ⟨hca, hswitch⟩

theorem nodeLeaf_foldl_addLink :
    (links.foldl (fun fabric l => fabric.addLink l.1 l.2) fabric).nodeLeaf =
      Dict.update fabric.nodeLeaf (links.filterMap (attachment fabric)) := by
  induction links generalizing fabric with
  | nil => rfl
  | cons l links ih =>
      have hsame : attachment (fabric.addLink l.1 l.2) = attachment fabric := by
        unfold attachment
        rw [(addLink_same fabric l).1]
      rw [List.foldl_cons, ih, hsame, List.filterMap_cons, addLink, attachment]
      cases hhost : fabric.caHost.lookup l.2 with
      | some host => rfl
      | none =>
          dsimp only [Option.map_none]
          split <;> rfl

theorem mem_leafGuids_foldl {u : String} :
    u ∈ (links.foldl (fun fabric l => fabric.addLink l.1 l.2) fabric).leafGuids ↔
      u ∈ fabric.leafGuids ∨ ∃ l ∈ links, l.1 = u ∧ (attachment fabric l).isSome := by
  induction links generalizing fabric with
  | nil => simp
  | cons l links ih =>
      have hsame : attachment (fabric.addLink l.1 l.2) = attachment fabric := by
        unfold attachment
        rw [(addLink_same fabric l).1]
      have hhere : u ∈ (fabric.addLink l.1 l.2).leafGuids ↔
          u ∈ fabric.leafGuids ∨ l.1 = u ∧ (attachment fabric l).isSome := by
        rw [addLink, attachment]
        cases hhost : fabric.caHost.lookup l.2 with
        | some host =>
            simp only [List.mem_insert_iff, Option.map_some, Option.isSome_some, and_true]
            rw [or_comm, eq_comm]
        | none =>
            dsimp only [Option.map_none, Option.isSome_none]
            split <;> simp [addNeighbour]
      rw [List.foldl_cons, ih, hsame, hhere, List.exists_mem_cons_iff, or_assoc]

/-- A neighbour that is added is a neighbour then. -/
theorem mem_adjacent_addNeighbour {u v x y : String} :
    y ∈ (fabric.addNeighbour u v).adjacent x ↔ y ∈ fabric.adjacent x ∨ x = u ∧ y = v := by
  rw [adjacent, addNeighbour, Dict.get]
  dsimp only
  rw [Dict.lookup_put]
  by_cases hx : x = u
  · rw [if_pos hx, Option.getD_some, List.mem_insert_iff, hx, or_comm]
    simp
  · rw [if_neg hx]
    simp [hx, adjacent, Dict.get]

theorem mem_adjacent_foldl {u v : String} :
    v ∈ (links.foldl (fun fabric l => fabric.addLink l.1 l.2) fabric).adjacent u ↔
      v ∈ fabric.adjacent u ∨
        ∃ l ∈ links, ties fabric l ∧ (l = (u, v) ∨ l = (v, u)) := by
  induction links generalizing fabric with
  | nil => simp
  | cons l links ih =>
      obtain ⟨hca, hswitch⟩ := addLink_same fabric l
      have hsame : ties (fabric.addLink l.1 l.2) = ties fabric := by
        unfold ties
        rw [hca, hswitch]
      have hhere : v ∈ (fabric.addLink l.1 l.2).adjacent u ↔
          v ∈ fabric.adjacent u ∨ ties fabric l ∧ (l = (u, v) ∨ l = (v, u)) := by
        rw [addLink, ties]
        cases hhost : fabric.caHost.lookup l.2 with
        | some host => simp [adjacent]
        | none =>
            dsimp only
            split
            · rename_i hpeer
              obtain ⟨x, y⟩ := l
              rw [mem_adjacent_addNeighbour, mem_adjacent_addNeighbour, or_assoc]
              simp only [hpeer, Option.isNone_none, decide_true, Bool.and_self, Prod.mk.injEq]
              tauto
            · rename_i hpeer
              simp [hpeer]
      rw [List.foldl_cons, ih, hsame, hhere, List.exists_mem_cons_iff, or_assoc]

end Assemble

end LmResiliency.Detection.IbTopology
