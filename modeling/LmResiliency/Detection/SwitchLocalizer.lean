/-
# SwitchLocalizer — the switch that slow groups share

`SwitchLocalizer.observe` looks at one round of collective timings of process
groups.  A group is slow against the fastest of its class; the switches on the
path of every slow group and of no healthy one are the suspects, and a suspect
that is alone is named, and confirmed when it has been named `persistence`
times in a row.  "Every" and "no" are asked as ratios against two thresholds.

A Python set is the list of its members, each once.
-/
import LmResiliency.Detection.Localizer
import LmResiliency.Lib.PyFloat
import LmResiliency.Lib.Streak
import Mathlib.Data.Sym.Sym2

namespace LmResiliency.Detection

/-- `GroupMeasurement`. -/
structure GroupMeasurement where
  groupId : String
  members : List String
  collective : String
  latencyS : PyFloat
  failed : Bool := false

/-- What a verdict blames. -/
inductive SuspectKind where
  /-- `"fabric:switch"` -/
  | fabricSwitch
  /-- `"node"` -/
  | node
deriving DecidableEq

/-- `SwitchVerdict`. -/
structure SwitchVerdict where
  kind : Option SuspectKind
  suspect : Option String
  confirmed : Bool
  slowGroups : Nat
  streak : Nat := 0
  candidates : List String := []
  detail : String := ""

/-! ## The fabric -/

/-- A lookup of a node that the topology does not have. -/
inductive TopologyError where
  /-- `KeyError(node)` -/
  | keyError (node : String)
deriving DecidableEq

/-- `FabricTopology`; a key of `spine_route` is a set of two leaves. -/
structure FabricTopology where
  nodeLeaf : List (String × String)
  spineRoute : List (Sym2 String × String)
  defaultSpine : String := "spine0"

namespace FabricTopology

variable (topology : FabricTopology)

def leafOf (node : String) : Except TopologyError String :=
  match topology.nodeLeaf.lookup node with
  | some leaf => .ok leaf
  | none => .error (.keyError node)

def spine (leafA leafB : String) : String :=
  (topology.spineRoute.lookup s(leafA, leafB)).getD topology.defaultSpine

/-- The spine of every pair of leaves, the earlier one first. -/
def spinesBetween : List String → List String
  | [] => []
  | leaf :: leaves => leaves.map (topology.spine leaf) ++ spinesBetween leaves

/-- `switches_on_path`: the leaves of the members, and the spines between them. -/
def switchesOnPath (members : List String) : Except TopologyError (List String) := do
  let leaves ← members.mapM topology.leafOf
  let leafList := sortedTexts leaves
  return (leafList ++ topology.spinesBetween leafList).dedup

end FabricTopology

/-! ## The localizer -/

/-- `SwitchLocalizer`: what its constructor is given. -/
structure SwitchLocalizer where
  topology : FabricTopology
  slowFactor : ℚ := 3 / 2
  persistence : Int := 3
  coverThreshold : ℚ := 999 / 1000
  cleanThreshold : ℚ := 1 / 1000000000

/-- The arguments of one call of `observe`. -/
structure SwitchRound where
  measurements : List GroupMeasurement
  computeStragglers : List String := []

namespace SwitchLocalizer

variable (L : SwitchLocalizer)

/-- The fastest sibling. -/
def baseline (siblings : List GroupMeasurement) : PyFloat :=
  match siblings.map GroupMeasurement.latencyS with
  | [] => .nan
  | first :: rest => PyFloat.minimum first rest

def isSlow (base : PyFloat) (m : GroupMeasurement) : Bool :=
  m.failed || (PyFloat.lt (.finite 0) base && PyFloat.lt (base.scale L.slowFactor) m.latencyS)

/-- A slow group that a known compute straggler is in. -/
def isExplained (stragglers : List String) (m : GroupMeasurement) : Bool :=
  m.members.any (· ∈ stragglers)

/-- Where `_partition` puts a group: with the slow ones (`some true`), with the
fast ones (`some false`), or nowhere. -/
def sorted (base : PyFloat) (stragglers : List String) (m : GroupMeasurement) : Option Bool :=
  if L.isSlow base m ∧ isExplained stragglers m then none else some (L.isSlow base m)

/-- The groups of a round, class by class, and where each of them is put. -/
def sortedGroups (r : SwitchRound) : List (GroupMeasurement × Option Bool) :=
  (Dict.group GroupMeasurement.collective r.measurements).flatMap fun (_, siblings) =>
    siblings.map fun m => (m, L.sorted (baseline siblings) r.computeStragglers m)

/-- `_partition`: the slow groups. -/
def slow (r : SwitchRound) : List GroupMeasurement :=
  ((L.sortedGroups r).filter (·.2 = some true)).map Prod.fst

/-- `_partition`: the fast groups. -/
def fast (r : SwitchRound) : List GroupMeasurement :=
  ((L.sortedGroups r).filter (·.2 = some false)).map Prod.fst

/-- `sum(s in p for p in paths)`. -/
def crossings (s : String) (paths : List (List String)) : Nat := paths.countP (s ∈ ·)

/-- Whether a switch meets both thresholds. -/
def meets (slowPaths fastPaths : List (List String)) (s : String) : Bool :=
  let slowCover : ℚ := crossings s slowPaths / slowPaths.length
  let clean : ℚ := if fastPaths = [] then 0 else crossings s fastPaths / fastPaths.length
  L.coverThreshold ≤ slowCover ∧ clean ≤ L.cleanThreshold

def hittingSet (slow fast : List GroupMeasurement) : Except TopologyError (List String) := do
  let slowPaths ← slow.mapM fun m => L.topology.switchesOnPath m.members
  let fastPaths ← fast.mapM fun m => L.topology.switchesOnPath m.members
  return slowPaths.flatten.dedup.filter (L.meets slowPaths fastPaths)

/-- The nodes that are in every slow group. -/
def commonNodes (slow : List GroupMeasurement) : List String :=
  sortedTexts (intersection (slow.map GroupMeasurement.members))

/-- `observe`; a call that raises leaves the count alone. -/
def observe (r : SwitchRound) (state : Streak.Count String) :
    Except TopologyError (SwitchVerdict × Streak.Count String) :=
  let slow := L.slow r
  if slow = [] then
    .ok ({ kind := none, suspect := none, confirmed := false, slowGroups := 0,
           detail := "no slow groups" }, .reset)
  else
    match commonNodes slow with
    | node :: _ =>
        .ok ({ kind := some .node, suspect := some node, confirmed := false,
               slowGroups := slow.length
               detail := "common endpoint " ++ node ++ " — node fault, not a switch" }, .reset)
    | [] => do
        let candidates ← L.hittingSet slow (L.fast r)
        match candidates with
        | [suspect] =>
            let state := state.next suspect
            return ({ kind := some .fabricSwitch, suspect := some suspect,
                      confirmed := L.persistence ≤ state.streak, slowGroups := slow.length
                      streak := state.streak
                      detail := "switch " ++ suspect ++ ": on all " ++ Text.str slow.length ++
                        " slow groups, no healthy group (" ++ Text.str state.streak ++ "/" ++
                        Text.str L.persistence ++ " rounds)" }, state)
        | candidates =>
            return ({ kind := none, suspect := none, confirmed := false
                      slowGroups := slow.length, candidates := sortedTexts candidates
                      detail := if candidates = [] then "no switch explains the slow set"
                        else "ambiguous — needs a targeted probe" }, .reset)

end SwitchLocalizer

end LmResiliency.Detection
