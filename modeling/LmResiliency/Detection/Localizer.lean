/-
# Localizer — the endpoint that slow process groups share

`CommunicationLocalizer.observe` looks at one round of collective timings.  A
group is slow, healthy or neutral against its own baseline; within one
resource class the endpoints that lie on every slow group and on no healthy
one are the exact candidates.  A single exact candidate is localized, and
confirmed once it has been localized `persistence` times in a row.

A Python set is the list of its members, each once; a latency or a factor is a
rational, and a collective that failed is slower than any factor.
-/
import Mathlib.Algebra.Order.Ring.Rat
import Mathlib.Data.Finset.Dedup
import Mathlib.Data.List.Sort
import Mathlib.Data.Prod.Lex
import Mathlib.Data.String.Basic
import Mathlib.Order.WithBot
import LmResiliency.Lib.Dict
import LmResiliency.Lib.Outcome
import LmResiliency.Lib.Text

namespace LmResiliency.Detection

open Outcome

/-- `_RESOURCE_KINDS`. -/
inductive ResourceKind where
  | rank
  | node
  | hca
  | nic
deriving DecidableEq

def ResourceKind.name : ResourceKind → String
  | .rank => "rank"
  | .node => "node"
  | .hca => "hca"
  | .nic => "nic"

/-- `EndpointMetadata`. -/
structure EndpointMetadata where
  node : Option String
  hca : Option String
  nic : Option String

/-- `getattr(metadata, kind, None)`. -/
def EndpointMetadata.get (m : EndpointMetadata) : ResourceKind → Option String
  | .rank => none
  | .node => m.node
  | .hca => m.hca
  | .nic => m.nic

/-- The `ValueError`s of this module. -/
inductive LocalizerError where
  /-- `group_id and members must be non-empty` -/
  | emptyGroup
  /-- `group {group_id!r} contains duplicate members` -/
  | duplicateMembers (groupId : String)
  /-- `collective, topology_role, and resource_class must be non-empty` -/
  | emptyName
  /-- `message_bytes must be non-negative` -/
  | negativeBytes
  /-- `member_resources must align one-to-one with members` -/
  | misalignedResources
  /-- `member_resources cannot contain empty resource ids` -/
  | emptyResource
  /-- `a completed collective requires a finite, non-negative latency` -/
  | badLatency
  /-- `a completed collective requires a baseline` -/
  | noBaseline
  /-- `baseline_latency_s must be finite and positive` -/
  | badBaseline
  /-- `missing {resource_kind} metadata for rank {rank!r}` -/
  | missingMetadata (kind : ResourceKind) (rank : String)

/-- The fields of a `CollectiveObservation`. -/
structure ObservationFields where
  groupId : String
  members : List String
  collective : String
  messageBytes : Int
  topologyRole : String
  resourceClass : String
  latencyS : ℚ
  baselineLatencyS : Option ℚ
  resourceKind : ResourceKind := .rank
  failed : Bool := false
  memberResources : Option (List (String ⊕ List String)) := none

/-- `(resources,) if isinstance(resources, str) else resources`. -/
def asTuple : String ⊕ List String → List String
  | .inl resource => [resource]
  | .inr resources => resources

def ObservationFields.postInit (o : ObservationFields) : Except LocalizerError Unit :=
  if o.groupId = "" ∨ o.members = [] then .error .emptyGroup
  else if ¬o.members.Nodup then .error (.duplicateMembers o.groupId)
  else if o.collective = "" ∨ o.topologyRole = "" ∨ o.resourceClass = "" then .error .emptyName
  else if o.messageBytes < 0 then .error .negativeBytes
  else if o.memberResources.any (·.length ≠ o.members.length) then .error .misalignedResources
  else if o.memberResources.any (·.any fun m => asTuple m = [] ∨ "" ∈ asTuple m) then
    .error .emptyResource
  else if o.failed = false ∧ o.latencyS < 0 then .error .badLatency
  else
    match o.baselineLatencyS with
    | none => if o.failed = false then .error .noBaseline else .ok ()
    | some baseline => if baseline ≤ 0 then .error .badBaseline else .ok ()

/-- `CollectiveObservation`: the fields passed the checks. -/
structure CollectiveObservation extends ObservationFields where
  valid : toObservationFields.postInit = .ok ()

/-- `CollectiveObservation(…)`. -/
def ObservationFields.make (o : ObservationFields) : Except LocalizerError CollectiveObservation :=
  match h : o.postInit with
  | .ok () => .ok ⟨o, h⟩
  | .error e => .error e

namespace CollectiveObservation

/-- `normalized_latency`.  A completed collective has a baseline. -/
def normalizedLatency (o : CollectiveObservation) : WithTop ℚ :=
  if o.failed then ⊤
  else
    match o.baselineLatencyS with
    | some baseline => ((o.latencyS / baseline : ℚ) : WithTop ℚ)
    | none => ⊤

/-- What the observations of a round are grouped by. -/
def classKey (o : CollectiveObservation) : String × ResourceKind :=
  (o.resourceClass, o.resourceKind)

end CollectiveObservation

/-- `EndpointCandidate`. -/
structure EndpointCandidate where
  resourceClass : String
  resourceKind : ResourceKind
  resourceId : String
  ranks : List String
  supportingGroups : List String
  supportRatio : ℚ

/-- What identifies a candidate from round to round. -/
abbrev Fingerprint := String × ResourceKind × String

def EndpointCandidate.fingerprint (c : EndpointCandidate) : Fingerprint :=
  (c.resourceClass, c.resourceKind, c.resourceId)

/-- The order candidates are reported in. -/
def EndpointCandidate.key (c : EndpointCandidate) : ℚ ×ₗ String ×ₗ String ×ₗ String :=
  toLex (-c.supportRatio,
    toLex (c.resourceClass, toLex (c.resourceKind.name, c.resourceId)))

inductive CommunicationStatus where
  | normal
  | localized
  | ambiguous
  | inconclusive
deriving DecidableEq

/-- `CommunicationVerdict`. -/
structure CommunicationVerdict where
  status : CommunicationStatus
  candidates : List EndpointCandidate := []
  confirmed : Bool := false
  streak : Nat := 0
  confidence : ℚ := 0
  slowGroups : List String := []
  healthyGroups : List String := []
  excludedComputeGroups : List String := []
  contradictedResources : List String := []
  detail : String := ""

def CommunicationVerdict.suspect (v : CommunicationVerdict) : Option EndpointCandidate :=
  if v.status = .localized then v.candidates.head? else none

/-- `CommunicationLocalizer`, as its constructor accepts it. -/
structure CommunicationLocalizer where
  metadata : String → Option EndpointMetadata
  slowFactor : ℚ
  healthyFactor : ℚ
  persistence : Nat
  minSlowGroups : Nat
  maxCandidates : Nat
  factors : 1 ≤ healthyFactor ∧ healthyFactor < slowFactor
  positive : 1 ≤ persistence ∧ 2 ≤ minSlowGroups ∧ 1 ≤ maxCandidates

/-- `_last_candidate` and `_streak`. -/
structure Confirmation where
  lastCandidate : Option Fingerprint
  streak : Nat

/-- `_reset_confirmation`. -/
def Confirmation.reset : Confirmation := ⟨none, 0⟩

/-- `tuple(sorted({…}))`. -/
def sortedTexts (texts : List String) : List String := texts.dedup.insertionSort (· ≤ ·)

/-- `set.intersection(*sets)`. -/
def intersection : List (List String) → List String
  | [] => []
  | s :: sets => s.filter fun r => sets.all (r ∈ ·)

/-- What one resource class adds to the round. -/
structure Finding where
  exactCandidates : List EndpointCandidate := []
  partialCandidates : List EndpointCandidate := []
  contradicted : List String := []
  insufficient : List String := []

namespace CommunicationLocalizer

variable (L : CommunicationLocalizer)

/-- The resource the roster gives a rank. -/
def endpoint (kind : ResourceKind) (rank : String) : Except LocalizerError String :=
  match (L.metadata rank).bind (·.get kind) with
  | some resource => if resource = "" then .error (.missingMetadata kind rank) else .ok resource
  | none => .error (.missingMetadata kind rank)

def resourcesForMember (o : CollectiveObservation) (index : Nat) :
    Except LocalizerError (List String) :=
  match o.memberResources with
  | some resources => .ok ((resources[index]?.map asTuple).getD [])
  | none =>
      let rank := o.members.getD index ""
      if o.resourceKind = .rank then .ok [rank]
      else do return [← L.endpoint o.resourceKind rank]

def resources (o : CollectiveObservation) : Except LocalizerError (List String) :=
  match o.memberResources with
  | some _ => do
      let perMember ← (List.range o.members.length).mapM (L.resourcesForMember o)
      return perMember.flatten.dedup
  | none =>
      if o.resourceKind = .rank then .ok o.members.dedup
      else do return (← o.members.mapM (L.endpoint o.resourceKind)).dedup

/-- The distinct group ids of some observations. -/
def groupIds (observations : List CollectiveObservation) : List String :=
  (observations.map fun o => o.groupId).dedup

def candidate (resource : String) (key : String × ResourceKind)
    (observations : List CollectiveObservation) (resourceSets : List (List String)) :
    Except LocalizerError EndpointCandidate := do
  let supportingGroups := sortedTexts
    (((observations.zip resourceSets).filter (resource ∈ ·.2)).map fun p => p.1.groupId)
  let ranks ← observations.mapM fun o =>
    o.members.zipIdx.mapM fun m => do
      return if resource ∈ (← L.resourcesForMember o m.2) then [m.1] else []
  return { resourceClass := key.1
           resourceKind := key.2
           resourceId := resource
           ranks := sortedTexts (ranks.map List.flatten).flatten
           supportingGroups := supportingGroups
           supportRatio := supportingGroups.length / (groupIds observations).length }

/-- The groups that support each endpoint no healthy group lies on. -/
def support (classSlow : List CollectiveObservation) (resourceSets : List (List String))
    (healthyResources : List String) : List (String × List (String × String)) :=
  Dict.group Prod.fst ((classSlow.zip resourceSets).flatMap fun p =>
    (p.2.filter (· ∉ healthyResources)).map fun r => (r, p.1.groupId))

/-- `len(support[resource])`. -/
def supportSize (entry : String × List (String × String)) : Nat :=
  (entry.2.map Prod.snd).dedup.length

/-- `sorted(support, key=lambda resource: (-len(support[resource]), resource))`. -/
def ranked (support : List (String × List (String × String))) :
    List (String × List (String × String)) :=
  support.insertionSort fun a b =>
    supportSize b < supportSize a ∨ supportSize a = supportSize b ∧ a.1 ≤ b.1

/-- The body of the loop over the resource classes. -/
def judge (key : String × ResourceKind) (classSlow classHealthy : List CollectiveObservation) :
    Except LocalizerError Finding := do
  let label := key.1 ++ "/" ++ key.2.name
  let resourceSets ← classSlow.mapM L.resources
  if (groupIds classSlow).length < L.minSlowGroups then
    return { insufficient := [label ++ ": " ++ Text.str (groupIds classSlow).length ++
      " slow group(s), need " ++ Text.str L.minSlowGroups] }
  else if (resourceSets.map List.toFinset).dedup.length < 2 then
    return { insufficient := [label ++ ": slow groups lack independent incidence"] }
  else
    let healthyResources := (← classHealthy.mapM L.resources).flatten
    let shared := intersection resourceSets
    let contradicted := (shared.filter (· ∈ healthyResources)).map fun r =>
      key.1 ++ ":" ++ key.2.name ++ ":" ++ r
    let common := shared.filter (· ∉ healthyResources)
    if common ≠ [] then
      let candidates ← common.mapM fun r => L.candidate r key classSlow resourceSets
      return { exactCandidates := candidates, contradicted := contradicted }
    else
      let entries := (ranked (support classSlow resourceSets healthyResources)).filter
        (L.minSlowGroups ≤ supportSize ·)
      let candidates ← entries.mapM fun e => L.candidate e.1 key classSlow resourceSets
      return { partialCandidates := candidates, contradicted := contradicted }

/-- A round: the observations and the known compute stragglers. -/
structure Round where
  observations : List CollectiveObservation
  computeStragglers : List String := []

/-- The score reaches the slow factor. -/
def tooSlow (o : CollectiveObservation) : Bool := (L.slowFactor : WithTop ℚ) ≤ o.normalizedLatency

/-- A compute straggler is a member of the group. -/
def hasStraggler (r : Round) (o : CollectiveObservation) : Bool :=
  o.members.any (· ∈ r.computeStragglers)

def slow (r : Round) : List CollectiveObservation :=
  r.observations.filter fun o => L.tooSlow o && !hasStraggler r o

def excluded (r : Round) : List CollectiveObservation :=
  r.observations.filter fun o => L.tooSlow o && hasStraggler r o

def healthy (r : Round) : List CollectiveObservation :=
  r.observations.filter fun o =>
    !L.tooSlow o && decide (o.normalizedLatency ≤ (L.healthyFactor : WithTop ℚ))

/-- The findings, class by class. -/
def findings (r : Round) : Except LocalizerError (List Finding) :=
  (Dict.group CollectiveObservation.classKey (L.slow r)).mapM fun entry =>
    L.judge entry.1 entry.2
      (Dict.get (Dict.group CollectiveObservation.classKey (L.healthy r)) entry.1)

/-- The fields every verdict of a round has. -/
def verdictOf (r : Round) (status : CommunicationStatus) (detail : String) :
    CommunicationVerdict :=
  { status := status
    slowGroups := sortedTexts ((L.slow r).map fun o => o.groupId)
    healthyGroups := sortedTexts ((L.healthy r).map fun o => o.groupId)
    excludedComputeGroups := sortedTexts ((L.excluded r).map fun o => o.groupId)
    detail := detail }

/-- The verdict on a single exact candidate. -/
def localizedVerdict (r : Round) (c : EndpointCandidate) (contradicted : List String)
    (streak : Nat) : CommunicationVerdict :=
  { L.verdictOf r .localized
      (c.resourceClass ++ " " ++ c.resourceKind.name ++ " " ++ c.resourceId ++
        " is shared by " ++ Text.str c.supportingGroups.length ++
        " independent slow groups and no healthy same-resource group (" ++
        Text.str streak ++ "/" ++ Text.str L.persistence ++ " rounds)") with
    candidates := [c]
    confirmed := L.persistence ≤ streak
    streak := streak
    confidence := min 1 ((streak : ℚ) / L.persistence)
    contradictedResources := sortedTexts contradicted }

/-- `self._streak + 1 if fingerprint == self._last_candidate else 1`. -/
def Confirmation.next (s : Confirmation) (f : Fingerprint) : Confirmation :=
  ⟨some f, if s.lastCandidate = some f then s.streak + 1 else 1⟩

/-- The end of `observe`: the verdict from the findings. -/
def conclude (r : Round) (found : List Finding) (s : Confirmation) :
    CommunicationVerdict × Confirmation :=
  let exactCandidates := found.flatMap Finding.exactCandidates
  let partialCandidates := found.flatMap Finding.partialCandidates
  let contradicted := found.flatMap Finding.contradicted
  let insufficient := found.flatMap Finding.insufficient
  let candidates := ((exactCandidates ++ partialCandidates).insertionSort
    fun c d => c.key ≤ d.key).take L.maxCandidates
  match exactCandidates, partialCandidates, insufficient with
  | [c], [], [] =>
      let next := Confirmation.next s c.fingerprint
      (L.localizedVerdict r c contradicted next.streak, next)
  | _, _, _ =>
      if candidates ≠ [] then
        ({ L.verdictOf r .ambiguous
            "multiple or partial endpoint explanations; candidate list is not attribution" with
           candidates := candidates
           contradictedResources := sortedTexts contradicted }, .reset)
      else
        let reasons := "; ".intercalate insufficient
        let reasons :=
          if contradicted = [] then reasons
          else "; ".intercalate
            ([reasons, "common endpoint contradicted by healthy group"].filter (· ≠ ""))
        ({ L.verdictOf r .inconclusive
            (if reasons = "" then "no endpoint is supported by enough independent slow groups"
             else reasons) with
           contradictedResources := sortedTexts contradicted }, .reset)

def observe (r : Round) (s : Confirmation) :
    Except LocalizerError (CommunicationVerdict × Confirmation) :=
  if L.slow r = [] then
    .ok (L.verdictOf r .normal
      (if L.excluded r ≠ [] then "all slow groups were excluded by known compute stragglers"
       else "no slow communication groups"), .reset)
  else do
    return L.conclude r (← L.findings r) s

end CommunicationLocalizer

end LmResiliency.Detection
