/-
# SuspectRuns — what a localized endpoint explains, and for how long

A localizer is asked round after round.  A round it answers either localizes
the endpoint it singles out, and counts it, or starts the count again; a round
it cannot answer (a `ValueError` for missing metadata) leaves the count alone.

So a localized endpoint need not lie on every slow group: one of a class that
was passed over is left unexplained.  And a confirmed endpoint need not have
been localized in each of the last `persistence` calls: one of them may have
raised.  These are the only two ways.

The main result is `localized_explains_iff`.
-/
import Mathlib.Tactic.NormNum
import LmResiliency.Detection.Suspect
import LmResiliency.Lib.Streak

namespace LmResiliency.Detection.CommunicationLocalizer

open Outcome

/-! ## One round -/

section

variable {L : CommunicationLocalizer} {r : Round} {s s' : Confirmation} {v : CommunicationVerdict}

theorem SinglesOut.unique {f g : Fingerprint} (hf : L.SinglesOut r f) (hg : L.SinglesOut r g) :
    f = g := (hg.sole f).mp ((hf.sole f).mpr rfl)

theorem answered_of_slow_nil (h : L.slow r = []) : L.Answered r := by
  intro k hk
  refine absurd ?_ (mem_slowClasses.mp hk)
  rw [slowOf, h, List.filter_nil]

theorem observe_total (h : L.Answered r) (s : Confirmation) :
    ∃ p, L.observe r s = .ok p := by
  unfold observe
  split
  · exact ⟨_, rfl⟩
  · obtain ⟨fs, hfs, -⟩ := findings_total h
    exact ⟨_, bind_ok_iff.mpr ⟨fs, hfs, rfl⟩⟩

theorem answered_of_observe (h : L.observe r s = .ok (v, s')) : L.Answered r := by
  unfold observe at h
  split at h
  · exact answered_of_slow_nil ‹_›
  · obtain ⟨fs, hfs, -⟩ := bind_ok_iff.mp h
    exact answered_of_findings hfs

/-- The round singles an endpoint out, and the verdict and the count say so. -/
structure Localizes (L : CommunicationLocalizer) (r : Round) (s : Confirmation)
    (v : CommunicationVerdict) (s' : Confirmation) (c : EndpointCandidate) : Prop where
  suspect : v.suspect = some c
  singled : L.SinglesOut r c.fingerprint
  state : s' = Confirmation.next s c.fingerprint
  confirmed : v.confirmed = true ↔ L.persistence ≤ s'.streak

/-- The round singles no endpoint out, and the count starts again. -/
structure Dismisses (L : CommunicationLocalizer) (r : Round)
    (v : CommunicationVerdict) (s' : Confirmation) : Prop where
  suspect : v.suspect = none
  none : ∀ f, ¬L.SinglesOut r f
  state : s' = .reset

theorem conclude_spec {found : List Finding} (h : L.findings r = .ok found)
    (hc : L.conclude r found s = (v, s')) :
    (∃ c, Localizes L r s v s' c) ∨ Dismisses L r v s' := by
  unfold conclude at hc
  dsimp only at hc
  split at hc
  · rename_i c hexact hpartial hinsufficient
    obtain ⟨rfl, rfl⟩ := Prod.mk.inj hc
    refine Or.inl ⟨c, rfl, ?_, rfl, decide_eq_true_iff⟩
    exact (sole_iff h c.fingerprint).mp ⟨c, ⟨hexact, hpartial, hinsufficient⟩, rfl⟩
  · rename_i hnot
    have hnone : ∀ f, ¬L.SinglesOut r f := by
      intro f hf
      obtain ⟨c, ⟨hexact, hpartial, hinsufficient⟩, -⟩ := (sole_iff h f).mpr hf
      exact hnot c hexact hpartial hinsufficient
    split at hc
    · obtain ⟨rfl, rfl⟩ := Prod.mk.inj hc
      exact Or.inr ⟨rfl, hnone, rfl⟩
    · obtain ⟨rfl, rfl⟩ := Prod.mk.inj hc
      exact Or.inr ⟨rfl, hnone, rfl⟩

theorem observe_spec (h : L.observe r s = .ok (v, s')) :
    (∃ c, Localizes L r s v s' c) ∨ Dismisses L r v s' := by
  unfold observe at h
  split at h
  · rename_i hnil
    obtain ⟨rfl, rfl⟩ := Prod.mk.inj (Except.ok.inj h)
    refine Or.inr ⟨rfl, fun f hf => ?_, rfl⟩
    have hclass := ((hf.sole f).mpr rfl).1
    refine mem_slowClasses.mp hclass ?_
    rw [slowOf, hnil, List.filter_nil]
  · obtain ⟨fs, hfs, hrest⟩ := bind_ok_iff.mp h
    exact conclude_spec hfs (Except.ok.inj hrest)

end

/-! ## Runs -/

variable (L : CommunicationLocalizer)

/-- What a call leaves behind: nothing new when it raises. -/
def after (s : Confirmation) (r : Round) : Confirmation :=
  match L.observe r s with
  | .ok (_, s') => s'
  | .error _ => s

/-- The state of a localizer after the rounds, the last one first. -/
def run : List Round → Confirmation
  | [] => .reset
  | r :: earlier => L.after (run earlier) r

/-- After the earlier rounds, the call on `r` localizes the endpoint. -/
def Reports (r : Round) (earlier : List Round) (f : Fingerprint) : Prop :=
  ∃ v s' c, L.observe r (L.run earlier) = .ok (v, s') ∧ v.suspect = some c ∧ c.fingerprint = f

/-- Each of the last `n` calls localized the endpoint. -/
def ReportedFor (n : Nat) (calls : List Round) (f : Fingerprint) : Prop :=
  n ≤ calls.length ∧ ∀ later r earlier, calls = later ++ r :: earlier → later.length < n →
    L.Reports r earlier f

/-- A group lies on the endpoint. -/
def Incident (f : Fingerprint) (o : CollectiveObservation) : Prop :=
  o.resourceKind = f.2.1 ∧ f.2.2 ∈ L.resourceSet o

/-- The endpoint accounts for the round. -/
structure Explains (r : Round) (f : Fingerprint) : Prop where
  all : ∀ o ∈ L.slow r, L.Incident f o
  enough : ∃ os, os ⊆ L.slow r ∧ (∀ o ∈ os, L.Incident f o) ∧ L.Enough os
  clean : ∀ o ∈ L.healthyOf r (Fingerprint.classKey f), ¬L.Incident f o

/-- A localized endpoint accounts for the round, and a confirmed one has been
localized in each of the last `persistence` calls. -/
def Holds (r : Round) (earlier : List Round) : Prop :=
  ∀ v s', L.observe r (L.run earlier) = .ok (v, s') → ∀ c, v.suspect = some c →
    L.Explains r c.fingerprint ∧
      (v.confirmed = true → L.ReportedFor L.persistence (r :: earlier) c.fingerprint)

/-- The endpoint singled out is not on every slow group. -/
def Misled (r : Round) : Prop :=
  ∃ f, L.SinglesOut r f ∧ ∃ o ∈ L.slow r, ¬L.Incident f o

open Classical in
/-- The rounds that are answered. -/
noncomputable def answers (calls : List Round) : List Round := calls.filter (L.Answered ·)

/-- The last `n` answered rounds single the endpoint out. -/
def Held (n : Nat) (calls : List Round) (f : Fingerprint) : Prop :=
  n ≤ (L.answers calls).length ∧ ∀ r ∈ (L.answers calls).take n, L.SinglesOut r f

/-- The count for the endpoint goes past a call that raised. -/
def Bridged (r : Round) (earlier : List Round) : Prop :=
  ∃ f, L.Held L.persistence (r :: earlier) f ∧ L.Answered r ∧
    ∃ q ∈ earlier.take (L.persistence - 1), ¬L.Answered q

variable {L}

theorem suspect_iff {r : Round} {s s' : Confirmation} {v : CommunicationVerdict}
    (h : L.observe r s = .ok (v, s')) {f : Fingerprint} :
    v.suspect.map EndpointCandidate.fingerprint = some f ↔ L.SinglesOut r f := by
  rcases observe_spec h with ⟨c, hl⟩ | hd
  · rw [hl.suspect]
    exact ⟨fun heq => Option.some.inj heq ▸ hl.singled,
      fun hf => congrArg some (hl.singled.unique hf)⟩
  · rw [hd.suspect]
    exact iff_of_false (fun heq => by cases heq) (hd.none f)

theorem reports_iff {r : Round} {earlier : List Round} {f : Fingerprint} :
    L.Reports r earlier f ↔ L.SinglesOut r f := by
  constructor
  · rintro ⟨v, s', c, h, hc, rfl⟩
    exact (suspect_iff h).mp (congrArg _ hc)
  · intro hf
    obtain ⟨⟨v, s'⟩, h⟩ := observe_total hf.answered (L.run earlier)
    obtain ⟨c, hc, hcf⟩ := Option.map_eq_some_iff.mp ((suspect_iff h).mpr hf)
    exact ⟨v, s', c, h, hc, hcf⟩

/-! ## The count -/

variable (L) in
/-- What a round names, whatever was counted before. -/
def named (r : Round) : Option (Option Fingerprint) :=
  (L.observe r .reset).toOption.map fun p => p.1.suspect.map EndpointCandidate.fingerprint

theorem named_eq_none_iff {r : Round} : L.named r = none ↔ ¬L.Answered r := by
  rw [named, Option.map_eq_none_iff]
  constructor
  · intro h hr
    obtain ⟨p, hp⟩ := observe_total hr .reset
    rw [hp] at h
    cases h
  · intro h
    cases hobserve : L.observe r .reset with
    | ok p => exact absurd (answered_of_observe hobserve) h
    | error e => rfl

theorem named_eq_some_iff {r : Round} {f : Fingerprint} :
    L.named r = some (some f) ↔ L.SinglesOut r f := by
  rw [named, Option.map_eq_some_iff]
  constructor
  · rintro ⟨⟨v, s'⟩, hp, hf⟩
    exact (suspect_iff (toOption_eq_some_iff.mp hp)).mp hf
  · intro hf
    obtain ⟨⟨v, s'⟩, h⟩ := observe_total hf.answered .reset
    exact ⟨(v, s'), toOption_eq_some_iff.mpr h, (suspect_iff h).mpr hf⟩

/-- The confirmation state is a count. -/
def counted (s : Confirmation) : Streak.Count Fingerprint := ⟨s.lastCandidate, s.streak⟩

theorem counted_after (s : Confirmation) (r : Round) :
    counted (L.after s r) = (counted s).after (L.named r) := by
  cases hobserve : L.observe r s with
  | error e =>
      have hnot : ¬L.Answered r := fun hr => by
        obtain ⟨p, hp⟩ := observe_total hr s
        rw [hobserve] at hp
        cases hp
      rw [named_eq_none_iff.mpr hnot, after, hobserve]
      rfl
  | ok p =>
      have hafter : L.after s r = p.2 := by rw [after, hobserve]
      rcases observe_spec hobserve with ⟨c, hl⟩ | hd
      · rw [named_eq_some_iff.mpr hl.singled, hafter, hl.state]
        rfl
      · have hnamed : L.named r = some none := by
          obtain ⟨a, ha⟩ := Option.ne_none_iff_exists'.mp
            (mt named_eq_none_iff.mp (not_not.mpr (answered_of_observe hobserve)))
          cases a with
          | none => exact ha
          | some f => exact absurd (named_eq_some_iff.mp ha) (hd.none f)
        rw [hnamed, hafter, hd.state]
        rfl

theorem run_eq (calls : List Round) : counted (L.run calls) = Streak.run L.named calls := by
  induction calls with
  | nil => rfl
  | cons r earlier ih =>
      rw [run, counted_after, ih]
      rfl

open Classical in
theorem held_iff {n : Nat} {calls : List Round} {f : Fingerprint} :
    L.Held n calls f ↔ Streak.Held L.named n calls f := by
  have hanswers : L.answers calls = Streak.answers L.named calls := by
    refine List.filter_congr fun r _ => ?_
    rw [Bool.eq_iff_iff, decide_eq_true_iff, Option.isSome_iff_ne_none, ne_eq, named_eq_none_iff,
      not_not]
  rw [Held, Streak.Held, hanswers]
  simp only [named_eq_some_iff]

theorem reportedFor_iff {n : Nat} {calls : List Round} {f : Fingerprint} :
    L.ReportedFor n calls f ↔
      n ≤ calls.length ∧ ∀ r ∈ calls.take n, L.named r = some (some f) := by
  refine and_congr_right fun _ => ⟨fun h r hr => ?_, fun h later r earlier heq hlater => ?_⟩
  · obtain ⟨later, earlier, heq, hlater⟩ := Streak.mem_take_iff.mp hr
    exact named_eq_some_iff.mpr (reports_iff.mp (h later r earlier heq hlater))
  · have hmem := Streak.mem_take_iff.mpr ⟨later, earlier, heq, hlater⟩
    exact reports_iff.mpr (named_eq_some_iff.mp (h r hmem))

/-- **An endpoint is reported by the last calls** when the count says so and no call raised. -/
theorem reportedFor_persistence_iff {r : Round} {earlier : List Round} {f : Fingerprint}
    (hf : L.SinglesOut r f) : L.ReportedFor L.persistence (r :: earlier) f ↔
      L.Held L.persistence (r :: earlier) f ∧
        ∀ q ∈ earlier.take (L.persistence - 1), L.Answered q := by
  rw [reportedFor_iff, Streak.take_named_iff L.positive.1 (named_eq_some_iff.mpr hf), held_iff]
  simp only [ne_eq, named_eq_none_iff, not_not]

/-- A localized endpoint is confirmed when the count says so. -/
theorem confirmed_iff {r : Round} {earlier : List Round} {v : CommunicationVerdict}
    {s' : Confirmation} {c : EndpointCandidate}
    (h : L.observe r (L.run earlier) = .ok (v, s')) (hc : v.suspect = some c) :
    v.confirmed = true ↔ L.Held L.persistence (r :: earlier) c.fingerprint := by
  have hstate : L.run (r :: earlier) = s' := by
    show L.after (L.run earlier) r = s'
    rw [after, h]
  rcases observe_spec h with ⟨c', hl⟩ | hd
  · cases Option.some.inj (hc.symm.trans hl.suspect)
    rw [hl.confirmed, held_iff, ← Streak.count_iff L.positive.1, ← run_eq, hstate]
    refine ⟨fun hp => ⟨?_, hp⟩, fun hp => hp.2⟩
    rw [hl.state]
    rfl
  · rw [hd.suspect] at hc
    cases hc

/-! ## What a localized endpoint explains -/

/-- An endpoint that is singled out fails to account for a slow group only. -/
theorem explains_iff {r : Round} {f : Fingerprint} (hf : L.SinglesOut r f) :
    L.Explains r f ↔ ∀ o ∈ L.slow r, L.Incident f o := by
  refine ⟨fun h => h.all, fun hall => ⟨hall, ?_, ?_⟩⟩
  · obtain ⟨hclass, hsurvives⟩ := (hf.sole f).mpr rfl
    refine ⟨L.slowOf r (Fingerprint.classKey f), fun o ho => (List.mem_filter.mp ho).1, fun o ho => ?_,
      hf.enough _ hclass⟩
    have hkey : o.classKey = Fingerprint.classKey f := of_decide_eq_true (List.mem_filter.mp ho).2
    exact ⟨congrArg Prod.snd hkey, hsurvives.1 o ho⟩
  · intro o ho hin
    exact ((hf.sole f).mpr rfl).2.2 o ho hin.2

/-- **A localized endpoint accounts for the round, and a confirmed one has been
localized in each of the last calls, except in a misled round or past a call
that raised.** -/
theorem localized_explains_iff (L : CommunicationLocalizer) (r : Round)
    (earlier : List Round) : L.Holds r earlier ↔ ¬L.Misled r ∧ ¬L.Bridged r earlier := by
  constructor
  · intro h
    constructor
    · rintro ⟨f, hf, o, ho, hout⟩
      have hreports : L.Reports r earlier f := reports_iff.mpr hf
      obtain ⟨v, s', c, hok, hc, rfl⟩ := hreports
      exact hout ((h v s' hok c hc).1.all o ho)
    · rintro ⟨f, hheld, hr, q, hq, hraised⟩
      obtain ⟨m, hm⟩ := Nat.exists_eq_add_one.mpr L.positive.1
      have hf : L.SinglesOut r f := by
        obtain ⟨a, ha⟩ := Option.ne_none_iff_exists'.mp (mt named_eq_none_iff.mp (not_not.mpr hr))
        have hheld := held_iff.mp hheld
        rw [hm, Streak.held_succ_cons ha] at hheld
        exact named_eq_some_iff.mp (hheld.1 ▸ ha)
      have hreports : L.Reports r earlier f := reports_iff.mpr hf
      obtain ⟨v, s', c, hok, hc, rfl⟩ := hreports
      have hreported := (h v s' hok c hc).2 ((confirmed_iff hok hc).mpr hheld)
      exact hraised (((reportedFor_persistence_iff hf).mp hreported).2 q hq)
  · rintro ⟨hmisled, hbridged⟩ v s' hok c hc
    have hf : L.SinglesOut r c.fingerprint := reports_iff.mp ⟨v, s', c, hok, hc, rfl⟩
    constructor
    · rw [explains_iff hf]
      intro o ho
      by_contra hout
      exact hmisled ⟨c.fingerprint, hf, o, ho, hout⟩
    · intro hconfirmed
      have hheld := (confirmed_iff hok hc).mp hconfirmed
      refine (reportedFor_persistence_iff hf).mpr ⟨hheld, fun q hq => ?_⟩
      by_contra hraised
      exact hbridged ⟨c.fingerprint, hheld, hf.answered, q, hq, hraised⟩

theorem default_factors : (1 : ℚ) ≤ 23 / 20 ∧ (23 / 20 : ℚ) < 3 / 2 := by norm_num

/-- The localizer as it is built by default, without a roster. -/
def sampleLocalizer : CommunicationLocalizer where
  metadata _ := none
  slowFactor := 3 / 2
  healthyFactor := 23 / 20
  persistence := 3
  minSlowGroups := 2
  maxCandidates := 8
  factors := default_factors
  positive := by decide

/-- A group whose all-reduce took twice its baseline. -/
def slowGroup (groupId : String) (members : List String) (resourceClass : String) :
    ObservationFields where
  groupId := groupId
  members := members
  collective := "all_reduce"
  messageBytes := 1024
  topologyRole := "dp"
  resourceClass := resourceClass
  latencyS := 2
  baselineLatencyS := some 1

/-- Two slow groups between nodes share a rank; the two within a node share none. -/
def sampleRound : Round where
  observations :=
    [⟨slowGroup "dp-0" ["r0", "r4"] "inter_node", rfl⟩,
     ⟨slowGroup "ep-0" ["r0", "r1"] "inter_node", rfl⟩,
     ⟨slowGroup "tp-0" ["r5", "r6"] "intra_node", rfl⟩,
     ⟨slowGroup "tp-1" ["r7", "r8"] "intra_node", rfl⟩]

/-- `r0` is localized, and is not a member of the slow group `tp-0`. -/
theorem sampleRound_unexplained : ¬sampleLocalizer.Holds sampleRound [] := by
  intro h
  have hsuspect : ((sampleLocalizer.observe sampleRound .reset).toOption.bind fun p =>
      p.1.suspect.map EndpointCandidate.fingerprint) = some ("inter_node", .rank, "r0") := by
    decide +kernel
  obtain ⟨⟨v, s'⟩, hok, hmap⟩ := Option.bind_eq_some_iff.mp hsuspect
  obtain ⟨c, hc, hfp⟩ := Option.map_eq_some_iff.mp hmap
  have hexplains := (h v s' (toOption_eq_some_iff.mp hok) c hc).1
  have hslow : ∃ o ∈ sampleLocalizer.slow sampleRound,
      "r0" ∉ sampleLocalizer.resourceSet o := by decide +kernel
  obtain ⟨o, ho, hout⟩ := hslow
  have hincident := (hexplains.all o ho).2
  rw [hfp] at hincident
  exact hout hincident

end LmResiliency.Detection.CommunicationLocalizer
