/-
# Journal — how often each occurrence was attempted

The counts of a campaign, by incident and candidate iteration, and the file that
keeps them across restarts.  The file is replaced atomically under a lock, but only
if it still holds what the caller expects; whatever step fails, the file holds the
old counts or the new ones.
-/
import LmResiliency.FaultInjection.Config
import LmResiliency.Lib.Dict

namespace LmResiliency.FaultInjection

/-! ## Keys -/

def candidateKey (incidentId : String) (iteration : Int) : String :=
  incidentId ++ "@" ++ Text.str iteration

/-- The text behind the last `@`, and the text before it. -/
def rpartitionAt (key : String) : Option (List Char × List Char) :=
  let reversed := key.toList.reverse
  match reversed.dropWhile (· ≠ '@') with
  | [] => none
  | _ :: before => some (before.reverse, (reversed.takeWhile (· ≠ '@')).reverse)

/-- `_validate_candidate_key` -/
def validCandidateKey (key : String) : Bool :=
  match rpartitionAt key with
  | none => false
  | some (incidentId, iteration) =>
      !incidentId.isEmpty &&
        match Text.nat? iteration with
        | none => false
        | some n => 0 < n && iteration = (Text.str n).toList

theorem rpartitionAt_append (before after : List Char) (h : '@' ∉ after) :
    rpartitionAt (String.ofList (before ++ '@' :: after)) = some (before, after) := by
  have hne : ∀ c ∈ after.reverse, decide (c ≠ '@') = true := by
    intro c hc
    refine decide_eq_true fun heq => h ?_
    rw [← heq]
    exact List.mem_reverse.mp hc
  rw [rpartitionAt, String.toList_ofList, List.reverse_append, List.reverse_cons, List.append_assoc,
    List.singleton_append, List.dropWhile_append_of_pos hne, List.takeWhile_append_of_pos hne, List.dropWhile_cons,
    List.takeWhile_cons]
  simp

/-- The key of a named incident and a positive iteration is valid. -/
theorem validCandidateKey_candidateKey {incidentId : String} {iteration : Int}
    (hid : Text.nonBlank incidentId = true) (hpos : 0 < iteration) :
    validCandidateKey (candidateKey incidentId iteration) = true := by
  have hkey : candidateKey incidentId iteration =
      String.ofList (incidentId.toList ++ '@' :: (Text.str iteration).toList) := by
    rw [candidateKey, ← String.toList_inj]
    simp
  have hne : incidentId.toList.isEmpty = false := by
    rw [List.isEmpty_eq_false_iff]
    intro hnil
    obtain rfl : incidentId = "" := String.toList_inj.mp hnil
    revert hid
    decide
  have hnat : Text.nat? (Text.str iteration).toList = some iteration.natAbs := by
    rw [Text.toList_str, if_neg (by omega), List.nil_append]
    exact Text.nat?_toDigits _
  rw [validCandidateKey, hkey, rpartitionAt_append _ _ (Text.notMem_str (by decide) (by decide))]
  have hself : (iteration.natAbs : Int) = iteration := Int.natAbs_of_nonneg hpos.le
  have hnatAbs : 0 < iteration.natAbs := by omega
  simp [hne, hnat, hself, hnatAbs]

theorem candidateKey_inj {left right : String} {iteration : Int}
    (h : candidateKey left iteration = candidateKey right iteration) : left = right := by
  have hlist := congrArg String.toList h
  simp only [candidateKey, String.toList_append] at hlist
  exact String.toList_inj.mp (List.append_cancel_right (List.append_cancel_right hlist))

/-! ## The journal -/

/-- `CampaignJournal` -/
structure CampaignJournal where
  campaign : String
  manifestIdentity : Option String := none
  attempts : List (String × Int) := []
  campaign_ne : campaign ≠ ""
  identity_ne : manifestIdentity ≠ some ""
  keys_nodup : (attempts.map Prod.fst).Nodup
  keys_valid : ∀ item ∈ attempts, validCandidateKey item.1 = true
  counts_pos : ∀ item ∈ attempts, 0 < item.2

namespace CampaignJournal

def attemptCount (journal : CampaignJournal) (incidentId : String) (iteration : Int) : Int :=
  (journal.attempts.lookup (candidateKey incidentId iteration)).getD 0

/-- Put a count under a valid key. -/
def setCount (journal : CampaignJournal) (key : String) (count : Int)
    (hkey : validCandidateKey key = true) (hcount : 0 < count) : CampaignJournal where
  campaign := journal.campaign
  manifestIdentity := journal.manifestIdentity
  attempts := Dict.put journal.attempts (key, count)
  campaign_ne := journal.campaign_ne
  identity_ne := journal.identity_ne
  keys_nodup := Dict.nodup_keys_put journal.keys_nodup _
  keys_valid item hitem := by
    rcases Dict.mem_put.mp hitem with rfl | ⟨hitem, -⟩
    · exact hkey
    · exact journal.keys_valid item hitem
  counts_pos item hitem := by
    rcases Dict.mem_put.mp hitem with rfl | ⟨hitem, -⟩
    · exact hcount
    · exact journal.counts_pos item hitem

theorem lookup_nonneg (journal : CampaignJournal) (key : String) :
    0 ≤ (journal.attempts.lookup key).getD 0 := by
  cases hlookup : journal.attempts.lookup key with
  | none => exact le_refl 0
  | some count => exact (journal.counts_pos _ (Dict.mem_of_lookup hlookup)).le

/-- `record_attempt`; `none` when the key is refused. -/
def recordAttempt (journal : CampaignJournal) (incidentId : String) (iteration : Int) :
    Option (CampaignJournal × Int) :=
  let key := candidateKey incidentId iteration
  if hkey : validCandidateKey key = true then
    let attempt := (journal.attempts.lookup key).getD 0 + 1
    some (journal.setCount key attempt hkey (by have := journal.lookup_nonneg key; omega), attempt)
  else none

/-- `CampaignJournal.from_dict(journal.to_dict())`: a copy with the keys in order. -/
def copy (journal : CampaignJournal) : CampaignJournal where
  campaign := journal.campaign
  manifestIdentity := journal.manifestIdentity
  attempts := journal.attempts.insertionSort fun a b => a.1 ≤ b.1
  campaign_ne := journal.campaign_ne
  identity_ne := journal.identity_ne
  keys_nodup := ((List.perm_insertionSort _ _).map Prod.fst).nodup_iff.mpr journal.keys_nodup
  keys_valid item hitem :=
    journal.keys_valid item ((List.perm_insertionSort _ _).mem_iff.mp hitem)
  counts_pos item hitem :=
    journal.counts_pos item ((List.perm_insertionSort _ _).mem_iff.mp hitem)

/-- `left.to_dict() == right.to_dict()` -/
def sameDict (left right : CampaignJournal) : Bool :=
  left.campaign = right.campaign && left.manifestIdentity = right.manifestIdentity &&
    left.attempts.Perm right.attempts

variable {left middle right : CampaignJournal}

theorem sameDict_iff : left.sameDict right = true ↔ left.campaign = right.campaign ∧
    left.manifestIdentity = right.manifestIdentity ∧ left.attempts.Perm right.attempts := by
  rw [sameDict, Bool.and_eq_true, Bool.and_eq_true, decide_eq_true_iff, decide_eq_true_iff,
    decide_eq_true_iff, and_assoc]

theorem sameDict_refl (journal : CampaignJournal) : journal.sameDict journal = true :=
  sameDict_iff.mpr ⟨rfl, rfl, List.Perm.refl _⟩

theorem sameDict_symm (h : left.sameDict right = true) : right.sameDict left = true := by
  obtain ⟨hcampaign, hidentity, hperm⟩ := sameDict_iff.mp h
  exact sameDict_iff.mpr ⟨hcampaign.symm, hidentity.symm, hperm.symm⟩

theorem sameDict_trans (h : left.sameDict middle = true) (h' : middle.sameDict right = true) :
    left.sameDict right = true := by
  obtain ⟨hcampaign, hidentity, hperm⟩ := sameDict_iff.mp h
  obtain ⟨hcampaign', hidentity', hperm'⟩ := sameDict_iff.mp h'
  exact sameDict_iff.mpr
    ⟨hcampaign.trans hcampaign', hidentity.trans hidentity', hperm.trans hperm'⟩

theorem copy_sameDict (journal : CampaignJournal) : journal.copy.sameDict journal = true :=
  sameDict_iff.mpr ⟨rfl, rfl, List.perm_insertionSort _ _⟩

theorem lookup_eq_of_sameDict (h : left.sameDict right = true) (key : String) :
    left.attempts.lookup key = right.attempts.lookup key := by
  obtain ⟨-, -, hperm⟩ := sameDict_iff.mp h
  cases hlookup : right.attempts.lookup key with
  | some count =>
      have hmem := hperm.mem_iff.mpr (Dict.mem_of_lookup hlookup)
      exact Dict.lookup_of_mem left.keys_nodup hmem
  | none =>
      cases hleft : left.attempts.lookup key with
      | none => rfl
      | some count =>
          have hmem := hperm.mem_iff.mp (Dict.mem_of_lookup hleft)
          rw [Dict.lookup_of_mem right.keys_nodup hmem] at hlookup
          cases hlookup

theorem attemptCount_eq_of_sameDict (h : left.sameDict right = true) (incidentId : String)
    (iteration : Int) :
    left.attemptCount incidentId iteration = right.attemptCount incidentId iteration := by
  rw [attemptCount, attemptCount, lookup_eq_of_sameDict h]

end CampaignJournal

/-! ## The file -/

/-- Where a step of the store may fail; a temporary file is only removed when the replacement
did not take place. -/
inductive StorePoint where
  | lock
  | load
  | makeTemporary
  | writeTemporary
  | replace
  | syncDirectory
  | unlock
deriving DecidableEq

/-- The failures behind `os.replace`. -/
def StorePoint.afterReplace (point : StorePoint) : Bool :=
  point = .syncDirectory ∨ point = .unlock

/-- Why the store raises. -/
inductive StoreError where
  | campaigns
  | otherCampaign
  | os (point : StorePoint)
deriving DecidableEq

/-- `CampaignJournal(campaign)` -/
def emptyJournal (campaign : String) (h : campaign ≠ "") : CampaignJournal where
  campaign := campaign
  manifestIdentity := none
  attempts := []
  campaign_ne := h
  identity_ne := nofun
  keys_nodup := List.nodup_nil
  keys_valid := nofun
  counts_pos := nofun

/-- `_load_unlocked`: the file holds the journal its text is read back as. -/
def loadUnlocked (file : Option CampaignJournal) (campaign : String) (h : campaign ≠ "") :
    Except StoreError CampaignJournal :=
  match file with
  | none => .ok (emptyJournal campaign h)
  | some journal => if journal.campaign = campaign then .ok journal.copy else .error .otherCampaign

/-- `JsonCampaignStateStore.compare_and_swap`, with the step that fails, and the file it leaves. -/
def compareAndSwap (raises : Option StorePoint) (file : Option CampaignJournal)
    (expected updated : CampaignJournal) : Except StoreError Bool × Option CampaignJournal :=
  if expected.campaign ≠ updated.campaign then (.error .campaigns, file)
  else if raises = some .lock then (.error (.os .lock), file)
  else if raises = some .load then (.error (.os .load), file)
  else
    match loadUnlocked file expected.campaign expected.campaign_ne with
    | .error e => (.error e, file)
    | .ok current =>
        if current.sameDict expected then
          match raises with
          | none => (.ok true, some updated.copy)
          | some point =>
              (.error (.os point), if point.afterReplace then some updated.copy else file)
        else (if raises = some .unlock then .error (.os .unlock) else .ok false, file)

/-- The attempt counts that are stored. -/
def storedAttempts (file : Option CampaignJournal) : List (String × Int) :=
  match file with
  | none => []
  | some journal => journal.attempts

/-- The file holds a journal: its text, or no text for a journal without counts. -/
def Holds (file : Option CampaignJournal) (journal : CampaignJournal) : Prop :=
  ∃ current, loadUnlocked file journal.campaign journal.campaign_ne = .ok current ∧
    current.sameDict journal = true

section File

variable {file : Option CampaignJournal} {expected updated : CampaignJournal}

/-- **A swap of what is there** takes place unless a step before the replacement fails. -/
theorem compareAndSwap_holds (raises : Option StorePoint) (h : Holds file expected)
    (hcampaign : expected.campaign = updated.campaign) :
    compareAndSwap raises file expected updated = match raises with
      | none => (.ok true, some updated.copy)
      | some point =>
          (.error (.os point), if point.afterReplace then some updated.copy else file) := by
  obtain ⟨current, hload, hsame⟩ := h
  unfold compareAndSwap
  rw [if_neg (not_not.mpr hcampaign)]
  split
  · rename_i hlock
    rw [hlock]
    rfl
  · split
    · rename_i hload
      rw [hload]
      rfl
    · rw [hload]
      dsimp only
      rw [if_pos hsame]

theorem compareAndSwap_differs (h : ¬ Holds file expected) :
    (compareAndSwap none file expected updated).2 = file := by
  unfold compareAndSwap
  split
  · rfl
  · rw [if_neg nofun, if_neg nofun]
    split
    · rfl
    · rename_i current hload
      split
      · rename_i hsame
        exact absurd ⟨current, hload, hsame⟩ h
      · rfl

theorem holds_some (journal : CampaignJournal) : Holds (some journal.copy) journal := by
  refine ⟨journal.copy.copy, if_pos rfl, ?_⟩
  exact CampaignJournal.sameDict_trans journal.copy.copy_sameDict journal.copy_sameDict

theorem Holds.lookup_eq {journal : CampaignJournal} (h : Holds file journal) (key : String) :
    (storedAttempts file).lookup key = journal.attempts.lookup key := by
  obtain ⟨current, hload, hsame⟩ := h
  rw [← CampaignJournal.lookup_eq_of_sameDict hsame key]
  unfold loadUnlocked at hload
  split at hload
  · rw [← Except.ok.inj hload]
    rfl
  · rename_i stored
    split at hload
    · rw [← Except.ok.inj hload]
      exact (CampaignJournal.lookup_eq_of_sameDict stored.copy_sameDict key).symm
    · cases hload

end File

end LmResiliency.FaultInjection
