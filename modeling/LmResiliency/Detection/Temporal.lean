/-
# Temporal — timings that are compared with earlier ones

A store keeps, for each key, the last timings of every peer and of the group.
`observe_clean` adds a round and drops the keys that were not observed for longest;
`assess` compares a round with what is kept.  `state_dict` saves the store as
plain values, and `load_state_dict` reads such values back, whatever they are.

Timings are exact numbers.

The main result is `restored_answers`: a restored store answers every later call
as the saved one does.
-/
import LmResiliency.Detection.ReplayMerge
import LmResiliency.Lib.Dict
import Mathlib.Data.List.TakeDrop

namespace LmResiliency.Detection.Temporal

/-! ## Plain values -/

/-- A value of a saved state. -/
inductive PyValue where
  | none
  | bool (b : Bool)
  /-- an integer or a finite float -/
  | num (q : ℚ)
  /-- an infinity or NaN -/
  | nonFinite
  | str (s : String)
  | list (vs : List PyValue)
  | dict (items : List (PyValue × PyValue))
  /-- a value of any other type, which counts as true -/
  | other

namespace PyValue

/-- `value or default`: whether the value is taken. -/
def truthy : PyValue → Bool
  | .none => false
  | .bool b => b
  | .num q => q ≠ 0
  | .nonFinite => true
  | .str s => s ≠ ""
  | .list vs => !vs.isEmpty
  | .dict items => !items.isEmpty
  | .other => true

/-- Whether a key is a given text. -/
def isText (name : String) : PyValue → Bool
  | .str s => s = name
  | _ => false

/-- `d.get(name)` -/
def get (items : List (PyValue × PyValue)) (name : String) : PyValue :=
  match items.find? fun item => item.1.isText name with
  | some item => item.2
  | Option.none => .none

/-- `value == n` -/
def equals (n : ℚ) : PyValue → Bool
  | .num q => q = n
  | .bool b => n = if b then 1 else 0
  | _ => false

end PyValue

/-- `xs[-n:]` -/
def lastItems {α : Type} (n : Int) (xs : List α) : List α :=
  if 0 < n then xs.drop (xs.length - n.toNat) else xs.drop (-n).toNat

/-! ## The store -/

/-- `TemporalAssessment` -/
structure TemporalAssessment where
  rankBitmap : List Int
  groupSlowdown : Bool
deriving DecidableEq

/-- `_Baseline` -/
structure Baseline where
  peerWindows : List (List ℚ)
  groupWindow : List ℚ
deriving DecidableEq

/-- The configuration of a store, with what the constructor checks. -/
structure Config where
  windowSize : Int := 32
  minSamples : Int := 5
  slowdownRatio : ℚ := 5 / 4
  thresholdSigma : ℚ := 4
  maxKeys : Int := 256
  window_pos : 1 ≤ windowSize := by decide
  samples_bounds : 1 ≤ minSamples ∧ minSamples ≤ windowSize := by decide
  ratio_gt : 1 < slowdownRatio := by decide +kernel

/-- `_baselines`, the key that was observed last at the end. -/
abbrev Store : Type := List (String × Baseline)

/-- What the calls raise. -/
inductive TemporalError where
  /-- `KeyError('dictionary is empty')` -/
  | emptyDictionary
  /-- a call of `.items()` on something else -/
  | noItems
deriving DecidableEq

variable (c : Config)

def isSlow (value : ℚ) (history : List ℚ) : Bool :=
  if (history.length : Int) < c.minSamples then false
  else
    let center := statisticsMedian history
    let mad := statisticsMedian (history.map fun sample => |sample - center|)
    let robustSigma := 7413 / 5000 * mad
    max (center * c.slowdownRatio) (center + c.thresholdSigma * robustSigma) < value

def assess (store : Store) (key : String) (timesMs : List ℚ) : TemporalAssessment :=
  match store.lookup key with
  | none => ⟨timesMs.map fun _ => 0, false⟩
  | some baseline =>
      if baseline.peerWindows.length ≠ timesMs.length then ⟨timesMs.map fun _ => 0, false⟩
      else
        { rankBitmap := List.zipWith (fun value history => if isSlow c value history then 1 else 0)
            timesMs baseline.peerWindows
          groupSlowdown :=
            isSlow c (if timesMs = [] then 0 else statisticsMedian timesMs) baseline.groupWindow }

/-- A value is added to a window. -/
def push (history : List ℚ) (value : ℚ) : List ℚ := lastItems c.windowSize (history ++ [value])

/-- The baseline that a round is added to. -/
def baselineFor (store : Store) (key : String) (n : Nat) : Baseline :=
  match store.lookup key with
  | none => ⟨List.replicate n [], []⟩
  | some baseline =>
      if baseline.peerWindows.length ≠ n then ⟨List.replicate n [], []⟩ else baseline

/-- A round is added to a baseline. -/
def Baseline.add (baseline : Baseline) (timesMs : List ℚ) : Baseline where
  peerWindows := List.zipWith (push c) baseline.peerWindows timesMs
  groupWindow := push c baseline.groupWindow (statisticsMedian timesMs)

/-- The keys that were not observed for longest are dropped; of a negative number there are
never enough. -/
def evict : Store → Store × Option TemporalError
  | [] => ([], if c.maxKeys < 0 then some .emptyDictionary else none)
  | item :: rest =>
      if c.maxKeys < (item :: rest).length then evict rest else (item :: rest, none)

/-- The rounds that are added. -/
def Clean (timesMs : List ℚ) : Prop := timesMs ≠ [] ∧ ∀ value ∈ timesMs, 0 ≤ value

instance (timesMs : List ℚ) : Decidable (Clean timesMs) := by
  unfold Clean
  infer_instance

def observeClean (store : Store) (key : String) (timesMs : List ℚ) :
    Store × Option TemporalError :=
  if Clean timesMs then
    let baseline := (baselineFor store key timesMs.length).add c timesMs
    evict c (store.filter (·.1 ≠ key) ++ [(key, baseline)])
  else (store, none)

/-! ## Saving and loading -/

/-- A window, as it is saved. -/
def savedHistory (history : List ℚ) : PyValue :=
  .list ((lastItems c.windowSize history).map .num)

def savedBaseline (baseline : Baseline) : PyValue :=
  .dict [(.str "peers", .list (baseline.peerWindows.map (savedHistory c))),
    (.str "group", savedHistory c baseline.groupWindow)]

def stateDict (store : Store) : List (PyValue × PyValue) :=
  [(.str "version", .num 1),
    (.str "baselines", .dict (store.map fun item => (.str item.1, savedBaseline c item.2)))]

/-- `isinstance(value, (int, float)) and math.isfinite(value) and value >= 0`, as a float -/
def validSample : PyValue → Option ℚ
  | .num q => if 0 ≤ q then some q else none
  | .bool b => some (if b then 1 else 0)
  | _ => none

def validHistory : PyValue → List ℚ
  | .list vs => (lastItems c.windowSize vs).filterMap validSample
  | _ => []

/-- One item of the saved baselines. -/
def validBaseline : PyValue × PyValue → Option (String × Baseline)
  | (.str key, .dict raw) =>
      match PyValue.get raw "peers", PyValue.get raw "group" with
      | .list peers, .list group =>
          some (key, ⟨peers.map (validHistory c), validHistory c (.list group)⟩)
      | _, _ => none
  | _ => none

/-- The items of the saved baselines. -/
def savedItems (state : List (PyValue × PyValue)) :
    Except TemporalError (List (PyValue × PyValue)) :=
  let baselines := PyValue.get state "baselines"
  if baselines.truthy then
    match baselines with
    | .dict items => .ok items
    | _ => .error .noItems
  else .ok []

/-- `load_state_dict`, of `None` or a dict. -/
def loadStateDict (store : Store) (state : Option (List (PyValue × PyValue))) :
    Except TemporalError Store :=
  match state with
  | none => .ok store
  | some state =>
      if state = [] ∨ !(PyValue.get state "version").equals 1 then .ok store
      else do
        let items ← savedItems state
        return Dict.ofItems ((lastItems c.maxKeys items).filterMap (validBaseline c))

/-! ## The last items of a list -/

section LastItems

variable {α β : Type} {n : Int} {xs : List α}

theorem lastItems_eq_self (h : (xs.length : Int) ≤ max n 0) : lastItems n xs = xs := by
  unfold lastItems
  split
  · rw [show xs.length - n.toNat = 0 by omega, List.drop_zero]
  · have hnil : xs = [] := List.length_eq_zero_iff.mp (by omega)
    rw [hnil, List.drop_nil]

theorem length_lastItems_le (hn : 1 ≤ n) : ((lastItems n xs).length : Int) ≤ n := by
  rw [lastItems, if_pos (by omega), List.length_drop]
  omega

theorem lastItems_suffix (n : Int) (xs : List α) : lastItems n xs <:+ xs := by
  unfold lastItems
  split <;> exact List.drop_suffix _ _

theorem lastItems_map (f : α → β) : lastItems n (xs.map f) = (lastItems n xs).map f := by
  unfold lastItems
  split <;> rw [List.map_drop]
  rw [List.length_map]

/-- Adding to the last items is adding to all of them. -/
theorem lastItems_push (hn : 1 ≤ n) (v : α) :
    lastItems n (lastItems n xs ++ [v]) = lastItems n (xs ++ [v]) := by
  have hpos : 0 < n := by omega
  rw [lastItems, lastItems, lastItems, if_pos hpos, if_pos hpos, if_pos hpos,
    List.length_append, List.length_append, List.length_drop, List.length_singleton]
  by_cases hshort : xs.length < n.toNat
  · rw [show xs.length - n.toNat = 0 by omega, List.drop_zero, Nat.sub_zero]
  · rw [show xs.length - (xs.length - n.toNat) + 1 - n.toNat = 1 by omega,
      List.drop_append_of_le_length (by rw [List.length_drop]; omega),
      List.drop_append_of_le_length (by omega), List.drop_drop,
      show xs.length - n.toNat + 1 = xs.length + 1 - n.toNat by omega]

end LastItems

/-! ## What a store has kept -/

/-- The clean rounds of a key. -/
def cleanRounds (calls : List (String × List ℚ)) (key : String) : List (List ℚ) :=
  (calls.filter fun call => call.1 = key ∧ Clean call.2).map Prod.snd

variable {c}

/-- A baseline is what the rounds have left. -/
structure Records (c : Config) (rounds : List (List ℚ)) (baseline : Baseline) : Prop where
  width : ∀ times ∈ rounds, times.length = baseline.peerWindows.length
  peers : baseline.peerWindows = (List.range baseline.peerWindows.length).map fun i =>
    lastItems c.windowSize (rounds.map (·.getD i 0))
  group : baseline.groupWindow = lastItems c.windowSize (rounds.map statisticsMedian)

/-- What a store has kept of the calls: the most recent rounds of some keys. -/
structure Kept (c : Config) (calls : List (String × List ℚ)) (store : Store) : Prop where
  keys : (store.map Prod.fst).Nodup
  size : (store.length : Int) ≤ max c.maxKeys 0
  recorded : ∀ item ∈ store, ∃ rounds, rounds <:+ cleanRounds calls item.1 ∧
    Records c rounds item.2

/-- A round is recorded with the rounds before it. -/
theorem Records.add {rounds : List (List ℚ)} {baseline : Baseline}
    (h : Records c rounds baseline) {times : List ℚ}
    (hwidth : times.length = baseline.peerWindows.length) :
    Records c (rounds ++ [times]) (baseline.add c times) := by
  have hlength : (baseline.add c times).peerWindows.length = baseline.peerWindows.length := by
    rw [Baseline.add, List.length_zipWith, hwidth, Nat.min_self]
  refine ⟨fun r hr => ?_, ?_, ?_⟩
  · rw [hlength]
    rcases List.mem_append.mp hr with hr | hr
    · exact h.width r hr
    · rw [List.mem_singleton.mp hr, hwidth]
  · rw [hlength]
    refine List.ext_getElem? fun i => ?_
    rw [Baseline.add, List.getElem?_zipWith, List.getElem?_map]
    by_cases hi : i < baseline.peerWindows.length
    · have hpeer : baseline.peerWindows[i]? =
          some (lastItems c.windowSize (rounds.map (·.getD i 0))) := by
        rw [h.peers, List.getElem?_map, List.getElem?_range hi, Option.map_some]
      have hvalue : times[i]? = some (times.getD i 0) := by
        rw [List.getD_eq_getElem?_getD, List.getElem?_eq_getElem (hwidth ▸ hi), Option.getD_some]
      rw [hpeer, List.getElem?_range hi, hvalue]
      simp only [Option.map_some, push, List.map_append, List.map_singleton]
      rw [lastItems_push c.window_pos]
    · have hle : baseline.peerWindows.length ≤ i := Nat.not_lt.mp hi
      have hrange : (List.range baseline.peerWindows.length)[i]? = none :=
        List.getElem?_eq_none (by rw [List.length_range]; exact hle)
      rw [List.getElem?_eq_none hle, hrange]
      rfl
  · rw [Baseline.add, push, h.group, lastItems_push c.window_pos, List.map_append,
      List.map_singleton]

theorem records_nil (n : Nat) : Records c [] ⟨List.replicate n [], []⟩ := by
  have hnil : lastItems c.windowSize ([] : List ℚ) = [] := List.eq_nil_of_suffix_nil
    (lastItems_suffix _ _)
  refine ⟨fun _ h => (List.not_mem_nil h).elim, ?_, ?_⟩
  · simp only [List.length_replicate, List.map_nil, hnil]
    rw [List.map_const', List.length_range]
  · exact hnil.symm

/-! ## One call -/

theorem evict_spec (c : Config) (store : Store) :
    (evict c store).1 <:+ store ∧ ((evict c store).1.length : Int) ≤ max c.maxKeys 0 := by
  induction store with
  | nil => exact ⟨List.suffix_refl _, le_max_right _ _⟩
  | cons item rest ih =>
      rw [evict]
      split
      · exact ⟨ih.1.trans (List.suffix_cons item rest), ih.2⟩
      · rename_i h
        exact ⟨List.suffix_refl _, le_max_of_le_left (Int.not_lt.mp h)⟩

theorem cleanRounds_append_of_ne {calls : List (String × List ℚ)} {key other : String}
    {times : List ℚ} (h : ¬(key = other ∧ Clean times)) :
    cleanRounds (calls ++ [(key, times)]) other = cleanRounds calls other := by
  rw [cleanRounds, List.filter_append, List.filter_cons_of_neg (by simpa using h),
    List.filter_nil, List.append_nil, cleanRounds]

theorem cleanRounds_append_of_clean {calls : List (String × List ℚ)} {key : String}
    {times : List ℚ} (h : Clean times) :
    cleanRounds (calls ++ [(key, times)]) key = cleanRounds calls key ++ [times] := by
  rw [cleanRounds, List.filter_append, List.filter_cons_of_pos (by simpa using h),
    List.filter_nil, List.map_append, cleanRounds]
  rfl

/-- The baseline that a round is added to has kept the rounds before it, or none. -/
theorem records_baselineFor {calls : List (String × List ℚ)} {store : Store}
    (h : Kept c calls store) (key : String) (n : Nat) :
    (baselineFor store key n).peerWindows.length = n ∧
      ∃ rounds, rounds <:+ cleanRounds calls key ∧ Records c rounds (baselineFor store key n) := by
  have hnew : (⟨List.replicate n [], []⟩ : Baseline).peerWindows.length = n ∧
      ∃ rounds, rounds <:+ cleanRounds calls key ∧
        Records c rounds ⟨List.replicate n [], []⟩ :=
    ⟨List.length_replicate, [], List.nil_suffix, records_nil n⟩
  unfold baselineFor
  split
  · exact hnew
  · rename_i baseline hlookup
    split
    · exact hnew
    · rename_i hlength
      exact ⟨not_not.mp hlength, h.recorded _ (Dict.mem_of_lookup hlookup)⟩

/-- One call keeps the most recent rounds. -/
theorem kept_observeClean {calls : List (String × List ℚ)} {store : Store}
    (h : Kept c calls store) (key : String) (times : List ℚ) :
    Kept c (calls ++ [(key, times)]) (observeClean c store key times).1 := by
  rw [observeClean]
  split
  · rename_i hclean
    dsimp only
    obtain ⟨hwidth, rounds, hsuffix, hrecords⟩ := records_baselineFor h key times.length
    obtain ⟨hevicted, hsize⟩ := evict_spec c
      (store.filter (·.1 ≠ key) ++ [(key, (baselineFor store key times.length).add c times)])
    refine ⟨?_, hsize, fun item hitem => ?_⟩
    · refine (hevicted.sublist.map Prod.fst).nodup ?_
      rw [List.map_append, List.map_singleton, List.nodup_append]
      refine ⟨(List.filter_sublist.map Prod.fst).nodup h.keys, List.pairwise_singleton _ _, ?_⟩
      rintro k hk k' hk' rfl
      obtain ⟨item, hitem, hkey⟩ := List.mem_map.mp hk
      have hne := of_decide_eq_true (List.mem_filter.mp hitem).2
      exact hne (hkey.trans (List.mem_singleton.mp hk'))
    · rcases List.mem_append.mp (hevicted.subset hitem) with hitem | hitem
      · obtain ⟨hin, hne⟩ := List.mem_filter.mp hitem
        have hother : item.1 ≠ key := of_decide_eq_true hne
        rw [cleanRounds_append_of_ne fun h => hother h.1.symm]
        exact h.recorded item hin
      · rw [List.mem_singleton.mp hitem]
        refine ⟨rounds ++ [times], ?_, hrecords.add hwidth.symm⟩
        rw [cleanRounds_append_of_clean hclean]
        exact List.suffix_append_self_iff.mpr hsuffix
  · rename_i hnot
    refine ⟨h.keys, h.size, fun item hitem => ?_⟩
    rw [cleanRounds_append_of_ne fun h => hnot h.2]
    exact h.recorded item hitem

/-- The store after the calls; a call that raises has dropped all keys. -/
def storeAfter (c : Config) (calls : List (String × List ℚ)) : Store :=
  calls.foldl (fun store call => (observeClean c store call.1 call.2).1) []

/-- Every store keeps the most recent rounds. -/
theorem kept_storeAfter (c : Config) (calls : List (String × List ℚ)) :
    Kept c calls (storeAfter c calls) := by
  induction calls using List.reverseRecOn with
  | nil => exact ⟨List.nodup_nil, le_max_right _ _, fun _ h => (List.not_mem_nil h).elim⟩
  | append_singleton calls call ih =>
      rw [storeAfter, List.foldl_append]
      exact kept_observeClean ih call.1 call.2

/-! ## Restoring -/

/-- A window that is read back as it was. -/
def Valid (c : Config) (history : List ℚ) : Prop :=
  (history.length : Int) ≤ c.windowSize ∧ ∀ value ∈ history, 0 ≤ value

theorem validHistory_saved {history : List ℚ} (h : Valid c history) :
    validHistory c (savedHistory c history) = history := by
  have hkeep : lastItems c.windowSize history = history :=
    lastItems_eq_self (le_max_of_le_left h.1)
  rw [savedHistory, validHistory, lastItems_map, hkeep, hkeep, List.filterMap_map]
  calc history.filterMap (validSample ∘ .num)
      = history.filterMap some :=
        List.filterMap_congr fun value hvalue => if_pos (h.2 value hvalue)
    _ = history := List.filterMap_some

theorem statisticsMedian_nonneg {values : List ℚ} (h : ∀ value ∈ values, 0 ≤ value) :
    0 ≤ statisticsMedian values := by
  have hget : ∀ i, 0 ≤ (sorted values).getD i 0 := by
    intro i
    rw [List.getD_eq_getElem?_getD]
    cases hi : (sorted values)[i]? with
    | none => exact le_refl _
    | some value =>
        refine h value ?_
        exact (List.perm_insertionSort _ values).mem_iff.mp (List.mem_of_getElem? hi)
  unfold statisticsMedian
  split
  · exact hget _
  · exact div_nonneg (add_nonneg (hget _) (hget _)) (by norm_num)

theorem clean_of_mem {calls : List (String × List ℚ)} {key : String} {times : List ℚ}
    (h : times ∈ cleanRounds calls key) : Clean times := by
  obtain ⟨call, hcall, rfl⟩ := List.mem_map.mp h
  exact (of_decide_eq_true (List.mem_filter.mp hcall).2).2

/-- **The windows that a store keeps** are short, and without negative values. -/
theorem Records.valid {calls : List (String × List ℚ)} {key : String} {rounds : List (List ℚ)}
    {baseline : Baseline} (h : Records c rounds baseline)
    (hsuffix : rounds <:+ cleanRounds calls key) :
    (∀ window ∈ baseline.peerWindows, Valid c window) ∧ Valid c baseline.groupWindow := by
  have hclean : ∀ times ∈ rounds, ∀ value ∈ times, 0 ≤ value := fun times htimes =>
    (clean_of_mem (hsuffix.subset htimes)).2
  have hlast : ∀ f : List ℚ → ℚ, (∀ times ∈ rounds, 0 ≤ f times) →
      Valid c (lastItems c.windowSize (rounds.map f)) := by
    intro f hf
    refine ⟨length_lastItems_le c.window_pos, fun value hvalue => ?_⟩
    obtain ⟨times, htimes, rfl⟩ := List.mem_map.mp ((lastItems_suffix _ _).subset hvalue)
    exact hf times htimes
  constructor
  · intro window hwindow
    rw [h.peers] at hwindow
    obtain ⟨i, -, rfl⟩ := List.mem_map.mp hwindow
    refine hlast _ fun times htimes => ?_
    rw [List.getD_eq_getElem?_getD]
    cases hi : times[i]? with
    | none => exact le_refl _
    | some value => exact hclean times htimes value (List.mem_of_getElem? hi)
  · rw [h.group]
    exact hlast _ fun times htimes => statisticsMedian_nonneg (hclean times htimes)

theorem validBaseline_saved {key : String} {baseline : Baseline}
    (hpeers : ∀ window ∈ baseline.peerWindows, Valid c window)
    (hgroup : Valid c baseline.groupWindow) :
    validBaseline c (.str key, savedBaseline c baseline) = some (key, baseline) := by
  have hwindows : (baseline.peerWindows.map (savedHistory c)).map (validHistory c) =
      baseline.peerWindows := by
    rw [List.map_map]
    exact (List.map_congr_left fun window hwindow =>
      validHistory_saved (hpeers window hwindow)).trans (List.map_id _)
  have hsaved := validHistory_saved hgroup
  rw [savedHistory] at hsaved
  simp only [savedBaseline, savedHistory, validBaseline, PyValue.get, PyValue.isText,
    List.find?_cons, decide_true] at hwindows ⊢
  simp only [show ("peers" = "group") = False by simp, decide_false, hsaved, hwindows]

/-- **A store is restored from what it saved.** -/
theorem loadStateDict_stateDict {calls : List (String × List ℚ)} {store : Store}
    (h : Kept c calls store) (other : Store) :
    loadStateDict c other (some (stateDict c store)) = .ok store := by
  have hitems : savedItems (stateDict c store) =
      .ok (store.map fun item => (.str item.1, savedBaseline c item.2)) := by
    have hget : PyValue.get (stateDict c store) "baselines" =
        .dict (store.map fun item => (.str item.1, savedBaseline c item.2)) := rfl
    rw [savedItems, hget]
    cases store with
    | nil => rfl
    | cons item store => rfl
  have hkeep : lastItems c.maxKeys
      (store.map fun item => (PyValue.str item.1, savedBaseline c item.2)) =
      store.map fun item => (.str item.1, savedBaseline c item.2) :=
    lastItems_eq_self (by rw [List.length_map]; exact h.size)
  have hread : (store.map fun item => (PyValue.str item.1, savedBaseline c item.2)).filterMap
      (validBaseline c) = store := by
    rw [List.filterMap_map]
    calc store.filterMap (validBaseline c ∘ fun item => (.str item.1, savedBaseline c item.2))
        = store.filterMap some := by
          refine List.filterMap_congr fun item hitem => ?_
          obtain ⟨rounds, hsuffix, hrecords⟩ := h.recorded item hitem
          obtain ⟨hpeers, hgroup⟩ := hrecords.valid hsuffix
          exact validBaseline_saved hpeers hgroup
      _ = store := List.filterMap_some
  rw [loadStateDict, if_neg (by simp [stateDict, PyValue.get, PyValue.isText, PyValue.equals]),
    hitems]
  exact congrArg Except.ok (by rw [hkeep, hread, Dict.ofItems_of_nodup h.keys])

/-! ## What follows -/

/-- A call of a store. -/
inductive Call where
  | observeClean (key : String) (timesMs : List ℚ)
  | assess (key : String) (timesMs : List ℚ)

/-- What a call gives. -/
inductive Answer where
  | observed (error : Option TemporalError)
  | assessed (assessment : TemporalAssessment)
deriving DecidableEq

/-- The store after a call, and what the call gives. -/
def serve (c : Config) (store : Store) : Call → Store × Answer
  | .observeClean key timesMs =>
      ((observeClean c store key timesMs).1, .observed (observeClean c store key timesMs).2)
  | .assess key timesMs => (store, .assessed (assess c store key timesMs))

/-- What some calls give, one after another. -/
def answers (c : Config) : Store → List Call → List Answer
  | _, [] => []
  | store, call :: calls => (serve c store call).2 :: answers c (serve c store call).1 calls

/-- **Restored baselines behave as the originals.**  A store that loads what another one of its
configuration has saved gives the same answers ever after.  And a store holds no more keys than
it may, and of each peer at most as many timings as the window has, those of the last clean
rounds of the key. -/
theorem restored_answers (c : Config) (calls : List (String × List ℚ)) :
    (∃ restored, loadStateDict c [] (some (stateDict c (storeAfter c calls))) = .ok restored ∧
      (∀ key timesMs,
        assess c restored key timesMs = assess c (storeAfter c calls) key timesMs) ∧
      ∀ later, answers c restored later = answers c (storeAfter c calls) later) ∧
    ((storeAfter c calls).length : Int) ≤ max c.maxKeys 0 ∧
    ∀ item ∈ storeAfter c calls,
      (∀ window ∈ item.2.peerWindows, (window.length : Int) ≤ c.windowSize) ∧
      ∃ rounds, rounds <:+ cleanRounds calls item.1 ∧ Records c rounds item.2 := by
  have hkept := kept_storeAfter c calls
  refine ⟨⟨_, loadStateDict_stateDict hkept [], fun _ _ => rfl, fun _ => rfl⟩, hkept.size,
    fun item hitem => ?_⟩
  obtain ⟨rounds, hsuffix, hrecords⟩ := hkept.recorded item hitem
  exact ⟨fun window hwindow => ((hrecords.valid hsuffix).1 window hwindow).1,
    rounds, hsuffix, hrecords⟩

/-- No store holds fewer keys than none, whatever the configuration says. -/
theorem negative_max_keys :
    ¬((storeAfter { maxKeys := -1 } []).length : Int) ≤ ({ maxKeys := -1 } : Config).maxKeys := by
  decide

end LmResiliency.Detection.Temporal
