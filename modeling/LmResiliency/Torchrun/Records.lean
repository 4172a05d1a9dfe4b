/-
# Records — what the decoders make of what the methods write

Every text that a method writes is the canonical text of a record, and its
decoder gives the record back.  For the registration log this is a
statement about the whole log: a log of records decodes, if it decodes at
all, to the distinct nodes in the order of their first records.
-/
import LmResiliency.Lib.Dict
import LmResiliency.Lib.JsonText
import LmResiliency.Torchrun.PlanStore

namespace LmResiliency.Torchrun

/-! ## Generations and plans -/

theorem decodeGeneration_str {g : Int} (hg : 0 ≤ g) :
    decodeGeneration (Text.str g) = .ok g := by
  rw [decodeGeneration, Text.int?_str]
  exact if_neg (Int.not_lt.mpr hg)

theorem decodePlan_toJson {runId : String} {p : RestartPlan} (hr : p.runId = runId) :
    decodePlan runId p.toJson p.toGeneration = .ok p := by
  obtain ⟨ms, hms, hp⟩ := p.loads_toJson
  simp only [decodePlan, hms, hp, ne_eq, not_true_eq_false, if_false, hr, or_self]

/-- What decodes is canonical: a text that decodes to a plan is that
plan's text. -/
theorem decodePlan_eq_ok {runId encoded : String} {g : Int} {p : RestartPlan}
    (h : decodePlan runId encoded g = .ok p) :
    encoded = p.toJson ∧ p.runId = runId ∧ p.toGeneration = g := by
  rw [decodePlan] at h
  split at h
  · split at h
    · cases h
    · split at h
      · cases h
      · split at h
        · cases h
        · rename_i hjson hid
          cases h
          rw [not_or, not_not, not_not] at hid
          exact ⟨(not_not.mp hjson).symm, hid.1, hid.2⟩
  · cases h

/-! ## Registrations -/

/-- A registration that `register_node` appends. -/
structure Registration where
  nodeId : String
  agentId : String
  nodeId_nonBlank : Text.nonBlank nodeId = true
  nodeId_strip : Text.strip nodeId = nodeId
  agentId_nonBlank : Text.nonBlank agentId = true
  agentId_strip : Text.strip agentId = agentId

namespace Registration

def record (r : Registration) : List (String × Json) := registrationRecord r.nodeId r.agentId

/-- The line of a registration, without its line feed. -/
def line (r : Registration) : String := canonicalJson r.record

theorem keys_record (r : Registration) :
    Json.keys r.record = ["agent_id", "node_id", "schema_version"] := rfl

theorem plain_record (r : Registration) : Json.Plain (.obj r.record) := by
  refine ⟨by rw [keys_record]; decide, ?_⟩
  simp only [record, registrationRecord, Json.PlainMembers, Json.Plain, and_self]

theorem canon_record (r : Registration) : Json.canon (.obj r.record) = .obj r.record := by
  refine Json.canon_obj_eq_self (by rw [keys_record]; decide) fun m hm => ?_
  simp only [record, registrationRecord, List.mem_cons, List.not_mem_nil, or_false] at hm
  rcases hm with rfl | rfl | rfl <;> rfl

theorem decode_line (r : Registration) :
    decodeRegistration r.line = .ok (r.nodeId, r.agentId) := by
  have hl : Json.loads r.line = some (.obj r.record) := by
    rw [line, canonicalJson, Json.loads_dumps r.plain_record, r.canon_record]
  have hr : recordWith ["agent_id", "node_id", "schema_version"] (.obj r.record) =
      some r.record := rfl
  have hn : nonemptyField (Json.get? "node_id" r.record) "node_id" = .ok r.nodeId := by
    change nonempty r.nodeId "node_id" = .ok r.nodeId
    rw [nonempty, if_pos r.nodeId_nonBlank, r.nodeId_strip]
  have ha : nonemptyField (Json.get? "agent_id" r.record) "agent_id" = .ok r.agentId := by
    change nonempty r.agentId "agent_id" = .ok r.agentId
    rw [nonempty, if_pos r.agentId_nonBlank, r.agentId_strip]
  simp only [decodeRegistration, hl, hr, hn, ha]
  rw [line]
  exact if_neg (not_not.mpr rfl)

end Registration

/-- The log of some registrations, in the order of their appends. -/
def logText (rs : List Registration) : String :=
  String.ofList (rs.flatMap fun r => r.line.toList ++ ['\n'])

theorem logText_singleton (r : Registration) : logText [r] = r.line ++ "\n" := by
  apply String.toList_inj.mp
  simp only [logText, String.toList_append, String.toList_ofList, List.flatMap_cons,
    List.flatMap_nil, List.append_nil]
  rfl

theorem logText_nil : logText [] = "" := rfl

theorem logText_concat (rs rs' : List Registration) :
    logText (rs ++ rs') = logText rs ++ logText rs' := by
  simp only [logText, List.flatMap_append, String.ofList_append]

/-- A line without line breaks is split off whole. -/
theorem splitLinesFrom_line {cs : List Char} (h : ∀ c ∈ cs, c ≠ '\n' ∧ c ≠ '\r')
    (line rest : List Char) :
    splitLinesFrom line (cs ++ '\n' :: rest) =
      (line.reverse ++ cs) :: splitLinesFrom [] rest := by
  induction cs generalizing line with
  | nil => simp [splitLinesFrom]
  | cons c cs ih =>
      obtain ⟨hn, hr⟩ := h c List.mem_cons_self
      rw [List.cons_append, splitLinesFrom, ih fun d hd => h d (List.mem_cons_of_mem _ hd)]
      · simp
      · exact fun _ hc _ => hr hc
      · exact hr
      · exact hn

theorem splitLines_logText (rs : List Registration) :
    splitLines (logText rs) = rs.map Registration.line := by
  rw [splitLines, logText, String.toList_ofList]
  induction rs with
  | nil => rfl
  | cons r rs ih =>
      have hline : ∀ c ∈ r.line.toList, c ≠ '\n' ∧ c ≠ '\r' := fun c hc => by
        have hp : Json.Printable c := Json.printable_dumps r.plain_record c hc
        constructor <;> (rintro rfl; exact absurd hp (by decide))
      rw [List.flatMap_cons, List.append_assoc, List.singleton_append,
        splitLinesFrom_line hline, List.map_cons, ih, List.reverse_nil, List.nil_append,
        String.ofList_toList, List.map_cons]

theorem Registration.line_injective {r r' : Registration} (h : r.line = r'.line) : r = r' := by
  have hd := r.decode_line
  rw [h, r'.decode_line] at hd
  simp only [Except.ok.injEq, Prod.mk.injEq] at hd
  cases r
  cases r'
  simp_all

theorem logText_injective {rs rs' : List Registration} (h : logText rs = logText rs') :
    rs = rs' := by
  have hs : splitLines (logText rs) = splitLines (logText rs') := congrArg splitLines h
  rw [splitLines_logText, splitLines_logText] at hs
  exact List.map_injective_iff.mpr (fun _ _ => Registration.line_injective) hs

/-- The nodes of a log, each at its first record. -/
def distinctNodes (rs : List Registration) : List String :=
  (rs.map Registration.nodeId).eraseDups

theorem eraseDups_concat (ns : List String) (n : String) :
    (ns ++ [n]).eraseDups = if n ∈ ns then ns.eraseDups else ns.eraseDups ++ [n] := by
  rw [List.eraseDups_append]
  by_cases h : n ∈ ns
  · simp [List.removeAll, h]
  · simp [List.removeAll, h, List.eraseDups_cons]

/-- The nodes of a longer log extend those of a shorter one. -/
theorem distinctNodes_append (rs rs' : List Registration) :
    distinctNodes rs <+: distinctNodes (rs ++ rs') := by
  rw [distinctNodes, distinctNodes, List.map_append, List.eraseDups_append]
  exact List.prefix_append _ _

theorem distinctNodes_nodup (rs : List Registration) : (distinctNodes rs).Nodup := by
  induction rs using List.reverseRecOn with
  | nil => exact List.nodup_nil
  | append_singleton rs r ih =>
      rw [distinctNodes, List.map_append, List.map_singleton, eraseDups_concat]
      split
      · exact ih
      · rename_i h
        refine List.nodup_append.mpr ⟨ih, List.nodup_singleton _, ?_⟩
        intro a ha b hb hab
        rw [List.mem_singleton.mp hb] at hab
        subst hab
        exact h (List.mem_eraseDups.mp ha)

theorem mem_distinctNodes {rs : List Registration} {n : String} :
    n ∈ distinctNodes rs ↔ ∃ r ∈ rs, r.nodeId = n := by
  rw [distinctNodes, List.mem_eraseDups, List.mem_map]

/-- **The scan of a log**: `seen` are the nodes already scanned. -/
theorem scanRegistrations_nodes (rs : List Registration) (seen : List String)
    {acc out : List (String × String)} (hacc : acc.map Prod.fst = seen.eraseDups)
    (h : scanRegistrations (rs.map Registration.line) acc = .ok out) :
    out.map Prod.fst = (seen ++ rs.map Registration.nodeId).eraseDups := by
  induction rs generalizing seen acc with
  | nil =>
      cases h
      simpa using hacc
  | cons r rs ih =>
      have hmem : acc.lookup r.nodeId = none ↔ r.nodeId ∉ seen := by
        rw [Dict.lookup_eq_none_iff, hacc, List.mem_eraseDups]
      rw [List.map_cons, scanRegistrations, r.decode_line] at h
      simp only [bind, Except.bind] at h
      rw [List.map_cons, ← List.singleton_append, ← List.append_assoc]
      split at h
      · cases h
      · split at h
        · cases h
        · split at h
          · rename_i hnew
            refine ih (seen ++ [r.nodeId]) ?_ h
            rw [List.map_append, hacc, eraseDups_concat, if_neg (hmem.mp hnew)]
            rfl
          · rename_i hold
            refine ih (seen ++ [r.nodeId]) ?_ h
            rw [hacc, eraseDups_concat, if_pos (by simpa using (not_congr hmem).mp hold)]

/-- What `_decode_registrations` returns of a log of records. -/
theorem registrationsOf_logText {rs : List Registration} {maxNodes : Int}
    {out : List (String × String)} (h : registrationsOf (logText rs) maxNodes = .ok out) :
    out.map Prod.fst = distinctNodes rs := by
  rw [registrationsOf] at h
  split at h
  · cases h
  · rw [splitLines_logText] at h
    cases hs : scanRegistrations (rs.map Registration.line) [] with
    | error e => rw [hs] at h; cases h
    | ok found =>
        rw [hs] at h
        simp only [bind, Except.bind] at h
        split at h
        · cases h
        · cases h
          exact scanRegistrations_nodes rs [] rfl hs

theorem decodePositiveInteger_str {n : Int} (h : 1 ≤ n) (name : String) :
    decodePositiveInteger (Text.str n) name = .ok n := by
  have hlist : (Text.str n).toList = Nat.toDigits 10 n.natAbs := by
    rw [Text.toList_str, if_neg (by omega), List.nil_append]
  have hval : (Nat.ofDigitChars 10 (Nat.toDigits 10 n.natAbs) 0 : Int) = n := by
    rw [Nat.ofDigitChars_ten_toDigits]
    omega
  simp only [decodePositiveInteger, hlist, hval]
  refine if_pos ⟨Nat.toDigits_ne_nil, List.all_eq_true.mpr fun c hc => ?_, h⟩
  exact Nat.isDigit_of_mem_toDigits (by decide) (by decide) hc

/-! ## The initial placement -/

/-- Node ids that an initial placement may list. -/
structure PlacedNodes (ids : List String) : Prop where
  ne_nil : ids ≠ []
  nodup : ids.Nodup
  nonBlank : ∀ n ∈ ids, Text.nonBlank n = true
  strip : ∀ n ∈ ids, Text.strip n = n

def encodeInitialNodes (ids : List String) : String := canonicalJson (initialNodesRecord ids)

theorem keys_initialNodesRecord (ids : List String) :
    Json.keys (initialNodesRecord ids) = ["node_ids", "schema_version"] := rfl

theorem plain_initialNodesRecord (ids : List String) :
    Json.Plain (.obj (initialNodesRecord ids)) := by
  refine ⟨by rw [keys_initialNodesRecord]; decide, ?_⟩
  simp only [initialNodesRecord, Json.PlainMembers, Json.Plain, plain_strs, and_self]

theorem encodeInitialNodes_ne_empty (ids : List String) : encodeInitialNodes ids ≠ "" :=
  Json.dumps_ne_empty (plain_initialNodesRecord ids)

theorem loads_encodeInitialNodes (ids : List String) :
    Json.loads (encodeInitialNodes ids) = some (.obj (initialNodesRecord ids)) := by
  rw [encodeInitialNodes, canonicalJson, Json.loads_dumps (plain_initialNodesRecord ids)]
  refine congrArg some
    (Json.canon_obj_eq_self (by rw [keys_initialNodesRecord]; decide) fun m hm => ?_)
  simp only [initialNodesRecord, List.mem_cons, List.not_mem_nil, or_false] at hm
  rcases hm with rfl | rfl
  · exact canon_strs ids
  · rfl

theorem nonemptyItems_map {ids : List String} (hb : ∀ n ∈ ids, Text.nonBlank n = true)
    (hs : ∀ n ∈ ids, Text.strip n = n) : nonemptyItems (ids.map .str) = .ok ids := by
  induction ids with
  | nil => rfl
  | cons n ids ih =>
      have hb' := List.forall_mem_cons.mp hb
      have hs' := List.forall_mem_cons.mp hs
      have hn : nonemptyField (some (.str n)) "node_id" = .ok n := by
        rw [nonemptyField, nonempty, if_pos hb'.1, hs'.1]
      simp only [List.map_cons, nonemptyItems, hn, ih hb'.2 hs'.2, bind, Except.bind]

/-- Decoding a placement that was written: its nodes, or the wrong size. -/
theorem decodeInitialNodes_encode {ids : List String} (h : PlacedNodes ids)
    (count : Option Int) :
    decodeInitialNodes (encodeInitialNodes ids) count =
      if count ≠ none ∧ count ≠ some (ids.length : Int) then
        .error (.planCorrupt "initial node assignment has the wrong size")
      else .ok ids := by
  have hr : recordWith ["node_ids", "schema_version"] (.obj (initialNodesRecord ids)) =
      some (initialNodesRecord ids) := rfl
  have hget : Json.get? "node_ids" (initialNodesRecord ids) = some (.arr (ids.map .str)) := rfl
  have hbad : ¬ (ids = [] ∨ ¬ ids.Nodup) := fun hc =>
    hc.elim h.ne_nil fun hn => hn h.nodup
  simp only [decodeInitialNodes, loads_encodeInitialNodes, hr, hget,
    nonemptyItems_map h.nonBlank h.strip, if_neg hbad]
  rw [encodeInitialNodes]
  simp

theorem encodeInitialNodes_injective {ids ids' : List String}
    (h : encodeInitialNodes ids = encodeInitialNodes ids') : ids = ids' := by
  have hl := loads_encodeInitialNodes ids
  rw [h, loads_encodeInitialNodes ids'] at hl
  simp only [initialNodesRecord, strs, Option.some.injEq, Json.obj.injEq, List.cons.injEq,
    Prod.mk.injEq, Json.arr.injEq, true_and, and_true] at hl
  exact (List.map_injective_iff.mpr fun _ _ => Json.str.inj) hl.symm

end LmResiliency.Torchrun
