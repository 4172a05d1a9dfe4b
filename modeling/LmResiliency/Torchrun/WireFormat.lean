/-
# WireFormat — one byte string for each record

A plan comes out of the store as bytes.  `_decode_plan` reads them, writes the
plan again and takes it only if the bytes are the same; so what it takes is
the encoding of a valid plan, and every encoding of one is taken.

The main result is `wire_format_canonical`, without a hypothesis.
-/
import Mathlib
import LmResiliency.Lib.JsonBytes
import LmResiliency.Torchrun.Context
import LmResiliency.Torchrun.Records

namespace LmResiliency.Torchrun

/-- `_WireRecord.from_json` of text.  That a field occurs twice is said in a text of
its own, which is not told apart here. -/
def RestartPlan.fromJson (encoded : String) : Checked RestartPlan :=
  match Json.loads encoded with
  | none => invalid "RestartPlan" "invalid JSON"
  | some value => do RestartPlan.fromDict (← mappingOf value "RestartPlan")

def RestartContext.fromJson (encoded : String) : Checked RestartContext :=
  match Json.loads encoded with
  | none => invalid "RestartContext" "invalid JSON"
  | some value => do RestartContext.fromDict (← mappingOf value "RestartContext")

/-- `_decode_plan` on the bytes of the store. -/
def decodePlanBytes (runId : String) (encoded : ByteArray) (expectedGeneration : Int) :
    Except Raised RestartPlan :=
  match Json.loadsBytes encoded with
  | some (.obj ms) =>
      match RestartPlan.fromDict ms with
      | .error _ => .error (.planCorrupt "persisted recovery plan is malformed")
      | .ok plan =>
          if plan.toJson.toUTF8 ≠ encoded then
            .error (.planCorrupt "persisted recovery plan is not canonical JSON")
          else if plan.runId ≠ runId ∨ plan.toGeneration ≠ expectedGeneration then
            .error (.planCorrupt "persisted recovery plan has the wrong identity")
          else .ok plan
  | _ => .error (.planCorrupt "persisted recovery plan is malformed")

theorem RestartPlan.loadsBytes_toJson (p : RestartPlan) :
    ∃ ms, Json.loadsBytes p.toJson.toUTF8 = some (.obj ms) ∧ RestartPlan.fromDict ms = .ok p := by
  obtain ⟨ms, hms, hread⟩ := p.loads_toJson
  refine ⟨ms, ?_, hread⟩
  rw [RestartPlan.toJson, Json.loadsBytes_dumps (plain_toDict p.toPlanFields)]
  exact hms

/-- What is decoded is an encoding of this run and generation, and every one is. -/
theorem decodePlanBytes_iff {runId : String} {encoded : ByteArray} {g : Int} {p : RestartPlan} :
    decodePlanBytes runId encoded g = .ok p ↔
      encoded = p.toJson.toUTF8 ∧ p.runId = runId ∧ p.toGeneration = g := by
  constructor
  · intro h
    unfold decodePlanBytes at h
    split at h
    · split at h
      · cases h
      · split at h
        · cases h
        · rename_i hsame
          split at h
          · cases h
          · rename_i hid
            obtain rfl := Except.ok.inj h
            rw [not_or, not_not, not_not] at hid
            exact ⟨(not_not.mp hsame).symm, hid⟩
    · cases h
  · rintro ⟨hbytes, hrun, hgeneration⟩
    obtain ⟨ms, hms, hread⟩ := p.loadsBytes_toJson
    rw [hbytes, ← hrun, ← hgeneration, decodePlanBytes]
    simp only [hms, hread, ne_eq, not_true_eq_false, or_self, if_false]

/-- Decoding the bytes of a text is decoding the text. -/
theorem decodePlanBytes_toUTF8 {runId encoded : String} {g : Int} {p : RestartPlan} :
    decodePlanBytes runId encoded.toUTF8 g = .ok p ↔ decodePlan runId encoded g = .ok p := by
  rw [decodePlanBytes_iff]
  constructor
  · rintro ⟨hbytes, hrun, rfl⟩
    rw [String.toUTF8_eq_toByteArray, String.toUTF8_eq_toByteArray, String.toByteArray_inj]
      at hbytes
    rw [hbytes]
    exact decodePlan_toJson hrun
  · intro h
    obtain ⟨htext, hid⟩ := decodePlan_eq_ok h
    rw [htext]
    exact ⟨rfl, hid⟩

/-- **The wire format is canonical.** -/
theorem wire_format_canonical (runId : String) :
    (∀ (encoded : ByteArray) (generation : Int) (p : RestartPlan),
      decodePlanBytes runId encoded generation = .ok p ↔
        encoded = p.toJson.toUTF8 ∧ p.runId = runId ∧ p.toGeneration = generation) ∧
    (∀ p : RestartPlan, RestartPlan.fromJson p.toJson = .ok p) ∧
    ∀ c : RestartContext, RestartContext.fromJson c.toJson = .ok c := by
  refine ⟨fun _ _ _ => decodePlanBytes_iff, fun p => ?_, fun c => ?_⟩
  · obtain ⟨ms, hms, hread⟩ := p.loads_toJson
    rw [RestartPlan.fromJson, hms]
    exact hread
  · obtain ⟨ms, hms, hread⟩ := c.loads_toJson
    rw [RestartContext.fromJson, hms]
    exact hread

end LmResiliency.Torchrun
