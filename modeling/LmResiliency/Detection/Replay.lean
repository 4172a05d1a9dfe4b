/-
# Replay — the verdict of a layer replay

The fields of a `ReplayResult` that decide what happens to a checkpoint.
-/
import Mathlib.Data.List.Basic

namespace LmResiliency.Detection

/-- `C3Status`. -/
inductive C3Status where
  | agree
  | attributed
  | inconclusive
deriving DecidableEq

/-- `C3Result`. -/
structure C3Result where
  status : C3Status
  bitmap : List Int

/-- `ReplayResult`. -/
structure ReplayResult where
  sdcBitmap : List Int
  checkedShapeIds : List String
  completedShapeCycle : Bool
  completedScheduledCycle : Bool
  denseReplay : Bool
  c3Results : List (String × C3Result)

def replayResultHasSdc : Option ReplayResult → Bool
  | none => false
  | some result =>
      result.sdcBitmap.any (· ≠ 0) ||
        result.c3Results.any fun entry => entry.2.status = .inconclusive

end LmResiliency.Detection
