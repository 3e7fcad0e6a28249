/-! What the cutter is doing, and the words other people read for it. -/
namespace TapeCutter.Run

/-- Exactly one of these holds at any instant. -/
inductive Status where
  | idle
  | running
  | paused
deriving DecidableEq, Inhabited

namespace Status

/-- The word in log lines. -/
def name : Status → String
  | idle => "Idle"
  | running => "Running"
  | paused => "Paused"

/-- The style class that colours the status page. -/
def styleClass : Status → String
  | idle => "notCutting"
  | running => "cutting"
  | paused => "paused"

/-- The colour of the status page tells the status. -/
theorem styleClass_injective {status other : Status}
    (hClass : status.styleClass = other.styleClass) : status = other := by
  revert hClass
  cases status <;> cases other <;> decide

/-- The words a visitor of the status page reads. -/
def label : Status → String
  | idle => "Not Cutting"
  | running => "Cutting"
  | paused => "Paused"

def isRunning : Status → Bool
  | running => true
  | _ => false

theorem isRunning_eq_true_iff {status : Status} : status.isRunning = true ↔ status = running := by
  cases status <;> simp [isRunning]

end Status

end TapeCutter.Run
