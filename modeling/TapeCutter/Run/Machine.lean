import TapeCutter.Run.Status

/-! The run machine: idle and running are toggled by the operator, paused is
entered and left only through the interlock. The machine remembers the status
it paused from, and forgets a running one when the job ends during the pause. -/
namespace TapeCutter.Run

/-- Everything that can move the run status. -/
inductive Trigger where
  /-- The operator pressed the stick on the start/stop row. -/
  | startStop
  /-- The guard was opened. -/
  | interlockTripped
  /-- The guard was closed again. -/
  | interlockReleased
  /-- The sequencer finished the job on its own. -/
  | runComplete
deriving DecidableEq

/-- The word in log lines. -/
def Trigger.name : Trigger → String
  | startStop => "StartStop"
  | interlockTripped => "InterlockTripped"
  | interlockReleased => "InterlockReleased"
  | runComplete => "RunComplete"

structure Transition where
  source : Status
  target : Status
deriving DecidableEq

/-- The status, and the status to come back to when the interlock is released.
The second is only meaningful while paused, and keeps its last value otherwise. -/
structure Machine where
  status : Status := .idle
  resume : Status := .idle
deriving DecidableEq

namespace Machine

def moveTo (machine : Machine) (target : Status) : Machine × Option Transition :=
  ({ machine with status := target }, some ⟨machine.status, target⟩)

/-- One trigger. The transition is present exactly when the status moved. -/
def apply (machine : Machine) (trigger : Trigger) : Machine × Option Transition :=
  match machine.status, trigger with
  | .idle, .startStop => machine.moveTo .running
  | .running, .startStop => machine.moveTo .idle
  | .running, .runComplete => machine.moveTo .idle
  | .idle, .interlockTripped => { machine with resume := .idle }.moveTo .paused
  | .running, .interlockTripped => { machine with resume := .running }.moveTo .paused
  | .paused, .interlockReleased => machine.moveTo machine.resume
  | .paused, .runComplete => ({ machine with resume := .idle }, none)
  | .paused, .startStop => (machine, none)
  | .paused, .interlockTripped => (machine, none)
  | .idle, .interlockReleased => (machine, none)
  | .running, .interlockReleased => (machine, none)
  | .idle, .runComplete => (machine, none)

/-- A job is active while it runs, and while it waits for the guard to close. -/
def Active (machine : Machine) : Prop :=
  machine.status = .running ∨ machine.status = .paused ∧ machine.resume = .running

instance (machine : Machine) : Decidable machine.Active := by
  unfold Active
  infer_instance

end Machine

end TapeCutter.Run
