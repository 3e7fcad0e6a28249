/-! Messages from the sequencer. Only the latest progress counts, and a finished
job is reported once however often it is said. -/
namespace TapeCutter.Sequencer

/-- A byte that no progress can be: nothing has been reported since the last look. -/
def noProgress : UInt8 := 255

structure Feedback where
  /-- Progress the control loop has not taken yet, if it is not `noProgress`. -/
  percent : UInt8 := noProgress
  done : Bool := false
deriving DecidableEq

/-- What the sequencer can say, at any time. -/
inductive Report where
  | progress (percent : UInt8)
  | done
deriving DecidableEq

namespace Feedback

/-- Progress beyond a hundred counts as a hundred. -/
def reportProgress (feedback : Feedback) (percent : UInt8) : Feedback :=
  { feedback with percent := if percent ≤ 100 then percent else 100 }

def reportDone (feedback : Feedback) : Feedback := { feedback with done := true }

def hear (feedback : Feedback) : Report → Feedback
  | .progress percent => feedback.reportProgress percent
  | .done => feedback.reportDone

def takeProgress (feedback : Feedback) : Option UInt8 × Feedback :=
  (if feedback.percent = noProgress then none else some feedback.percent,
    { feedback with percent := noProgress })

def takeDone (feedback : Feedback) : Bool × Feedback :=
  (feedback.done, { feedback with done := false })

end Feedback

end TapeCutter.Sequencer
