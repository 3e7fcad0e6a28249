import TapeCutter.Controller.Step
import TapeCutter.Sequencer.Feedback
import TapeCutter.Sequencer.Outbox

/-! The control loop while no sequencer is attached: it takes the waiting changes itself.
A pass goes through a fixed order of steps, and the sequencer may report between any two of
them. The loop is followed as far as the controller and the sequencer are concerned; what is
shown is carried out elsewhere, and nothing comes back from there. -/
namespace TapeCutter

/-- The step of a pass that comes next, with what the loop has in hand for it. -/
inductive ControlLoop.Stage where
  | takeDone
  /-- The job is finished, if the word of it has been taken. -/
  | finish (done : Bool)
  | takeProgress
  /-- One waiting change is taken. When none waits any more, the tick is next. -/
  | drain (progress : Option UInt8)
  | tick (progress : Option UInt8)
deriving DecidableEq

/-- There is one listener, the outbox, so a listener needs no name. -/
structure ControlLoop where
  controller : Controller Unit
  outbox : Sequencer.Outbox := {}
  feedback : Sequencer.Feedback := {}
  stage : ControlLoop.Stage := .takeDone
deriving DecidableEq

namespace ControlLoop

/-- The loop when it is entered: the outbox is installed and the first picture is shown. -/
def powerOn (menu : MenuSettings) : ControlLoop where
  controller := ((Controller.powerOn menu).run [.install (), .start]).1

/-- What a tick finds. The other steps do not look. -/
structure Inputs where
  now : UInt32
  interlock : Option Bool := none
  stick : Menu.Stick := {}
deriving DecidableEq

inductive Event where
  /-- The loop makes its next step. -/
  | proceed (inputs : Inputs)
  | report (report : Sequencer.Report)
deriving DecidableEq

/-- What a step asks of the world, and the change that it takes from the outbox. -/
structure Outcome where
  effects : List (Controller.Effect Unit) := []
  drained : Option Run.Status := none
deriving DecidableEq

/-- The changes told among requests go to the outbox, in order. -/
def post (outbox : Sequencer.Outbox) (effects : List (Controller.Effect Unit)) :
    Sequencer.Outbox :=
  effects.foldl (fun outbox effect =>
    match effect with
    | .tell _ status => (outbox.send status).1
    | _ => outbox) outbox

/-- An operation of the controller, after which the loop goes on to the stage given. -/
def ask (loop : ControlLoop) (operation : Controller.Operation Unit) (stage : Stage) :
    ControlLoop × Outcome :=
  let (controller, effects) := loop.controller.perform operation
  ({ loop with controller := controller, outbox := post loop.outbox effects, stage := stage },
    { effects := effects })

def proceed (loop : ControlLoop) (inputs : Inputs) : ControlLoop × Outcome :=
  match loop.stage with
  | .takeDone =>
      let (done, feedback) := loop.feedback.takeDone
      ({ loop with feedback := feedback, stage := .finish done }, {})
  | .finish true => loop.ask .finish .takeProgress
  | .finish false => ({ loop with stage := .takeProgress }, {})
  | .takeProgress =>
      let (progress, feedback) := loop.feedback.takeProgress
      ({ loop with feedback := feedback, stage := .drain progress }, {})
  | .drain progress =>
      match loop.outbox.receive with
      | (some status, outbox) => ({ loop with outbox := outbox }, { drained := some status })
      | (none, _) => ({ loop with stage := .tick progress }, {})
  | .tick progress =>
      loop.ask (.tick ⟨inputs.now, progress, inputs.interlock, inputs.stick⟩) .takeDone

def step (loop : ControlLoop) : Event → ControlLoop × Outcome
  | .proceed inputs => loop.proceed inputs
  | .report report => ({ loop with feedback := loop.feedback.hear report }, {})

def next (loop : ControlLoop) (event : Event) : ControlLoop := (loop.step event).1

/-- The loop after these events. -/
def after (loop : ControlLoop) (events : List Event) : ControlLoop := events.foldl next loop

end ControlLoop

end TapeCutter
