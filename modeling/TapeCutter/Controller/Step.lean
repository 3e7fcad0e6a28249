import TapeCutter.Controller.State

/-! The operations of the controller. Each returns the controller after it and
the requests it makes, oldest first. Whatever changes the state ends with a
repaint and a report; only a change that the operator made is told to the
listener, and that comes last. -/
namespace TapeCutter

namespace Controller

variable {Listener : Type}

/-- Repaint everything, then report. -/
def State.refresh (state : State) : List (Effect Listener) :=
  state.picture.map Effect.draw ++ [.publish state.report]

/-- A change of status, logged and announced. -/
def reported (transition : Run.Transition) (trigger : Run.Trigger) : List (Effect Listener) :=
  [.log (Log.info ("Run status " ++ transition.source.name ++ " -> " ++ transition.target.name ++
      " (" ++ trigger.name ++ ")")),
    .announce (.statusChanged transition trigger)]

end Controller

/-- What one tick is given. -/
structure Sample where
  now : UInt32
  /-- The latest progress, if the sequencer has reported one since the last tick. -/
  progress : Option UInt8 := none
  /-- The interlock, if it has changed since the last tick. -/
  interlock : Option Bool := none
  stick : Menu.Stick := {}
deriving DecidableEq

namespace Controller

variable {Listener : Type}

/-- The first picture and the first report. -/
def start (controller : Controller Listener) : Controller Listener × List (Effect Listener) :=
  let status := controller.state.run.status
  (controller, controller.state.refresh ++
    [.announce (.started status),
      .log (Log.info ("InteractionController started in " ++ status.name))])

/-- A new listener takes the place of the old one. -/
def install (controller : Controller Listener) (listener : Listener) : Controller Listener :=
  { controller with listener := some listener }

/-- The interlock was tripped or released. Repaints and reports even when the
status stays what it was. -/
def setPaused (controller : Controller Listener) (paused : Bool) :
    Controller Listener × List (Effect Listener) :=
  let trigger := if paused then Run.Trigger.interlockTripped else .interlockReleased
  let (run, moved) := controller.state.run.apply trigger
  let state := { controller.state with run := run }
  let news :=
    match moved with
    | some transition => reported transition trigger
    | none =>
        [.log (Log.debug ("Interlock paused=" ++ (if paused then "true" else "false") ++
          " with status " ++ run.status.name ++ ": no change"))]
  ({ controller with state := state },
    .announce (.interlockChanged paused) :: news ++ state.refresh)

/-- The sequencer has finished the job. A job that waits for the guard is given
up without a sound; without a job there is nothing to finish. The listener is
not told, because the sequencer knows. -/
def finish (controller : Controller Listener) : Controller Listener × List (Effect Listener) :=
  let (run, moved) := controller.state.run.apply .runComplete
  let state := { controller.state with run := run, percent := 0 }
  match moved with
  | some transition =>
      ({ controller with state := state },
        reported transition .runComplete ++ state.refresh ++
          [.announce (.completed false)])
  | none =>
      if controller.state.run.Active then
        ({ controller with state := state },
          [.log (Log.warn "Run completed while paused; will not resume on release"),
            .announce (.completed true)])
      else
        (controller,
          [.log (Log.debug ("done_running ignored in " ++ controller.state.run.status.name))])

/-- The state after an accepted move, and the news of it. The start/stop row
has no value to change. -/
def State.moved (state : State) (move : Menu.Move) : State × List (Effect Listener) :=
  match move.vertical, state.row with
  | true, _ =>
      let row := move.row state.row
      ({ state with row := row },
        [.log (Log.debug ("Menu selection -> " ++ row.name)), .announce (.rowSelected row)])
  | false, .quantityPerKit =>
      let dial := if move = .valueUp then state.quantityPerKit.up else state.quantityPerKit.down
      ({ state with quantityPerKit := dial }, valueNews .quantityPerKit dial.value)
  | false, .kitCount =>
      let dial := if move = .valueUp then state.kitCount.up else state.kitCount.down
      ({ state with kitCount := dial }, valueNews .kitCount dial.value)
  | false, .startStop => (state, [])
where
  valueNews (row : Menu.Row) (value : UInt8) : List (Effect Listener) :=
    [.log (Log.debug ("Menu " ++ row.name ++ " -> " ++ Text.decimal value.toNat)),
      .announce (.valueChanged row value)]

/-- A deflected stick, unless the gate holds it back. -/
def navigate (controller : Controller Listener) (now : UInt32) (move : Menu.Move) :
    Controller Listener × List (Effect Listener) :=
  if controller.gate.ready now (controller.menu.repeatInterval move) then
    let (state, news) := controller.state.moved move
    ({ controller with state := state, gate := .accept now }, news ++ state.refresh)
  else (controller, [])

/-- The menu of an idle machine. A centred stick rearms the gate. -/
def browse (controller : Controller Listener) (now : UInt32) (stick : Menu.Stick) :
    Controller Listener × List (Effect Listener) :=
  match stick.move? with
  | some move => controller.navigate now move
  | none => ({ controller with gate := controller.gate.rearm }, [])

/-- The progress of a running machine. The bar is drawn at every tick, the
report is made only when the number changes. -/
def advance (controller : Controller Listener) (progress : Option UInt8) :
    Controller Listener × List (Effect Listener) :=
  let percent :=
    match progress with
    | some percent => if percent ≤ 100 then percent else 100
    | none => controller.state.percent
  let state := { controller.state with percent := percent }
  let news := if percent = controller.state.percent then [] else [.publish state.report]
  ({ controller with state := state }, news ++ [.draw (.progress percent true)])

/-- Start an idle machine, stop a running one. -/
def toggle (controller : Controller Listener) : Controller Listener × List (Effect Listener) :=
  let (run, moved) := controller.state.run.apply .startStop
  match moved with
  | some transition =>
      let percent := if transition.target = .running then 0 else controller.state.percent
      let state := { controller.state with run := run, percent := percent }
      ({ controller with state := state },
        reported transition .startStop ++ state.refresh ++
          (controller.listener.map fun listener => .tell listener transition.target).toList)
  | none => (controller, [])

def hold (controller : Controller Listener) (pressed : Bool) : Controller Listener :=
  { controller with state := { controller.state with held := pressed } }

/-- The push switch. It acts on the start/stop row, at the tick it goes down. -/
def push (controller : Controller Listener) (pressed : Bool) :
    Controller Listener × List (Effect Listener) :=
  if pressed && !controller.state.held && controller.state.row == .startStop then
    (controller.hold pressed).toggle
  else (controller.hold pressed, [])

/-- The interlock part of a tick. -/
def guarded (controller : Controller Listener) (interlock : Option Bool) :
    Controller Listener × List (Effect Listener) :=
  match interlock with
  | some tripped => controller.setPaused tripped
  | none => (controller, [])

/-- The part of a tick that depends on the run status: the menu, the progress,
or nothing. -/
def attend (controller : Controller Listener) (sample : Sample) :
    Controller Listener × List (Effect Listener) :=
  match controller.state.run.status with
  | .idle => controller.browse sample.now sample.stick
  | .running => controller.advance sample.progress
  | .paused => (controller, [])

/-- One tick: the interlock first, then the menu or the progress, then the push
switch. While paused only the switch is followed, so that a press which began
in the pause does not act after it. -/
def tick (controller : Controller Listener) (sample : Sample) :
    Controller Listener × List (Effect Listener) :=
  let (guarded, first) := controller.guarded sample.interlock
  if guarded.state.run.status = .paused then (guarded.hold sample.stick.pressed, first)
  else
    let (attended, second) := guarded.attend sample
    let (pushed, third) := attended.push sample.stick.pressed
    (pushed, first ++ second ++ third)

/-- Everything that can be asked of a controller. -/
inductive Operation (Listener : Type) where
  | start
  | tick (sample : Sample)
  | setPaused (paused : Bool)
  | finish
  | install (listener : Listener)
deriving DecidableEq

def perform (controller : Controller Listener) :
    Operation Listener → Controller Listener × List (Effect Listener)
  | .start => controller.start
  | .tick sample => controller.tick sample
  | .setPaused paused => controller.setPaused paused
  | .finish => controller.finish
  | .install listener => (controller.install listener, [])

/-- A run: operations in order, and all their requests. -/
def run (controller : Controller Listener) :
    List (Operation Listener) → Controller Listener × List (Effect Listener)
  | [] => (controller, [])
  | operation :: rest =>
      let (next, first) := controller.perform operation
      let (last, later) := next.run rest
      (last, first ++ later)

end Controller

end TapeCutter
