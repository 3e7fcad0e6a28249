import TapeCutter.AccessPoint
import TapeCutter.Board
import TapeCutter.Console
import TapeCutter.Front
import TapeCutter.Panel.Cable
import TapeCutter.Sequencer.Feedback

/-! The whole machine: power-on, and the passes of its control loop. -/
namespace TapeCutter

/-- The raw readings of the stick. -/
structure Wipers where
  x : UInt16 := Board.restingSample
  y : UInt16 := Board.restingSample
  switchHigh : Bool := true
deriving DecidableEq

/-- The sequencer is the only listener, so a listener needs no name. -/
structure Firmware where
  settings : Settings
  console : Console Unit
  front : Front Panel.Link
  wipers : Wipers := {}
  feedback : Sequencer.Feedback := {}
  accessPoint : AccessPoint
deriving DecidableEq

namespace Firmware

/-- Power-on. The settings are checked first, then the panel is set up, then the
controller joins the interlock and shows the first picture, and the access point
is prepared last. The first failure ends it. -/
def boot (settings : Settings) (cable : Panel.Cable) (guardOpen : Bool) :
    Except Fault (Firmware × List Log.Line) :=
  match settings.invalid? with
  | some cause => .error (.setting cause)
  | none =>
      match ({ cable := cable } : Panel.Link).send Panel.setUp with
      | (some cause, _) => .error (.display cause)
      | (none, link) => do
          let joined : Console Unit ←
            Console.join settings.menu { guard := { level := guardOpen } }
          let (console, effects) := (joined.ask (.install ())).1.ask .start
          let (front, lines) :=
            ({ panel := link } : Front Panel.Link).carryOutAll .standard Panel.Link.take effects
          let accessPoint ← AccessPoint.prepare settings.network settings.timing.nameService
          return ({ settings := settings, console := console, front := front,
                    accessPoint := accessPoint },
            Board.watchdogLog settings.timing.watchdog ++ lines)

/-- The stick as it reads now. -/
def stick (firmware : Firmware) : Menu.Stick :=
  firmware.settings.stick.classify firmware.wipers.x firmware.wipers.y firmware.wipers.switchHigh

/-- The requests of a console that has just done something. -/
def settle (firmware : Firmware) (console : Console Unit)
    (effects : List (Controller.Effect Unit)) : Firmware × List Log.Line :=
  let (front, lines) := firmware.front.carryOutAll .standard Panel.Link.take effects
  ({ firmware with console := console, front := front }, lines)

/-- The sequencer may have finished the job. -/
def settleDone (firmware : Firmware) : Firmware × List Log.Line :=
  let (done, feedback) := firmware.feedback.takeDone
  let firmware := { firmware with feedback := feedback }
  if done then
    let (console, effects) := firmware.console.ask .finish
    firmware.settle console effects
  else (firmware, [])

def takeProgress (firmware : Firmware) : Option UInt8 × Firmware :=
  let (progress, feedback) := firmware.feedback.takeProgress
  (progress, { firmware with feedback := feedback })

/-- The changes that wait, when no sequencer is attached to take them. -/
def drain (firmware : Firmware) : Firmware × List Log.Line :=
  let (statuses, outbox) := firmware.front.outbox.drain
  ({ firmware with front := { firmware.front with outbox := outbox } },
    statuses.map fun status => Log.info ("SEQ | unattached | run_state=" ++ status.name))

/-- The tick of a pass, with whatever progress has been taken. -/
def tick (firmware : Firmware) (now : UInt32) (progress : Option UInt8) :
    Firmware × List Log.Line :=
  let (console, effects) := firmware.console.tick now progress firmware.stick
  firmware.settle console effects

/-- The name server's turn, last in a pass. -/
def serve (firmware : Firmware) (now : UInt32) : Firmware :=
  { firmware with accessPoint := (firmware.accessPoint.poll now).2 }

/-- One pass of the control loop, with no sequencer attached. -/
def lonePass (firmware : Firmware) (now : UInt32) : Firmware × List Log.Line :=
  let (firmware, first) := firmware.settleDone
  let (progress, firmware) := firmware.takeProgress
  let (firmware, second) := firmware.drain
  let (firmware, third) := firmware.tick now progress
  (firmware.serve now, first ++ second ++ third)

/-- A visitor's request. -/
def handle (firmware : Firmware) (host target : String) :
    Portal.HttpReply × Firmware × List Log.Line :=
  let (reply, point, lines) := firmware.accessPoint.handle firmware.front.report host target
  (reply, { firmware with accessPoint := point }, lines)

end Firmware

end TapeCutter
