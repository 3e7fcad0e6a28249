import TapeCutter.Controller.Step
import TapeCutter.Screen.Display
import TapeCutter.Sequencer.Outbox

/-! Everything the controller's requests go to: the display with its panel, the
published report, the event log and the sequencer. Nothing comes back from here,
so a panel that fails cannot change what the controller does. -/
namespace TapeCutter

structure Front (Panel : Type) where
  panel : Panel
  display : Screen.Display := {}
  report : StatusReport := {}
  outbox : Sequencer.Outbox := {}
deriving DecidableEq

namespace Front

variable {Panel Listener : Type}

/-- One request, by a painter, on a panel that takes pictures in the way given. -/
def carryOut (painter : Screen.Painter)
    (take : Panel → Screen.Frame → Option DisplayFault × Panel) (front : Front Panel) :
    Controller.Effect Listener → Front Panel × List Log.Line
  | .draw order =>
      let (display, panel, lines) := front.display.drawBy painter take front.panel order
      ({ front with display := display, panel := panel }, lines)
  | .publish report => ({ front with report := report }, [])
  | .announce event => (front, [event.line])
  | .tell _ status =>
      let (outbox, lines) := front.outbox.send status
      ({ front with outbox := outbox }, lines)
  | .log line => (front, [line])

/-- Requests in order, and the lines all of them leave in the log. -/
def carryOutAll (painter : Screen.Painter)
    (take : Panel → Screen.Frame → Option DisplayFault × Panel) (front : Front Panel) :
    List (Controller.Effect Listener) → Front Panel × List Log.Line
  | [] => (front, [])
  | effect :: rest =>
      let (next, first) := front.carryOut painter take effect
      let (last, later) := next.carryOutAll painter take rest
      (last, first ++ later)

end Front

end TapeCutter
