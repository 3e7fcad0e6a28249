import TapeCutter.Log
import TapeCutter.Menu.Row
import TapeCutter.Run.Machine
import TapeCutter.Text.Decimal

/-! Events the controller announces, and the line each of them leaves in the
event log. -/
namespace TapeCutter.Controller

inductive Event where
  | started (status : Run.Status)
  | statusChanged (transition : Run.Transition) (trigger : Run.Trigger)
  | rowSelected (row : Menu.Row)
  | valueChanged (row : Menu.Row) (value : UInt8)
  | interlockChanged (tripped : Bool)
  /-- The sequencer finished a job. During a pause this cancels the resumption. -/
  | completed (whilePaused : Bool)
deriving DecidableEq

/-- The line of the event log, with its kind in front. -/
def Event.line : Event → Log.Line
  | started status => Log.info ("START | initial_status=" ++ status.name)
  | statusChanged transition trigger =>
      Log.info ("RUN | " ++ transition.source.name ++ " -> " ++ transition.target.name ++
        " | trigger=" ++ trigger.name)
  | rowSelected row => Log.info ("MENU | selection=" ++ row.name)
  | valueChanged row value => Log.info ("MENU | " ++ row.name ++ "=" ++ Text.decimal value.toNat)
  | interlockChanged true => Log.warn "SAFETY | interlock tripped"
  | interlockChanged false => Log.info "SAFETY | interlock released"
  | completed true => Log.info "DONE | run complete | while_paused=true"
  | completed false => Log.info "DONE | run complete | while_paused=false"

end TapeCutter.Controller
