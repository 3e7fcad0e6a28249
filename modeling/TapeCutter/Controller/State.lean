import TapeCutter.Controller.Event
import TapeCutter.Menu.Autorepeat
import TapeCutter.Menu.Dial
import TapeCutter.Screen.Draw
import TapeCutter.Settings.Basic
import TapeCutter.StatusReport

/-! What the controller knows, and what it asks of the world. It never waits for
an answer: every operation returns the requests it makes, in order. -/
namespace TapeCutter

namespace Controller

/-- Everything that decides the machine's behaviour but time. -/
structure State where
  row : Menu.Row := .quantityPerKit
  quantityPerKit : Menu.Dial
  kitCount : Menu.Dial
  /-- How far the job is. Only meaningful while one is active. -/
  percent : UInt8 := 0
  run : Run.Machine := {}
  /-- The stick was pressed at the last tick. -/
  held : Bool := false
deriving DecidableEq

namespace State

/-- Both dials at one, the first row selected, idle. -/
def powerOn (menu : MenuSettings) : State where
  quantityPerKit := .ofMax menu.maxQuantityPerKit
  kitCount := .ofMax menu.maxKitCount

/-- The progress others may see: none unless running. -/
def publishedPercent (state : State) : Option UInt8 :=
  if state.run.status.isRunning then some state.percent else none

def report (state : State) : StatusReport :=
  ⟨state.quantityPerKit.value, state.kitCount.value, state.run.status, state.publishedPercent⟩

/-- The orders that repaint the whole screen. -/
def picture (state : State) : List Screen.Draw :=
  if state.run.status = .paused then [.paused]
  else
    let running := state.run.status.isRunning
    [.quantityPerKit state.quantityPerKit.value (state.row == .quantityPerKit) running,
      .kitCount state.kitCount.value (state.row == .kitCount) running,
      .progress state.percent running,
      .button (state.row == .startStop) running]

end State

/-- A request to the world. `Listener` is whatever stands for a listener. -/
inductive Effect (Listener : Type) where
  | draw (order : Screen.Draw)
  | publish (report : StatusReport)
  | announce (event : Event)
  /-- Tell a listener of a change the operator made. -/
  | tell (listener : Listener) (status : Run.Status)
  | log (line : Log.Line)
deriving DecidableEq

end Controller

/-- The controller: its state, the gate for held moves, the settings it needs,
and the listener for changes the operator makes. -/
structure Controller (Listener : Type) where
  menu : MenuSettings
  state : Controller.State
  gate : Menu.Autorepeat := {}
  listener : Option Listener := none
deriving DecidableEq

/-- The controller at power-on. It has not drawn anything yet. -/
def Controller.powerOn {Listener : Type} (menu : MenuSettings) : Controller Listener where
  menu := menu
  state := .powerOn menu

end TapeCutter
