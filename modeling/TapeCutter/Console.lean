import TapeCutter.Controller.Step
import TapeCutter.Interlock.Guard

/-! The controller at its place by the interlock. Of all observers of the guard
it is one; at every tick it looks at the guard once and is told of a change. -/
namespace TapeCutter

structure Console (Listener : Type) where
  controller : Controller Listener
  watch : Interlock.Watch
  /-- The number under which the controller watches the interlock. -/
  observer : Nat
deriving DecidableEq

namespace Console

variable {Listener : Type}

/-- A controller at power-on takes a place by the interlock, if there is one. -/
def join (menu : MenuSettings) (watch : Interlock.Watch) : Except Fault (Console Listener) :=
  match watch.subscribe with
  | (.ok observer, watch) => .ok ⟨.powerOn menu, watch, observer⟩
  | (.error cause, _) => .error cause

/-- What happens to the guard, without anybody looking. -/
def withGuard (console : Console Listener) (change : Interlock.Guard → Interlock.Guard) :
    Console Listener :=
  { console with watch := { console.watch with guard := change console.watch.guard } }

/-- Anything but a tick is between the caller and the controller. -/
def ask (console : Console Listener) (operation : Controller.Operation Listener) :
    Console Listener × List (Controller.Effect Listener) :=
  let (controller, effects) := console.controller.perform operation
  ({ console with controller := controller }, effects)

/-- The tick that acts on what the controller has just been told. -/
def act (console : Console Listener) (told : Option Bool × Interlock.Watch × List Log.Line)
    (now : UInt32) (progress : Option UInt8) (stick : Menu.Stick) :
    Console Listener × List (Controller.Effect Listener) :=
  let (change, watch, seen) := told
  let (controller, effects) := console.controller.tick ⟨now, progress, change, stick⟩
  ({ console with controller := controller, watch := watch }, seen.map .log ++ effects)

/-- One look at the guard, and the tick that acts on it. Happenings may fall
between the two steps of the look. -/
def tickAmid (console : Console Listener) (between : List Interlock.Happening) (now : UInt32)
    (progress : Option UInt8) (stick : Menu.Stick) :
    Console Listener × List (Controller.Effect Listener) :=
  console.act (console.watch.pollAmid between console.observer) now progress stick

/-- A tick with a look in which nothing happens. -/
def tick (console : Console Listener) (now : UInt32) (progress : Option UInt8)
    (stick : Menu.Stick) : Console Listener × List (Controller.Effect Listener) :=
  console.tickAmid [] now progress stick

end Console

end TapeCutter
