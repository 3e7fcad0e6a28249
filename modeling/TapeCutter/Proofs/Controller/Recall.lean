import TapeCutter.Proofs.Controller.Stages
import TapeCutter.Proofs.Trace

/-! What a controller remembers of the operations themselves: the switch at the last
tick, and the listener that was installed last. Both can be read off the operations,
whatever the status was when they came. -/
namespace TapeCutter.Controller

variable {Listener : Type}

/-- The switch at a tick. No other operation looks at it. -/
def Operation.pressed? : Operation Listener → Option Bool
  | .tick sample => some sample.stick.pressed
  | _ => none

def Operation.installed? : Operation Listener → Option Listener
  | .install listener => some listener
  | _ => none

/-- The switch at the last tick, if there was a tick. -/
def lastPressed (operations : List (Operation Listener)) : Option Bool :=
  (operations.filterMap Operation.pressed?).getLast?

/-- The switch is where it was last seen, or where it was before. -/
theorem lastPressed_cons_getD (operation : Operation Listener) (rest : List (Operation Listener))
    (held : Bool) :
    (lastPressed (operation :: rest)).getD held =
      (lastPressed rest).getD (operation.pressed?.getD held) := by
  rw [lastPressed, Trace.getLast?_filterMap_cons, ← lastPressed]
  cases lastPressed rest <;> rfl

/-- The listener installed last, if any was. -/
def lastInstalled (operations : List (Operation Listener)) : Option Listener :=
  (operations.filterMap Operation.installed?).getLast?

/-- A part of the controller that every operation either sets or leaves alone holds
what the last setting operation put there. -/
theorem run_recalls {α : Type} (given? : Operation Listener → Option α)
    (kept : Controller Listener → Option α)
    (hStep : ∀ controller operation,
      kept (controller.perform operation).1 = (given? operation).or (kept controller))
    (controller : Controller Listener) (operations : List (Operation Listener)) :
    kept (controller.run operations).1 =
      (operations.filterMap given?).getLast?.or (kept controller) := by
  induction operations generalizing controller with
  | nil => rfl
  | cons operation rest ih =>
      rw [Trace.getLast?_filterMap_cons, Option.or_assoc, ← hStep]
      exact ih (controller.perform operation).1

/-- Every tick remembers where the switch is, and no other operation does. -/
theorem held_perform (controller : Controller Listener) (operation : Operation Listener) :
    some (controller.perform operation).1.state.held =
      operation.pressed?.or (some controller.state.held) := by
  cases operation with
  | tick sample =>
      obtain ⟨_, _, _, _, _, _, hTick⟩ := exists_tick_eq controller sample
      rw [perform, hTick]
      rfl
  | finish =>
      obtain ⟨_, _, hFinish⟩ := exists_finish_eq controller
      rw [perform, hFinish]
      rfl
  | start => rfl
  | setPaused paused => rfl
  | install listener => rfl

/-- After a run the switch is remembered as the last tick saw it. -/
theorem held_run (controller : Controller Listener) (operations : List (Operation Listener)) :
    (controller.run operations).1.state.held =
      (lastPressed operations).getD controller.state.held := by
  have hRecall := run_recalls Operation.pressed? (fun controller => some controller.state.held)
    held_perform controller operations
  rw [← lastPressed] at hRecall
  cases hLast : lastPressed operations <;> simp_all

/-- From power-on the switch counts as down exactly when the last tick found it pressed. -/
theorem held_run_eq_false_iff (menu : MenuSettings) (operations : List (Operation Listener)) :
    ((powerOn menu : Controller Listener).run operations).1.state.held = false ↔
      lastPressed operations ≠ some true := by
  have hHeld : _ = (lastPressed operations).getD false := held_run (powerOn menu) operations
  rw [hHeld]
  cases lastPressed operations <;> simp

theorem listener_perform (controller : Controller Listener) (operation : Operation Listener) :
    (controller.perform operation).1.listener =
      operation.installed?.or controller.listener := by
  cases operation with
  | tick sample =>
      obtain ⟨_, _, _, _, _, _, hTick⟩ := exists_tick_eq controller sample
      rw [perform, hTick]
      rfl
  | finish =>
      obtain ⟨_, _, hFinish⟩ := exists_finish_eq controller
      rw [perform, hFinish]
      rfl
  | start => rfl
  | setPaused paused => rfl
  | install listener => rfl

theorem listener_run (controller : Controller Listener) (operations : List (Operation Listener)) :
    (controller.run operations).1.listener = (lastInstalled operations).or controller.listener :=
  run_recalls Operation.installed? listener listener_perform controller operations

theorem listener_run_powerOn (menu : MenuSettings) (operations : List (Operation Listener)) :
    ((powerOn menu : Controller Listener).run operations).1.listener =
      lastInstalled operations := by
  rw [listener_run, powerOn, Option.or_none]

end TapeCutter.Controller
