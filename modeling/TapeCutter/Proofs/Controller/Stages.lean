import TapeCutter.Controller.Step

/-! What each part of an operation can touch. The settings and the listener stay as they
are; the interlock moves the run machine only; the menu and the progress leave it and
the switch alone; the push switch leaves the menu alone. Where nothing can change
the run status, nothing but pictures, reports and the news of the menu is asked for.
What holds of each of these parts, and of parts put together, holds of a run. -/
namespace TapeCutter.Controller

variable {Listener : Type}

theorem run_cons (controller : Controller Listener) (operation : Operation Listener)
    (rest : List (Operation Listener)) :
    controller.run (operation :: rest) =
      (((controller.perform operation).1.run rest).1,
        (controller.perform operation).2 ++ ((controller.perform operation).1.run rest).2) := rfl

/-- A run goes on from the controller that its first part has left, and asks for what both parts
ask for. -/
theorem run_append (controller : Controller Listener) (first second : List (Operation Listener)) :
    controller.run (first ++ second) =
      (((controller.run first).1.run second).1,
        (controller.run first).2 ++ ((controller.run first).1.run second).2) := by
  induction first generalizing controller with
  | nil => rfl
  | cons operation rest ih => simp only [List.cons_append, run_cons, ih, List.append_assoc]

theorem setPaused_state (controller : Controller Listener) (paused : Bool) :
    (controller.setPaused paused).1 =
      { controller with
        state := { controller.state with
          run := (controller.state.run.apply
            (if paused then .interlockTripped else .interlockReleased)).1 } } := rfl

/-- The interlock touches the run machine only. -/
theorem exists_guarded_eq (controller : Controller Listener) (interlock : Option Bool) :
    ∃ run, (controller.guarded interlock).1 =
      { controller with state := { controller.state with run := run } } := by
  cases interlock with
  | none => exact ⟨_, rfl⟩
  | some tripped => exact ⟨_, setPaused_state controller tripped⟩

theorem guarded_listener (controller : Controller Listener) (interlock : Option Bool) :
    (controller.guarded interlock).1.listener = controller.listener := by
  obtain ⟨_, hState⟩ := exists_guarded_eq controller interlock
  rw [hState]

/-- A move touches the row and the two dials only. -/
theorem exists_moved_eq (state : State) (move : Menu.Move) :
    ∃ row quantity kits, (state.moved move : State × List (Effect Listener)).1 =
      { state with row := row, quantityPerKit := quantity, kitCount := kits } := by
  unfold State.moved
  split <;> exact ⟨_, _, _, rfl⟩

/-- A tick of a running machine comes to some progress, and reports it if it is new. -/
theorem exists_advance_eq (controller : Controller Listener) (progress : Option UInt8) :
    ∃ percent, controller.advance progress =
      let state := { controller.state with percent := percent }
      ({ controller with state := state },
        (if percent = controller.state.percent then [] else [.publish state.report]) ++
          [.draw (.progress percent true)]) :=
  ⟨_, rfl⟩

/-- The menu and the progress leave the run machine and the switch alone. -/
theorem exists_attend_eq (controller : Controller Listener) (sample : Sample) :
    ∃ row quantity kits percent gate, (controller.attend sample).1 =
      { controller with
        state := { controller.state with
          row := row, quantityPerKit := quantity, kitCount := kits, percent := percent }
        gate := gate } := by
  unfold attend
  cases controller.state.run.status with
  | paused => exact ⟨_, _, _, _, _, rfl⟩
  | running => exact ⟨_, _, _, _, _, rfl⟩
  | idle =>
      simp only [browse]
      cases sample.stick.move? with
      | none => exact ⟨_, _, _, _, _, rfl⟩
      | some move =>
          obtain ⟨row, quantity, kits, hMoved⟩ :=
            @exists_moved_eq Listener controller.state move
          simp only [navigate, hMoved]
          split <;> exact ⟨_, _, _, _, _, rfl⟩

theorem attend_listener (controller : Controller Listener) (sample : Sample) :
    (controller.attend sample).1.listener = controller.listener := by
  obtain ⟨_, _, _, _, _, hState⟩ := exists_attend_eq controller sample
  rw [hState]

/-- What is asked for where the run status stays what it is: to repaint, to report, and
to log and announce a move in the menu. -/
def Effect.Routine : Effect Listener → Prop
  | .draw _ => True
  | .publish _ => True
  | .log _ => True
  | .announce (.rowSelected _) => True
  | .announce (.valueChanged _ _) => True
  | _ => False

/-- Whoever takes no notice of routine requests notices nothing in a list of them. -/
theorem filterMap_eq_nil_of_routine {Noticed : Type} {notice? : Effect Listener → Option Noticed}
    (hNotice : ∀ effect, effect.Routine → notice? effect = none)
    {effects : List (Effect Listener)} (hRoutine : ∀ effect ∈ effects, effect.Routine) :
    effects.filterMap notice? = [] :=
  List.filterMap_eq_nil_iff.mpr fun effect hMem => hNotice effect (hRoutine effect hMem)

theorem routine_refresh (state : State) :
    ∀ effect ∈ (state.refresh : List (Effect Listener)), effect.Routine := by
  intro effect hMem
  rw [State.refresh, List.mem_append, List.mem_map, List.mem_singleton] at hMem
  rcases hMem with ⟨order, _, rfl⟩ | rfl
  · trivial
  · trivial

theorem routine_moved (state : State) (move : Menu.Move) :
    ∀ effect ∈ (state.moved move : State × List (Effect Listener)).2, effect.Routine := by
  unfold State.moved
  split <;> simp [State.moved.valueNews, Effect.Routine]

/-- Nothing that the stick or the progress brings is a change of status or a call. -/
theorem routine_attend (controller : Controller Listener) (sample : Sample) :
    ∀ effect ∈ (controller.attend sample).2, effect.Routine := by
  unfold attend
  cases controller.state.run.status with
  | paused => exact List.forall_mem_nil _
  | running =>
      obtain ⟨percent, hAdvance⟩ := exists_advance_eq controller sample.progress
      rw [hAdvance, List.forall_mem_append]
      split <;> simp [Effect.Routine]
  | idle =>
      simp only [browse]
      cases sample.stick.move? with
      | none => exact List.forall_mem_nil _
      | some move =>
          simp only [navigate]
          split
          · rw [List.forall_mem_append]
            exact ⟨routine_moved controller.state move, routine_refresh _⟩
          · exact List.forall_mem_nil _

/-- The menu is locked during a run. -/
theorem row_attend {controller : Controller Listener} (sample : Sample)
    (hStatus : controller.state.run.status ≠ .idle) :
    (controller.attend sample).1.state.row = controller.state.row := by
  unfold attend
  cases hCase : controller.state.run.status with
  | idle => exact absurd hCase hStatus
  | running => rfl
  | paused => rfl

theorem exists_toggle_eq (controller : Controller Listener) :
    ∃ run percent, controller.toggle.1 =
      { controller with state := { controller.state with run := run, percent := percent } } := by
  simp only [toggle]
  split <;> exact ⟨_, _, rfl⟩

theorem exists_push_eq (controller : Controller Listener) (pressed : Bool) :
    ∃ run percent, (controller.push pressed).1 =
      { controller with
        state := { controller.state with run := run, percent := percent, held := pressed } } := by
  unfold push
  split
  · exact exists_toggle_eq (controller.hold pressed)
  · exact ⟨_, _, rfl⟩

/-- A tick leaves the settings and the listener alone, and follows the switch on
whichever way it takes. -/
theorem exists_tick_eq (controller : Controller Listener) (sample : Sample) :
    ∃ row quantity kits percent run gate, (controller.tick sample).1 =
      { controller with
        state := ⟨row, quantity, kits, percent, run, sample.stick.pressed⟩
        gate := gate } := by
  obtain ⟨run, hGuarded⟩ := exists_guarded_eq controller sample.interlock
  simp only [tick]
  split
  · rw [hGuarded]
    exact ⟨_, _, _, _, _, _, rfl⟩
  · obtain ⟨row, quantity, kits, percent, gate, hAttend⟩ :=
      exists_attend_eq (controller.guarded sample.interlock).1 sample
    obtain ⟨_, _, hPush⟩ := exists_push_eq
      ((controller.guarded sample.interlock).1.attend sample).1 sample.stick.pressed
    rw [hPush, hAttend, hGuarded]
    exact ⟨_, _, _, _, _, _, rfl⟩

/-- The end of a job touches the run machine and the percentage only. -/
theorem exists_finish_eq (controller : Controller Listener) :
    ∃ run percent, controller.finish.1 =
      { controller with state := { controller.state with run := run, percent := percent } } := by
  simp only [finish]
  split
  · exact ⟨_, _, rfl⟩
  · split <;> exact ⟨_, _, rfl⟩

/-- What holds of every stage, between the controller before it, its requests and the
controller after it, and of stages put together. Then it holds of every run. -/
structure Stagewise
    (Rel : Controller Listener → List (Effect Listener) → Controller Listener → Prop) : Prop where
  nothing : ∀ controller, Rel controller [] controller
  append : ∀ {before middle after : Controller Listener} {first second : List (Effect Listener)},
    Rel before first middle → Rel middle second after → Rel before (first ++ second) after
  start : ∀ controller, Rel controller controller.start.2 controller.start.1
  setPaused : ∀ controller paused,
    Rel controller (controller.setPaused paused).2 (controller.setPaused paused).1
  attend : ∀ controller sample,
    Rel controller (controller.attend sample).2 (controller.attend sample).1
  hold : ∀ controller pressed, Rel controller [] (controller.hold pressed)
  toggle : ∀ controller, Rel controller controller.toggle.2 controller.toggle.1
  finish : ∀ controller, Rel controller controller.finish.2 controller.finish.1
  install : ∀ controller listener, Rel controller [] (controller.install listener)

namespace Stagewise

variable {Rel : Controller Listener → List (Effect Listener) → Controller Listener → Prop}
  (stagewise : Stagewise Rel)

include stagewise

theorem guarded (controller : Controller Listener) (interlock : Option Bool) :
    Rel controller (controller.guarded interlock).2 (controller.guarded interlock).1 := by
  cases interlock with
  | none => exact stagewise.nothing controller
  | some tripped => exact stagewise.setPaused controller tripped

/-- The push is the switch that is remembered and, where it presses the button, the change that it
makes. -/
theorem push (controller : Controller Listener) (pressed : Bool) :
    Rel controller (controller.push pressed).2 (controller.push pressed).1 := by
  have hHold := stagewise.hold controller pressed
  unfold Controller.push
  split
  · exact stagewise.append hHold (stagewise.toggle (controller.hold pressed))
  · exact hHold

/-- A tick is the interlock step, the look at the stick or the progress, and the push, in this
order. -/
theorem tick (controller : Controller Listener) (sample : Sample) :
    Rel controller (controller.tick sample).2 (controller.tick sample).1 := by
  have hGuarded := stagewise.guarded controller sample.interlock
  simp only [Controller.tick]
  split
  · rw [← List.append_nil (controller.guarded sample.interlock).2]
    exact stagewise.append hGuarded (stagewise.hold _ sample.stick.pressed)
  · exact stagewise.append (stagewise.append hGuarded (stagewise.attend _ sample))
      (stagewise.push _ sample.stick.pressed)

theorem perform (controller : Controller Listener) (operation : Operation Listener) :
    Rel controller (controller.perform operation).2 (controller.perform operation).1 := by
  cases operation with
  | start => exact stagewise.start controller
  | tick sample => exact stagewise.tick controller sample
  | setPaused paused => exact stagewise.setPaused controller paused
  | finish => exact stagewise.finish controller
  | install listener => exact stagewise.install controller listener

/-- What holds of the parts, and of parts put together, holds of a run. -/
theorem run (controller : Controller Listener) (operations : List (Operation Listener)) :
    Rel controller (controller.run operations).2 (controller.run operations).1 := by
  induction operations generalizing controller with
  | nil => exact stagewise.nothing controller
  | cons operation rest ih =>
      rw [run_cons]
      exact stagewise.append (stagewise.perform controller operation) (ih _)

end Stagewise

end TapeCutter.Controller
