import TapeCutter.Proofs.Controller.History
import TapeCutter.Proofs.Controller.Switch

/-! The stop button. The switch acts on the start/stop row only, so a machine can be
stopped because the cursor cannot leave that row while a job is active: not by the menu,
which is locked during a run, and not by a pause or what follows one. -/
namespace TapeCutter.Controller

variable {Listener : Type}

/-- While a job is active the cursor is on the start/stop row. -/
def State.Stoppable (state : State) : Prop := state.run.Active → state.row = .startStop

/-- A pause moves no cursor, and neither starts a job nor ends one. -/
theorem stoppable_setPaused {controller : Controller Listener}
    (hStoppable : controller.state.Stoppable) (paused : Bool) :
    (controller.setPaused paused).1.state.Stoppable := by
  intro hActive
  exact hStoppable ((Run.Machine.apply_ofInterlock_active_iff _ paused).mp hActive)

theorem stoppable_guarded {controller : Controller Listener}
    (hStoppable : controller.state.Stoppable) (interlock : Option Bool) :
    (controller.guarded interlock).1.state.Stoppable := by
  cases interlock with
  | none => exact hStoppable
  | some tripped => exact stoppable_setPaused hStoppable tripped

/-- The cursor moves on an idle machine only, and an idle machine has no job. -/
theorem stoppable_attend {controller : Controller Listener}
    (hStoppable : controller.state.Stoppable) (sample : Sample) :
    (controller.attend sample).1.state.Stoppable := by
  intro hActive
  rw [(attend_run controller sample).1] at hActive
  have hStatus : controller.state.run.status ≠ .idle := by
    intro hIdle
    simp [Run.Machine.Active, hIdle] at hActive
  rw [row_attend sample hStatus]
  exact hStoppable hActive

/-- A job is started from the start/stop row, and starting it leaves the cursor there. -/
theorem stoppable_push {controller : Controller Listener}
    (hStoppable : controller.state.Stoppable) (pressed : Bool) :
    (controller.push pressed).1.state.Stoppable := by
  unfold push
  split
  · rename_i hActs
    obtain ⟨_, _, hToggle⟩ := exists_toggle_eq (controller.hold pressed)
    simp only [Bool.and_eq_true, beq_iff_eq] at hActs
    intro _
    rw [hToggle]
    exact hActs.2
  · exact hStoppable

theorem stoppable_tick {controller : Controller Listener}
    (hStoppable : controller.state.Stoppable) (sample : Sample) :
    (controller.tick sample).1.state.Stoppable := by
  have hGuarded := stoppable_guarded hStoppable sample.interlock
  simp only [tick]
  split
  · exact hGuarded
  · exact stoppable_push (stoppable_attend hGuarded sample) sample.stick.pressed

theorem stoppable_finish (controller : Controller Listener) :
    controller.finish.1.state.Stoppable := by
  intro hActive
  exact absurd hActive (not_active_finish controller)

theorem stoppable_perform {controller : Controller Listener}
    (hStoppable : controller.state.Stoppable) (operation : Operation Listener) :
    (controller.perform operation).1.state.Stoppable := by
  cases operation with
  | start => exact hStoppable
  | tick sample => exact stoppable_tick hStoppable sample
  | setPaused paused => exact stoppable_setPaused hStoppable paused
  | finish => exact stoppable_finish controller
  | install listener => exact hStoppable

/-- From power-on a machine with a job can be stopped at any time. -/
theorem stoppable_run (menu : MenuSettings) (operations : List (Operation Listener)) :
    ((powerOn menu : Controller Listener).run operations).1.state.Stoppable := by
  have hStart : (powerOn menu : Controller Listener).state.Stoppable := by
    intro hActive
    simp [powerOn, State.powerOn, Run.Machine.Active] at hActive
  -- The past is of no interest here, so nothing is noted about it.
  exact @run_invariant Listener Unit (fun _ _ => ())
    (fun _ controller => controller.state.Stoppable)
    (fun _ _ operation hStoppable => stoppable_perform hStoppable operation) () _ hStart operations

/-- After any run the cursor is on the start/stop row while a job is active. So a fresh
press stops a machine that the interlock leaves running, in the same tick, wherever the
stick points, and the listener installed last hears once that it is idle. -/
theorem fresh_press_stops (menu : MenuSettings) (operations : List (Operation Listener)) :
    let controller := ((powerOn menu : Controller Listener).run operations).1
    (controller.state.run.Active → controller.state.row = .startStop) ∧
      ∀ sample : Sample,
        (controller.guarded sample.interlock).1.state.run.status = .running →
          sample.stick.pressed = true → lastPressed operations ≠ some true →
            (controller.tick sample).1.state.run.status = .idle ∧
              calls (controller.tick sample).2 =
                ((lastInstalled operations).map fun listener => (listener, .idle)).toList := by
  intro controller
  have hStoppable : controller.state.Stoppable := stoppable_run menu operations
  refine ⟨hStoppable, ?_⟩
  intro sample hRunning hPressed hAnew
  have hRow : (controller.guarded sample.interlock).1.state.row = .startStop :=
    stoppable_guarded hStoppable sample.interlock (Or.inl hRunning)
  have hPushes : controller.pushes sample = true := by
    refine pushes_iff.mpr ⟨hPressed, ?_, ?_, ?_⟩
    · exact (held_run_eq_false_iff menu operations).mpr hAnew
    · rw [hRunning]
      exact nofun
    · rw [row_attend sample (by rw [hRunning]; exact nofun), hRow]
  obtain ⟨hToggles, hMoved⟩ := toggles_tick_of_pushes hPushes
  rw [hRunning] at hToggles hMoved
  have hIdle : (controller.tick sample).1.state.run.status = .idle := by
    simpa using hMoved
  refine ⟨hIdle, ?_⟩
  rw [calls_tick, hToggles, hIdle, told, List.flatMap_singleton, listener_run_powerOn]

/-- A pause lies between the start and the stop, the stick is pushed sideways and up
while it is pressed, and progress comes in with the same tick. -/
theorem fresh_press_stops_after_pause :
    let operations : List (Operation Nat) :=
      [.start, .tick ⟨0, none, some false, { up := true }⟩, .install 5,
        .tick ⟨20, none, none, { pressed := true }⟩, .setPaused true,
        .tick ⟨40, none, none, { down := true }⟩, .setPaused false]
    let controller := ((powerOn {} : Controller Nat).run operations).1
    let sample : Sample := ⟨60, some 70, none, { up := true, right := true, pressed := true }⟩
    (controller.guarded sample.interlock).1.state.run.status = .running ∧
      lastPressed operations = some false ∧ controller.state.row = .startStop ∧
        (controller.tick sample).1.state.run.status = .idle ∧
          calls (controller.tick sample).2 = [(5, .idle)] := by
  intro operations controller sample
  have hRunning : (controller.guarded sample.interlock).1.state.run.status = .running := rfl
  have hLast : lastPressed operations = some false := rfl
  obtain ⟨hRow, hStops⟩ := fresh_press_stops {} operations
  have hFresh : lastPressed operations ≠ some true := by
    rw [hLast]
    decide
  exact ⟨hRunning, hLast, hRow (Or.inl rfl), hStops sample hRunning rfl hFresh⟩

end TapeCutter.Controller
