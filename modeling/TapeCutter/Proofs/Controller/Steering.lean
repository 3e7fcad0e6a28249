import TapeCutter.Proofs.Controller.Stages
import TapeCutter.Proofs.Run.Course

/-! How the controller steers the run machine. Every operation pulls a definite
list of triggers, and what it announces is what the machine records under them.
Facts about the machine therefore carry over to every operation, and nothing
below this module needs to look into a tick again. -/
namespace TapeCutter.Controller

variable {Listener : Type}

/-- The change of status a request announces, if it announces one. -/
def Effect.change? : Effect Listener → Option Run.Change
  | .announce (.statusChanged transition trigger) => some (transition, trigger)
  | _ => none

/-- The changes of status among requests, oldest first. -/
def changes (effects : List (Effect Listener)) : List Run.Change := effects.filterMap Effect.change?

@[simp] theorem changes_nil : changes ([] : List (Effect Listener)) = [] := rfl

theorem changes_cons (effect : Effect Listener) (rest : List (Effect Listener)) :
    changes (effect :: rest) = effect.change?.toList ++ changes rest := by
  rw [changes, List.filterMap_cons]
  cases effect.change? <;> rfl

@[simp] theorem changes_append (first second : List (Effect Listener)) :
    changes (first ++ second) = changes first ++ changes second :=
  List.filterMap_append

theorem mem_changes_iff {effects : List (Effect Listener)} {transition : Run.Transition}
    {trigger : Run.Trigger} :
    (transition, trigger) ∈ changes effects ↔
      .announce (.statusChanged transition trigger) ∈ effects := by
  rw [changes, List.mem_filterMap]
  constructor
  · rintro ⟨effect, hMem, hChange⟩
    unfold Effect.change? at hChange
    split at hChange
    · cases hChange
      exact hMem
    · cases hChange
  · intro hMem
    exact ⟨_, hMem, rfl⟩

@[simp] theorem changes_reported (transition : Run.Transition) (trigger : Run.Trigger) :
    changes (reported transition trigger : List (Effect Listener)) = [(transition, trigger)] := rfl

theorem changes_of_routine {effects : List (Effect Listener)}
    (hRoutine : ∀ effect ∈ effects, effect.Routine) : changes effects = [] := by
  refine filterMap_eq_nil_of_routine (fun effect hQuiet => ?_) hRoutine
  unfold Effect.change?
  split
  · exact hQuiet.elim
  · rfl

@[simp] theorem changes_refresh (state : State) :
    changes (state.refresh : List (Effect Listener)) = [] :=
  changes_of_routine (routine_refresh state)

/-! The stages of a tick. -/

/-- Pausing or releasing takes the machine through the one trigger, and announces what that
changes. -/
theorem setPaused_course (controller : Controller Listener) (paused : Bool) :
    ((controller.setPaused paused).1.state.run, changes (controller.setPaused paused).2) =
      controller.state.run.course [.ofInterlock paused] := by
  rw [Run.Machine.course_cons, Run.Trigger.ofInterlock]
  unfold setPaused
  cases hMoved : (controller.state.run.apply
      (if paused then .interlockTripped else .interlockReleased)).2 with
  | none => simp [hMoved, changes_cons, Effect.change?]
  | some transition => simp [hMoved, changes_cons, Effect.change?]

/-- A guard that is not heard of triggers nothing. -/
theorem guarded_course (controller : Controller Listener) (interlock : Option Bool) :
    ((controller.guarded interlock).1.state.run, changes (controller.guarded interlock).2) =
      controller.state.run.course (interlock.map Run.Trigger.ofInterlock).toList := by
  cases interlock with
  | none => rfl
  | some tripped => exact setPaused_course controller tripped

/-- A finished job is news to the machine only while one is active. -/
theorem finish_course (controller : Controller Listener) :
    ((controller.finish).1.state.run, changes (controller.finish).2) =
      controller.state.run.course (if controller.state.run.Active then [.runComplete] else []) := by
  unfold finish
  by_cases hActive : controller.state.run.Active
  · rw [if_pos hActive, Run.Machine.course_cons]
    cases hMoved : (controller.state.run.apply .runComplete).2 with
    | none => simp [hMoved, hActive, changes_cons, Effect.change?]
    | some transition => simp [hMoved, changes_cons, Effect.change?]
  · simp [Run.Machine.apply_runComplete_eq_none hActive, hActive, changes_cons, Effect.change?]

/-- The end of an active job ends it and takes the percentage down. -/
theorem finish_of_active {controller : Controller Listener}
    (hActive : controller.state.run.Active) :
    controller.finish.1 =
      { controller with
        state := { controller.state with
          run := (controller.state.run.apply .runComplete).1, percent := 0 } } := by
  simp only [finish]
  split
  · rfl
  · rw [if_pos hActive]

/-- Where there is no job, its end costs a line in the log. -/
theorem finish_of_not_active {controller : Controller Listener}
    (hActive : ¬controller.state.run.Active) :
    controller.finish =
      (controller,
        [.log (Log.debug ("done_running ignored in " ++ controller.state.run.status.name))]) := by
  have hMoved := Run.Machine.apply_runComplete_eq_none hActive
  simp only [finish, hMoved]
  rw [if_neg hActive]

/-- No job is active after the word that it is finished. -/
theorem not_active_finish (controller : Controller Listener) :
    ¬controller.finish.1.state.run.Active := by
  by_cases hActive : controller.state.run.Active
  · rw [finish_of_active hActive]
    exact Run.Machine.not_active_apply_runComplete controller.state.run
  · rw [finish_of_not_active hActive]
    exact hActive

/-- Neither the menu nor the progress touches the machine or the push switch. -/
theorem attend_run (controller : Controller Listener) (sample : Sample) :
    (controller.attend sample).1.state.run = controller.state.run ∧
      (controller.attend sample).1.state.held = controller.state.held ∧
      changes (controller.attend sample).2 = [] := by
  obtain ⟨_, _, _, _, _, hState⟩ := exists_attend_eq controller sample
  rw [hState]
  exact ⟨rfl, rfl, changes_of_routine (routine_attend controller sample)⟩

theorem toggle_course (controller : Controller Listener) :
    (controller.toggle.1.state.run, changes controller.toggle.2) =
      controller.state.run.course [.startStop] := by
  rw [Run.Machine.course_cons]
  unfold toggle
  cases hMoved : (controller.state.run.apply .startStop).2 with
  | none => simp [hMoved, Run.Machine.apply_fst_of_eq_none (by decide) hMoved]
  | some transition =>
      cases controller.listener <;> simp [hMoved, changes_cons, Effect.change?]

/-- The button is pressed where the switch goes down on the start/stop row. -/
theorem push_course (controller : Controller Listener) (pressed : Bool) :
    ((controller.push pressed).1.state.run, changes (controller.push pressed).2) =
      controller.state.run.course
        (if pressed && !controller.state.held && controller.state.row == .startStop then
          [.startStop] else []) := by
  unfold push
  split
  · exact toggle_course (controller.hold pressed)
  · rfl

/-- The push switch acts in this tick: the machine is not paused, the switch has
just gone down, and the cursor is on the start/stop row after any move. -/
def pushes (controller : Controller Listener) (sample : Sample) : Bool :=
  let guarded := (controller.guarded sample.interlock).1
  guarded.state.run.status != .paused && sample.stick.pressed && !controller.state.held &&
    (guarded.attend sample).1.state.row == .startStop

/-- What an operation pulls. The interlock comes first in a tick and the push
switch last; a tick that is paused by the first never gets to the second. -/
def triggers (controller : Controller Listener) : Operation Listener → List Run.Trigger
  | .start => []
  | .tick sample =>
      (sample.interlock.map Run.Trigger.ofInterlock).toList ++
        if controller.pushes sample then [.startStop] else []
  | .setPaused paused => [.ofInterlock paused]
  | .finish => if controller.state.run.Active then [.runComplete] else []
  | .install _ => []

theorem guarded_held (controller : Controller Listener) (interlock : Option Bool) :
    (controller.guarded interlock).1.state.held = controller.state.held := by
  cases interlock <;> rfl

/-- A tick that is not paused ends with the switch, which acts or is only followed. -/
theorem push_attend {controller : Controller Listener} {sample : Sample}
    (hStatus : (controller.guarded sample.interlock).1.state.run.status ≠ .paused) :
    let followed :=
      ((controller.guarded sample.interlock).1.attend sample).1.hold sample.stick.pressed
    ((controller.guarded sample.interlock).1.attend sample).1.push sample.stick.pressed =
      if controller.pushes sample then followed.toggle else (followed, []) := by
  intro followed
  obtain ⟨_, hHeld, _⟩ := attend_run (controller.guarded sample.interlock).1 sample
  rw [guarded_held] at hHeld
  simp only [push, pushes, hHeld, bne_iff_ne.mpr hStatus, Bool.true_and]
  rfl

/-- A tick takes the machine through the interlock's trigger and then the operator's. -/
theorem tick_course (controller : Controller Listener) (sample : Sample) :
    ((controller.tick sample).1.state.run, changes (controller.tick sample).2) =
      controller.state.run.course (controller.triggers (.tick sample)) := by
  have hGuarded := guarded_course controller sample.interlock
  obtain ⟨hRun, hHeld, hChanges⟩ :=
    attend_run (controller.guarded sample.interlock).1 sample
  rw [guarded_held] at hHeld
  have hPush := push_course ((controller.guarded sample.interlock).1.attend sample).1
    sample.stick.pressed
  rw [hRun, hHeld] at hPush
  simp only [Prod.ext_iff] at hGuarded hPush
  rw [triggers, Run.Machine.course_append, ← hGuarded.1, ← hGuarded.2]
  unfold tick
  by_cases hPaused : (controller.guarded sample.interlock).1.state.run.status = .paused
  · simp [pushes, hPaused, hold]
  · simp [pushes, hPaused, hPush, hChanges]

/-- Every operation acts on the run machine through its triggers alone, and
announces just what they change. -/
theorem perform_course (controller : Controller Listener) (operation : Operation Listener) :
    ((controller.perform operation).1.state.run, changes (controller.perform operation).2) =
      controller.state.run.course (controller.triggers operation) := by
  cases operation with
  | start =>
      simp only [perform, start, changes_append, changes_refresh]
      rfl
  | tick sample => exact tick_course controller sample
  | setPaused paused => exact setPaused_course controller paused
  | finish => exact finish_course controller
  | install listener => rfl

theorem perform_run (controller : Controller Listener) (operation : Operation Listener) :
    (controller.perform operation).1.state.run =
      (controller.state.run.course (controller.triggers operation)).1 :=
  congrArg Prod.fst (perform_course controller operation)

theorem changes_perform (controller : Controller Listener) (operation : Operation Listener) :
    changes (controller.perform operation).2 =
      (controller.state.run.course (controller.triggers operation)).2 :=
  congrArg Prod.snd (perform_course controller operation)

/-- A run acts on the run machine through triggers alone as well, those of its operations
one after another. -/
theorem exists_run_course (controller : Controller Listener)
    (operations : List (Operation Listener)) :
    ∃ pulled, ((controller.run operations).1.state.run, changes (controller.run operations).2) =
      controller.state.run.course pulled := by
  induction operations generalizing controller with
  | nil => exact ⟨[], rfl⟩
  | cons operation rest ih =>
      obtain ⟨pulled, hRest⟩ := ih (controller.perform operation).1
      refine ⟨controller.triggers operation ++ pulled, ?_⟩
      rw [run_cons, changes_append, Run.Machine.course_append, ← perform_run, ← hRest,
        changes_perform]

/-- The interlock only ever comes first. -/
theorem ofInterlock_notMem_tail_triggers (controller : Controller Listener)
    (operation : Operation Listener) (tripped : Bool) :
    .ofInterlock tripped ∉ (controller.triggers operation).tail := by
  cases operation with
  | tick sample =>
      rw [triggers]
      generalize sample.interlock = interlock, controller.pushes sample = pushed
      cases interlock <;> cases pushed <;> cases tripped <;> simp [Run.Trigger.ofInterlock]
  | start => exact List.not_mem_nil
  | setPaused paused => exact List.not_mem_nil
  | finish =>
      rw [triggers]
      split <;> exact List.not_mem_nil
  | install listener => exact List.not_mem_nil

/-- A release is announced only by an operation that finds the machine paused,
and it restores what the machine remembers at that moment. -/
theorem announced_release {controller : Controller Listener} {operation : Operation Listener}
    {transition : Run.Transition}
    (hMem : .announce (.statusChanged transition .interlockReleased) ∈
      (controller.perform operation).2) :
    controller.state.run.status = .paused ∧
      transition = ⟨.paused, controller.state.run.resume⟩ := by
  rw [← mem_changes_iff, changes_perform] at hMem
  obtain ⟨before, after, hSplit, hMoved⟩ := Run.Machine.exists_apply_of_mem_course hMem
  cases before with
  | nil => exact Run.Machine.apply_released_eq_some hMoved
  | cons first rest =>
      have hTail := ofInterlock_notMem_tail_triggers controller operation false
      rw [hSplit] at hTail
      exact absurd (List.mem_append_right rest List.mem_cons_self) hTail

end TapeCutter.Controller
