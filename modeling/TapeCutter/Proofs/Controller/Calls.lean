import TapeCutter.Proofs.Controller.Pause
import TapeCutter.Proofs.Controller.Recall

/-! Who is called, and for what. Of all that changes the run status only the operator's
own changes are told, each of them once, to the listener of the moment. -/
namespace TapeCutter

/-- The changes the operator made, without those of the interlock and the sequencer. -/
def Run.startStops (changes : List Run.Change) : List Run.Transition :=
  changes.filterMap fun (transition, trigger) =>
    if trigger = .startStop then some transition else none

@[simp] theorem Run.startStops_append (first second : List Run.Change) :
    startStops (first ++ second) = startStops first ++ startStops second :=
  List.filterMap_append

theorem Run.Machine.startStops_course_eq_nil (machine : Run.Machine) {triggers : List Run.Trigger}
    (hTriggers : .startStop ∉ triggers) : startStops (machine.course triggers).2 = [] := by
  rw [startStops, List.filterMap_eq_nil_iff]
  rintro ⟨transition, trigger⟩ hMem
  obtain ⟨before, after, hSplit, _⟩ := exists_apply_of_mem_course hMem
  apply if_neg
  rintro rfl
  exact hTriggers (hSplit ▸ List.mem_append_right before List.mem_cons_self)

namespace Controller

variable {Listener : Type}

/-- The operator's changes among requests, oldest first. -/
def toggles (effects : List (Effect Listener)) : List Run.Transition :=
  Run.startStops (changes effects)

@[simp] theorem toggles_append (first second : List (Effect Listener)) :
    toggles (first ++ second) = toggles first ++ toggles second := by
  simp [toggles]

def Effect.call? : Effect Listener → Option (Listener × Run.Status)
  | .tell listener status => some (listener, status)
  | _ => none

/-- Who was called with which status among requests, oldest first. -/
def calls (effects : List (Effect Listener)) : List (Listener × Run.Status) :=
  effects.filterMap Effect.call?

@[simp] theorem calls_nil : calls ([] : List (Effect Listener)) = [] := rfl

@[simp] theorem calls_append (first second : List (Effect Listener)) :
    calls (first ++ second) = calls first ++ calls second :=
  List.filterMap_append

theorem calls_of_routine {effects : List (Effect Listener)}
    (hRoutine : ∀ effect ∈ effects, effect.Routine) : calls effects = [] := by
  refine filterMap_eq_nil_of_routine (fun effect hQuiet => ?_) hRoutine
  unfold Effect.call?
  split
  · exact hQuiet.elim
  · rfl

@[simp] theorem calls_refresh (state : State) :
    calls (state.refresh : List (Effect Listener)) = [] :=
  calls_of_routine (routine_refresh state)

@[simp] theorem calls_reported (transition : Run.Transition) (trigger : Run.Trigger) :
    calls (reported transition trigger : List (Effect Listener)) = [] := rfl

/-! Nobody is called but by the push switch. -/

/-- A pause and its end are nothing to the listener. -/
theorem calls_setPaused (controller : Controller Listener) (paused : Bool) :
    calls (controller.setPaused paused).2 = [] := by
  simp only [setPaused]
  rw [← List.singleton_append, calls_append, calls_append, calls_refresh]
  split <;> rfl

theorem calls_guarded (controller : Controller Listener) (interlock : Option Bool) :
    calls (controller.guarded interlock).2 = [] := by
  cases interlock with
  | none => rfl
  | some tripped => exact calls_setPaused controller tripped

theorem calls_attend (controller : Controller Listener) (sample : Sample) :
    calls (controller.attend sample).2 = [] :=
  calls_of_routine (routine_attend controller sample)

/-- The end of a job calls nobody, whether it is announced or not. -/
theorem calls_finish (controller : Controller Listener) : calls controller.finish.2 = [] := by
  simp only [finish]
  split
  · simp only [calls_append, calls_reported, calls_refresh]
    rfl
  · split <;> rfl

theorem calls_start (controller : Controller Listener) : calls controller.start.2 = [] := by
  simp only [start, calls_append, calls_refresh]
  rfl

/-- What the listener hears of changes, if there is one. -/
def told (listener : Option Listener) (transitions : List Run.Transition) :
    List (Listener × Run.Status) :=
  transitions.flatMap fun transition =>
    (listener.map fun listener => (listener, transition.target)).toList

theorem toggle_of_paused {controller : Controller Listener}
    (hStatus : controller.state.run.status = .paused) : controller.toggle = (controller, []) := by
  simp only [toggle, Run.Machine.apply, hStatus]

/-- Outside the pause the operator's change is announced, shown and then told. -/
theorem toggle_of_ne_paused {controller : Controller Listener}
    (hStatus : controller.state.run.status ≠ .paused) :
    let source := controller.state.run.status
    let next := controller.toggle.1.state
    let target := next.run.status
    controller.toggle.2 = reported ⟨source, target⟩ .startStop ++ next.refresh ++
        (controller.listener.map fun listener => .tell listener target).toList ∧
      (source = .idle ∧ target = .running ∨ source = .running ∧ target = .idle) := by
  obtain ⟨target, hApply, hTarget⟩ := Run.Machine.apply_startStop_of_ne_paused hStatus
  simp only [toggle, hApply, Run.Machine.moveTo]
  exact ⟨trivial, hTarget⟩

/-- The listener is called with each change that the operator makes, and before there is a
listener nobody is. -/
theorem calls_toggle (controller : Controller Listener) :
    calls controller.toggle.2 = told controller.listener (toggles controller.toggle.2) := by
  have hCourse : changes controller.toggle.2 = _ := congrArg Prod.snd (toggle_course controller)
  rw [toggles, hCourse, Run.Machine.course_cons]
  unfold toggle
  cases hMoved : (controller.state.run.apply .startStop).2 with
  | none => simp [hMoved, told, Run.startStops]
  | some transition =>
      simp only [hMoved, calls_append, calls_reported, calls_refresh, List.nil_append]
      cases controller.listener <;> rfl

/-- What is called by a tick is called by its push, for the operator's changes in it. -/
theorem calls_push (controller : Controller Listener) (pressed : Bool) :
    calls (controller.push pressed).2 =
      told controller.listener (toggles (controller.push pressed).2) := by
  unfold push
  split
  · exact calls_toggle (controller.hold pressed)
  · rfl

/-- Before the push switch has its turn in a tick, the operator has changed nothing. -/
theorem toggles_guarded (controller : Controller Listener) (interlock : Option Bool) :
    toggles (controller.guarded interlock).2 = [] := by
  have hCourse : changes (controller.guarded interlock).2 = _ :=
    congrArg Prod.snd (guarded_course controller interlock)
  rw [toggles, hCourse]
  apply Run.Machine.startStops_course_eq_nil
  cases interlock with
  | none => exact List.not_mem_nil
  | some tripped => cases tripped <;> simp [Run.Trigger.ofInterlock]

theorem toggles_attend (controller : Controller Listener) (sample : Sample) :
    toggles (controller.attend sample).2 = [] := by
  rw [toggles, (attend_run controller sample).2.2]
  rfl

theorem toggles_eq_nil_of_not_tick {controller : Controller Listener}
    {operation : Operation Listener} (hTick : operation.pressed? = none) :
    toggles (controller.perform operation).2 = [] := by
  rw [toggles, changes_perform]
  apply Run.Machine.startStops_course_eq_nil
  cases operation with
  | tick sample => cases hTick
  | start => exact List.not_mem_nil
  | install listener => exact List.not_mem_nil
  | setPaused paused => cases paused <;> simp [triggers, Run.Trigger.ofInterlock]
  | finish =>
      rw [triggers]
      split <;> simp

/-- A tick calls with the operator's changes and with nothing else. -/
theorem calls_tick (controller : Controller Listener) (sample : Sample) :
    calls (controller.tick sample).2 =
      told controller.listener (toggles (controller.tick sample).2) := by
  simp only [tick]
  split
  · rw [calls_guarded, toggles_guarded]
    rfl
  · simp only [calls_append, toggles_append, calls_guarded, toggles_guarded, calls_attend,
      toggles_attend, calls_push, attend_listener, guarded_listener, List.nil_append]

/-- Every change the operator makes is told to the listener of the moment, and
nothing else is. -/
theorem calls_perform (controller : Controller Listener) (operation : Operation Listener) :
    calls (controller.perform operation).2 =
      told controller.listener (toggles (controller.perform operation).2) := by
  cases operation with
  | tick sample => exact calls_tick controller sample
  | start =>
      rw [toggles_eq_nil_of_not_tick rfl]
      exact calls_start controller
  | setPaused paused =>
      rw [toggles_eq_nil_of_not_tick rfl]
      exact calls_setPaused controller paused
  | finish =>
      rw [toggles_eq_nil_of_not_tick rfl]
      exact calls_finish controller
  | install listener => rfl

end Controller

end TapeCutter
