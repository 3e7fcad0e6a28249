import TapeCutter.ControlLoop
import TapeCutter.Proofs.Controller.Switch
import TapeCutter.Proofs.Trace

/-! The steps of the control loop, and what can be picked out of a run of it. Only two
steps of a pass concern the controller, the finish and the tick, and only the tick can
bring a change of the operator's, one at most. -/
namespace TapeCutter.ControlLoop

section

variable (loop : ControlLoop) (operation : Controller.Operation Unit) (stage : Stage)

@[simp] theorem ask_controller :
    (loop.ask operation stage).1.controller = (loop.controller.perform operation).1 := rfl

@[simp] theorem ask_outbox :
    (loop.ask operation stage).1.outbox =
      post loop.outbox (loop.controller.perform operation).2 := rfl

@[simp] theorem ask_feedback : (loop.ask operation stage).1.feedback = loop.feedback := rfl

@[simp] theorem ask_stage : (loop.ask operation stage).1.stage = stage := rfl

@[simp] theorem ask_effects :
    (loop.ask operation stage).2.effects = (loop.controller.perform operation).2 := rfl

@[simp] theorem ask_drained : (loop.ask operation stage).2.drained = none := rfl

end

/-! Each step by its stage. -/

section

variable {loop : ControlLoop} (inputs : Inputs)

theorem step_takeDone (hStage : loop.stage = .takeDone) :
    loop.step (.proceed inputs) =
      ({ loop with
          feedback := { loop.feedback with done := false }
          stage := .finish loop.feedback.done }, {}) := by
  simp only [step, proceed, hStage, Sequencer.Feedback.takeDone]

theorem step_finish_true (hStage : loop.stage = .finish true) :
    loop.step (.proceed inputs) = loop.ask .finish .takeProgress := by
  simp only [step, proceed, hStage]

theorem step_finish_false (hStage : loop.stage = .finish false) :
    loop.step (.proceed inputs) = ({ loop with stage := .takeProgress }, {}) := by
  simp only [step, proceed, hStage]

theorem step_takeProgress (hStage : loop.stage = .takeProgress) :
    loop.step (.proceed inputs) =
      ({ loop with
          feedback := loop.feedback.takeProgress.2
          stage := .drain loop.feedback.takeProgress.1 }, {}) := by
  simp only [step, proceed, hStage]

theorem step_drain_nil {progress : Option UInt8} (hStage : loop.stage = .drain progress)
    (hWaiting : loop.outbox.waiting = []) :
    loop.step (.proceed inputs) = ({ loop with stage := .tick progress }, {}) := by
  simp only [step, proceed, hStage, Sequencer.Outbox.receive, hWaiting]

theorem step_drain_cons {progress : Option UInt8} (hStage : loop.stage = .drain progress)
    {status : Run.Status} {rest : List Run.Status}
    (hWaiting : loop.outbox.waiting = status :: rest) :
    loop.step (.proceed inputs) =
      ({ loop with outbox := { loop.outbox with waiting := rest } },
        { drained := some status }) := by
  simp only [step, proceed, hStage, Sequencer.Outbox.receive, hWaiting]

theorem step_tick {progress : Option UInt8} (hStage : loop.stage = .tick progress) :
    loop.step (.proceed inputs) =
      loop.ask (.tick ⟨inputs.now, progress, inputs.interlock, inputs.stick⟩) .takeDone := by
  simp only [step, proceed, hStage]

end

/-- Nothing but the finish and the tick concerns the controller. -/
theorem step_controller (loop : ControlLoop) (event : Event) :
    ((loop.next event).controller = loop.controller ∧ (loop.step event).2.effects = []) ∨
      ∃ inputs, event = .proceed inputs ∧
        (loop.stage = .finish true ∧ loop.step event = loop.ask .finish .takeProgress ∨
          ∃ progress, loop.stage = .tick progress ∧
            loop.step event =
              loop.ask (.tick ⟨inputs.now, progress, inputs.interlock, inputs.stick⟩)
                .takeDone) := by
  cases event with
  | report report => exact Or.inl ⟨rfl, rfl⟩
  | proceed inputs =>
      rw [next]
      cases hStage : loop.stage with
      | takeDone =>
          rw [step_takeDone inputs hStage]
          exact Or.inl ⟨rfl, rfl⟩
      | finish done =>
          cases done with
          | true => exact Or.inr ⟨inputs, rfl, Or.inl ⟨rfl, step_finish_true inputs hStage⟩⟩
          | false =>
              rw [step_finish_false inputs hStage]
              exact Or.inl ⟨rfl, rfl⟩
      | takeProgress =>
          rw [step_takeProgress inputs hStage]
          exact Or.inl ⟨rfl, rfl⟩
      | drain progress =>
          cases hWaiting : loop.outbox.waiting with
          | nil =>
              rw [step_drain_nil inputs hStage hWaiting]
              exact Or.inl ⟨rfl, rfl⟩
          | cons status rest =>
              rw [step_drain_cons inputs hStage hWaiting]
              exact Or.inl ⟨rfl, rfl⟩
      | tick progress =>
          exact Or.inr ⟨inputs, rfl, Or.inr ⟨progress, rfl, step_tick inputs hStage⟩⟩

/-! What is picked out of a run. -/

/-- The requests of a run, oldest first. -/
def effects (loop : ControlLoop) : List Event → List (Controller.Effect Unit) :=
  Trace.collect next (fun loop event => (loop.step event).2.effects) loop

/-- The changes that a run takes from the outbox. -/
def drained (loop : ControlLoop) : List Event → List Run.Status :=
  Trace.collect next (fun loop event => (loop.step event).2.drained.toList) loop

/-- The step that an event makes, if it makes one. -/
def made (loop : ControlLoop) : Event → List Stage
  | .proceed _ => [loop.stage]
  | .report _ => []

/-- The steps that a run makes. -/
def steps (loop : ControlLoop) : List Event → List Stage :=
  Trace.collect next made loop

/-- The operator's changes in a run. -/
def toggled (loop : ControlLoop) (events : List Event) : List Run.Transition :=
  Controller.toggles (loop.effects events)

theorem after_cons (loop : ControlLoop) (event : Event) (rest : List Event) :
    loop.after (event :: rest) = (loop.next event).after rest := rfl

theorem drained_cons (loop : ControlLoop) (event : Event) (rest : List Event) :
    loop.drained (event :: rest) =
      (loop.step event).2.drained.toList ++ (loop.next event).drained rest := rfl

theorem steps_cons (loop : ControlLoop) (event : Event) (rest : List Event) :
    loop.steps (event :: rest) = loop.made event ++ (loop.next event).steps rest := rfl

theorem toggled_cons (loop : ControlLoop) (event : Event) (rest : List Event) :
    loop.toggled (event :: rest) =
      Controller.toggles (loop.step event).2.effects ++ (loop.next event).toggled rest :=
  Controller.toggles_append _ _

theorem after_append (loop : ControlLoop) (first second : List Event) :
    loop.after (first ++ second) = (loop.after first).after second :=
  List.foldl_append

/-- The changes of a run are those of its first part and those of the rest. -/
theorem toggled_append (loop : ControlLoop) (first second : List Event) :
    loop.toggled (first ++ second) = loop.toggled first ++ (loop.after first).toggled second := by
  rw [toggled, effects, Trace.collect_append, Controller.toggles_append]
  rfl

theorem steps_concat (loop : ControlLoop) (events : List Event) (event : Event) :
    loop.steps (events ++ [event]) = loop.steps events ++ (loop.after events).made event :=
  Trace.collect_concat loop events event

/-- Only a tick can bring a change of the operator's. -/
theorem toggles_step_of_not_tick {loop : ControlLoop} {event : Event}
    (hTick : ∀ progress, .tick progress ∉ loop.made event) :
    Controller.toggles (loop.step event).2.effects = [] := by
  rcases step_controller loop event with
    ⟨_, hNone⟩ | ⟨inputs, rfl, ⟨_, hAsk⟩ | ⟨progress, hStage, _⟩⟩
  · rw [hNone]
    rfl
  · have hQuiet : Controller.toggles (loop.controller.perform .finish).2 = [] :=
      Controller.toggles_eq_nil_of_not_tick rfl
    rw [hAsk, ask_effects, hQuiet]
  · have hHere := hTick progress
    rw [made, hStage] at hHere
    exact absurd List.mem_cons_self hHere

/-- The operator's changes start a job or stop it; none comes from a pause or leads into one. -/
theorem start_or_stop_of_toggled {loop : ControlLoop} {events : List Event}
    {transition : Run.Transition} (hMem : transition ∈ loop.toggled events) :
    transition = ⟨.idle, .running⟩ ∨ transition = ⟨.running, .idle⟩ := by
  induction events generalizing loop with
  | nil => cases hMem
  | cons event rest ih =>
      rw [toggled_cons, List.mem_append] at hMem
      rcases hMem with hHere | hLater
      · rcases step_controller loop event with ⟨_, hNone⟩ | ⟨_, _, ⟨_, hAsk⟩ | ⟨_, _, hAsk⟩⟩
        · rw [hNone] at hHere
          cases hHere
        · rw [hAsk, ask_effects] at hHere
          exact Controller.start_or_stop_of_mem_toggles hHere
        · rw [hAsk, ask_effects] at hHere
          exact Controller.start_or_stop_of_mem_toggles hHere
      · exact ih hLater

end TapeCutter.ControlLoop
