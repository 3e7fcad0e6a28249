import TapeCutter.Proofs.ControlLoop.Steps
import TapeCutter.Proofs.Controller.Progress

/-! What the sequencer promises about the end of a job: it reports the end while the job is
active, once at most. The report does not say which job it is about, and it may come between
any two steps of the loop. -/
namespace TapeCutter.ControlLoop

open Controller

def Active (loop : ControlLoop) : Prop := loop.controller.state.run.Active

instance (loop : ControlLoop) : Decidable loop.Active :=
  inferInstanceAs (Decidable loop.controller.state.run.Active)

/-! The contract. -/

/-- Whether the end of the present job has been reported, once this has happened too. Of a
job that is just being started nothing has been reported yet. -/
def reportedAfter (loop : ControlLoop) (reported : Bool) (event : Event) : Bool :=
  event = .report .done ||
    reported && !(toggles (loop.step event).2.effects).contains ⟨.idle, .running⟩

/-- The sequencer reports the end of a job while the job is active, and once at most. -/
def Honest (loop : ControlLoop) (reported : Bool) : List Event → Prop
  | [] => True
  | event :: rest =>
      (event = .report .done → loop.Active ∧ reported = false) ∧
        (loop.next event).Honest (loop.reportedAfter reported event) rest

instance decidableHonest (loop : ControlLoop) (reported : Bool) :
    (events : List Event) → Decidable (loop.Honest reported events)
  | [] => .isTrue trivial
  | event :: rest =>
      have := decidableHonest (loop.next event) (loop.reportedAfter reported event) rest
      inferInstanceAs (Decidable (_ ∧ _))

/-- What has been reported of the job stays as it is unless its end is reported now, or a tick
may have started another. -/
theorem reportedAfter_of_not_tick {loop : ControlLoop} {event : Event}
    (hEvent : event ≠ .report .done) (hTick : ∀ progress, .tick progress ∉ loop.made event)
    (reported : Bool) : loop.reportedAfter reported event = reported := by
  simp [reportedAfter, hEvent, toggles_step_of_not_tick hTick]

/-- No step but the tick can start another job. -/
theorem reportedAfter_proceed {loop : ControlLoop}
    (hTick : ∀ progress, loop.stage ≠ .tick progress) (inputs : Inputs) (reported : Bool) :
    loop.reportedAfter reported (.proceed inputs) = reported :=
  reportedAfter_of_not_tick (by simp) (by simpa [made, eq_comm] using hTick) reported

theorem reportedAfter_word (loop : ControlLoop) (reported : Bool) :
    loop.reportedAfter reported (.report .done) = true := rfl

/-- A contract that is kept in a run has been kept at every earlier time. -/
theorem Honest.of_append {loop : ControlLoop} {reported : Bool} {first second : List Event}
    (honest : loop.Honest reported (first ++ second)) : loop.Honest reported first := by
  induction first generalizing loop reported with
  | nil => trivial
  | cons event rest ih => exact ⟨honest.1, ih honest.2⟩

/-! The kinds of step, as far as a job and the word of its end are concerned. -/

/-- The steps between the finish and the tick, and the tick. -/
def Stage.late : Stage → Bool
  | .takeDone => false
  | .finish _ => false
  | .takeProgress => true
  | .drain _ => true
  | .tick _ => true

inductive Turn (loop : ControlLoop) : Event → Prop where
  | progress (percent : UInt8) : loop.Turn (.report (.progress percent))
  | word : loop.Turn (.report .done)
  | look (inputs : Inputs) (hStage : loop.stage = .takeDone) : loop.Turn (.proceed inputs)
  | finish (inputs : Inputs) (hStage : loop.stage = .finish true) : loop.Turn (.proceed inputs)
  /-- A step that touches neither the controller nor the word. -/
  | onward (inputs : Inputs) (hStage : loop.stage ≠ .takeDone)
      (hTick : ∀ progress, loop.stage ≠ .tick progress)
      (hLate : (loop.next (.proceed inputs)).stage.late = true)
      (hController : (loop.next (.proceed inputs)).controller = loop.controller)
      (hDone : (loop.next (.proceed inputs)).feedback.done = loop.feedback.done) :
      loop.Turn (.proceed inputs)
  | tick (inputs : Inputs) (progress : Option UInt8) (hStage : loop.stage = .tick progress) :
      loop.Turn (.proceed inputs)

/-- Every event is one of these, whatever the loop is about to do. -/
theorem turn_of_event (loop : ControlLoop) (event : Event) : loop.Turn event := by
  cases event with
  | report report =>
      cases report with
      | progress percent => exact .progress percent
      | done => exact .word
  | proceed inputs =>
      cases hStage : loop.stage with
      | takeDone => exact .look inputs hStage
      | finish done =>
          cases done with
          | true => exact .finish inputs hStage
          | false =>
              have hStep := step_finish_false inputs hStage
              apply Turn.onward inputs <;> simp [next, hStep, hStage, Stage.late]
      | takeProgress =>
          have hStep := step_takeProgress inputs hStage
          apply Turn.onward inputs <;>
            simp [next, hStep, hStage, Stage.late, Sequencer.Feedback.takeProgress]
      | drain progress =>
          cases hWaiting : loop.outbox.waiting with
          | nil =>
              have hStep := step_drain_nil inputs hStage hWaiting
              apply Turn.onward inputs <;> simp [next, hStep, hStage, Stage.late]
          | cons status rest =>
              have hStep := step_drain_cons inputs hStage hWaiting
              apply Turn.onward inputs <;> simp [next, hStep, hStage, Stage.late]
      | tick progress => exact .tick inputs progress hStage

/-- Where the sequencer keeps its contract: a word that waits or is in hand is about the
present job, it is not repeated, and during a pass only an active job has one waiting. -/
structure Fair (loop : ControlLoop) (reported : Bool) : Prop where
  waiting : loop.feedback.done = true → reported = true
  inHand : loop.stage = .finish true → reported = true ∧ loop.feedback.done = false
  active : loop.feedback.done = true → loop.stage ≠ .takeDone → loop.Active

theorem fair_powerOn (menu : MenuSettings) : (powerOn menu).Fair false := ⟨nofun, nofun, nofun⟩

/-- While a word is out its job is active, so the tick starts none, and what has been said of
the job still holds when the next look comes. -/
theorem Fair.tick {loop : ControlLoop} {reported : Bool} (fair : loop.Fair reported)
    {progress : Option UInt8} (hStage : loop.stage = .tick progress) (inputs : Inputs) :
    (loop.next (.proceed inputs)).Fair (loop.reportedAfter reported (.proceed inputs)) := by
  have hStep := step_tick inputs hStage
  rw [ControlLoop.next, hStep]
  refine ⟨?_, by simp, fun _ hNot => absurd rfl hNot⟩
  intro hSaid
  have hActive : loop.controller.state.run.Active := fair.active hSaid (by simp [hStage])
  have hQuiet := start_notMem_toggles_of_active hActive
    ⟨inputs.now, progress, inputs.interlock, inputs.stick⟩
  simp only [reportedAfter, hStep, ask_effects, perform]
  simpa [fair.waiting hSaid] using hQuiet

/-- One event keeps the loop fair, as long as the sequencer keeps its contract there. -/
theorem Fair.next {loop : ControlLoop} {reported : Bool} (fair : loop.Fair reported)
    {event : Event} (hContract : event = .report .done → loop.Active ∧ reported = false) :
    (loop.next event).Fair (loop.reportedAfter reported event) := by
  obtain ⟨hWaiting, hInHand, hActive⟩ := fair
  cases loop.turn_of_event event with
  | progress percent =>
      rw [reportedAfter_of_not_tick (by simp) (by simp [made])]
      exact ⟨hWaiting, hInHand, hActive⟩
  | word =>
      obtain ⟨hNow, hFirst⟩ := hContract rfl
      refine ⟨fun _ => rfl, ?_, fun _ _ => hNow⟩
      -- A second word cannot come while the first is in hand.
      intro hStage
      rw [(hInHand hStage).1] at hFirst
      cases hFirst
  | look inputs hStage =>
      rw [reportedAfter_proceed (by simp [hStage]), ControlLoop.next, step_takeDone inputs hStage]
      refine ⟨by simp, ?_, by simp⟩
      intro hTaken
      exact ⟨hWaiting (Stage.finish.inj hTaken), rfl⟩
  | finish inputs hStage =>
      have hNone := (hInHand hStage).2
      rw [reportedAfter_proceed (by simp [hStage]), ControlLoop.next,
        step_finish_true inputs hStage]
      refine ⟨?_, by simp, ?_⟩
      · intro hDone
        simp [hNone] at hDone
      · intro hDone
        simp [hNone] at hDone
  | onward inputs hStage hTick hLate hController hDone =>
      rw [reportedAfter_proceed hTick]
      refine ⟨?_, ?_, ?_⟩
      · rw [hDone]
        exact hWaiting
      · intro hTaken
        rw [hTaken] at hLate
        cases hLate
      · intro hSaid _
        rw [hDone] at hSaid
        rw [Active, hController]
        exact hActive hSaid hStage
  | tick inputs progress hStage => exact Fair.tick ⟨hWaiting, hInHand, hActive⟩ hStage inputs

/-- Any part of an honest run leaves a fair loop, and the rest of the run is honest from there. -/
theorem Fair.after {loop : ControlLoop} {reported : Bool} (fair : loop.Fair reported)
    {first second : List Event} (honest : loop.Honest reported (first ++ second)) :
    ∃ later, (loop.after first).Fair later ∧ (loop.after first).Honest later second := by
  induction first generalizing loop reported with
  | nil => exact ⟨reported, fair, honest⟩
  | cons event rest ih => exact ih (fair.next honest.1) honest.2

end TapeCutter.ControlLoop
