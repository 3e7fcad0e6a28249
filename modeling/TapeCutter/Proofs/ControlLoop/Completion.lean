import Mathlib.Data.List.Induction
import TapeCutter.Proofs.ControlLoop.Contract

/-! The end of a job, as the loop makes it of the word of the sequencer. A word waits until
the next pass looks for it, which may be after the tick of the present one. The operator may
stop the job in that tick, and then cannot start another before the look, because a tick
brings one change at most. So it is the job that was active when the word came, and no other,
that the loop ends by it. -/
namespace TapeCutter.ControlLoop

open Controller

/-- Among these events is one look for the word, and it is the last step that they make. -/
def JustLooked (loop : ControlLoop) (events : List Event) : Prop :=
  ∃ earlier, .takeDone ∉ earlier ∧ loop.steps events = earlier ++ [.takeDone]

/-- The one look of these events, the steps before it, and what comes behind it without another
step. -/
theorem JustLooked.exists_look {loop : ControlLoop} {events : List Event}
    (looked : loop.JustLooked events) :
    ∃ between inputs meanwhile, events = between ++ .proceed inputs :: meanwhile ∧
      .takeDone ∉ loop.steps between ∧ (loop.after between).stage = .takeDone ∧
      ((loop.after between).next (.proceed inputs)).steps meanwhile = [] := by
  obtain ⟨earlier, hEarlier, hSteps⟩ := looked
  induction events generalizing loop earlier with
  | nil =>
      have hLength := congrArg List.length hSteps
      simp [steps] at hLength
  | cons event rest ih =>
      rw [steps_cons] at hSteps
      cases event with
      | report report =>
          obtain ⟨between, inputs, meanwhile, rfl, hBetween, hStage, hMeanwhile⟩ :=
            ih earlier hEarlier hSteps
          exact ⟨.report report :: between, inputs, meanwhile, rfl, hBetween, hStage, hMeanwhile⟩
      | proceed inputs =>
          cases earlier with
          | nil =>
              obtain ⟨hStage, hRest⟩ := List.cons.inj hSteps
              exact ⟨[], inputs, rest, rfl, List.not_mem_nil, hStage, hRest⟩
          | cons stage others =>
              obtain ⟨hStage, hRest⟩ := List.cons.inj hSteps
              rw [List.mem_cons, not_or] at hEarlier
              obtain ⟨between, later, meanwhile, rfl, hBetween, hLook, hMeanwhile⟩ :=
                ih others hEarlier.2 hRest
              refine ⟨.proceed inputs :: between, later, meanwhile, rfl, ?_, hLook, hMeanwhile⟩
              rw [steps_cons, made, hStage]
              exact List.not_mem_append (by simpa using hEarlier.1) hBetween

/-! From the word to the look. -/

/-- A word is kept until the look. -/
theorem feedback_done_next_iff (loop : ControlLoop) (event : Event) :
    (loop.next event).feedback.done = true ↔
      event = .report .done ∨ loop.feedback.done = true ∧ .takeDone ∉ loop.made event := by
  cases loop.turn_of_event event with
  | progress percent =>
      simp [next, step, made, Sequencer.Feedback.hear, Sequencer.Feedback.reportProgress]
  | word => simp [next, step, Sequencer.Feedback.hear, Sequencer.Feedback.reportDone]
  | look inputs hStage => simp [next, step_takeDone inputs hStage, made, hStage]
  | finish inputs hStage => simp [next, step_finish_true inputs hStage, made, hStage]
  | onward inputs hStage _ hLate hController hDone =>
      rw [hDone]
      simp [made, Ne.symm hStage]
  | tick inputs progress hStage => simp [next, step_tick inputs hStage, made, hStage]

/-- Without a step, and without a word of the end, everything stays but the progress. -/
theorem unchanged_of_steps_eq_nil {loop : ControlLoop} {reported : Bool} {events : List Event}
    (honest : loop.Honest reported events) (hOver : reported = true ∨ ¬loop.Active)
    (hSteps : loop.steps events = []) :
    (loop.after events).controller = loop.controller ∧ (loop.after events).stage = loop.stage ∧
      (loop.after events).feedback.done = loop.feedback.done ∧ loop.toggled events = [] := by
  induction events generalizing loop with
  | nil => exact ⟨rfl, rfl, rfl, rfl⟩
  | cons event rest ih =>
      cases event with
      | proceed inputs => cases hSteps
      | report report =>
          cases report with
          | done =>
              obtain ⟨hActive, hFirst⟩ := honest.1 rfl
              rcases hOver with hReported | hIdle
              · rw [hReported] at hFirst
                cases hFirst
              · exact absurd hActive hIdle
          | progress percent =>
              have hRest := honest.2
              rw [reportedAfter_of_not_tick (by simp) (by simp [made])] at hRest
              exact ih hRest hOver hSteps

/-- When the look is next, it is the first step. -/
theorem steps_eq_nil_of_not_mem {loop : ControlLoop} {events : List Event}
    (hStage : loop.stage = .takeDone) (hLook : .takeDone ∉ loop.steps events) :
    loop.steps events = [] := by
  induction events generalizing loop with
  | nil => rfl
  | cons event rest ih =>
      cases event with
      | report report => exact ih hStage hLook
      | proceed inputs =>
          rw [steps_cons, made, hStage] at hLook
          exact absurd List.mem_cons_self hLook

/-- Until the look the operator stops the job at most, because the tick in which this happens
ends the pass. -/
theorem Fair.waiting_until_look {loop : ControlLoop} (fair : loop.Fair true)
    (hSaid : loop.feedback.done = true) (hActive : loop.Active) {events : List Event}
    (honest : loop.Honest true events) (hLook : .takeDone ∉ loop.steps events) :
    let reached := loop.after events
    reached.feedback.done = true ∧
      (reached.Active ∧ loop.toggled events = [] ∨
        ¬reached.Active ∧ loop.toggled events = [⟨.running, .idle⟩]) := by
  induction events generalizing loop with
  | nil => exact ⟨hSaid, Or.inl ⟨hActive, rfl⟩⟩
  | cons event rest ih =>
      rw [steps_cons, List.mem_append, not_or] at hLook
      have hKept := (feedback_done_next_iff loop event).mpr (Or.inr ⟨hSaid, hLook.1⟩)
      have hFair := fair.next honest.1
      have hRest := honest.2
      have hSame := hFair.waiting hKept
      rw [hSame] at hFair hRest
      rw [after_cons, toggled_cons]
      rcases step_controller loop event with
        ⟨hController, hNone⟩ | ⟨inputs, rfl, ⟨hStage, _⟩ | ⟨progress, hStage, hAsk⟩⟩
      · rw [hNone]
        exact ih hFair hKept (by rwa [Active, hController]) hRest hLook.2
      · rw [(fair.inHand hStage).2] at hSaid
        cases hSaid
      · let sample : Sample := ⟨inputs.now, progress, inputs.interlock, inputs.stick⟩
        have hTicked : (loop.next (.proceed inputs)).controller =
            (loop.controller.tick sample).1 := by
          rw [ControlLoop.next, hAsk, ask_controller, perform]
        rw [hAsk, ask_effects, perform]
        rcases loop.controller.tick_job sample with
          ⟨hToggled, hSame⟩ | ⟨_, hIdle, _⟩ | ⟨hToggled, _, hStopped⟩
        · rw [hToggled]
          refine ih hFair hKept ?_ hRest hLook.2
          rw [Active, hTicked]
          exact hSame.mpr hActive
        · exact absurd hActive hIdle
        · -- The operator has stopped the job. The look is next, before another tick.
          have hNext : (loop.next (.proceed inputs)).stage = .takeDone := by
            rw [ControlLoop.next, hAsk, ask_stage]
          have hIdle : ¬(loop.next (.proceed inputs)).Active := by
            rw [Active, hTicked]
            exact hStopped
          obtain ⟨hController, _, hDone, hNone⟩ :=
            unchanged_of_steps_eq_nil hRest (Or.inr hIdle) (steps_eq_nil_of_not_mem hNext hLook.2)
          refine ⟨hDone.trans hKept, Or.inr ⟨?_, ?_⟩⟩
          · rw [Active, hController]
            exact hIdle
          · rw [hToggled, hNone]
            rfl

/-- The look takes the word into the hand of the loop, and nothing else happens before it is
acted upon. -/
theorem Fair.inHand_of_justLooked {loop : ControlLoop} (fair : loop.Fair true)
    (hSaid : loop.feedback.done = true) (hActive : loop.Active) {events : List Event}
    (honest : loop.Honest true events) (looked : loop.JustLooked events) :
    let reached := loop.after events
    reached.stage = .finish true ∧ reached.feedback.done = false ∧
      (reached.Active ∧ loop.toggled events = [] ∨
        ¬reached.Active ∧ loop.toggled events = [⟨.running, .idle⟩]) := by
  obtain ⟨between, inputs, meanwhile, rfl, hBetween, hStage, hMeanwhile⟩ := looked.exists_look
  obtain ⟨hKept, hJob⟩ := fair.waiting_until_look hSaid hActive honest.of_append hBetween
  obtain ⟨reported, hFair, hHonest⟩ := fair.after honest
  have hReported := hFair.waiting hKept
  subst hReported
  have hStep := step_takeDone inputs hStage
  have hTick : ∀ progress, .tick progress ∉ (loop.after between).made (.proceed inputs) := by
    simp [made, hStage]
  have hRest := hHonest.2
  rw [reportedAfter_of_not_tick (by simp) hTick] at hRest
  obtain ⟨hController, hSame, hDone, hNone⟩ :=
    unchanged_of_steps_eq_nil hRest (Or.inl rfl) hMeanwhile
  rw [ControlLoop.next, hStep] at hController hSame hDone
  have hToggled : loop.toggled (between ++ .proceed inputs :: meanwhile) =
      loop.toggled between := by
    rw [toggled_append, toggled_cons, hNone, toggles_step_of_not_tick hTick, List.append_nil,
      List.append_nil]
  rw [hToggled, after_append, after_cons, ControlLoop.next, hStep]
  refine ⟨hSame.trans (congrArg Stage.finish hKept), hDone, ?_⟩
  unfold Active at hJob ⊢
  rw [hController]
  exact hJob

/-! From the word in hand back to the report. -/

/-- A word that waits has come since the last look. -/
theorem exists_report_of_done {start : ControlLoop} (hStart : start.feedback.done = false)
    {events : List Event} (hSaid : (start.after events).feedback.done = true) :
    ∃ before between, events = before ++ .report .done :: between ∧
      .takeDone ∉ (start.after (before ++ [.report .done])).steps between := by
  induction events using List.reverseRecOn with
  | nil =>
      have hNow : start.feedback.done = true := hSaid
      rw [hStart] at hNow
      cases hNow
  | append_singleton events event ih =>
      rw [after_append] at hSaid
      rcases (feedback_done_next_iff (start.after events) event).mp hSaid with
        rfl | ⟨hEarlier, hLook⟩
      · exact ⟨events, [], rfl, List.not_mem_nil⟩
      · obtain ⟨before, between, rfl, hBetween⟩ := ih hEarlier
        refine ⟨before, between ++ [event], by simp, ?_⟩
        rw [steps_concat, ← after_append]
        exact List.not_mem_append hBetween (by simpa using hLook)

/-- A word comes into the hand of the loop only by a look that finds it waiting, and stays there
only while no step is made. -/
theorem stage_next_eq_finish (loop : ControlLoop) (event : Event) :
    (loop.next event).stage = .finish true →
      loop.stage = .takeDone ∧ loop.feedback.done = true ∧ loop.made event = [.takeDone] ∨
        loop.stage = .finish true ∧ loop.made event = [] := by
  intro hNext
  cases loop.turn_of_event event with
  | progress percent => exact Or.inr ⟨hNext, rfl⟩
  | word => exact Or.inr ⟨hNext, rfl⟩
  | look inputs hStage =>
      rw [next, step_takeDone inputs hStage] at hNext
      exact Or.inl ⟨hStage, Stage.finish.inj hNext, by rw [made, hStage]⟩
  | finish inputs hStage =>
      rw [next, step_finish_true inputs hStage, ask_stage] at hNext
      cases hNext
  | onward inputs hStage _ hLate hController hDone =>
      rw [hNext] at hLate
      cases hLate
  | tick inputs progress hStage =>
      rw [next, step_tick inputs hStage, ask_stage] at hNext
      cases hNext

/-- A word in hand has come before the last look and after the look before it. -/
theorem exists_report_of_stage {start : ControlLoop} (hStart : start.feedback.done = false)
    (hFirst : start.stage = .takeDone) {events : List Event}
    (hStage : (start.after events).stage = .finish true) :
    ∃ before since, events = before ++ .report .done :: since ∧
      (start.after (before ++ [.report .done])).JustLooked since := by
  induction events using List.reverseRecOn with
  | nil =>
      have hNow : start.stage = .finish true := hStage
      rw [hFirst] at hNow
      cases hNow
  | append_singleton events event ih =>
      rw [after_append] at hStage
      rcases stage_next_eq_finish (start.after events) event hStage with
        ⟨_, hSaid, hMade⟩ | ⟨hEarlier, hMade⟩
      · obtain ⟨before, between, rfl, hBetween⟩ := exists_report_of_done hStart hSaid
        refine ⟨before, between ++ [event], by simp, _, hBetween, ?_⟩
        rw [steps_concat, ← after_append]
        simpa using hMade
      · obtain ⟨before, since, rfl, earlier, hLook, hSteps⟩ := ih hEarlier
        refine ⟨before, since ++ [event], by simp, earlier, hLook, ?_⟩
        rw [steps_concat, ← after_append, hSteps]
        simpa using hMade

/-! Acting upon the word, and the rest of that pass. -/

/-- The finish leaves no job behind. Where there was none already, it changes nothing; it is
never a change of the operator's. -/
theorem not_active_next_of_finish {loop : ControlLoop} (hStage : loop.stage = .finish true)
    (inputs : Inputs) :
    let ended := loop.next (.proceed inputs)
    ¬ended.Active ∧ toggles (loop.step (.proceed inputs)).2.effects = [] ∧
      (¬loop.Active → ended.controller = loop.controller) := by
  intro ended
  have hStep := step_finish_true inputs hStage
  have hController : ended.controller = loop.controller.finish.1 := by
    simp only [ended, next, hStep, ask_controller, perform]
  refine ⟨?_, toggles_step_of_not_tick (by simp [made, hStage]), ?_⟩
  · rw [Active, hController]
    exact not_active_finish loop.controller
  · intro hIdle
    rw [hController, finish_of_not_active hIdle]

/-- Between the finish and the tick the controller is left alone. -/
theorem controller_after_of_late {loop : ControlLoop} (hLate : loop.stage.late = true)
    {events : List Event} (hTick : ∀ progress, .tick progress ∉ loop.steps events) :
    (loop.after events).controller = loop.controller := by
  induction events generalizing loop with
  | nil => rfl
  | cons event rest ih =>
      simp only [steps_cons, List.mem_append, not_or, forall_and] at hTick
      rw [after_cons]
      cases loop.turn_of_event event with
      | progress percent => exact ih hLate hTick.2
      | word => exact ih hLate hTick.2
      | look inputs hStage =>
          rw [hStage] at hLate
          cases hLate
      | finish inputs hStage =>
          rw [hStage] at hLate
          cases hLate
      | onward inputs hStage _ hNext hController hDone =>
          exact (ih hNext hTick.2).trans hController
      | tick inputs progress hStage =>
          have hHere := hTick.1 progress
          rw [made, hStage] at hHere
          exact absurd List.mem_cons_self hHere

/-- A tick without a job passes over the progress it has in hand. -/
theorem step_tick_of_not_active {loop : ControlLoop} (hActive : ¬loop.Active)
    {progress : Option UInt8} (hStage : loop.stage = .tick progress) (inputs : Inputs) :
    let deaf : ControlLoop := { loop with stage := .tick none }
    loop.step (.proceed inputs) = deaf.step (.proceed inputs) := by
  intro deaf
  have hTick := tick_of_not_active hActive ⟨inputs.now, progress, inputs.interlock, inputs.stick⟩
  have hDeaf : deaf.stage = .tick none := rfl
  rw [step_tick inputs hStage, step_tick inputs hDeaf]
  simp only [ask, perform, hTick, deaf]

/-- The tick after a finish is the tick of a loop that has heard of no progress. -/
theorem progress_lost_after_finish {loop : ControlLoop} (hStage : loop.stage = .finish true)
    {inputs : Inputs} {events : List Event}
    (hTick : ∀ progress, .tick progress ∉ (loop.next (.proceed inputs)).steps events)
    {progress : Option UInt8}
    (hReached : ((loop.next (.proceed inputs)).after events).stage = .tick progress)
    (found : Inputs) :
    let reached := (loop.next (.proceed inputs)).after events
    let deaf : ControlLoop := { reached with stage := .tick none }
    reached.step (.proceed found) = deaf.step (.proceed found) ∧
      (loop.Active → (reached.next (.proceed found)).controller.state.percent = 0) := by
  intro reached deaf
  have hStep := step_finish_true inputs hStage
  have hController : reached.controller = loop.controller.finish.1 := by
    have hLate : (loop.next (.proceed inputs)).stage.late = true := by
      rw [next, hStep, ask_stage]
      rfl
    rw [controller_after_of_late hLate hTick, next, hStep, ask_controller, perform]
  have hIdle : ¬reached.controller.state.run.Active := by
    rw [hController]
    exact not_active_finish loop.controller
  refine ⟨step_tick_of_not_active hIdle hReached found, ?_⟩
  intro hActive
  rw [next, step_tick found hReached, ask_controller, perform]
  apply percent_tick_of_not_active hIdle
  rw [hController, finish_of_active hActive]

/-- From a report to the finish by the pass that finds it. -/
theorem inHand_of_report {menu : MenuSettings} {before since : List Event}
    (honest : (powerOn menu).Honest false (before ++ .report .done :: since))
    (looked : ((powerOn menu).after (before ++ [.report .done])).JustLooked since) :
    let reported := (powerOn menu).after (before ++ [.report .done])
    let reached := (powerOn menu).after (before ++ .report .done :: since)
    reported.Active ∧ reached.stage = .finish true ∧ reached.feedback.done = false ∧
      (reached.Active ∧ reported.toggled since = [] ∨
        ¬reached.Active ∧ reported.toggled since = [⟨.running, .idle⟩]) := by
  intro reported reached
  obtain ⟨already, hFair, hHonest⟩ := (fair_powerOn menu).after honest
  have hReported : reported = ((powerOn menu).after before).next (.report .done) :=
    after_append (powerOn menu) before [.report .done]
  have hReached : reached = reported.after since := by
    rw [hReported]
    exact after_append (powerOn menu) before (.report .done :: since)
  have hFairNow := hFair.next hHonest.1
  have hHonestNow := hHonest.2
  rw [reportedAfter_word, ← hReported] at hFairNow hHonestNow
  have hActive : reported.Active := by
    rw [hReported]
    exact (hHonest.1 rfl).1
  have hSaid : reported.feedback.done = true := by
    rw [hReported]
    rfl
  rw [hReached]
  exact ⟨hActive, hFairNow.inHand_of_justLooked hSaid hActive hHonestNow looked⟩

/-- Whenever the sequencer reports, within its contract, and whatever the ticks find: the loop
has a word in hand just when a report has come between the last two looks. From that report
to the finish the job it is about is still active and the operator has changed nothing, or the
operator has stopped it, and has started none since. The finish then ends that job, or there
is none to end. What progress the pass of the finish has taken is shown neither then nor
later. -/
theorem finish_ends_reported_job (menu : MenuSettings) (events : List Event)
    (honest : (powerOn menu).Honest false events) :
    let start := powerOn menu
    let reached := start.after events
    (reached.stage = .finish true ↔
      ∃ before since, events = before ++ .report .done :: since ∧
        (start.after (before ++ [.report .done])).JustLooked since) ∧
    (∀ before since, events = before ++ .report .done :: since →
      let reported := start.after (before ++ [.report .done])
      reported.JustLooked since →
        reported.Active ∧ reached.feedback.done = false ∧
        (reached.Active ∧ reported.toggled since = [] ∨
          ¬reached.Active ∧ reported.toggled since = [⟨.running, .idle⟩]) ∧
        ∀ found,
          let ended := reached.next (.proceed found)
          ¬ended.Active ∧ toggles (reached.step (.proceed found)).2.effects = [] ∧
            (¬reached.Active → ended.controller = reached.controller)) ∧
    ∀ before inputs since progress, events = before ++ .proceed inputs :: since →
      let finishing := start.after before
      let deaf : ControlLoop := { reached with stage := .tick none }
      finishing.stage = .finish true →
      (∀ other, .tick other ∉ (finishing.next (.proceed inputs)).steps since) →
      reached.stage = .tick progress → ∀ found,
        reached.step (.proceed found) = deaf.step (.proceed found) ∧
          (finishing.Active → (reached.next (.proceed found)).controller.state.percent = 0) := by
  intro start reached
  refine ⟨⟨exists_report_of_stage rfl rfl, ?_⟩, ?_, ?_⟩
  · rintro ⟨before, since, rfl, looked⟩
    exact (inHand_of_report honest looked).2.1
  · rintro before since rfl reported looked
    obtain ⟨hActive, hStage, hDone, hJob⟩ := inHand_of_report honest looked
    exact ⟨hActive, hDone, hJob, not_active_next_of_finish hStage⟩
  · rintro before inputs since progress rfl finishing deaf hFinish hTick hStage found
    have hReached : reached = (finishing.next (.proceed inputs)).after since :=
      after_append start before (.proceed inputs :: since)
    simp only [deaf, hReached] at hStage ⊢
    exact progress_lost_after_finish hFinish hTick hStage found

/-- The end of a job is reported while the guard is open, just after a look. The next pass
ends the job; its tick finds the guard closed and the switch down, and has ninety percent in
hand, but the job that it starts is at zero. -/
theorem next_job_at_zero_after_late_word :
    let before : List Event :=
      List.replicate 5 (.proceed ⟨0, some false, { up := true }⟩) ++
        List.replicate 5 (.proceed ⟨20, none, { pressed := true }⟩) ++
          List.replicate 6 (.proceed ⟨40, some true, {}⟩) ++
            List.replicate 2 (.proceed ⟨60, none, {}⟩)
    let since : List Event := List.replicate 4 (.proceed ⟨60, none, {}⟩)
    let found : Inputs := ⟨80, some false, { pressed := true }⟩
    let rest : List Event := [.report (.progress 90), .proceed found, .proceed found]
    let events := before ++ .report .done :: since
    let ticking := (powerOn {}).after (events ++ .proceed found :: rest)
    (powerOn {}).Honest false (events ++ .proceed found :: rest) ∧
      ((powerOn {}).after before).controller.state.run = ⟨.paused, .running⟩ ∧
        ((powerOn {}).after (before ++ [.report .done])).JustLooked since ∧
          ((powerOn {}).after events).stage = .finish true ∧
            ((powerOn {}).after events).Active ∧
              ¬(((powerOn {}).after events).next (.proceed found)).Active ∧
                ticking.stage = .tick (some 90) ∧
                  (ticking.next (.proceed found)).controller.state.run.status = .running ∧
                    (ticking.next (.proceed found)).controller.state.percent = 0 := by
  intro before since found rest events ticking
  have honest : (powerOn {}).Honest false (events ++ .proceed found :: rest) := by decide
  have looked : ((powerOn {}).after (before ++ [.report .done])).JustLooked since :=
    ⟨[.takeProgress, .drain none, .tick none], by decide, by decide⟩
  have hActive : ((powerOn {}).after events).Active := by decide
  have hTicking : ticking.stage = .tick (some 90) := by decide
  have hTick : ∀ other,
      .tick other ∉ (((powerOn {}).after events).next (.proceed found)).steps rest := by
    have hSteps : (((powerOn {}).after events).next (.proceed found)).steps rest =
        [.takeProgress, .drain (some 90)] := by decide
    simp [hSteps]
  obtain ⟨hStage, hWord, _⟩ := finish_ends_reported_job {} events honest.of_append
  obtain ⟨_, _, hProgress⟩ := finish_ends_reported_job {} _ honest
  have hFinish := hStage.mpr ⟨before, since, rfl, looked⟩
  obtain ⟨_, _, _, hEnded⟩ := hWord before since rfl looked
  have hLast := hProgress events found rest _ rfl hFinish hTick hTicking found
  exact ⟨honest, by decide, looked, hFinish, hActive, (hEnded found).1, hTicking, by decide,
    hLast.2 hActive⟩

end TapeCutter.ControlLoop
