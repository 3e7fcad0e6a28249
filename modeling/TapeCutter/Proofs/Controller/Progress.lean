import Mathlib.Data.List.Induction
import TapeCutter.Proofs.Controller.Gleaning
import TapeCutter.Proofs.Controller.Sights
import TapeCutter.Proofs.Controller.Switch

/-! The progress of a job. It is the last number that a tick of the running machine was
told since the job was started, and zero before there was one. A pause keeps it, the next
job starts from zero, and nobody is shown a number of a job that does not run. -/
namespace TapeCutter.Controller

variable {Listener : Type}

/-- The progress that a tick is told, if it finds the machine running after its interlock
step. -/
def told? (controller : Controller Listener) : Operation Listener → Option UInt8
  | .tick sample =>
      if (controller.guarded sample.interlock).1.state.run.status = .running then
        sample.progress
      else none
  | _ => none

/-- The number to show after these were told, with some number shown before. -/
def shownAfter (percent : UInt8) (told : List UInt8) : UInt8 :=
  (told.getLast?.map fun last => min last 100).getD percent

@[simp] theorem shownAfter_nil (percent : UInt8) : shownAfter percent [] = percent := rfl

/-- The percentage after two lots of reports goes on from the first. -/
theorem shownAfter_append (percent : UInt8) (first second : List UInt8) :
    shownAfter percent (first ++ second) = shownAfter (shownAfter percent first) second := by
  simp only [shownAfter, List.getLast?_append]
  cases second.getLast? <;> rfl

/-! One operation. -/

theorem percent_guarded (controller : Controller Listener) (interlock : Option Bool) :
    (controller.guarded interlock).1.state.percent = controller.state.percent := by
  obtain ⟨_, hGuarded⟩ := exists_guarded_eq controller interlock
  rw [hGuarded]

/-- Progress is looked at by a running machine only, and kept to a hundred. -/
theorem percent_attend (controller : Controller Listener) (sample : Sample) :
    (controller.attend sample).1.state.percent =
      shownAfter controller.state.percent
        (if controller.state.run.status = .running then sample.progress else none).toList := by
  unfold attend
  cases controller.state.run.status with
  | idle =>
      simp only [browse]
      cases sample.stick.move? with
      | none => rfl
      | some move =>
          obtain ⟨_, _, _, hMoved⟩ := @exists_moved_eq Listener controller.state move
          simp only [navigate, hMoved]
          split <;> rfl
  | running => cases hProgress : sample.progress <;> simp [advance, shownAfter, min]
  | paused => rfl

/-- A tick in which the switch does not act takes over what it is told. -/
theorem percent_tick_of_not_pushes {controller : Controller Listener} {sample : Sample}
    (hPushes : controller.pushes sample = false) :
    (controller.tick sample).1.state.percent =
      shownAfter controller.state.percent (controller.told? (.tick sample)).toList := by
  rw [← percent_guarded controller sample.interlock]
  simp only [tick]
  split
  · rename_i hPaused
    simp [told?, hPaused, hold]
  · rename_i hStatus
    rw [push_attend hStatus, hPushes]
    exact percent_attend _ sample

/-- A job starts from zero. -/
theorem percent_toggle_of_idle {controller : Controller Listener}
    (hIdle : controller.state.run.status = .idle) : controller.toggle.1.state.percent = 0 := by
  simp [toggle, Run.Machine.apply, Run.Machine.moveTo, hIdle]

/-- A tick that starts a job shows zero, whatever progress it has in hand. -/
theorem percent_tick_of_pushes {controller : Controller Listener} {sample : Sample}
    (hPushes : controller.pushes sample = true)
    (hIdle : (controller.guarded sample.interlock).1.state.run.status = .idle) :
    (controller.tick sample).1.state.percent = 0 := by
  have hStatus : (controller.guarded sample.interlock).1.state.run.status ≠ .paused := by
    simp [hIdle]
  simp only [tick]
  rw [if_neg hStatus, push_attend hStatus, hPushes]
  apply percent_toggle_of_idle
  rw [hold, (attend_run (controller.guarded sample.interlock).1 sample).1]
  exact hIdle

/-- The interlock neither starts a job nor ends one. -/
theorem active_guarded_iff (controller : Controller Listener) (interlock : Option Bool) :
    (controller.guarded interlock).1.state.run.Active ↔ controller.state.run.Active := by
  cases interlock with
  | none => exact Iff.rfl
  | some tripped => exact Run.Machine.apply_ofInterlock_active_iff controller.state.run tripped

/-- In one tick a job is started, or stopped, or neither of the two. -/
theorem tick_job (controller : Controller Listener)
    (sample : Sample) :
    let ticked := (controller.tick sample).1.state.run
    let toggled := toggles (controller.tick sample).2
    (toggled = [] ∧ (ticked.Active ↔ controller.state.run.Active)) ∨
      (toggled = [⟨.idle, .running⟩] ∧ ¬controller.state.run.Active ∧ ticked.Active) ∨
        (toggled = [⟨.running, .idle⟩] ∧ controller.state.run.Active ∧ ¬ticked.Active) := by
  intro ticked toggled
  have hGuarded := active_guarded_iff controller sample.interlock
  cases hPushes : controller.pushes sample with
  | false =>
      obtain ⟨hRun, hNone⟩ := toggles_tick_of_not_pushes hPushes
      exact Or.inl ⟨hNone, by rw [← hGuarded, ← hRun]⟩
  | true =>
      obtain ⟨hToggles, ⟨hSource, hTarget⟩ | ⟨hSource, hTarget⟩⟩ := toggles_tick_of_pushes hPushes
      · refine Or.inr (Or.inl ⟨?_, ?_, Or.inl hTarget⟩)
        · rw [← hSource, ← hTarget]
          exact hToggles
        · rw [← hGuarded, Run.Machine.Active, hSource]
          simp
      · refine Or.inr (Or.inr ⟨?_, hGuarded.mp (Or.inl hSource), ?_⟩)
        · rw [← hSource, ← hTarget]
          exact hToggles
        · simp [Run.Machine.Active, ticked, hTarget]

/-- A tick that finds a job starts none. -/
theorem start_notMem_toggles_of_active {controller : Controller Listener}
    (hActive : controller.state.run.Active) (sample : Sample) :
    ⟨.idle, .running⟩ ∉ toggles (controller.tick sample).2 := by
  rcases controller.tick_job sample with ⟨hToggles, _⟩ | ⟨_, hIdle, _⟩ | ⟨hToggles, _⟩
  · rw [hToggles]
    exact List.not_mem_nil
  · exact absurd hActive hIdle
  · rw [hToggles]
    decide

theorem guarded_status_ne_running {controller : Controller Listener}
    (hActive : ¬controller.state.run.Active) (interlock : Option Bool) :
    (controller.guarded interlock).1.state.run.status ≠ .running := by
  intro hRunning
  exact hActive ((active_guarded_iff controller interlock).mp (Or.inl hRunning))

/-- Without a job, progress is not looked at. -/
theorem tick_of_not_active {controller : Controller Listener}
    (hActive : ¬controller.state.run.Active) (sample : Sample) :
    controller.tick sample = controller.tick { sample with progress := none } := by
  have hStatus := guarded_status_ne_running hActive sample.interlock
  have hAttend : (controller.guarded sample.interlock).1.attend sample =
      (controller.guarded sample.interlock).1.attend { sample with progress := none } := by
    unfold attend
    cases hCase : (controller.guarded sample.interlock).1.state.run.status with
    | idle => rfl
    | running => exact absurd hCase hStatus
    | paused => rfl
  simp only [tick, hAttend]

/-- Without a job the percentage stays at zero, whether a job is started or not. -/
theorem percent_tick_of_not_active {controller : Controller Listener}
    (hActive : ¬controller.state.run.Active) (hZero : controller.state.percent = 0)
    (sample : Sample) : (controller.tick sample).1.state.percent = 0 := by
  have hStatus := guarded_status_ne_running hActive sample.interlock
  cases hPushes : controller.pushes sample with
  | false =>
      rw [percent_tick_of_not_pushes hPushes, told?, if_neg hStatus, hZero]
      rfl
  | true =>
      obtain ⟨_, ⟨hIdle, _⟩ | ⟨hRunning, _⟩⟩ := toggles_tick_of_pushes hPushes
      · exact percent_tick_of_pushes hPushes hIdle
      · exact absurd hRunning hStatus

/-- The switch starts a job with this tick. -/
def Starts (controller : Controller Listener) (sample : Sample) : Prop :=
  ⟨.idle, .running⟩ ∈ toggles (controller.tick sample).2

/-- Where an operation leaves a job active, it was started by it, or it was active before
and its progress is what the operation was told, if it was told any. -/
theorem active_perform {controller : Controller Listener} {operation : Operation Listener}
    (hActive : (controller.perform operation).1.state.run.Active) :
    (∃ sample, operation = .tick sample ∧ controller.Starts sample ∧
        (controller.tick sample).1.state.percent = 0) ∨
      controller.state.run.Active ∧
        (controller.perform operation).1.state.percent =
          shownAfter controller.state.percent (controller.told? operation).toList := by
  cases operation with
  | start => exact Or.inr ⟨hActive, rfl⟩
  | install listener => exact Or.inr ⟨hActive, rfl⟩
  | setPaused paused =>
      exact Or.inr ⟨(Run.Machine.apply_ofInterlock_active_iff _ paused).mp hActive, rfl⟩
  | finish => exact absurd hActive (not_active_finish controller)
  | tick sample =>
      cases hPushes : controller.pushes sample with
      | false =>
          right
          rw [perform, (toggles_tick_of_not_pushes hPushes).1, active_guarded_iff] at hActive
          exact ⟨hActive, percent_tick_of_not_pushes hPushes⟩
      | true =>
          obtain ⟨hToggles, ⟨hIdle, hRunning⟩ | ⟨_, hStopped⟩⟩ := toggles_tick_of_pushes hPushes
          · left
            refine ⟨sample, rfl, ?_, percent_tick_of_pushes hPushes hIdle⟩
            rw [Starts, hToggles, hIdle, hRunning]
            exact List.mem_singleton_self _
          · rw [perform, Run.Machine.Active, hStopped] at hActive
            simp at hActive

/-- A pause keeps the progress of the job that waits in it. -/
theorem percent_perform_of_paused {controller : Controller Listener}
    {operation : Operation Listener}
    (hActive : (controller.perform operation).1.state.run.Active)
    (hPaused : (controller.perform operation).1.state.run.status = .paused) :
    (controller.perform operation).1.state.percent = controller.state.percent := by
  cases operation with
  | start => rfl
  | setPaused paused => rfl
  | finish => exact absurd hActive (not_active_finish controller)
  | install listener => rfl
  | tick sample =>
      have hGuarded := (tick_paused_iff_guarded controller sample).mp hPaused
      have hPushes : controller.pushes sample = false := by simp [pushes, hGuarded]
      rw [perform, percent_tick_of_not_pushes hPushes]
      simp [told?, hGuarded]

/-! A run. -/

/-- The job that is active after a run, traced back to the tick that started it. -/
theorem exists_started {controller : Controller Listener}
    (hIdle : ¬controller.state.run.Active) {operations : List (Operation Listener)}
    (hActive : (controller.run operations).1.state.run.Active) :
    ∃ earlier sample later, operations = earlier ++ .tick sample :: later ∧
      (controller.run earlier).1.Starts sample ∧
        (∀ between, between <+: later →
          (controller.run (earlier ++ .tick sample :: between)).1.state.run.Active) ∧
          (controller.run operations).1.state.percent =
            shownAfter 0 (((controller.run earlier).1.tick sample).1.glean told? later) := by
  induction operations using List.reverseRecOn with
  | nil => exact absurd hActive hIdle
  | append_singleton operations operation ih =>
      have hRun : (controller.run (operations ++ [operation])).1 =
          ((controller.run operations).1.perform operation).1 := by
        rw [run_append]
        rfl
      have hLast := hActive
      rw [hRun] at hLast
      rcases active_perform hLast with ⟨sample, rfl, hStarts, hZero⟩ | ⟨hBefore, hPercent⟩
      · refine ⟨operations, sample, [], rfl, hStarts, ?_, ?_⟩
        · intro between hBetween
          rw [List.prefix_nil.mp hBetween]
          exact hActive
        · rw [hRun]
          exact hZero
      · obtain ⟨earlier, sample, later, rfl, hStarts, hAlong, hTold⟩ := ih hBefore
        refine ⟨earlier, sample, later ++ [operation], by simp, hStarts, ?_, ?_⟩
        · intro between hBetween
          rcases List.prefix_concat_iff.mp hBetween with rfl | hShorter
          · simpa using hActive
          · exact hAlong between hShorter
        · rw [hRun, hPercent, hTold, glean_append, shownAfter_append]
          rw [run_append, run_cons, glean_cons, glean_nil, List.append_nil]
          rfl

/-! What is shown. -/

/-- A number that can be shown, and one only where the status is running. -/
structure Presentable (report : StatusReport) : Prop where
  running : report.percent.isSome = true ↔ report.status = .running
  percent : ∀ percent ∈ report.percent, percent ≤ 100

/-- The report of a state gives a percentage just if the machine runs. -/
theorem presentable_report {state : State} (hPercent : state.percent ≤ 100) :
    Presentable state.report := by
  cases hStatus : state.run.status <;> constructor <;>
    simp [State.report, State.publishedPercent, Run.Status.isRunning, hStatus, hPercent]

/-- A stage reports only what may be shown, as long as it begins within a hundred. -/
theorem Glimpse.presentable {before after : State} {effects : List (Effect Listener)}
    (glimpse : Glimpse before effects after) (hBefore : before.percent ≤ 100) :
    ∀ report ∈ reports effects, Presentable report := by
  have hAfter := presentable_report (glimpse.percent_le hBefore)
  cases glimpse with
  | refreshed hNews hRest hEffects _ =>
      rw [hEffects, ((hNews.refreshes after).append hRest).reports]
      exact List.forall_mem_singleton.mpr hAfter
  | advanced _ _ hEffects _ =>
      rw [hEffects, reports_append]
      split
      · exact List.forall_mem_nil _
      · exact List.forall_mem_singleton.mpr hAfter
  | unseen hUnseen _ _ _ =>
      rw [hUnseen.2]
      exact List.forall_mem_nil _

/-- In a whole run nothing is reported that may not be shown. -/
theorem Watched.presentable {start finish : State} {effects : List (Effect Listener)}
    (watched : Watched start effects finish) (hStart : start.percent ≤ 100) :
    finish.percent ≤ 100 ∧ ∀ report ∈ reports effects, Presentable report := by
  induction watched with
  | nil => exact ⟨hStart, List.forall_mem_nil _⟩
  | snoc _ last ih =>
      rw [reports_append, List.forall_mem_append]
      exact ⟨last.percent_le ih.1, ih.2, last.presentable ih.1⟩

/-- While a job is active, the progress is the last number, a hundred at most, that was told
to a tick of the running machine since the tick that started this very job, and zero if
there was none. So nothing is left over from a job before it, and a pause keeps what there
is. The progress is never more than a hundred, and the number in a report, the first one
included, is there just where the status in it is running. -/
theorem percent_of_job (menu : MenuSettings) (operations : List (Operation Listener)) :
    let start : Controller Listener := powerOn menu
    let controller := (start.run operations).1
    (controller.state.run.Active →
      ∃ earlier sample later, operations = earlier ++ .tick sample :: later ∧
        (start.run earlier).1.Starts sample ∧
          (∀ between, between <+: later →
            (start.run (earlier ++ .tick sample :: between)).1.state.run.Active) ∧
            controller.state.percent =
              (((((start.run earlier).1.tick sample).1.glean told? later).getLast?).map
                fun last => min last 100).getD 0) ∧
      (∀ operation,
        (controller.perform operation).1.state.run.Active →
          (controller.perform operation).1.state.run.status = .paused →
            (controller.perform operation).1.state.percent = controller.state.percent) ∧
      controller.state.percent ≤ 100 ∧
        ∀ report ∈ {} :: reports (start.run operations).2,
          (report.percent.isSome = true ↔ report.status = .running) ∧
            ∀ percent ∈ report.percent, percent ≤ 100 := by
  intro start controller
  have hIdle : ¬start.state.run.Active := by
    simp [start, powerOn, State.powerOn, Run.Machine.Active]
  have hZero : start.state.percent ≤ 100 := UInt8.le_of_lt (by decide : (0 : UInt8) < 100)
  have watched : Watched start.state (start.run operations).2 controller.state :=
    stagewise_watched.run start operations
  obtain ⟨hPercent, hReports⟩ := watched.presentable hZero
  refine ⟨exists_started hIdle, fun _ => percent_perform_of_paused, hPercent, ?_⟩
  intro report hMem
  rcases List.mem_cons.mp hMem with rfl | hLater
  · exact ⟨by decide, fun percent hMem => absurd hMem (Option.not_mem_none percent)⟩
  · exact ⟨(hReports report hLater).running, (hReports report hLater).percent⟩

end TapeCutter.Controller
