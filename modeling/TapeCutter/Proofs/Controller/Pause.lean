import TapeCutter.Proofs.Controller.Steering

/-! The pause of a controller. A tick decides about it once, with its first step,
and only on the word of the interlock; the menu, the push switch and the
sequencer have no say in it. -/
namespace TapeCutter.Controller

variable {Listener : Type}

theorem guarded_run (controller : Controller Listener) (interlock : Option Bool) :
    (controller.guarded interlock).1.state.run =
      (controller.state.run.course (interlock.map Run.Trigger.ofInterlock).toList).1 :=
  congrArg Prod.fst (guarded_course controller interlock)

/-- What follows the interlock in a tick neither pauses the machine nor ends a
pause. -/
theorem tick_paused_iff_guarded (controller : Controller Listener) (sample : Sample) :
    (controller.tick sample).1.state.run.status = .paused ↔
      (controller.guarded sample.interlock).1.state.run.status = .paused := by
  have hRun : (controller.tick sample).1.state.run = _ := perform_run controller (.tick sample)
  rw [hRun, triggers, Run.Machine.course_append, ← guarded_run]
  apply Run.Machine.course_paused_iff
  intro tripped
  split <;> cases tripped <;> simp [Run.Trigger.ofInterlock]

/-- A tick that hears of a level is paused by it or kept out of the pause by it. -/
theorem tick_paused_iff_of_told {controller : Controller Listener} {sample : Sample}
    {tripped : Bool} (hResume : controller.state.run.resume ≠ .paused)
    (hTold : sample.interlock = some tripped) :
    (controller.tick sample).1.state.run.status = .paused ↔ tripped = true := by
  rw [tick_paused_iff_guarded, guarded_run, hTold]
  exact Run.Machine.apply_ofInterlock_paused_iff hResume tripped

/-- A tick that hears nothing of the guard neither begins a pause nor ends one. -/
theorem tick_paused_iff_of_untold {controller : Controller Listener} {sample : Sample}
    (hUntold : sample.interlock = none) :
    (controller.tick sample).1.state.run.status = .paused ↔
      controller.state.run.status = .paused := by
  rw [tick_paused_iff_guarded, hUntold]
  exact Iff.rfl

/-- What is remembered for after the pause is never the pause. -/
theorem perform_resume_ne_paused {controller : Controller Listener}
    (hResume : controller.state.run.resume ≠ .paused) (operation : Operation Listener) :
    (controller.perform operation).1.state.run.resume ≠ .paused := by
  rw [perform_run]
  exact Run.Machine.course_resume_ne_paused hResume _

/-- A finished job does not end a pause, not even the pause of that job. -/
theorem finish_paused_iff (controller : Controller Listener) :
    (controller.finish).1.state.run.status = .paused ↔ controller.state.run.status = .paused := by
  have hRun : (controller.finish).1.state.run = _ := perform_run controller .finish
  rw [hRun]
  apply Run.Machine.course_paused_iff
  intro tripped
  rw [triggers]
  split <;> cases tripped <;> simp [Run.Trigger.ofInterlock]

/-- A tick that ends in the pause has announced nothing else. -/
theorem target_paused_of_tick_paused {controller : Controller Listener} {sample : Sample}
    {transition : Run.Transition} {trigger : Run.Trigger}
    (hPaused : (controller.tick sample).1.state.run.status = .paused)
    (hMem : .announce (.statusChanged transition trigger) ∈ (controller.tick sample).2) :
    transition.target = .paused := by
  -- The pause was there after the first step already, so the push switch was not looked at.
  have hPushes : controller.pushes sample = false := by
    simp [pushes, (tick_paused_iff_guarded controller sample).mp hPaused]
  have hRun : (controller.tick sample).1.state.run = _ := perform_run controller (.tick sample)
  have hChanges : changes (controller.tick sample).2 = _ :=
    changes_perform controller (.tick sample)
  rw [triggers, hPushes, if_neg Bool.false_ne_true, List.append_nil] at hRun hChanges
  rw [← mem_changes_iff, hChanges] at hMem
  rw [hRun] at hPaused
  cases hTold : sample.interlock with
  | none =>
      rw [hTold] at hMem
      cases hMem
  | some tripped =>
      rw [hTold] at hMem hPaused
      obtain ⟨_, hMoved⟩ := Run.Machine.mem_course_singleton.mp hMem
      exact (Run.Machine.apply_eq_some hMoved).2.trans hPaused

/-- The end of a job is announced as a change to idle, or not at all. -/
theorem target_idle_of_finish {controller : Controller Listener}
    {transition : Run.Transition} {trigger : Run.Trigger}
    (hMem : .announce (.statusChanged transition trigger) ∈ (controller.finish).2) :
    transition.target = .idle := by
  have hChanges : changes (controller.finish).2 = _ := changes_perform controller .finish
  rw [← mem_changes_iff, hChanges, triggers] at hMem
  split at hMem
  · obtain ⟨_, hMoved⟩ := Run.Machine.mem_course_singleton.mp hMem
    rw [Run.Machine.apply_runComplete_eq_some hMoved]
  · cases hMem

end TapeCutter.Controller
