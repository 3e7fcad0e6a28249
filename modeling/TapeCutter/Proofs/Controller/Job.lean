import TapeCutter.Proofs.Controller.History
import TapeCutter.Proofs.Controller.Steering

/-! The job behind the run status. From outside, a job is open from the start the
operator made to the operator's stop or to the first word that it is finished,
whichever is earlier. The controller keeps no such flag; its status and what it
remembers during a pause always agree with it. -/
namespace TapeCutter

/-- The operator's start opens a job and the operator's stop closes it. What the
interlock and the sequencer do to the status is no concern of the operator's. -/
def Run.jobAfterChange (job : Bool) : Run.Change → Bool
  | (⟨_, .running⟩, .startStop) => true
  | (⟨_, .idle⟩, .startStop) => false
  | _ => job

namespace Run.Machine

/-- The machine and the flag tell the same story. Idle and running leave no doubt
about the job; during a pause the remembered status answers for it. -/
structure Serves (machine : Machine) (job : Bool) : Prop where
  running : machine.status = .running → job = true
  idle : machine.status = .idle → job = false
  paused : machine.status = .paused →
    machine.resume ≠ .paused ∧ (machine.resume = .running ↔ job = true)

/-- A change by the operator or by the interlock keeps the machine and the flag in step. -/
theorem Serves.apply {machine : Machine} {job : Bool} (serves : machine.Serves job)
    {trigger : Trigger} (hTrigger : trigger ≠ .runComplete) :
    (machine.apply trigger).1.Serves
      (((machine.apply trigger).2.map fun transition => (transition, trigger)).toList.foldl
        jobAfterChange job) := by
  obtain ⟨hRunning, hIdle, hPaused⟩ := serves
  obtain ⟨status, resume⟩ := machine
  cases trigger with
  | runComplete => exact absurd rfl hTrigger
  | startStop =>
      cases status <;> constructor <;> simp_all [Machine.apply, moveTo, jobAfterChange]
  | interlockTripped =>
      cases status <;> constructor <;> simp_all [Machine.apply, moveTo, jobAfterChange]
  | interlockReleased =>
      cases status <;> cases resume <;> constructor <;>
        simp_all [Machine.apply, moveTo, jobAfterChange]

theorem Serves.course {machine : Machine} {job : Bool} (serves : machine.Serves job)
    {triggers : List Trigger} (hTriggers : .runComplete ∉ triggers) :
    (machine.course triggers).1.Serves
      ((machine.course triggers).2.foldl jobAfterChange job) := by
  induction triggers generalizing machine job with
  | nil => exact serves
  | cons trigger rest ih =>
      rw [List.mem_cons, not_or] at hTriggers
      rw [course_cons, List.foldl_append]
      exact ih (serves.apply (Ne.symm hTriggers.1)) hTriggers.2

/-- The word that the job is finished closes it, in whatever state it finds the
machine. -/
theorem Serves.complete {machine : Machine} {job : Bool} (serves : machine.Serves job) :
    (machine.course (if machine.Active then [.runComplete] else [])).1.Serves
      ((machine.course (if machine.Active then [.runComplete] else [])).2.foldl
        jobAfterChange false) := by
  obtain ⟨hRunning, hIdle, hPaused⟩ := serves
  obtain ⟨status, resume⟩ := machine
  cases status <;> cases resume <;> constructor <;>
    simp_all [Machine.Active, Machine.apply, moveTo, course_cons, jobAfterChange]

end Run.Machine

namespace Controller

variable {Listener : Type}

/-- Whether a job is open after an entry. -/
def jobAfter (job : Bool) (entry : Entry Listener) : Bool :=
  (changes entry.effects).foldl Run.jobAfterChange
    (match entry.operation with
    | .finish => false
    | _ => job)

/-- Only the word of the sequencer ends a job by itself. -/
theorem runComplete_notMem_triggers {controller : Controller Listener}
    {operation : Operation Listener} (hOperation : operation ≠ .finish) :
    .runComplete ∉ controller.triggers operation := by
  cases operation with
  | finish => exact absurd rfl hOperation
  | start => exact List.not_mem_nil
  | install listener => exact List.not_mem_nil
  | setPaused paused => cases paused <;> simp [triggers, Run.Trigger.ofInterlock]
  | tick sample =>
      rw [triggers]
      generalize sample.interlock = interlock, controller.pushes sample = pushed
      cases interlock with
      | none => cases pushed <;> simp
      | some tripped => cases tripped <;> cases pushed <;> simp [Run.Trigger.ofInterlock]

/-- Every operation keeps the machine and the flag in step. A finish takes the flag down itself,
since during a pause no change of status says so. -/
theorem perform_serves {controller : Controller Listener} {job : Bool}
    (serves : controller.state.run.Serves job) (operation : Operation Listener) :
    (controller.perform operation).1.state.run.Serves
      (jobAfter job ⟨operation, (controller.perform operation).2⟩) := by
  rw [jobAfter, perform_run, changes_perform]
  cases operation with
  | finish => exact serves.complete
  | start => exact serves
  | install listener => exact serves
  | setPaused paused => exact serves.course (runComplete_notMem_triggers (nofun))
  | tick sample => exact serves.course (runComplete_notMem_triggers (nofun))

/-- The status after any run of operations, told by the operator's starts and
stops and by the words that a job is finished. In particular a release resumes
just a job that is still open: not one that was stopped, and not one that was
finished, even if it was finished during the pause. -/
theorem status_agrees_with_job (menu : MenuSettings) (operations : List (Operation Listener)) :
    let controller := ((powerOn menu : Controller Listener).run operations).1
    let job := ((powerOn menu : Controller Listener).history operations).foldl jobAfter false
    let machine := controller.state.run
    (machine.status = .running → job = true) ∧
      (machine.status = .idle → job = false) ∧
      (machine.status = .paused →
        machine.resume ≠ .paused ∧ (machine.resume = .running ↔ job = true)) ∧
      ∀ operation transition,
        .announce (.statusChanged transition .interlockReleased) ∈
            (controller.perform operation).2 →
          (transition.target = .running ↔ job = true) := by
  intro controller job machine
  have serves : machine.Serves job := by
    apply run_invariant jobAfter (fun job controller => controller.state.run.Serves job)
    · intro job controller operation serves
      exact perform_serves serves operation
    · exact ⟨nofun, fun _ => rfl, nofun⟩
  refine ⟨serves.running, serves.idle, serves.paused, ?_⟩
  intro operation transition hMem
  -- A release restores what is remembered, and that answers for the job.
  obtain ⟨hPaused, rfl⟩ := announced_release hMem
  exact (serves.paused hPaused).2

end Controller

end TapeCutter
