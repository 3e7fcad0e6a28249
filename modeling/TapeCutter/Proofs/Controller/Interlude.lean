import TapeCutter.Proofs.Controller.Recall
import TapeCutter.Proofs.Run.Course

/-! A pause from its beginning to its end. Whatever is pressed, turned or reported while
it lasts is lost on the machine, with two exceptions: the switch is followed, and a job
that is finished during the pause is not resumed. -/
namespace TapeCutter.Controller

variable {Listener : Type}

/-- A pause begins: by itself, or with a tick that hears of the open guard. -/
def Operation.EntersPause : Operation Listener → Prop
  | .tick sample => sample.interlock = some true
  | .setPaused paused => paused = true
  | _ => False

/-- What may happen during a pause without ending it: ticks that hear nothing of the
interlock, further trips, and the word that the job is finished. -/
def Operation.KeepsPause : Operation Listener → Prop
  | .tick sample => sample.interlock = none
  | .setPaused paused => paused = true
  | .finish => True
  | _ => False

/-- A controller in the pause, by all that a pause can change. -/
def waiting (controller : Controller Listener) (resume : Run.Status) (percent : UInt8)
    (held : Bool) : Controller Listener :=
  { controller with
    state := { controller.state with
      run := ⟨.paused, resume⟩
      percent := percent
      held := held } }

/-- However a pause begins, the controller waits with the status it had, and nothing but the
sample of the switch is new. -/
theorem perform_entersPause {controller : Controller Listener} {entry : Operation Listener}
    (hStatus : controller.state.run.status ≠ .paused) (hEntry : entry.EntersPause) :
    (controller.perform entry).1 =
      controller.waiting controller.state.run.status controller.state.percent
        (entry.pressed?.getD controller.state.held) := by
  have hPaused : (controller.setPaused true).1 =
      controller.waiting controller.state.run.status controller.state.percent
        controller.state.held := by
    have hRun := Run.Machine.apply_tripped_of_ne_paused hStatus
    rw [setPaused_state, if_pos rfl, hRun]
    rfl
  cases entry with
  | setPaused paused =>
      cases hEntry
      exact hPaused
  | tick sample =>
      have hTripped : sample.interlock = some true := hEntry
      simp only [perform, tick, guarded, hTripped, hPaused]
      rfl
  | start => cases hEntry
  | finish => cases hEntry
  | install listener => cases hEntry

section

variable (controller : Controller Listener) (resume : Run.Status) (percent : UInt8) (held : Bool)

/-- A tick in the pause asks for nothing, and leaves the switch behind. -/
theorem tick_waiting {sample : Sample} (hUntold : sample.interlock = none) :
    (controller.waiting resume percent held).tick sample =
      (controller.waiting resume percent sample.stick.pressed, []) := by
  simp only [tick, guarded, hUntold]
  rfl

theorem finish_waiting_running :
    (controller.waiting .running percent held).finish.1 = controller.waiting .idle 0 held := rfl

/-- The word that a job is finished is for a running job only. -/
theorem finish_waiting_of_ne_running (hResume : resume ≠ .running) :
    (controller.waiting resume percent held).finish.1 =
      controller.waiting resume percent held := by
  cases resume with
  | running => exact absurd rfl hResume
  | idle => rfl
  | paused => rfl

/-- Anything but the word that a running job is finished changes the switch at most. -/
theorem perform_waiting {operation : Operation Listener} (hKeeps : operation.KeepsPause)
    (hFinish : resume ≠ .running ∨ operation ≠ .finish) :
    ((controller.waiting resume percent held).perform operation).1 =
      controller.waiting resume percent (operation.pressed?.getD held) := by
  cases operation with
  | tick sample => exact congrArg Prod.fst (tick_waiting controller resume percent held hKeeps)
  | setPaused paused =>
      cases hKeeps
      rfl
  | finish =>
      exact finish_waiting_of_ne_running controller resume percent held
        (hFinish.resolve_right fun hOther => hOther rfl)
  | start => cases hKeeps
  | install listener => cases hKeeps

/-- A pause without an end of the job keeps everything, and the switch is where it was last
seen. -/
theorem run_waiting {segment : List (Operation Listener)}
    (hSegment : ∀ operation ∈ segment, operation.KeepsPause)
    (hFinish : resume ≠ .running ∨ .finish ∉ segment) :
    ((controller.waiting resume percent held).run segment).1 =
      controller.waiting resume percent ((lastPressed segment).getD held) := by
  induction segment generalizing held with
  | nil => rfl
  | cons operation rest ih =>
      obtain ⟨hFirst, hRest⟩ := List.forall_mem_cons.mp hSegment
      have hHere : resume ≠ .running ∨ operation ≠ .finish :=
        hFinish.imp_right fun hNot hEq => hNot (hEq ▸ List.mem_cons_self)
      have hLater : resume ≠ .running ∨ .finish ∉ rest :=
        hFinish.imp_right fun hNot hMem => hNot (List.mem_cons_of_mem _ hMem)
      rw [run_cons, perform_waiting controller resume percent held hFirst hHere,
        lastPressed_cons_getD]
      exact ih _ hRest hLater

/-- A running job that is finished during the pause leaves an idle machine to come back to. -/
theorem run_waiting_of_finish {segment : List (Operation Listener)}
    (hSegment : ∀ operation ∈ segment, operation.KeepsPause) (hFinish : .finish ∈ segment) :
    ((controller.waiting .running percent held).run segment).1 =
      controller.waiting .idle 0 ((lastPressed segment).getD held) := by
  induction segment generalizing held with
  | nil => cases hFinish
  | cons operation rest ih =>
      obtain ⟨hFirst, hRest⟩ := List.forall_mem_cons.mp hSegment
      rw [run_cons, lastPressed_cons_getD]
      by_cases hEq : operation = .finish
      · -- From here on nothing runs that could be finished again.
        rw [hEq, perform, finish_waiting_running]
        exact run_waiting controller .idle 0 held hRest (Or.inl (by decide))
      · have hLater : .finish ∈ rest :=
          (List.mem_cons.mp hFinish).resolve_left fun hHere => hEq hHere.symm
        rw [perform_waiting controller .running percent held hFirst (Or.inr hEq)]
        exact ih _ hRest hLater

/-- Whatever happens in a pause, it is still that pause. -/
theorem exists_run_waiting_eq {segment : List (Operation Listener)}
    (hSegment : ∀ operation ∈ segment, operation.KeepsPause) :
    ∃ resume' percent' held', ((controller.waiting resume percent held).run segment).1 =
      controller.waiting resume' percent' held' := by
  by_cases hFinish : resume = .running ∧ .finish ∈ segment
  · obtain ⟨rfl, hMem⟩ := hFinish
    exact ⟨_, _, _, run_waiting_of_finish controller percent held hSegment hMem⟩
  · have hOther : resume ≠ .running ∨ .finish ∉ segment :=
      Decidable.not_and_iff_not_or_not.mp hFinish
    exact ⟨_, _, _, run_waiting controller resume percent held hSegment hOther⟩

end

/-- From any controller that is not paused, through a pause of any length and out of it.
Nothing is left of the pause but the switch as its last tick found it; if a running job
was finished meanwhile, the machine is idle and the progress is gone. The ticks of the
pause ask for nothing at all. -/
theorem pause_leaves_no_trace {controller : Controller Listener} {entry : Operation Listener}
    {segment : List (Operation Listener)} (hStatus : controller.state.run.status ≠ .paused)
    (hEntry : entry.EntersPause) (hSegment : ∀ operation ∈ segment, operation.KeepsPause) :
    let status := controller.state.run.status
    let entered := (controller.perform entry).1
    let left := ((entered.run segment).1.setPaused false).1
    let held := (lastPressed (entry :: segment)).getD controller.state.held
    (status = .idle ∨ .finish ∉ segment →
      left = { controller with
        state := { controller.state with run := ⟨status, status⟩, held := held } }) ∧
      (status = .running → .finish ∈ segment →
        left = { controller with
          state := { controller.state with run := ⟨.idle, .idle⟩, percent := 0, held := held } }) ∧
      ∀ earlier sample later, segment = earlier ++ .tick sample :: later →
        (entered.run earlier).1.tick sample =
          ((entered.run earlier).1.hold sample.stick.pressed, []) := by
  intro status entered left held
  have hEntered : entered = controller.waiting status controller.state.percent
      (entry.pressed?.getD controller.state.held) := perform_entersPause hStatus hEntry
  have hHeld : held = (lastPressed segment).getD (entry.pressed?.getD controller.state.held) :=
    lastPressed_cons_getD entry segment controller.state.held
  refine ⟨?_, ?_, ?_⟩
  · intro hFinish
    have hOther : status ≠ .running ∨ .finish ∉ segment :=
      hFinish.imp_left fun hIdle => by rw [hIdle]; exact nofun
    simp only [left, hEntered, hHeld]
    rw [run_waiting controller status _ _ hSegment hOther]
    rfl
  · intro hRunning hFinish
    simp only [left, hEntered, hHeld, hRunning]
    rw [run_waiting_of_finish controller _ _ hSegment hFinish]
    rfl
  · intro earlier sample later hSplit
    have hEarlier : ∀ operation ∈ earlier, operation.KeepsPause := by
      intro operation hMem
      exact hSegment operation (hSplit ▸ List.mem_append_left _ hMem)
    have hSample : sample.interlock = none :=
      hSegment (.tick sample) (hSplit ▸ List.mem_append_right earlier List.mem_cons_self)
    obtain ⟨_, _, _, hRun⟩ := exists_run_waiting_eq controller status controller.state.percent
      (entry.pressed?.getD controller.state.held) hEarlier
    rw [hEntered, hRun, tick_waiting _ _ _ _ hSample]
    rfl

/-- A job at forty percent is interrupted by a tick that also finds the switch pressed.
In the pause the stick is moved, the guard trips again and the job is finished, twice;
the release finds an idle machine with nothing else changed. -/
theorem pause_over_finished_job :
    let up : Menu.Stick := { up := true }
    let down : Menu.Stick := { pressed := true }
    let operations : List (Operation Unit) :=
      [.start, .tick ⟨0, none, some false, up⟩, .tick ⟨20, none, none, down⟩,
        .tick ⟨40, some 40, none, {}⟩]
    let controller := ((powerOn {} : Controller Unit).run operations).1
    let entry : Operation Unit := .tick ⟨60, some 50, some true, down⟩
    let segment : List (Operation Unit) :=
      [.tick ⟨80, some 60, none, up⟩, .setPaused true, .finish, .tick ⟨100, none, none, down⟩,
        .finish]
    let left := (((controller.perform entry).1.run segment).1.setPaused false).1
    controller.state.run.status ≠ .paused ∧ entry.EntersPause ∧
      (∀ operation ∈ segment, operation.KeepsPause) ∧ controller.state.percent = 40 ∧
        left.state.run = ⟨.idle, .idle⟩ ∧ left.state.percent = 0 ∧ left.state.held = true ∧
          left.state.row = .startStop ∧ left.gate = controller.gate := by
  intro up down operations controller entry segment left
  have hRunning : controller.state.run.status = .running := rfl
  have hStatus : controller.state.run.status ≠ .paused := by
    rw [hRunning]
    decide
  have hSegment : ∀ operation ∈ segment, operation.KeepsPause := by
    simp [segment, Operation.KeepsPause]
  have hEntry : entry.EntersPause := rfl
  have hFinish : .finish ∈ segment := by
    simp [segment]
  have hLeft := (pause_leaves_no_trace hStatus hEntry hSegment).2.1 hRunning hFinish
  refine ⟨hStatus, hEntry, hSegment, rfl, ?_⟩
  rw [show left = _ from hLeft]
  exact ⟨rfl, rfl, rfl, rfl, rfl⟩

end TapeCutter.Controller
