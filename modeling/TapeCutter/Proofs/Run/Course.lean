import TapeCutter.Run.Machine

/-! The run machine under any number of triggers, with a record of the changes
they made. Only the interlock moves the machine into the pause or out of it,
whatever the other triggers are and wherever they fall. -/
namespace TapeCutter.Run

/-- A change of status together with the trigger that made it. -/
abbrev Change := Transition × Trigger

/-- What the interlock pulls when it is found at this level. -/
def Trigger.ofInterlock (tripped : Bool) : Trigger :=
  if tripped then .interlockTripped else .interlockReleased

namespace Machine

/-- Triggers in order: the machine after them, and the changes they made. A
trigger that moves nothing leaves no record. -/
def course (machine : Machine) : List Trigger → Machine × List Change
  | [] => (machine, [])
  | trigger :: rest =>
      let (next, moved) := machine.apply trigger
      let (last, later) := next.course rest
      (last, (moved.map fun transition => (transition, trigger)).toList ++ later)

@[simp] theorem course_nil (machine : Machine) : machine.course [] = (machine, []) := rfl

theorem course_cons (machine : Machine) (trigger : Trigger) (rest : List Trigger) :
    machine.course (trigger :: rest) =
      (((machine.apply trigger).1.course rest).1,
        ((machine.apply trigger).2.map fun transition => (transition, trigger)).toList ++
          ((machine.apply trigger).1.course rest).2) := rfl

theorem course_append (machine : Machine) (first second : List Trigger) :
    machine.course (first ++ second) =
      (((machine.course first).1.course second).1,
        (machine.course first).2 ++ ((machine.course first).1.course second).2) := by
  induction first generalizing machine with
  | nil => rfl
  | cons trigger rest ih => simp only [List.cons_append, course_cons, ih, List.append_assoc]

/-- One trigger makes one change, or none. -/
theorem mem_course_singleton {machine : Machine} {trigger other : Trigger}
    {transition : Transition} :
    (transition, other) ∈ (machine.course [trigger]).2 ↔
      other = trigger ∧ (machine.apply trigger).2 = some transition := by
  rw [course_cons, course_nil, List.append_nil, Option.mem_toList,
    Option.map_eq_some_iff]
  constructor
  · rintro ⟨moved, hMoved, hPair⟩
    cases hPair
    exact ⟨rfl, hMoved⟩
  · rintro ⟨rfl, hMoved⟩
    exact ⟨transition, hMoved, rfl⟩

/-- Every recorded change was made by its own trigger, on the machine that the
triggers before it had left. -/
theorem exists_apply_of_mem_course {machine : Machine} {triggers : List Trigger}
    {transition : Transition} {trigger : Trigger}
    (hMem : (transition, trigger) ∈ (machine.course triggers).2) :
    ∃ before after, triggers = before ++ trigger :: after ∧
      ((machine.course before).1.apply trigger).2 = some transition := by
  induction triggers generalizing machine with
  | nil => cases hMem
  | cons head rest ih =>
      rw [← List.singleton_append, course_append, List.mem_append] at hMem
      rcases hMem with hHere | hLater
      · obtain ⟨rfl, hMoved⟩ := mem_course_singleton.mp hHere
        exact ⟨[], rest, rfl, hMoved⟩
      · -- The split of the rest is taken at the machine that `head` leaves.
        obtain ⟨before, after, hSplit, hApply⟩ := ih hLater
        exact ⟨head :: before, after, by rw [hSplit, List.cons_append], hApply⟩

/-- A change leads from the status there was to the one there is. -/
theorem apply_eq_some {machine : Machine} {trigger : Trigger} {transition : Transition}
    (hMoved : (machine.apply trigger).2 = some transition) :
    transition.source = machine.status ∧
      transition.target = (machine.apply trigger).1.status := by
  obtain ⟨status, resume⟩ := machine
  cases status <;> cases trigger <;> cases hMoved <;> exact ⟨rfl, rfl⟩

/-- A release that moves the machine finds it paused and restores what it
remembers. -/
theorem apply_released_eq_some {machine : Machine} {transition : Transition}
    (hMoved : (machine.apply .interlockReleased).2 = some transition) :
    machine.status = .paused ∧ transition = ⟨.paused, machine.resume⟩ := by
  obtain ⟨status, resume⟩ := machine
  cases status <;> cases hMoved
  exact ⟨rfl, rfl⟩

/-- Only a running machine has a job that can be seen to end. -/
theorem apply_runComplete_eq_some {machine : Machine} {transition : Transition}
    (hMoved : (machine.apply .runComplete).2 = some transition) :
    transition = ⟨.running, .idle⟩ := by
  obtain ⟨status, resume⟩ := machine
  cases status <;> cases hMoved
  rfl

/-- A finished job is news only while one is active. -/
theorem apply_runComplete_eq_none {machine : Machine} (hActive : ¬machine.Active) :
    (machine.apply .runComplete).2 = none := by
  obtain ⟨status, resume⟩ := machine
  cases status <;> simp_all [Active, apply]

/-- Only the end of a job can be taken in without a change of status. -/
theorem apply_fst_of_eq_none {machine : Machine} {trigger : Trigger}
    (hTrigger : trigger ≠ .runComplete) (hMoved : (machine.apply trigger).2 = none) :
    (machine.apply trigger).1 = machine := by
  obtain ⟨status, resume⟩ := machine
  cases trigger with
  | runComplete => exact absurd rfl hTrigger
  | startStop => cases status <;> simp_all [apply, moveTo]
  | interlockTripped => cases status <;> simp_all [apply, moveTo]
  | interlockReleased => cases status <;> simp_all [apply, moveTo]

/-- The operator's trigger moves a machine that is not paused, from idle to running
or back. -/
theorem apply_startStop_of_ne_paused {machine : Machine} (hStatus : machine.status ≠ .paused) :
    ∃ target, machine.apply .startStop = machine.moveTo target ∧
      (machine.status = .idle ∧ target = .running ∨
        machine.status = .running ∧ target = .idle) := by
  obtain ⟨status, resume⟩ := machine
  cases status with
  | idle => exact ⟨.running, rfl, Or.inl ⟨rfl, rfl⟩⟩
  | running => exact ⟨.idle, rfl, Or.inr ⟨rfl, rfl⟩⟩
  | paused => exact absurd rfl hStatus

/-- Into the pause leads the trip alone, and out of it the release alone. -/
theorem apply_eq_some_paused_iff {machine : Machine} (hResume : machine.resume ≠ .paused)
    {trigger : Trigger} {transition : Transition}
    (hMoved : (machine.apply trigger).2 = some transition) :
    (transition.target = .paused ↔ trigger = .interlockTripped) ∧
      (transition.source = .paused ↔ trigger = .interlockReleased) := by
  obtain ⟨status, resume⟩ := machine
  cases trigger with
  | startStop => cases status <;> cases hMoved <;> simp
  | runComplete =>
      cases status <;> cases hMoved
      simp
  | interlockTripped => cases status <;> cases hMoved <;> simp
  | interlockReleased =>
      cases status <;> cases hMoved
      simpa using hResume

/-- The machine never remembers a pause, so a release always ends one. -/
theorem apply_resume_ne_paused {machine : Machine} (hResume : machine.resume ≠ .paused)
    (trigger : Trigger) : (machine.apply trigger).1.resume ≠ .paused := by
  obtain ⟨status, resume⟩ := machine
  cases status <;> cases trigger <;> simp_all [apply, moveTo]

/-- What is remembered for after a pause is never a pause. -/
theorem course_resume_ne_paused {machine : Machine} (hResume : machine.resume ≠ .paused)
    (triggers : List Trigger) : (machine.course triggers).1.resume ≠ .paused := by
  induction triggers generalizing machine with
  | nil => exact hResume
  | cons trigger rest ih => exact ih (apply_resume_ne_paused hResume trigger)

/-- A pause is begun by a trip and ended by a release, and by nothing else. -/
theorem paused_iff_of_mem_course {machine : Machine} (hResume : machine.resume ≠ .paused)
    {triggers : List Trigger} {transition : Transition} {trigger : Trigger}
    (hMem : (transition, trigger) ∈ (machine.course triggers).2) :
    (transition.target = .paused ↔ trigger = .interlockTripped) ∧
      (transition.source = .paused ↔ trigger = .interlockReleased) := by
  obtain ⟨before, _, _, hMoved⟩ := exists_apply_of_mem_course hMem
  exact apply_eq_some_paused_iff (course_resume_ne_paused hResume before) hMoved

/-- The interlock decides about the pause, whatever the machine did before. -/
theorem apply_ofInterlock_paused_iff {machine : Machine} (hResume : machine.resume ≠ .paused)
    (tripped : Bool) :
    (machine.apply (.ofInterlock tripped)).1.status = .paused ↔ tripped = true := by
  obtain ⟨status, resume⟩ := machine
  cases tripped <;> cases status <;> simp_all [apply, moveTo, Trigger.ofInterlock]

/-- A trip pauses the machine and makes it remember what it was doing. -/
theorem apply_tripped_of_ne_paused {machine : Machine} (hStatus : machine.status ≠ .paused) :
    (machine.apply .interlockTripped).1 = ⟨.paused, machine.status⟩ := by
  obtain ⟨status, resume⟩ := machine
  cases status with
  | idle => rfl
  | running => rfl
  | paused => exact absurd rfl hStatus

/-- The interlock neither starts a job nor ends one. -/
theorem apply_ofInterlock_active_iff (machine : Machine) (tripped : Bool) :
    (machine.apply (.ofInterlock tripped)).1.Active ↔ machine.Active := by
  obtain ⟨status, resume⟩ := machine
  cases tripped <;> cases status <;> simp [Active, apply, moveTo, Trigger.ofInterlock]

/-- A job whose end is no change of status waits for the guard. -/
theorem eq_waiting_of_apply_runComplete_eq_none {machine : Machine} (hActive : machine.Active)
    (hMoved : (machine.apply .runComplete).2 = none) : machine = ⟨.paused, .running⟩ := by
  obtain ⟨status, resume⟩ := machine
  cases status with
  | idle => simp [Active] at hActive
  | running => cases hMoved
  | paused => simpa [Active] using hActive

/-- After the end of a job there is none. -/
theorem not_active_apply_runComplete (machine : Machine) :
    ¬(machine.apply .runComplete).1.Active := by
  obtain ⟨status, resume⟩ := machine
  cases status <;> simp [Active, apply, moveTo]

/-- Machines with the same status. What they remember counts only as long as they are
paused. -/
structure Agrees (first second : Machine) : Prop where
  status : first.status = second.status
  resume : first.status = .paused → first.resume = second.resume

theorem Agrees.refl (machine : Machine) : machine.Agrees machine := ⟨rfl, fun _ => rfl⟩

/-- The end of a job and the guard can come in either order. -/
theorem apply_runComplete_ofInterlock_agrees {machine : Machine} (hActive : machine.Active)
    (tripped : Bool) :
    ((machine.apply .runComplete).1.apply (.ofInterlock tripped)).1.Agrees
      ((machine.apply (.ofInterlock tripped)).1.apply .runComplete).1 := by
  obtain ⟨status, resume⟩ := machine
  rcases hActive with hRunning | ⟨hPaused, hResume⟩
  · -- A job that goes on: the trip comes before the end, or after it, or not at all.
    cases hRunning
    cases tripped with
    | true => exact ⟨rfl, fun _ => rfl⟩
    | false => exact ⟨rfl, nofun⟩
  · -- A job that waits: with the guard still open it is only forgotten.
    cases hPaused
    cases hResume
    cases tripped with
    | true => exact ⟨rfl, fun _ => rfl⟩
    | false => exact ⟨rfl, nofun⟩

/-- The operator and the sequencer neither begin a pause nor end one. -/
theorem apply_paused_iff {machine : Machine} {trigger : Trigger}
    (hTrigger : ∀ tripped, trigger ≠ .ofInterlock tripped) :
    (machine.apply trigger).1.status = .paused ↔ machine.status = .paused := by
  obtain ⟨status, resume⟩ := machine
  cases trigger with
  | interlockTripped => exact absurd rfl (hTrigger true)
  | interlockReleased => exact absurd rfl (hTrigger false)
  | startStop => cases status <;> simp [apply, moveTo]
  | runComplete => cases status <;> simp [apply, moveTo]

theorem course_paused_iff {machine : Machine} {triggers : List Trigger}
    (hTriggers : ∀ tripped, .ofInterlock tripped ∉ triggers) :
    (machine.course triggers).1.status = .paused ↔ machine.status = .paused := by
  induction triggers generalizing machine with
  | nil => exact Iff.rfl
  | cons trigger rest ih =>
      rw [course_cons, ih fun tripped hMem => hTriggers tripped (List.mem_cons_of_mem _ hMem)]
      apply apply_paused_iff
      intro tripped hEq
      exact hTriggers tripped (hEq ▸ List.mem_cons_self)

end Machine

end TapeCutter.Run
