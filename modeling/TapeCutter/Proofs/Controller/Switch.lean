import TapeCutter.Proofs.Controller.Calls

/-! The push switch. The operator starts and stops the machine at the tick in which the
switch goes down, with the cursor on the start/stop row and outside the pause. A switch
that stays down does nothing more, however long, and whatever else happens. -/
namespace TapeCutter.Controller

variable {Listener : Type}

/-- In a tick the operator's turn comes after the interlock's, on the machine that the
interlock left. -/
theorem toggles_tick (controller : Controller Listener) (sample : Sample) :
    ((controller.tick sample).1.state.run, toggles (controller.tick sample).2) =
      Prod.map id Run.startStops
        ((controller.guarded sample.interlock).1.state.run.course
          (if controller.pushes sample then [.startStop] else [])) := by
  have hRun : (controller.tick sample).1.state.run = _ := perform_run controller (.tick sample)
  have hChanges : changes (controller.tick sample).2 = _ :=
    changes_perform controller (.tick sample)
  have hFirst := toggles_guarded controller sample.interlock
  have hGuarded : changes (controller.guarded sample.interlock).2 = _ :=
    congrArg Prod.snd (guarded_course controller sample.interlock)
  rw [toggles, hGuarded] at hFirst
  rw [triggers, Run.Machine.course_append] at hRun hChanges
  rw [toggles, hRun, hChanges, Run.startStops_append, hFirst, guarded_run]
  rfl

/-- A tick that does not press the button leaves the status to the interlock. -/
theorem toggles_tick_of_not_pushes {controller : Controller Listener} {sample : Sample}
    (hPushes : controller.pushes sample = false) :
    (controller.tick sample).1.state.run =
        (controller.guarded sample.interlock).1.state.run ∧
      toggles (controller.tick sample).2 = [] := by
  have hTick := toggles_tick controller sample
  rw [hPushes] at hTick
  exact ⟨congrArg Prod.fst hTick, congrArg Prod.snd hTick⟩

/-- When the push switch acts it moves the machine once, from idle to running or back. -/
theorem toggles_tick_of_pushes {controller : Controller Listener} {sample : Sample}
    (hPushes : controller.pushes sample = true) :
    let source := (controller.guarded sample.interlock).1.state.run.status
    let target := (controller.tick sample).1.state.run.status
    toggles (controller.tick sample).2 = [⟨source, target⟩] ∧
      (source = .idle ∧ target = .running ∨ source = .running ∧ target = .idle) := by
  intro source target
  have hStatus : source ≠ .paused := by
    intro hPaused
    simp [pushes, source] at hPushes hPaused
    exact hPushes.1.1.1 hPaused
  obtain ⟨next, hApply, hNext⟩ := Run.Machine.apply_startStop_of_ne_paused hStatus
  have hTick := toggles_tick controller sample
  rw [hPushes, if_pos rfl, Run.Machine.course_cons, hApply] at hTick
  have hTarget : target = next := congrArg (·.1.status) hTick
  rw [hTarget]
  exact ⟨congrArg Prod.snd hTick, hNext⟩

/-- The operator starts and stops, and changes nothing else. -/
theorem start_or_stop_of_mem_toggles {controller : Controller Listener}
    {operation : Operation Listener} {transition : Run.Transition}
    (hMem : transition ∈ toggles (controller.perform operation).2) :
    transition = ⟨.idle, .running⟩ ∨ transition = ⟨.running, .idle⟩ := by
  by_cases hTick : operation.pressed? = none
  · rw [toggles_eq_nil_of_not_tick hTick] at hMem
    cases hMem
  · cases operation with
    | tick sample =>
        cases hPushes : controller.pushes sample with
        | false =>
            rw [perform, (toggles_tick_of_not_pushes hPushes).2] at hMem
            cases hMem
        | true =>
            obtain ⟨hToggles, hMove⟩ := toggles_tick_of_pushes hPushes
            rw [perform, hToggles, List.mem_singleton] at hMem
            rcases hMove with ⟨hSource, hTarget⟩ | ⟨hSource, hTarget⟩
            · exact Or.inl (by rw [hMem, hSource, hTarget])
            · exact Or.inr (by rw [hMem, hSource, hTarget])
    | start => exact absurd rfl hTick
    | setPaused paused => exact absurd rfl hTick
    | finish => exact absurd rfl hTick
    | install listener => exact absurd rfl hTick

/-- The button is pressed by a switch that goes down while the machine is not paused and its
cursor is on the start/stop row, both as the earlier parts of the tick leave them. -/
theorem pushes_iff {controller : Controller Listener} {sample : Sample} :
    controller.pushes sample = true ↔
      sample.stick.pressed = true ∧ controller.state.held = false ∧
        (controller.guarded sample.interlock).1.state.run.status ≠ .paused ∧
          ((controller.guarded sample.interlock).1.attend sample).1.state.row = .startStop := by
  simp only [pushes, Bool.and_eq_true, bne_iff_ne, beq_iff_eq, Bool.not_eq_true']
  constructor
  · rintro ⟨⟨⟨hStatus, hPressed⟩, hHeld⟩, hRow⟩
    exact ⟨hPressed, hHeld, hStatus, hRow⟩
  · rintro ⟨hPressed, hHeld, hStatus, hRow⟩
    exact ⟨⟨⟨hStatus, hPressed⟩, hHeld⟩, hRow⟩

/-- The switch stays down: every tick among the operations finds it pressed. -/
def KeepsPressed (operations : List (Operation Listener)) : Prop :=
  ∀ operation ∈ operations, operation.pressed? ≠ some false

/-- A switch that is down stays so until a tick finds it up. -/
theorem held_perform_of_keeps {controller : Controller Listener} {operation : Operation Listener}
    (hKeeps : operation.pressed? ≠ some false)
    (hHeld : controller.state.held = true ∨ operation.pressed? ≠ none) :
    (controller.perform operation).1.state.held = true := by
  have hNext := held_perform controller operation
  cases hPressed : operation.pressed? with
  | none =>
      rw [hPressed] at hNext hHeld
      rw [Option.some_inj.mp hNext]
      exact hHeld.resolve_right (fun hSome => hSome rfl)
  | some pressed =>
      rw [hPressed] at hNext hKeeps
      rw [Option.some_inj.mp hNext]
      simpa using hKeeps

/-- A switch that is held down presses nothing. -/
theorem toggles_perform_of_held {controller : Controller Listener}
    (hHeld : controller.state.held = true) (operation : Operation Listener) :
    toggles (controller.perform operation).2 = [] := by
  cases hOperation : operation with
  | tick sample =>
      apply (toggles_tick_of_not_pushes _).2
      rw [← Bool.not_eq_true, pushes_iff, hHeld]
      simp
  | start => exact toggles_eq_nil_of_not_tick rfl
  | setPaused paused => exact toggles_eq_nil_of_not_tick rfl
  | finish => exact toggles_eq_nil_of_not_tick rfl
  | install listener => exact toggles_eq_nil_of_not_tick rfl

/-- A switch that is down already does nothing however long it stays down, whatever
else happens. -/
theorem toggles_run_of_held {controller : Controller Listener}
    (hHeld : controller.state.held = true) {operations : List (Operation Listener)}
    (hKeeps : KeepsPressed operations) : toggles (controller.run operations).2 = [] := by
  induction operations generalizing controller with
  | nil => rfl
  | cons operation rest ih =>
      obtain ⟨hFirst, hRest⟩ := List.forall_mem_cons.mp hKeeps
      rw [run, toggles_append, toggles_perform_of_held hHeld, List.nil_append]
      exact ih (held_perform_of_keeps hFirst (Or.inl hHeld)) hRest

/-- One operation brings one change by the operator at most. -/
theorem length_toggles_perform_le_one (controller : Controller Listener)
    (operation : Operation Listener) :
    (toggles (controller.perform operation).2).length ≤ 1 := by
  cases hPressed : operation.pressed? with
  | none =>
      rw [toggles_eq_nil_of_not_tick hPressed]
      exact Nat.zero_le 1
  | some pressed =>
      cases operation with
      | tick sample =>
          cases hPushes : controller.pushes sample with
          | false =>
              rw [perform, (toggles_tick_of_not_pushes hPushes).2]
              exact Nat.zero_le 1
          | true =>
              rw [perform, (toggles_tick_of_pushes hPushes).1]
              exact Nat.le_refl 1
      | start => cases hPressed
      | setPaused paused => cases hPressed
      | finish => cases hPressed
      | install listener => cases hPressed

/-- One press makes one change at most, however long it lasts. -/
theorem length_toggles_run_le_one (controller : Controller Listener)
    {operations : List (Operation Listener)} (hKeeps : KeepsPressed operations) :
    (toggles (controller.run operations).2).length ≤ 1 := by
  induction operations generalizing controller with
  | nil => exact Nat.zero_le 1
  | cons operation rest ih =>
      obtain ⟨hFirst, hRest⟩ := List.forall_mem_cons.mp hKeeps
      rw [run, toggles_append, List.length_append]
      cases hPressed : operation.pressed? with
      | none =>
          rw [toggles_eq_nil_of_not_tick hPressed, List.length_nil, Nat.zero_add]
          exact ih _ hRest
      | some pressed =>
          -- From the first tick on the switch is down already.
          have hHeld : (controller.perform operation).1.state.held = true :=
            held_perform_of_keeps hFirst (Or.inr (by simp [hPressed]))
          rw [toggles_run_of_held hHeld hRest, List.length_nil, Nat.add_zero]
          exact length_toggles_perform_le_one controller operation

/-- After any run, what a tick does to the run status by the push switch, told by the
run itself. The switch acts exactly when it is pressed in this tick, was not pressed in
the last one, the interlock leaves the machine out of the pause, and the cursor is on
the start/stop row after any move; it then takes the machine from idle to running or
back, and the listener installed last hears of it once. No other tick and no other
operation changes anything for the operator or calls anybody. So one press makes one
change at most, and none at all when it began before. -/
theorem toggled_iff_pressed_anew (menu : MenuSettings) (operations : List (Operation Listener)) :
    let controller := ((powerOn menu : Controller Listener).run operations).1
    (∀ sample : Sample,
      let guarded := (controller.guarded sample.interlock).1
      let effects := (controller.tick sample).2
      let source := guarded.state.run.status
      let target := (controller.tick sample).1.state.run.status
      if sample.stick.pressed = true ∧ lastPressed operations ≠ some true ∧ source ≠ .paused ∧
          (guarded.attend sample).1.state.row = .startStop then
        (source = .idle ∧ target = .running ∨ source = .running ∧ target = .idle) ∧
          toggles effects = [⟨source, target⟩] ∧
            calls effects =
              ((lastInstalled operations).map fun listener => (listener, target)).toList
      else target = source ∧ toggles effects = [] ∧ calls effects = []) ∧
      (∀ operation, (∀ sample, operation ≠ .tick sample) →
        toggles (controller.perform operation).2 = [] ∧
          calls (controller.perform operation).2 = []) ∧
      ∀ streak, KeepsPressed streak →
        (toggles (controller.run streak).2).length ≤
          if lastPressed operations = some true then 0 else 1 := by
  intro controller
  have hHeld : controller.state.held = false ↔ lastPressed operations ≠ some true :=
    held_run_eq_false_iff menu operations
  refine ⟨?_, ?_, ?_⟩
  · intro sample guarded effects source target
    have hCalls : calls effects = told (lastInstalled operations) (toggles effects) := by
      rw [← listener_run_powerOn menu]
      exact calls_tick controller sample
    split
    · rename_i hActs
      have hPushes : controller.pushes sample = true := by
        rw [pushes_iff, hHeld]
        exact hActs
      obtain ⟨hToggles, hMoved⟩ := toggles_tick_of_pushes hPushes
      refine ⟨hMoved, hToggles, ?_⟩
      rw [hCalls, hToggles, told, List.flatMap_singleton]
    · rename_i hActs
      have hPushes : controller.pushes sample = false := by
        rw [← Bool.not_eq_true, pushes_iff, hHeld]
        exact hActs
      obtain ⟨hRun, hToggles⟩ := toggles_tick_of_not_pushes hPushes
      refine ⟨congrArg Run.Machine.status hRun, hToggles, ?_⟩
      rw [hCalls, hToggles]
      rfl
  · intro operation hTick
    have hNone : toggles (controller.perform operation).2 = [] := by
      apply toggles_eq_nil_of_not_tick
      cases operation with
      | tick sample => exact absurd rfl (hTick sample)
      | _ => rfl
    exact ⟨hNone, by rw [calls_perform, hNone]; rfl⟩
  · intro streak hKeeps
    split
    · rename_i hDown
      have hStays : controller.state.held = true := by
        rw [← Bool.not_eq_false, hHeld]
        exact fun hUp => hUp hDown
      rw [toggles_run_of_held hStays hKeeps]
      exact Nat.zero_le 0
    · exact length_toggles_run_le_one controller hKeeps

end TapeCutter.Controller
