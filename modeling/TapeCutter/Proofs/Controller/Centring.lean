import TapeCutter.Proofs.Controller.Repetition

/-! The stick back at the centre. Every tick samples the stick, but the gate of the menu is
told of a centred one by the ticks that find the machine idle only. So a job or a pause
between the centring and the next move takes nothing away, while a centring that falls
within the job or the pause never happened as far as the menu is concerned. -/
namespace TapeCutter.Controller

variable {Listener : Type}

/-- The status in which a tick finds a centred stick, after its interlock step. -/
def centred? (controller : Controller Listener) : Operation Listener → Option Run.Status
  | .tick sample =>
      if sample.stick.deflected = false then
        some (controller.guarded sample.interlock).1.state.run.status
      else none
  | _ => none

/-- Some tick found the stick centred while the machine was in this status, and no move
has been accepted after it. -/
def CentredSince (controller : Controller Listener) (operations : List (Operation Listener))
    (status : Run.Status) : Prop :=
  ∃ earlier later, operations = earlier ++ later ∧
    (controller.run earlier).1.glean accepted? later = [] ∧
      status ∈ (controller.run earlier).1.glean centred? later

/-- The gate is told of a centred stick just by a tick that finds the machine idle. -/
theorem rested?_ne_none_iff (controller : Controller Listener) (operation : Operation Listener) :
    controller.rested? operation ≠ none ↔ controller.centred? operation = some .idle := by
  cases operation with
  | tick sample =>
      rw [rested?, centred?]
      cases sample.stick.deflected <;> simp
  | start => simp [rested?, centred?]
  | setPaused paused => simp [rested?, centred?]
  | finish => simp [rested?, centred?]
  | install listener => simp [rested?, centred?]

theorem glean_rested?_ne_nil_iff (controller : Controller Listener)
    (operations : List (Operation Listener)) :
    controller.glean rested? operations ≠ [] ↔ .idle ∈ controller.glean centred? operations := by
  induction operations generalizing controller with
  | nil => simp
  | cons operation rest ih =>
      rw [mem_glean_cons_iff, ← rested?_ne_none_iff, ← ih, Ne, glean_cons_eq_nil_iff,
        Decidable.not_and_iff_or_not]

/-- The rest that rearms the gate is a centring that an idle machine sees. -/
theorem restedSince_iff (controller : Controller Listener)
    (operations : List (Operation Listener)) :
    controller.RestedSince operations ↔ controller.CentredSince operations .idle := by
  simp only [RestedSince, CentredSince, glean_rested?_ne_nil_iff]

/-! What a busy machine does not see. -/

/-- The operation with the stick centred, unless the machine is idle at its look at the
stick. -/
def centredIfBusy (controller : Controller Listener) :
    Operation Listener → Operation Listener
  | .tick sample =>
      if (controller.guarded sample.interlock).1.state.run.status = .idle then .tick sample
      else .tick { sample with stick := { pressed := sample.stick.pressed } }
  | operation => operation

/-- The operations with the stick centred through every job and every pause. -/
def centredWhileBusy (controller : Controller Listener) :
    List (Operation Listener) → List (Operation Listener)
  | [] => []
  | operation :: rest =>
      controller.centredIfBusy operation ::
        (controller.perform operation).1.centredWhileBusy rest

/-- A busy machine does not look where the stick is, only whether its switch is down. -/
theorem perform_centredIfBusy (controller : Controller Listener)
    (operation : Operation Listener) :
    controller.perform (controller.centredIfBusy operation) = controller.perform operation := by
  cases operation with
  | tick sample =>
      rw [centredIfBusy]
      split
      · rfl
      · rename_i hBusy
        simp only [perform, tick]
        cases hStatus : (controller.guarded sample.interlock).1.state.run.status with
        | idle => exact absurd hStatus hBusy
        | running => simp only [attend, hStatus]
        | paused => rfl
  | start => rfl
  | setPaused paused => rfl
  | finish => rfl
  | install listener => rfl

/-- Where the stick is while the machine is busy makes no difference to the run. -/
theorem run_centredWhileBusy (controller : Controller Listener)
    (operations : List (Operation Listener)) :
    controller.run (controller.centredWhileBusy operations) = controller.run operations := by
  induction operations generalizing controller with
  | nil => rfl
  | cons operation rest ih =>
      simp only [centredWhileBusy, run, perform_centredIfBusy, ih]

/-- After any run, a deflected stick moves an idle machine at once if this is the first move
of all, or if some tick since the last accepted move found the stick centred and the machine
idle, whatever lies between that tick and this one. Without such a tick, the move is accepted
just when the interval of its direction has passed since then, and centring the stick through
every job and every pause on the way would not have helped. -/
theorem accepted_at_once_after_centred_idle (menu : MenuSettings)
    (operations : List (Operation Listener)) (sample : Sample) (move : Menu.Move) :
    let start : Controller Listener := powerOn menu
    let controller := (start.run operations).1
    let moves := start.glean accepted? operations
    let accepted : Accepted := ⟨sample.now, controller.state.row, move⟩
    let interval := if move.vertical then menu.verticalRepeat else menu.horizontalRepeat
    (controller.guarded sample.interlock).1.state.run.status = .idle →
      sample.stick.move? = some move →
      (moves = [] ∨ start.CentredSince operations .idle →
        controller.accepted? (.tick sample) = some accepted ∧
          (controller.tick sample).1.state.entries = accepted.turn controller.state.entries) ∧
      (∀ last, moves.getLast? = some last → ¬start.CentredSince operations .idle →
        (controller.accepted? (.tick sample) = some accepted ↔
          interval ≤ sample.now - last.now)) ∧
      (start.run (start.centredWhileBusy operations)).1.accepted? (.tick sample) =
        controller.accepted? (.tick sample) := by
  intro start controller moves accepted interval hIdle hMove
  have hInterval : controller.menu.repeatInterval move = interval := by
    rw [menu_run]
    rfl
  have hAccepted : controller.accepted? (.tick sample) = some accepted ↔ _ :=
    (accepted?_eq_some_iff hIdle hMove).trans (ready_run menu operations sample.now _)
  rw [hInterval, restedSince_iff] at hAccepted
  refine ⟨?_, ?_, ?_⟩
  · intro hOpen
    have hTaken : controller.accepted? (.tick sample) = some accepted := by
      rcases hOpen with hNone | hCentred
      · exact hAccepted.mpr (.inl hNone)
      · exact hAccepted.mpr (.inr (.inl hCentred))
    have hEntries := entries_perform controller (.tick sample)
    rw [hTaken] at hEntries
    exact ⟨hTaken, hEntries⟩
  · intro last hLast hNotCentred
    have hMoved : moves ≠ [] := by
      intro hNone
      rw [hNone] at hLast
      cases hLast
    rw [hAccepted, hLast]
    constructor
    · rintro (hNone | hCentred | ⟨_, hSame, hWait⟩)
      · exact absurd hNone hMoved
      · exact absurd hCentred hNotCentred
      · rw [Option.some_inj.mp hSame]
        exact hWait
    · intro hWait
      exact .inr (.inr ⟨last, rfl, hWait⟩)
  · rw [run_centredWhileBusy]

/-- The stick is at the centre in the tick that starts a job, and up all through the job.
The move of the next idle tick is accepted 60 ms after the first. -/
theorem accepted_at_once_after_job :
    let up : Menu.Stick := { up := true }
    let operations : List (Operation Unit) :=
      [.start, .tick ⟨0, none, some false, up⟩, .tick ⟨20, none, none, { pressed := true }⟩,
        .tick ⟨40, none, none, up⟩, .finish]
    let sample : Sample := ⟨60, none, none, up⟩
    let start : Controller Unit := powerOn {}
    let controller := (start.run operations).1
    (controller.guarded sample.interlock).1.state.run.status = .idle ∧
      sample.stick.move? = some .rowUp ∧ start.CentredSince operations .idle ∧
        controller.accepted? (.tick sample) = some ⟨60, .startStop, .rowUp⟩ ∧
          (controller.tick sample).1.state.row = .kitCount := by
  intro up operations sample start controller
  have hIdle : (controller.guarded sample.interlock).1.state.run.status = .idle := by decide
  have hCentred : start.CentredSince operations .idle :=
    ⟨operations.take 2, operations.drop 2, rfl, by decide, by decide⟩
  obtain ⟨hAtOnce, _, _⟩ :=
    accepted_at_once_after_centred_idle {} operations sample .rowUp hIdle rfl
  obtain ⟨hTaken, hEntries⟩ := hAtOnce (.inr hCentred)
  exact ⟨hIdle, rfl, hCentred, hTaken, congrArg Prod.fst hEntries⟩

/-- The stick is up, goes back to the centre in a job, stays there in a pause, and is up
again 80 ms after its first move. No tick has found it centred in between with the machine
idle, so the second move has to wait. -/
theorem refused_though_centred_while_busy :
    let up : Menu.Stick := { up := true }
    let operations : List (Operation Unit) :=
      [.start, .tick ⟨0, none, some false, up⟩,
        .tick ⟨20, none, none, { up := true, pressed := true }⟩, .tick ⟨40, none, none, {}⟩,
        .setPaused true, .tick ⟨60, none, none, {}⟩, .setPaused false, .finish]
    let sample : Sample := ⟨80, none, none, up⟩
    let start : Controller Unit := powerOn {}
    let controller := (start.run operations).1
    (controller.guarded sample.interlock).1.state.run.status = .idle ∧
      sample.stick.deflected = true ∧
        start.CentredSince operations .running ∧ start.CentredSince operations .paused ∧
          controller.accepted? (.tick sample) = none ∧ (controller.tick sample).2 = [] := by
  intro up operations sample start controller
  refine ⟨by decide, rfl, ?_, ?_, by decide, by decide⟩
  · exact ⟨operations.take 3, operations.drop 3, rfl, by decide, by decide⟩
  · exact ⟨operations.take 3, operations.drop 3, rfl, by decide, by decide⟩

end TapeCutter.Controller
