import TapeCutter.Proofs.Controller.Gleaning

/-! The menu, move by move. Whether a deflected stick moves anything is decided once per
tick, after the interlock has had its turn; the cursor, the dials and the gate are touched
by the accepted moves alone, the gate also by a centred stick. -/
namespace TapeCutter.Controller

variable {Listener : Type}

/-- The cursor and the two dials. -/
def State.entries (state : State) : Menu.Row × Menu.Dial × Menu.Dial :=
  (state.row, state.quantityPerKit, state.kitCount)

/-- A move that was accepted: when, and with the cursor on which row. -/
structure Accepted where
  now : UInt32
  row : Menu.Row
  move : Menu.Move
deriving DecidableEq

/-- What a move makes of the dial of a row. It is turned sideways only, and with the cursor
on its row. -/
def Accepted.turnDial (accepted : Accepted) (row : Menu.Row) (dial : Menu.Dial) : Menu.Dial :=
  if accepted.row = row then
    match accepted.move with
    | .valueUp => dial.up
    | .valueDown => dial.down
    | .rowUp => dial
    | .rowDown => dial
  else dial

/-- What a move makes of the entries. -/
def Accepted.turn (accepted : Accepted) :
    Menu.Row × Menu.Dial × Menu.Dial → Menu.Row × Menu.Dial × Menu.Dial
  | (row, quantity, kits) =>
      (accepted.move.row row, accepted.turnDial .quantityPerKit quantity,
        accepted.turnDial .kitCount kits)

/-- The entries after a move are turned by it, whatever is announced. -/
theorem entries_moved (state : State) (now : UInt32) (move : Menu.Move) :
    (state.moved move : State × List (Effect Listener)).1.entries =
      (⟨now, state.row, move⟩ : Accepted).turn state.entries := by
  obtain ⟨row, quantity, kits, percent, run, held⟩ := state
  cases move <;> cases row <;> rfl

/-- The move that an idle machine takes from a sample, if the gate lets it through. -/
def heeded? (controller : Controller Listener) (sample : Sample) : Option Menu.Move :=
  if controller.state.run.status = .idle then
    sample.stick.move?.filter fun move =>
      controller.gate.ready sample.now (controller.menu.repeatInterval move)
  else none

/-- The move that is accepted with an operation: that of a tick, on what its interlock
step leaves. -/
def accepted? (controller : Controller Listener) : Operation Listener → Option Accepted
  | .tick sample =>
      let guarded := (controller.guarded sample.interlock).1
      (guarded.heeded? sample).map fun move => ⟨sample.now, guarded.state.row, move⟩
  | _ => none

/-- The time of a tick that finds an idle machine and a centred stick after its interlock
step. -/
def rested? (controller : Controller Listener) : Operation Listener → Option UInt32
  | .tick sample =>
      if (controller.guarded sample.interlock).1.state.run.status = .idle ∧
          sample.stick.deflected = false then some sample.now else none
  | _ => none

/-! The stage of a tick that looks at the stick. -/

/-- An accepted move is made, its time is taken, and everything is shown once. -/
theorem attend_of_heeded {controller : Controller Listener} {sample : Sample} {move : Menu.Move}
    (hHeeded : controller.heeded? sample = some move) :
    controller.attend sample =
      let moved : State × List (Effect Listener) := controller.state.moved move
      ({ controller with state := moved.1, gate := .accept sample.now },
        moved.2 ++ moved.1.refresh) := by
  unfold heeded? at hHeeded
  split at hHeeded
  · rename_i hIdle
    obtain ⟨hMove, hReady⟩ := Option.filter_eq_some_iff.mp hHeeded
    simp only [attend, hIdle, browse, hMove, navigate, hReady, if_true]
  · cases hHeeded

/-- A deflected stick that is not heeded does nothing at all. -/
theorem attend_of_rejected {controller : Controller Listener} {sample : Sample}
    (hIdle : controller.state.run.status = .idle) (hDeflected : sample.stick.deflected = true)
    (hHeeded : controller.heeded? sample = none) : controller.attend sample = (controller, []) := by
  cases hMove : sample.stick.move? with
  | none =>
      rw [(Menu.Stick.move?_eq_none_iff sample.stick).mp hMove] at hDeflected
      cases hDeflected
  | some move =>
      rw [heeded?, if_pos hIdle, hMove, Option.filter_eq_none_iff] at hHeeded
      have hWait := hHeeded move rfl
      simp only [attend, hIdle, browse, hMove, navigate, if_neg hWait]

/-- A centred stick opens the gate of an idle machine and asks for nothing. -/
theorem attend_of_centred {controller : Controller Listener} {sample : Sample}
    (hIdle : controller.state.run.status = .idle) (hCentred : sample.stick.deflected = false) :
    controller.attend sample = ({ controller with gate := controller.gate.rearm }, []) := by
  rw [← Menu.Stick.move?_eq_none_iff] at hCentred
  simp only [attend, hIdle, browse, hCentred]

/-- Outside the idle status the stick is not looked at. -/
theorem attend_of_ne_idle {controller : Controller Listener} (sample : Sample)
    (hStatus : controller.state.run.status ≠ .idle) :
    (controller.attend sample).1.state.entries = controller.state.entries ∧
      (controller.attend sample).1.gate = controller.gate := by
  unfold attend
  cases hCase : controller.state.run.status with
  | idle => exact absurd hCase hStatus
  | running => exact ⟨rfl, rfl⟩
  | paused => exact ⟨rfl, rfl⟩

/-- Without an accepted move the entries stay, and the gate at most learns that the stick
is centred. -/
theorem attend_of_unheeded {controller : Controller Listener} {sample : Sample}
    (hHeeded : controller.heeded? sample = none) :
    (controller.attend sample).1.state.entries = controller.state.entries ∧
      (controller.attend sample).1.gate =
        if controller.state.run.status = .idle ∧ sample.stick.deflected = false then
          controller.gate.rearm
        else controller.gate := by
  by_cases hIdle : controller.state.run.status = .idle
  · cases hStick : sample.stick.deflected with
    | true =>
        rw [attend_of_rejected hIdle hStick hHeeded]
        simp
    | false =>
        rw [attend_of_centred hIdle hStick]
        simp [hIdle]
  · rw [if_neg fun hBoth => hIdle hBoth.1]
    exact attend_of_ne_idle sample hIdle

/-! Operations. -/

/-- What comes before and after the look at the stick leaves the menu and its gate alone. -/
theorem tick_attended (controller : Controller Listener) (sample : Sample) :
    let attended := ((controller.guarded sample.interlock).1.attend sample).1
    (controller.tick sample).1.state.entries = attended.state.entries ∧
      (controller.tick sample).1.gate = attended.gate := by
  intro attended
  simp only [tick]
  split
  · rename_i hPaused
    have hNotIdle : (controller.guarded sample.interlock).1.state.run.status ≠ .idle := by
      simp [hPaused]
    obtain ⟨hEntries, hGate⟩ := attend_of_ne_idle sample hNotIdle
    exact ⟨hEntries.symm, hGate.symm⟩
  · obtain ⟨_, _, hPush⟩ := exists_push_eq attended sample.stick.pressed
    rw [hPush]
    exact ⟨rfl, rfl⟩

theorem guarded_entries (controller : Controller Listener) (interlock : Option Bool) :
    (controller.guarded interlock).1.state.entries = controller.state.entries ∧
      (controller.guarded interlock).1.gate = controller.gate ∧
        (controller.guarded interlock).1.menu = controller.menu := by
  obtain ⟨_, hGuarded⟩ := exists_guarded_eq controller interlock
  rw [hGuarded]
  exact ⟨rfl, rfl, rfl⟩

/-- Only an accepted move changes the entries, and it turns them once. -/
theorem entries_perform (controller : Controller Listener) (operation : Operation Listener) :
    (controller.perform operation).1.state.entries =
      (controller.accepted? operation).elim controller.state.entries
        fun accepted => accepted.turn controller.state.entries := by
  cases operation with
  | tick sample =>
      obtain ⟨hEntries, _⟩ := guarded_entries controller sample.interlock
      rw [perform, (tick_attended controller sample).1, accepted?, ← hEntries]
      cases hHeeded : (controller.guarded sample.interlock).1.heeded? sample with
      | some move =>
          rw [attend_of_heeded hHeeded]
          exact entries_moved _ sample.now move
      | none => exact (attend_of_unheeded hHeeded).1
  | finish =>
      obtain ⟨_, _, hFinish⟩ := exists_finish_eq controller
      rw [perform, hFinish]
      rfl
  | start => rfl
  | setPaused paused => rfl
  | install listener => rfl

/-- The settings stay what they were at power-on. -/
theorem menu_run (controller : Controller Listener) (operations : List (Operation Listener)) :
    (controller.run operations).1.menu = controller.menu := by
  have hStep : ∀ (controller : Controller Listener) operation,
      (controller.perform operation).1.menu = controller.menu := by
    intro controller operation
    cases operation with
    | tick sample =>
        obtain ⟨_, _, _, _, _, _, hTick⟩ := exists_tick_eq controller sample
        rw [perform, hTick]
    | finish =>
        obtain ⟨_, _, hFinish⟩ := exists_finish_eq controller
        rw [perform, hFinish]
    | start => rfl
    | setPaused paused => rfl
    | install listener => rfl
  induction operations generalizing controller with
  | nil => rfl
  | cons operation rest ih => rw [run_cons, ih, hStep]

/-- With the machine idle and the stick deflected, the gate decides. -/
theorem accepted?_of_move {controller : Controller Listener} {sample : Sample}
    {move : Menu.Move} (hIdle : (controller.guarded sample.interlock).1.state.run.status = .idle)
    (hMove : sample.stick.move? = some move) :
    controller.accepted? (.tick sample) =
      if controller.gate.ready sample.now (controller.menu.repeatInterval move) then
        some ⟨sample.now, controller.state.row, move⟩
      else none := by
  obtain ⟨hEntries, hGate, hMenu⟩ := guarded_entries controller sample.interlock
  have hRow : (controller.guarded sample.interlock).1.state.row = controller.state.row :=
    congrArg Prod.fst hEntries
  rw [accepted?, heeded?, if_pos hIdle, hMove, hGate, hMenu, hRow, Option.filter_some]
  split <;> rfl

/-- A move on an idle machine is accepted just if the gate is open for it. -/
theorem accepted?_eq_some_iff {controller : Controller Listener} {sample : Sample}
    {move : Menu.Move} (hIdle : (controller.guarded sample.interlock).1.state.run.status = .idle)
    (hMove : sample.stick.move? = some move) :
    controller.accepted? (.tick sample) = some ⟨sample.now, controller.state.row, move⟩ ↔
      controller.gate.ready sample.now (controller.menu.repeatInterval move) = true := by
  rw [accepted?_of_move hIdle hMove]
  split <;> simp_all

/-- With the machine idle, a deflected stick whose move is not accepted does nothing. -/
theorem attend_of_not_accepted {controller : Controller Listener} {sample : Sample}
    {move : Menu.Move} (hIdle : (controller.guarded sample.interlock).1.state.run.status = .idle)
    (hMove : sample.stick.move? = some move)
    (hAccepted : controller.accepted? (.tick sample) ≠
      some ⟨sample.now, controller.state.row, move⟩) :
    (controller.guarded sample.interlock).1.attend sample =
      ((controller.guarded sample.interlock).1, []) := by
  have hNone : controller.accepted? (.tick sample) = none := by
    rw [accepted?_of_move hIdle hMove, if_neg]
    exact mt (accepted?_eq_some_iff hIdle hMove).mpr hAccepted
  have hDeflected : sample.stick.deflected = true := by
    rw [← Bool.not_eq_false, ← Menu.Stick.move?_eq_none_iff, hMove]
    exact nofun
  exact attend_of_rejected hIdle hDeflected (Option.map_eq_none_iff.mp hNone)

/-- The gate is closed by an accepted move, opened by a centred stick that is looked at, and left
alone by everything else. -/
theorem gate_perform (controller : Controller Listener) (operation : Operation Listener) :
    (controller.perform operation).1.gate =
      match controller.accepted? operation, controller.rested? operation with
      | some accepted, _ => .accept accepted.now
      | none, some _ => controller.gate.rearm
      | none, none => controller.gate := by
  cases operation with
  | tick sample =>
      obtain ⟨_, hGate, _⟩ := guarded_entries controller sample.interlock
      rw [perform, (tick_attended controller sample).2, accepted?, rested?, ← hGate]
      cases hHeeded : (controller.guarded sample.interlock).1.heeded? sample with
      | some move =>
          rw [attend_of_heeded hHeeded]
          rfl
      | none =>
          rw [(attend_of_unheeded hHeeded).2]
          split <;> rfl
  | finish =>
      obtain ⟨_, _, hFinish⟩ := exists_finish_eq controller
      rw [perform, hFinish]
      rfl
  | start => rfl
  | setPaused paused => rfl
  | install listener => rfl

end TapeCutter.Controller
