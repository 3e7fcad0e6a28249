import TapeCutter.Proofs.Controller.Calls
import TapeCutter.Proofs.Controller.History
import TapeCutter.Proofs.Controller.Sights

/-! What a listener hears over a whole run. The calls and the words that a job is finished
keep to one pattern: a job is opened by a call, and closed by a call or by such a word. So
a listener who is told that the machine runs can take it for a new job. -/
namespace TapeCutter.Controller

variable {Listener : Type}

/-- What opens and closes a job, as a listener knows it. -/
inductive Signal where
  | told (status : Run.Status)
  | completed
deriving DecidableEq

/-- Whether a job is open after a signal. It is out of place to open a job twice, and to
close one that is not open. -/
def Signal.next? : Bool → Signal → Option Bool
  | false, told .running => some true
  | true, told .idle => some false
  | true, completed => some false
  | _, _ => none

def Effect.signal? : Effect Listener → Option Signal
  | .tell _ status => some (.told status)
  | .announce (.completed _) => some .completed
  | _ => none

/-- Who knew whether a job was open before these requests, and hears them, knows it after
them. -/
abbrev Overheard (before : State) (effects : List (Effect Listener)) (after : State) : Prop :=
  Leads Effect.signal? Signal.next? (decide before.run.Active) effects (decide after.run.Active)

theorem signals_of_routine {effects : List (Effect Listener)}
    (hRoutine : ∀ effect ∈ effects, effect.Routine) : effects.filterMap Effect.signal? = [] := by
  refine filterMap_eq_nil_of_routine (fun effect hQuiet => ?_) hRoutine
  unfold Effect.signal?
  split
  · exact hQuiet.elim
  · exact hQuiet.elim
  · rfl

theorem leads_refresh (state : State) (working : Bool) :
    Leads Effect.signal? Signal.next? working (state.refresh : List (Effect Listener)) working :=
  leads_of_silent (signals_of_routine (routine_refresh state)) working

/-! The stages of a tick, and the other operations. -/

theorem overheard_setPaused (controller : Controller Listener) (paused : Bool) :
    Overheard controller.state (controller.setPaused paused).2
      (controller.setPaused paused).1.state := by
  have hActive := Run.Machine.apply_ofInterlock_active_iff controller.state.run paused
  rw [Overheard, ← decide_eq_decide.mpr hActive]
  simp only [setPaused]
  refine Leads.append ?_ (leads_refresh _ _)
  split <;> rfl

/-- The menu and the progress have nothing to do with whether a job is open. -/
theorem overheard_attend (controller : Controller Listener) (sample : Sample) :
    Overheard controller.state (controller.attend sample).2 (controller.attend sample).1.state := by
  rw [Overheard, (attend_run controller sample).1]
  exact leads_of_silent (signals_of_routine (routine_attend controller sample)) _

/-- A start is told when no job is open, and a stop when one is. -/
theorem overheard_toggle {controller : Controller Listener}
    (hTold : controller.listener = none → toggles controller.toggle.2 = []) :
    Overheard controller.state controller.toggle.2 controller.toggle.1.state := by
  by_cases hPaused : controller.state.run.status = .paused
  · rw [toggle_of_paused hPaused]
    exact leads_of_silent rfl _
  · obtain ⟨hEffects, hTarget⟩ := toggle_of_ne_paused hPaused
    rw [hEffects] at hTold ⊢
    cases hListener : controller.listener with
    | none =>
        rw [hListener] at hTold
        simp [toggles, Run.startStops] at hTold
    | some listener =>
        refine ((leads_of_silent rfl _).append (leads_refresh _ _)).append ?_
        rcases hTarget with ⟨hSource, hTarget⟩ | ⟨hSource, hTarget⟩
        · simp only [Run.Machine.Active, hSource, hTarget]
          rfl
        · simp only [Run.Machine.Active, hSource, hTarget]
          rfl

/-- The word that a job is finished comes only where one is open. -/
theorem overheard_finish (controller : Controller Listener) :
    Overheard controller.state controller.finish.2 controller.finish.1.state := by
  have hAfter := Run.Machine.not_active_apply_runComplete controller.state.run
  by_cases hActive : controller.state.run.Active
  · rw [Overheard, decide_eq_true hActive]
    simp only [finish, if_pos hActive]
    split
    · rw [decide_eq_false hAfter]
      exact ((leads_of_silent rfl _).append (leads_refresh _ _)).append rfl
    · rw [decide_eq_false hAfter]
      rfl
  · have hNone := Run.Machine.apply_runComplete_eq_none hActive
    simp only [finish, hNone, if_neg hActive]
    exact leads_of_silent rfl _

theorem overheard_start (controller : Controller Listener) :
    Overheard controller.state controller.start.2 controller.start.1.state :=
  (leads_refresh controller.state _).append (leads_of_silent rfl _)

/-- Nobody overhears what the operator does before there is a listener. Once there is one,
there always is. -/
structure Attended (before : Controller Listener) (effects : List (Effect Listener))
    (after : Controller Listener) : Prop where
  listener : after.listener = none → before.listener = none
  overheard : (before.listener = none → toggles effects = []) →
    Overheard before.state effects after.state

/-- What is heard of two parts is heard of both, and who was not there for the first is not
counted on for the second. -/
theorem Attended.append {before middle after : Controller Listener}
    {first second : List (Effect Listener)} (earlier : Attended before first middle)
    (later : Attended middle second after) : Attended before (first ++ second) after := by
  refine ⟨fun hNone => earlier.listener (later.listener hNone), fun hTold => ?_⟩
  rw [toggles_append, List.append_eq_nil_iff] at hTold
  exact (earlier.overheard fun hNone => (hTold hNone).1).append
    (later.overheard fun hNone => (hTold (earlier.listener hNone)).2)

/-- A listener is told of every start and every stop. -/
theorem attended_toggle (controller : Controller Listener) :
    Attended controller controller.toggle.2 controller.toggle.1 := by
  obtain ⟨_, _, hToggle⟩ := exists_toggle_eq controller
  refine ⟨fun hNone => ?_, overheard_toggle⟩
  rwa [hToggle] at hNone

/-- The end of a job needs no listener: the controller announces it. -/
theorem attended_finish (controller : Controller Listener) :
    Attended controller controller.finish.2 controller.finish.1 := by
  obtain ⟨_, _, hFinish⟩ := exists_finish_eq controller
  refine ⟨fun hNone => ?_, fun _ => overheard_finish controller⟩
  rwa [hFinish] at hNone

theorem attended_attend (controller : Controller Listener) (sample : Sample) :
    Attended controller (controller.attend sample).2 (controller.attend sample).1 := by
  refine ⟨fun hNone => ?_, fun _ => overheard_attend controller sample⟩
  rwa [attend_listener] at hNone

theorem stagewise_attended : Stagewise (@Attended Listener) where
  nothing _ := ⟨id, fun _ => leads_of_silent rfl _⟩
  append := Attended.append
  start controller := ⟨id, fun _ => overheard_start controller⟩
  setPaused controller paused := ⟨id, fun _ => overheard_setPaused controller paused⟩
  attend := attended_attend
  hold _ _ := ⟨id, fun _ => leads_of_silent rfl _⟩
  toggle := attended_toggle
  finish := attended_finish
  install _ listener :=
    ⟨fun hNone => absurd hNone (Option.some_ne_none listener), fun _ => leads_of_silent rfl _⟩

/-- From power-on, with a listener that came before the operator's first change. -/
theorem overheard_run (menu : MenuSettings) {before : List (Operation Listener)}
    (hUntoggled : toggles ((powerOn menu : Controller Listener).run before).2 = [])
    (listener : Listener) (later : List (Operation Listener)) :
    let operations := before ++ .install listener :: later
    let controller := ((powerOn menu : Controller Listener).run operations).1
    Leads Effect.signal? Signal.next? false ((powerOn menu).run operations).2
      (decide controller.state.run.Active) := by
  intro operations controller
  let waiting := ((powerOn menu : Controller Listener).run before).1
  have hBefore := (stagewise_attended.run (powerOn menu : Controller Listener) before).overheard
    fun _ => hUntoggled
  have hLater := (stagewise_attended.run (waiting.install listener) later).overheard
    fun hNone => absurd hNone (Option.some_ne_none listener)
  simp only [operations, controller, run_append, run_cons]
  exact hBefore.append hLater

/-! What the pattern says about calls that follow one another. -/

/-- A call that runs opens a job, and one that does not closes it. -/
theorem leads_tell {working after : Bool} {listener : Listener} {status : Run.Status}
    {rest : List (Effect Listener)}
    (hRead : Leads Effect.signal? Signal.next? working (.tell listener status :: rest) after) :
    ∃ opened, (status = .running ∧ working = false ∧ opened = true ∨
        status = .idle ∧ working = true ∧ opened = false) ∧
      Leads Effect.signal? Signal.next? opened rest after := by
  have hSignal : (Effect.tell listener status).signal? = some (.told status) := rfl
  obtain ⟨opened, hNext, hRest⟩ := (leads_cons_iff hSignal).mp hRead
  refine ⟨opened, ?_, hRest⟩
  cases working <;> cases status <;> cases hNext <;> simp

/-- Between two calls a job can only be closed, and only by the word that it is finished. -/
theorem closed_between_calls {working after : Bool} {effects : List (Effect Listener)}
    (hRead : Leads Effect.signal? Signal.next? working effects after)
    (hQuiet : calls effects = []) :
    after = working ∨
      working = true ∧ ∃ whilePaused, .announce (.completed whilePaused) ∈ effects := by
  induction effects generalizing working with
  | nil =>
      cases hRead
      exact Or.inl rfl
  | cons effect rest ih =>
      rw [calls, List.filterMap_eq_nil_iff, List.forall_mem_cons] at hQuiet
      cases hSignal : effect.signal? with
      | none =>
          rw [leads_cons_silent_iff hSignal] at hRead
          rcases ih hRead (List.filterMap_eq_nil_iff.mpr hQuiet.2) with
            hSame | ⟨hOpen, whilePaused, hMem⟩
          · exact Or.inl hSame
          · exact Or.inr ⟨hOpen, whilePaused, List.mem_cons_of_mem _ hMem⟩
      | some signal =>
          obtain ⟨middle, hNext, _⟩ := (leads_cons_iff hSignal).mp hRead
          unfold Effect.signal? at hSignal
          split at hSignal
          · cases hQuiet.1
          · cases hSignal
            cases working with
            | false => cases hNext
            | true => exact Or.inr ⟨rfl, _, List.mem_cons_self⟩
          · cases hSignal

/-- The first call, and what a call says after the one before it. -/
theorem calls_of_leads {effects : List (Effect Listener)} {after : Bool}
    (hRead : Leads Effect.signal? Signal.next? false effects after) :
    (∀ first listener status rest, effects = first ++ .tell listener status :: rest →
        calls first = [] → status = .running) ∧
      ∀ first listener status middle other next last,
        effects = first ++ .tell listener status :: (middle ++ .tell other next :: last) →
          calls middle = [] →
            ¬(status = .idle ∧ next = .idle) ∧
              (status = .running → next = .running →
                ∃ whilePaused, .announce (.completed whilePaused) ∈ middle) := by
  constructor
  · rintro first listener status rest rfl hQuiet
    obtain ⟨working, hFirst, hRest⟩ := leads_append_iff.mp hRead
    obtain ⟨_, hCall, _⟩ := leads_tell hRest
    rcases closed_between_calls hFirst hQuiet with hSame | ⟨hOpen, _⟩
    · rcases hCall with ⟨hRunning, _⟩ | ⟨_, hOpen, _⟩
      · exact hRunning
      · rw [hSame] at hOpen
        cases hOpen
    · cases hOpen
  · rintro first listener status middle other next last rfl hQuiet
    obtain ⟨_, _, hRest⟩ := leads_append_iff.mp hRead
    obtain ⟨left, hCall, hRest⟩ := leads_tell hRest
    obtain ⟨found, hMiddle, hLast⟩ := leads_append_iff.mp hRest
    obtain ⟨_, hNext, _⟩ := leads_tell hLast
    rcases hCall with ⟨rfl, _, rfl⟩ | ⟨rfl, _, rfl⟩
    · refine ⟨fun hIdle => (nomatch hIdle.1), fun _ hRunning => ?_⟩
      -- The first call has opened a job, and the second one finds none open.
      rcases closed_between_calls hMiddle hQuiet with rfl | ⟨_, hCompleted⟩
      · rcases hNext with ⟨_, hOpen, _⟩ | ⟨hIdle, _⟩
        · cases hOpen
        · rw [hRunning] at hIdle
          cases hIdle
      · exact hCompleted
    · refine ⟨fun hIdle => ?_, fun hRunning => (nomatch hRunning)⟩
      -- The first call has closed the job, and nothing but a call opens one.
      rcases closed_between_calls hMiddle hQuiet with rfl | ⟨hOpen, _⟩
      · rcases hNext with ⟨hRunning, _⟩ | ⟨_, hOpen, _⟩
        · rw [hIdle.2] at hRunning
          cases hRunning
        · cases hOpen
      · cases hOpen

/-! Where in a tick a call stands. -/

/-- Requests without a call do not reach as far as a call that follows them. -/
theorem exists_split_of_quiet {quiet effects first last : List (Effect Listener)}
    {listener : Listener} {status : Run.Status} (hQuiet : calls quiet = [])
    (hSplit : quiet ++ effects = first ++ .tell listener status :: last) :
    ∃ rest, first = quiet ++ rest ∧ effects = rest ++ .tell listener status :: last := by
  rcases List.append_eq_append_iff.mp hSplit with ⟨rest, hFirst, hEffects⟩ | ⟨rest, hBefore, hRest⟩
  · exact ⟨rest, hFirst, hEffects⟩
  · cases rest with
    | nil => exact ⟨[], by rw [hBefore, List.append_nil, List.append_nil], hRest.symm⟩
    | cons effect rest =>
        obtain ⟨rfl, _⟩ := List.cons_eq_cons.mp hRest
        rw [hBefore, calls_append, List.append_eq_nil_iff] at hQuiet
        cases hQuiet.2

/-- Among requests that call nobody there is no call. -/
theorem ne_append_tell_of_quiet {quiet first last : List (Effect Listener)} {listener : Listener}
    {status : Run.Status} (hQuiet : calls quiet = []) :
    quiet ≠ first ++ .tell listener status :: last := by
  rintro rfl
  rw [calls_append, List.append_eq_nil_iff] at hQuiet
  cases hQuiet.2

/-- A call comes last, after the change it tells of was announced, shown and reported. -/
theorem toggle_tells {controller : Controller Listener} {first last : List (Effect Listener)}
    {listener : Listener} {status : Run.Status}
    (hTells : controller.toggle.2 = first ++ .tell listener status :: last) :
    last = [] ∧ status ≠ .paused ∧ controller.toggle.1.state.run.status = status ∧
      ∃ source, first =
        reported ⟨source, status⟩ .startStop ++ controller.toggle.1.state.refresh := by
  by_cases hPaused : controller.state.run.status = .paused
  · rw [toggle_of_paused hPaused] at hTells
    exact absurd hTells (ne_append_tell_of_quiet calls_nil)
  · obtain ⟨hEffects, hTarget⟩ := toggle_of_ne_paused hPaused
    rw [hEffects] at hTells
    obtain ⟨rest, hFirst, hRest⟩ := exists_split_of_quiet (by simp) hTells
    cases hListener : controller.listener with
    | none =>
        rw [hListener] at hRest
        exact absurd hRest (ne_append_tell_of_quiet calls_nil)
    | some other =>
        rw [hListener] at hRest
        cases rest with
        | nil =>
            cases hRest
            refine ⟨rfl, ?_, rfl, _, hFirst.trans (List.append_nil _)⟩
            rcases hTarget with ⟨_, hTarget⟩ | ⟨_, hTarget⟩ <;> rw [hTarget] <;> decide
        | cons effect rest =>
            exact absurd (List.cons_eq_cons.mp hRest).2 (ne_append_tell_of_quiet calls_nil)

/-- The push calls with its last request, after it has announced the change and painted the new
state. -/
theorem push_tells {controller : Controller Listener} {pressed : Bool}
    {first last : List (Effect Listener)} {listener : Listener} {status : Run.Status}
    (hTells : (controller.push pressed).2 = first ++ .tell listener status :: last) :
    last = [] ∧ status ≠ .paused ∧ (controller.push pressed).1.state.run.status = status ∧
      ∃ source, first =
        reported ⟨source, status⟩ .startStop ++ (controller.push pressed).1.state.refresh := by
  unfold push at hTells ⊢
  split
  · rename_i hActs
    rw [if_pos hActs] at hTells
    exact toggle_tells hTells
  · rename_i hActs
    rw [if_neg hActs] at hTells
    exact absurd hTells (ne_append_tell_of_quiet calls_nil)

/-- The tick, too, calls with its last request; what its earlier parts ask for comes before. -/
theorem tick_tells {controller : Controller Listener} {sample : Sample}
    {first last : List (Effect Listener)} {listener : Listener} {status : Run.Status}
    (hTells : (controller.tick sample).2 = first ++ .tell listener status :: last) :
    last = [] ∧ status ≠ .paused ∧ (controller.tick sample).1.state.run.status = status ∧
      ∃ earlier source, first = earlier ++ reported ⟨source, status⟩ .startStop ++
        (controller.tick sample).1.state.refresh := by
  simp only [tick] at hTells ⊢
  split
  · rename_i hStatus
    rw [if_pos hStatus] at hTells
    exact absurd hTells (ne_append_tell_of_quiet (calls_guarded controller sample.interlock))
  · rename_i hStatus
    rw [if_neg hStatus] at hTells
    let quiet := (controller.guarded sample.interlock).2 ++
      ((controller.guarded sample.interlock).1.attend sample).2
    have hQuiet : calls quiet = [] := by
      rw [calls_append, calls_guarded, calls_attend, List.append_nil]
    obtain ⟨rest, hFirst, hPush⟩ := exists_split_of_quiet hQuiet hTells
    obtain ⟨hLast, hPaused, hTarget, source, hRest⟩ := push_tells hPush
    refine ⟨hLast, hPaused, hTarget, quiet, source, ?_⟩
    rw [hFirst, hRest]
    exact (List.append_assoc _ _ _).symm

/-- Only a tick calls anybody. -/
theorem exists_tick_of_tells {controller : Controller Listener} {operation : Operation Listener}
    {first last : List (Effect Listener)} {listener : Listener} {status : Run.Status}
    (hTells : (controller.perform operation).2 = first ++ .tell listener status :: last) :
    ∃ sample, operation = .tick sample := by
  cases operation with
  | tick sample => exact ⟨sample, rfl⟩
  | start => exact absurd hTells (ne_append_tell_of_quiet (calls_start controller))
  | setPaused paused =>
      exact absurd hTells (ne_append_tell_of_quiet (calls_setPaused controller paused))
  | finish => exact absurd hTells (ne_append_tell_of_quiet (calls_finish controller))
  | install other => exact absurd hTells (ne_append_tell_of_quiet calls_nil)

/-- A run in which a listener was installed before the operator changed anything. A call
is the last that its tick asks for. Before it the tick has announced the change, painted
all four bands and reported the status that the call passes on, and this status the
machine has by then; it is never the pause. Over the whole run the first call says that
the machine runs, no call that it is idle comes right after another, and of two calls in
a row that it runs the second comes after a word that the job is finished. -/
theorem calls_alternate (menu : MenuSettings) {before : List (Operation Listener)}
    (hUntoggled : toggles ((powerOn menu : Controller Listener).run before).2 = [])
    (installed : Listener) (later : List (Operation Listener)) :
    let operations := before ++ .install installed :: later
    let effects := ((powerOn menu : Controller Listener).run operations).2
    (∀ past operation future, operations = past ++ operation :: future →
      let controller := ((powerOn menu : Controller Listener).run past).1
      let state := (controller.perform operation).1.state
      ∀ first listener status last,
        (controller.perform operation).2 = first ++ .tell listener status :: last →
          last = [] ∧ status ≠ .paused ∧ state.run.status = status ∧
            (∃ sample, operation = .tick sample) ∧
              ∃ earlier source, first = earlier ++ reported ⟨source, status⟩ .startStop ++
                [.draw (.quantityPerKit state.quantityPerKit.value (state.row == .quantityPerKit)
                    status.isRunning),
                  .draw (.kitCount state.kitCount.value (state.row == .kitCount) status.isRunning),
                  .draw (.progress state.percent status.isRunning),
                  .draw (.button (state.row == .startStop) status.isRunning),
                  .publish ⟨state.quantityPerKit.value, state.kitCount.value, status,
                    state.publishedPercent⟩]) ∧
      (∀ first listener status rest, effects = first ++ .tell listener status :: rest →
        calls first = [] → status = .running) ∧
      ∀ first listener status middle other next last,
        effects = first ++ .tell listener status :: (middle ++ .tell other next :: last) →
          calls middle = [] →
            ¬(status = .idle ∧ next = .idle) ∧
              (status = .running → next = .running →
                ∃ whilePaused, .announce (.completed whilePaused) ∈ middle) := by
  intro operations effects
  refine ⟨?_, calls_of_leads (overheard_run menu hUntoggled installed later)⟩
  intro past operation future _ controller state first listener status last hTells
  obtain ⟨sample, rfl⟩ := exists_tick_of_tells hTells
  obtain ⟨hLast, hPaused, hStatus, earlier, source, hFirst⟩ := tick_tells hTells
  refine ⟨hLast, hPaused, hStatus, ⟨sample, rfl⟩, earlier, source, ?_⟩
  have hRefresh := @refresh_of_ne_paused Listener state (hStatus ▸ hPaused)
  rw [hFirst, show (controller.tick sample).1.state.refresh = _ from hRefresh, State.report,
    show state.run.status = status from hStatus]

/-- A job is started, interrupted and finished during the pause; another one is started
by the next press, and stopped by the one after that under a new listener. The two starts
follow each other, and the word that the first job is finished lies between them. -/
theorem calls_over_finished_job :
    let press : Menu.Stick := { pressed := true }
    let before : List (Operation Nat) := [.start, .tick ⟨0, none, some false, { up := true }⟩]
    let earlier : List (Operation Nat) :=
      [.tick ⟨20, none, none, press⟩, .setPaused true, .finish, .setPaused false,
        .tick ⟨40, none, none, {}⟩, .tick ⟨60, none, none, press⟩, .install 6,
        .tick ⟨80, some 9, none, {}⟩]
    let stop : Operation Nat := .tick ⟨100, some 9, none, press⟩
    let effects :=
      ((powerOn {} : Controller Nat).run (before ++ .install 5 :: (earlier ++ [stop]))).2
    let first := effects.take 28
    let middle := (effects.drop 29).take 22
    let last := effects.drop 52
    let stopped :=
      ((powerOn {} : Controller Nat).run (before ++ .install 5 :: earlier)).1.perform stop
    toggles ((powerOn {} : Controller Nat).run before).2 = [] ∧
      effects = first ++ .tell 5 .running :: (middle ++ .tell 5 .running :: last) ∧
        calls middle = [] ∧ (∃ whilePaused, .announce (.completed whilePaused) ∈ middle) ∧
          stopped.2 = stopped.2.dropLast ++ [.tell 6 .idle] ∧
            stopped.1.state.run.status = .idle := by
  intro press before earlier stop effects first middle last stopped
  have hUntoggled : toggles ((powerOn {} : Controller Nat).run before).2 = [] := rfl
  have hSplit : effects = first ++ .tell 5 .running :: (middle ++ .tell 5 .running :: last) := rfl
  have hQuiet : calls middle = [] := rfl
  have hStop : stopped.2 = stopped.2.dropLast ++ [.tell 6 .idle] := rfl
  obtain ⟨hTick, _, hNext⟩ := calls_alternate {} hUntoggled 5 (earlier ++ [stop])
  obtain ⟨_, hCompleted⟩ := hNext first 5 .running middle 5 .running last hSplit hQuiet
  obtain ⟨_, _, hIdle, _⟩ := hTick (before ++ .install 5 :: earlier) stop [] rfl _ _ _ _ hStop
  exact ⟨hUntoggled, hSplit, hQuiet, hCompleted rfl rfl, hStop, hIdle⟩

end TapeCutter.Controller
