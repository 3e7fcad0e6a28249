import TapeCutter.Proofs.Controller.History
import TapeCutter.Proofs.Controller.Steering

/-! What the announcements alone are good for. Someone who hears nothing else knows the
menu, the run status and what is remembered for the end of a pause as well as the
controller itself: every change is announced, in the order in which it is made, and none
is announced that does not start where the one before it ended. -/
namespace TapeCutter.Controller

variable {Listener : Type}

/-- What is known from announcements. The percentage and the switch are not among it. -/
structure Replica where
  row : Menu.Row := .quantityPerKit
  quantityPerKit : UInt8 := 1
  kitCount : UInt8 := 1
  status : Run.Status := .idle
  resume : Run.Status := .idle
deriving DecidableEq

namespace Replica

/-- One announcement. It is out of place if it changes a status that is not the known
one, or the value of a row that has none. -/
def hear? (replica : Replica) : Event → Option Replica
  | .rowSelected row => some { replica with row := row }
  | .valueChanged .quantityPerKit value => some { replica with quantityPerKit := value }
  | .valueChanged .kitCount value => some { replica with kitCount := value }
  | .valueChanged .startStop _ => none
  | .statusChanged ⟨source, target⟩ _ =>
      if replica.status = source then
        some { replica with
          status := target
          resume := if target = .paused then source else replica.resume }
      else none
  | .completed true => some { replica with resume := .idle }
  | .completed false => some replica
  | .started _ => some replica
  | .interlockChanged _ => some replica

def replay? (replica : Replica) (events : List Event) : Option Replica :=
  events.foldlM hear? replica

end Replica

def Effect.event? : Effect Listener → Option Event
  | .announce event => some event
  | _ => none

/-- The announcements among requests, oldest first. -/
def announcements (effects : List (Effect Listener)) : List Event :=
  effects.filterMap Effect.event?

/-- What is announced stands among the requests, and the other way round. -/
theorem mem_announcements_iff {effects : List (Effect Listener)} {event : Event} :
    event ∈ announcements effects ↔ .announce event ∈ effects := by
  rw [announcements, List.mem_filterMap]
  constructor
  · rintro ⟨effect, hMem, hEvent⟩
    cases effect with
    | announce other =>
        cases hEvent
        exact hMem
    | draw order => cases hEvent
    | publish report => cases hEvent
    | tell listener status => cases hEvent
    | log line => cases hEvent
  · intro hMem
    exact ⟨_, hMem, rfl⟩

@[simp] theorem announcements_refresh (state : State) :
    announcements (state.refresh : List (Effect Listener)) = [] := by
  rw [announcements, State.refresh, List.filterMap_append, List.filterMap_map]
  simp [Effect.event?, Function.comp_def]

/-- The part of a state that is announced. -/
def State.replica (state : State) : Replica :=
  ⟨state.row, state.quantityPerKit.value, state.kitCount.value, state.run.status,
    state.run.resume⟩

/-- Who knew the state before these requests, and hears them, knows the state after them. -/
abbrev Heard (before : State) (effects : List (Effect Listener)) (after : State) : Prop :=
  Leads Effect.event? Replica.hear? before.replica effects after.replica

theorem heard_refresh (state : State) :
    Heard state (state.refresh : List (Effect Listener)) state :=
  leads_of_silent (announcements_refresh state) state.replica

/-- A change of status can be followed from its announcement, whatever made it. -/
theorem hear?_statusChanged (state : State) {trigger : Run.Trigger} {transition : Run.Transition}
    (hMoved : (state.run.apply trigger).2 = some transition) :
    state.replica.hear? (.statusChanged transition trigger) =
      some { state with run := (state.run.apply trigger).1 }.replica := by
  obtain ⟨row, quantity, kits, percent, ⟨status, resume⟩, held⟩ := state
  cases trigger with
  | startStop => cases status <;> cases hMoved <;> rfl
  | runComplete =>
      cases status <;> cases hMoved
      rfl
  | interlockTripped => cases status <;> cases hMoved <;> rfl
  | interlockReleased =>
      cases status <;> cases hMoved
      cases resume <;> rfl

/-- A hearer who knew the state before a change follows it from the announcement. -/
theorem heard_reported (state : State) (percent : UInt8) {trigger : Run.Trigger}
    {transition : Run.Transition} (hMoved : (state.run.apply trigger).2 = some transition) :
    Heard state (reported transition trigger : List (Effect Listener))
      { state with run := (state.run.apply trigger).1, percent := percent } := by
  have hChanged := hear?_statusChanged state hMoved
  exact (leads_cons_silent_iff rfl).mpr (Leads.cons rfl hChanged rfl)

/-! The stages of a tick, and the other operations. -/

theorem heard_setPaused (controller : Controller Listener) (paused : Bool) :
    Heard controller.state (controller.setPaused paused).2
      (controller.setPaused paused).1.state := by
  simp only [setPaused]
  apply Leads.append _ (heard_refresh _)
  refine Leads.cons rfl rfl ?_
  split
  · rename_i hMoved
    exact heard_reported controller.state _ hMoved
  · rename_i hMoved
    have hSame := Run.Machine.apply_fst_of_eq_none (by cases paused <;> decide) hMoved
    rw [hSame]
    exact leads_of_silent rfl _

/-- A move announces the row or the value that it leaves behind. -/
theorem heard_moved (state : State) (move : Menu.Move) :
    Heard state (state.moved move : State × List (Effect Listener)).2
      (state.moved move : State × List (Effect Listener)).1 := by
  unfold State.moved
  split <;> rfl

/-- Of the stick and the progress a hearer misses nothing but the percentage, which is not
announced. -/
theorem heard_attend (controller : Controller Listener) (sample : Sample) :
    Heard controller.state (controller.attend sample).2 (controller.attend sample).1.state := by
  unfold attend
  cases controller.state.run.status with
  | paused => exact leads_of_silent rfl _
  | running =>
      obtain ⟨percent, hAdvance⟩ := exists_advance_eq controller sample.progress
      rw [hAdvance]
      refine leads_of_silent ?_ _
      dsimp only
      split <;> rfl
  | idle =>
      simp only [browse]
      cases sample.stick.move? with
      | none => exact leads_of_silent rfl _
      | some move =>
          simp only [navigate]
          split
          · exact (heard_moved controller.state move).append (heard_refresh _)
          · exact leads_of_silent rfl _

theorem heard_toggle (controller : Controller Listener) :
    Heard controller.state controller.toggle.2 controller.toggle.1.state := by
  simp only [toggle]
  split
  · rename_i hMoved
    refine ((heard_reported controller.state _ hMoved).append (heard_refresh _)).append ?_
    cases controller.listener <;> exact leads_of_silent rfl _
  · exact leads_of_silent rfl _

/-- The end of a job in the pause is announced by itself, since the status stays. -/
theorem heard_finish (controller : Controller Listener) :
    Heard controller.state controller.finish.2 controller.finish.1.state := by
  simp only [finish]
  split
  · rename_i hMoved
    exact ((heard_reported controller.state _ hMoved).append (heard_refresh _)).append rfl
  · split
    · rename_i hMoved hActive
      have hWaiting := Run.Machine.eq_waiting_of_apply_runComplete_eq_none hActive hMoved
      have hNext : { controller.state with
          run := (controller.state.run.apply .runComplete).1, percent := 0 }.replica =
            { controller.state.replica with resume := .idle } := by
        simp only [State.replica, hWaiting]
        rfl
      rw [Heard, hNext]
      rfl
    · exact leads_of_silent rfl _

theorem heard_start (controller : Controller Listener) :
    Heard controller.state controller.start.2 controller.start.1.state :=
  (heard_refresh controller.state).append rfl

/-- So the announcements keep up with every run. -/
theorem stagewise_heard :
    Stagewise fun (before : Controller Listener) effects after =>
      Heard before.state effects after.state where
  nothing _ := leads_of_silent rfl _
  append := Leads.append
  start := heard_start
  setPaused := heard_setPaused
  attend := heard_attend
  hold _ _ := leads_of_silent rfl _
  toggle := heard_toggle
  finish := heard_finish
  install _ _ := leads_of_silent rfl _

/-- After any run from power-on, what is known from the announcements is what the
controller holds: no announcement was out of place, and none is missing. Of the changes
of status among them just those into the pause were made by a trip of the interlock, and
just those out of it by its release. -/
theorem replay_announcements (menu : MenuSettings) (operations : List (Operation Listener)) :
    let state := ((powerOn menu : Controller Listener).run operations).1.state
    let events := announcements ((powerOn menu : Controller Listener).run operations).2
    Replica.replay? {} events =
        some ⟨state.row, state.quantityPerKit.value, state.kitCount.value, state.run.status,
          state.run.resume⟩ ∧
      ∀ transition trigger, .statusChanged transition trigger ∈ events →
        (transition.target = .paused ↔ trigger = .interlockTripped) ∧
          (transition.source = .paused ↔ trigger = .interlockReleased) := by
  intro state events
  constructor
  · have hStart : (powerOn menu : Controller Listener).state.replica = {} := by
      simp only [powerOn, State.powerOn, State.replica, Menu.Dial.ofMax]
      split <;> split <;> rfl
    have hRun := stagewise_heard.run (powerOn menu : Controller Listener) operations
    rw [Heard, hStart] at hRun
    exact hRun
  · intro transition trigger hMem
    rw [mem_announcements_iff, ← mem_changes_iff] at hMem
    obtain ⟨pulled, hRun⟩ := exists_run_course (powerOn menu : Controller Listener) operations
    rw [show changes _ = _ from congrArg Prod.snd hRun] at hMem
    have hResume : Run.Status.idle ≠ .paused := by decide
    exact Run.Machine.paused_iff_of_mem_course hResume hMem

end TapeCutter.Controller
