import TapeCutter.Console
import TapeCutter.Proofs.Controller.Pause
import TapeCutter.Proofs.Controller.Recall
import TapeCutter.Proofs.Interlock.Memory

/-! The pause follows the interlock. The controller hears of changes only, yet after
every tick it is paused exactly when the level of that tick was open: what its
observer remembers and what the controller does never disagree. Where the level
comes from does not matter here. -/
namespace TapeCutter.Console

variable {Listener : Type}

/-- A tick at which the controller's observer is given this level. -/
def heed (console : Console Listener) (level : Bool) (now : UInt32) (progress : Option UInt8)
    (stick : Menu.Stick) : Console Listener × List (Controller.Effect Listener) :=
  console.act (console.watch.tell console.observer level) now progress stick

/-- What happens at a console whose controller learns of the interlock at its ticks
only. Others may join and be given levels at any time. -/
inductive Turn (Listener : Type) where
  | start
  | tick (level : Bool) (now : UInt32) (progress : Option UInt8) (stick : Menu.Stick)
  | finish
  | install (listener : Listener)
  | join
  | told (observer : Nat) (level : Bool)

def take (console : Console Listener) :
    Turn Listener → Console Listener × List (Controller.Effect Listener)
  | .start => console.ask .start
  | .tick level now progress stick => console.heed level now progress stick
  | .finish => console.ask .finish
  | .install listener => console.ask (.install listener)
  | .join => ({ console with watch := console.watch.subscribe.2 }, [])
  | .told observer level =>
      let (_, watch, seen) := console.watch.tell observer level
      ({ console with watch := watch }, seen.map .log)

def after (console : Console Listener) (turns : List (Turn Listener)) : Console Listener :=
  turns.foldl (fun console turn => (console.take turn).1) console

def Turn.level? : Turn Listener → Option Bool
  | .tick level _ _ _ => some level
  | _ => none

/-- The level of the last tick, if there was a tick. -/
def lastLevel (turns : List (Turn Listener)) : Option Bool := (turns.filterMap Turn.level?).getLast?

theorem lastLevel_cons (turn : Turn Listener) (rest : List (Turn Listener)) :
    lastLevel (turn :: rest) = (lastLevel rest).or turn.level? :=
  Trace.getLast?_filterMap_cons Turn.level? turn rest

/-- The controller's observer remembers `seen`, and the pause agrees with it. A
console that has seen nothing is not paused. -/
structure Steady (console : Console Listener) (seen : Option Bool) : Prop where
  resume : console.controller.state.run.resume ≠ .paused
  memory : console.watch.observers.seen[console.observer]? = some seen
  paused : console.controller.state.run.status = .paused ↔ seen = some true

/-- At the start the monitor has told the controller nothing, and the controller is not paused. -/
theorem steady_join {menu : MenuSettings} {watch : Interlock.Watch} {console : Console Listener}
    (hJoin : join menu watch = .ok console) : console.Steady none := by
  obtain ⟨guard, observers⟩ := watch
  unfold join Interlock.Watch.subscribe at hJoin
  cases hOutcome : observers.subscribe with
  | mk outcome after =>
      rw [hOutcome] at hJoin
      cases outcome with
      | error cause => cases hJoin
      | ok observer =>
          cases hJoin
          exact ⟨nofun, Interlock.Observers.seen_of_subscribe hOutcome, nofun, nofun⟩

/-- A tick brings the pause into line with its level, whatever it was before. -/
theorem Steady.heed {console : Console Listener} {seen : Option Bool} (steady : console.Steady seen)
    (level : Bool) (now : UInt32) (progress : Option UInt8) (stick : Menu.Stick) :
    (console.heed level now progress stick).1.Steady (some level) := by
  obtain ⟨hResume, hMemory, hPaused⟩ := steady
  refine ⟨Controller.perform_resume_ne_paused hResume (.tick _),
    Interlock.Observers.seen_poll_self hMemory level, ?_⟩
  have hAnswer := Interlock.Observers.poll_answer hMemory level
  -- The observer is silent about a level it remembers, and the pause stays.
  by_cases hSame : seen = some level
  · rw [if_pos hSame] at hAnswer
    rw [← hSame, ← hPaused]
    exact Controller.tick_paused_iff_of_untold hAnswer
  · rw [if_neg hSame] at hAnswer
    rw [Option.some_inj]
    exact Controller.tick_paused_iff_of_told hResume hAnswer

/-- Nothing but a tick of the controller itself touches its memory or the pause. -/
theorem Steady.take {console : Console Listener} {seen : Option Bool}
    (steady : console.Steady seen) (turn : Turn Listener)
    (hOther : ∀ observer level, turn = .told observer level → observer ≠ console.observer) :
    (console.take turn).1.Steady (turn.level?.or seen) := by
  have ⟨hResume, hMemory, hPaused⟩ := steady
  cases turn with
  | tick level now progress stick => exact steady.heed level now progress stick
  | start => exact steady
  | install listener => exact ⟨hResume, hMemory, hPaused⟩
  | finish =>
      exact ⟨Controller.perform_resume_ne_paused hResume .finish, hMemory,
        (Controller.finish_paused_iff console.controller).trans hPaused⟩
  | join => exact ⟨hResume, Interlock.Observers.seen_subscribe hMemory, hPaused⟩
  | told observer level =>
      refine ⟨hResume, ?_, hPaused⟩
      exact (Interlock.Observers.seen_poll_of_ne (hOther observer level rfl) _ level).trans hMemory

theorem take_observer (console : Console Listener) (turn : Turn Listener) :
    (console.take turn).1.observer = console.observer := by
  cases turn <;> rfl

/-- After any turns in which other observers alone may look as well, the controller is paused just
if the last level it was told is open. -/
theorem Steady.after {console : Console Listener} {seen : Option Bool}
    (steady : console.Steady seen) {turns : List (Turn Listener)}
    (hOthers : ∀ observer level, .told observer level ∈ turns → observer ≠ console.observer) :
    (console.after turns).Steady ((lastLevel turns).or seen) := by
  induction turns generalizing console seen with
  | nil => exact steady
  | cons turn rest ih =>
      have hNext := steady.take turn fun observer level hTurn =>
        hOthers observer level (hTurn ▸ List.mem_cons_self)
      have hRest := ih hNext fun observer level hMem => by
        rw [take_observer]
        exact hOthers observer level (List.mem_cons_of_mem _ hMem)
      rw [lastLevel_cons, Option.or_assoc]
      exact hRest

/-- What the monitor writes to the log is no announcement. -/
theorem announce_notMem_map_log (event : Controller.Event) (lines : List Log.Line) :
    .announce event ∉ (lines.map .log : List (Controller.Effect Listener)) := by
  intro hMem
  obtain ⟨line, _, hEq⟩ := List.mem_map.mp hMem
  cases hEq

/-- A change into running is announced in a tick whose level is closed, and by
nothing else that happens at a console. -/
theorem Steady.eq_tick_of_target_running {console : Console Listener} {seen : Option Bool}
    (steady : console.Steady seen) {turn : Turn Listener} {transition : Run.Transition}
    {trigger : Run.Trigger}
    (hMem : .announce (.statusChanged transition trigger) ∈ (console.take turn).2)
    (hTarget : transition.target = .running) :
    ∃ now progress stick, turn = .tick false now progress stick := by
  cases turn with
  | start =>
      have hNone : Controller.changes (console.take .start).2 = [] :=
        Controller.changes_perform console.controller .start
      rw [← Controller.mem_changes_iff, hNone] at hMem
      cases hMem
  | finish =>
      have hIdle := Controller.target_idle_of_finish hMem
      rw [hTarget] at hIdle
      cases hIdle
  | install listener => cases hMem
  | join => cases hMem
  | told observer level => exact absurd hMem (announce_notMem_map_log _ _)
  | tick level now progress stick =>
      -- With an open guard the tick ends paused, and such a tick announces nothing but pauses.
      have hTick := (List.mem_append.mp hMem).resolve_left (announce_notMem_map_log _ _)
      cases level with
      | false => exact ⟨now, progress, stick, rfl⟩
      | true =>
          have hPaused := (steady.heed true now progress stick).paused.mpr rfl
          have hNotRunning := Controller.target_paused_of_tick_paused hPaused hTick
          rw [hTarget] at hNotRunning
          cases hNotRunning

/-- After any turns the controller is paused exactly when the level of its last
tick was open; before its first tick it is not paused. So no tick with an open guard
ends idle or running, not even the first one after power-on, and every change into
running happens in a tick with a closed guard. -/
theorem paused_iff_lastLevel {menu : MenuSettings} {watch : Interlock.Watch}
    {console : Console Listener} (hJoin : join menu watch = .ok console)
    {turns : List (Turn Listener)}
    (hOthers : ∀ observer level, .told observer level ∈ turns → observer ≠ console.observer) :
    let reached := console.after turns
    (reached.controller.state.run.status = .paused ↔ lastLevel turns = some true) ∧
      (∀ level now progress stick,
        (reached.heed level now progress stick).1.controller.state.run.status = .paused ↔
          level = true) ∧
      ∀ turn transition trigger,
        .announce (.statusChanged transition trigger) ∈ (reached.take turn).2 →
          transition.target = .running →
            ∃ now progress stick, turn = .tick false now progress stick := by
  intro reached
  have steady : reached.Steady (lastLevel turns) := by
    have hAfter := (steady_join hJoin).after hOthers
    rwa [Option.or_none] at hAfter
  refine ⟨steady.paused, ?_, ?_⟩
  · intro level now progress stick
    rw [(steady.heed level now progress stick).paused, Option.some_inj]
  · intro turn transition trigger hMem hTarget
    exact steady.eq_tick_of_target_running hMem hTarget

/-- The first look after power-on finds the guard open. Neither a newcomer that is
told of a closed guard nor the word that a job is finished ends the pause. -/
theorem paused_after_first_open_tick :
    let console : Console Unit := ⟨.powerOn {}, ⟨{}, ⟨[none]⟩⟩, 0⟩
    let turns : List (Turn Unit) := [.start, .tick true 0 none {}, .join, .told 1 false, .finish]
    join {} {} = .ok console ∧
      (∀ observer level, .told observer level ∈ turns → observer ≠ console.observer) ∧
      (console.after turns).controller.state.run.status = .paused := by
  intro console turns
  have hJoin : join {} {} = .ok console := rfl
  have hOthers : ∀ observer level, .told observer level ∈ turns → observer ≠ console.observer := by
    intro observer level hMem
    simp only [turns, List.mem_cons, List.not_mem_nil, reduceCtorEq, Turn.told.injEq,
      false_or, or_false] at hMem
    rw [hMem.1]
    decide
  exact ⟨hJoin, hOthers, (paused_iff_lastLevel hJoin hOthers).1.mpr rfl⟩

end TapeCutter.Console
