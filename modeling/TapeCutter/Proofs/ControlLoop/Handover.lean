import TapeCutter.Proofs.ControlLoop.Steps

/-! The changes on their way through the outbox. A loop that takes them itself finds in each
pass just what the operator changed in the tick before, so the outbox never holds more than
one change and none is lost. What the interlock and the sequencer change never gets there. -/
namespace TapeCutter.ControlLoop

open Controller

/-- The statuses that the operator's changes lead to. -/
def targets (transitions : List Run.Transition) : List Run.Status :=
  transitions.map Run.Transition.target

/-- Only what listeners are told is put into the outbox. -/
theorem post_eq (outbox : Sequencer.Outbox) (effects : List (Effect Unit)) :
    post outbox effects =
      (calls effects).foldl (fun outbox call => (outbox.send call.2).1) outbox := by
  induction effects generalizing outbox with
  | nil => rfl
  | cons effect rest ih =>
      rw [post, List.foldl_cons, ← post, ih]
      cases effect <;> rfl

/-- A tick that finds the outbox empty leaves the operator's change in it, if there is one. -/
theorem post_tick {controller : Controller Unit} (hListener : controller.listener = some ())
    {outbox : Sequencer.Outbox} (hEmpty : outbox.waiting = []) (sample : Sample) :
    post outbox (controller.tick sample).2 =
      { outbox with waiting := targets (toggles (controller.tick sample).2) } := by
  have hCalls := calls_tick controller sample
  have hFew := length_toggles_perform_le_one controller (.tick sample)
  rw [perform] at hFew
  rw [post_eq, hCalls, hListener]
  rcases hToggles : toggles (controller.tick sample).2 with _ | ⟨transition, _ | ⟨other, rest⟩⟩
  · rw [targets, List.map_nil, ← hEmpty]
    rfl
  · simp [told, targets, Sequencer.Outbox.send, Sequencer.Outbox.depth, hEmpty]
  · rw [hToggles] at hFew
    simp at hFew

/-- What the present pass has taken and what still waits make up what the tick before has
changed; when the next tick comes, all of it is taken. -/
structure Synced (loop : ControlLoop) (taken changed : List Run.Status) : Prop where
  listener : loop.controller.listener = some ()
  queue : taken ++ loop.outbox.waiting = changed
  few : changed.length ≤ 1
  dropped : loop.outbox.dropped = 0
  empty : ∀ progress, loop.stage = .tick progress → loop.outbox.waiting = []

/-- The outbox never holds more than the one change that the last tick has made. -/
theorem Synced.waiting_le_one {loop : ControlLoop} {taken changed : List Run.Status}
    (synced : loop.Synced taken changed) : loop.outbox.waiting.length ≤ 1 := by
  refine Nat.le_trans ?_ synced.few
  rw [← synced.queue, List.length_append]
  exact Nat.le_add_left _ _

theorem synced_powerOn (menu : MenuSettings) : (powerOn menu).Synced [] [] :=
  ⟨rfl, rfl, Nat.zero_le 1, rfl, nofun⟩

/-- Whether a pass ends with this event, which is then its tick. -/
def ends (loop : ControlLoop) : Event → Bool
  | .proceed _ =>
      match loop.stage with
      | .tick _ => true
      | _ => false
  | .report _ => false

/-- A pass ends with its tick. -/
theorem ends_eq_true_iff {loop : ControlLoop} {event : Event} :
    loop.ends event = true ↔
      ∃ inputs progress, event = .proceed inputs ∧ loop.stage = .tick progress := by
  cases event with
  | report report => simp [ends]
  | proceed inputs => cases hStage : loop.stage <;> simp [ends, hStage]

/-- Where the pass goes on, one more change may be taken, and that is all. -/
theorem Synced.next {loop : ControlLoop} {taken changed : List Run.Status}
    (synced : loop.Synced taken changed) {event : Event} (hEnds : loop.ends event = false) :
    (loop.next event).Synced (taken ++ (loop.step event).2.drained.toList) changed ∧
      targets (toggles (loop.step event).2.effects) = [] := by
  obtain ⟨hListener, hQueue, hFew, hDropped, hEmpty⟩ := synced
  rw [ControlLoop.next]
  cases event with
  | report report =>
      refine ⟨⟨hListener, ?_, hFew, hDropped, hEmpty⟩, rfl⟩
      simpa [step] using hQueue
  | proceed inputs =>
      cases hStage : loop.stage with
      | takeDone =>
          rw [step_takeDone inputs hStage]
          exact ⟨⟨hListener, by simpa using hQueue, hFew, hDropped, by simp⟩, rfl⟩
      | finish done =>
          cases done with
          | true =>
              rw [step_finish_true inputs hStage]
              have hQuiet : toggles (loop.controller.perform .finish).2 = [] :=
                toggles_eq_nil_of_not_tick rfl
              have hPost : post loop.outbox (loop.controller.perform .finish).2 = loop.outbox := by
                rw [post_eq, perform, calls_finish, List.foldl_nil]
              refine ⟨⟨?_, ?_, hFew, ?_, by simp⟩, congrArg targets hQuiet⟩
              · exact (listener_perform loop.controller .finish).trans hListener
              · simpa [hPost] using hQueue
              · simpa [hPost] using hDropped
          | false =>
              rw [step_finish_false inputs hStage]
              exact ⟨⟨hListener, by simpa using hQueue, hFew, hDropped, by simp⟩, rfl⟩
      | takeProgress =>
          rw [step_takeProgress inputs hStage]
          exact ⟨⟨hListener, by simpa using hQueue, hFew, hDropped, by simp⟩, rfl⟩
      | drain progress =>
          cases hWaiting : loop.outbox.waiting with
          | nil =>
              rw [step_drain_nil inputs hStage hWaiting]
              exact ⟨⟨hListener, by simpa using hQueue, hFew, hDropped, fun _ _ => hWaiting⟩, rfl⟩
          | cons status rest =>
              rw [step_drain_cons inputs hStage hWaiting]
              rw [hWaiting] at hQueue
              refine ⟨⟨hListener, by simpa using hQueue, hFew, hDropped, ?_⟩, rfl⟩
              intro other hTick
              rw [hStage] at hTick
              cases hTick
      | tick progress =>
          rw [ends_eq_true_iff.mpr ⟨inputs, progress, rfl, hStage⟩] at hEnds
          cases hEnds

/-- The tick finds all of the last change taken, and leaves its own behind. -/
theorem Synced.tick {loop : ControlLoop} {taken changed : List Run.Status}
    (synced : loop.Synced taken changed) {event : Event} (hEnds : loop.ends event = true) :
    taken = changed ∧ (loop.step event).2.drained = none ∧
      (loop.next event).Synced [] (targets (toggles (loop.step event).2.effects)) := by
  obtain ⟨inputs, progress, rfl, hStage⟩ := ends_eq_true_iff.mp hEnds
  have hEmpty := synced.empty progress hStage
  have hQueue := synced.queue
  rw [hEmpty, List.append_nil] at hQueue
  rw [ControlLoop.next, step_tick inputs hStage]
  let sample : Sample := ⟨inputs.now, progress, inputs.interlock, inputs.stick⟩
  have hPost := post_tick synced.listener hEmpty sample
  refine ⟨hQueue, rfl, ?_, ?_, ?_, ?_, by simp⟩
  · exact (listener_perform loop.controller (.tick sample)).trans synced.listener
  · exact congrArg Sequencer.Outbox.waiting hPost
  · rw [targets, List.length_map]
    exact length_toggles_perform_le_one loop.controller (.tick sample)
  · exact (congrArg Sequencer.Outbox.dropped hPost).trans synced.dropped

/-- A pass that has ended: the changes it took from the outbox, and the changes the operator
made in its tick. -/
structure Pass where
  drained : List Run.Status
  toggled : List Run.Transition

/-- The passes that end in a run, when the present one has already taken something. -/
def passes (loop : ControlLoop) (taken : List Run.Status) : List Event → List Pass
  | [] => []
  | event :: rest =>
      if loop.ends event then
        ⟨taken, toggles (loop.step event).2.effects⟩ :: (loop.next event).passes [] rest
      else (loop.next event).passes (taken ++ (loop.step event).2.drained.toList) rest

/-- From pass to pass, each takes what the tick of the one before has changed. The changes of the
last tick are taken by no pass of the run. -/
theorem Synced.passes {loop : ControlLoop} {taken changed : List Run.Status}
    (synced : loop.Synced taken changed) (events : List Event) :
    (loop.passes taken events).map Pass.drained =
        (changed :: (loop.passes taken events).map fun pass => targets pass.toggled).dropLast ∧
      ∀ pass ∈ loop.passes taken events, pass.toggled.length ≤ 1 := by
  induction events generalizing loop taken changed with
  | nil => exact ⟨rfl, List.forall_mem_nil _⟩
  | cons event rest ih =>
      rw [ControlLoop.passes]
      by_cases hEnds : loop.ends event = true
      · obtain ⟨hTaken, _, hNext⟩ := synced.tick hEnds
        obtain ⟨hRest, hFew⟩ := ih hNext
        rw [if_pos hEnds]
        refine ⟨?_, List.forall_mem_cons.mpr ⟨?_, hFew⟩⟩
        · rw [List.map_cons, List.map_cons, List.dropLast_cons_cons, hTaken, hRest]
        · have hOne := hNext.few
          rwa [targets, List.length_map] at hOne
      · rw [if_neg hEnds]
        exact ih (synced.next (Bool.not_eq_true _ ▸ hEnds)).1

/-- What has been taken and what waits are together what was waiting before and all changes of the
run, in order. -/
theorem Synced.after {loop : ControlLoop} {taken changed : List Run.Status}
    (synced : loop.Synced taken changed) (events : List Event) :
    (∃ now last, (loop.after events).Synced now last) ∧
      taken ++ loop.drained events ++ (loop.after events).outbox.waiting =
        changed ++ targets (loop.toggled events) := by
  induction events generalizing loop taken changed with
  | nil =>
      refine ⟨⟨taken, changed, synced⟩, ?_⟩
      rw [← synced.queue]
      simp [ControlLoop.drained, ControlLoop.after, toggled, effects, targets, toggles,
        Run.startStops]
  | cons event rest ih =>
      rw [after_cons, drained_cons, toggled_cons, targets, List.map_append, ← targets, ← targets]
      by_cases hEnds : loop.ends event = true
      · obtain ⟨hTaken, hNone, hNext⟩ := synced.tick hEnds
        obtain ⟨hLast, hRest⟩ := ih hNext
        refine ⟨hLast, ?_⟩
        rw [hTaken, hNone, ← hRest]
        simp
      · obtain ⟨hNext, hQuiet⟩ := synced.next (Bool.not_eq_true _ ▸ hEnds)
        obtain ⟨hLast, hRest⟩ := ih hNext
        refine ⟨hLast, ?_⟩
        rw [hQuiet, List.nil_append, ← hRest, List.append_assoc taken _ (ControlLoop.drained _ _)]

/-- In every run of the loop, whatever its ticks find and whenever the sequencer reports: one
change waits at most and none is dropped. The changes taken so far and the one that waits are
exactly those the operator made, in order; each pass takes what the tick before it changed,
and the first takes nothing. All of them are starts and stops, so what the interlock or the
end of a job does to the status is never among them. -/
theorem drained_eq_changes_of_last_tick (menu : MenuSettings) (events : List Event) :
    let start := powerOn menu
    let reached := start.after events
    let passes := start.passes [] events
    reached.outbox.waiting.length ≤ 1 ∧ reached.outbox.dropped = 0 ∧
      start.drained events ++ reached.outbox.waiting = targets (start.toggled events) ∧
      passes.map Pass.drained = ([] :: passes.map fun pass => targets pass.toggled).dropLast ∧
      (∀ pass ∈ passes, pass.toggled.length ≤ 1) ∧
      ∀ transition ∈ start.toggled events,
        transition = ⟨.idle, .running⟩ ∨ transition = ⟨.running, .idle⟩ := by
  intro start reached passes
  have synced := synced_powerOn menu
  obtain ⟨⟨now, last, hReached⟩, hAll⟩ := synced.after events
  obtain ⟨hPasses, hFew⟩ := synced.passes events
  exact ⟨hReached.waiting_le_one, hReached.dropped, hAll, hPasses, hFew,
    fun _ => start_or_stop_of_toggled⟩

end TapeCutter.ControlLoop
