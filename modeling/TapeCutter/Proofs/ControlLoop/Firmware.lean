import TapeCutter.Firmware
import TapeCutter.Proofs.ControlLoop.Handover

/-! The loop inside the machine. What the controller and the sequencer see of the machine in
a pass without a sequencer is a run of the control loop, so what holds after every run of the
loop holds of the machine. -/
namespace TapeCutter

/-- Taking changes until there is none leaves the outbox empty, and does not touch its count of
dropped ones. -/
theorem Sequencer.Outbox.drain_eq (outbox : Outbox) :
    outbox.drain = (outbox.waiting, { outbox with waiting := [] }) := by
  obtain ⟨waiting, dropped⟩ := outbox
  induction waiting with
  | nil => simp [drain, receive]
  | cons status rest ih => simp [drain, receive, ih]

/-- Whatever the panel does, the changes told go to the outbox in order. -/
theorem Front.outbox_carryOutAll {Panel : Type} (painter : Screen.Painter)
    (take : Panel → Screen.Frame → Option DisplayFault × Panel) (front : Front Panel)
    (effects : List (Controller.Effect Unit)) :
    (front.carryOutAll painter take effects).1.outbox =
      ControlLoop.post front.outbox effects := by
  induction effects generalizing front with
  | nil => rfl
  | cons effect rest ih =>
      refine (ih _).trans ?_
      cases effect <;> rfl

/-- Everything that waits is taken before the tick. -/
theorem ControlLoop.after_drain {loop : ControlLoop} {progress : Option UInt8}
    (hStage : loop.stage = .drain progress) (inputs : Inputs) :
    loop.after (List.replicate (loop.outbox.waiting.length + 1) (.proceed inputs)) =
      { loop with outbox := loop.outbox.drain.2, stage := .tick progress } := by
  rw [Sequencer.Outbox.drain_eq]
  generalize hWaiting : loop.outbox.waiting = waiting
  induction waiting generalizing loop with
  | nil =>
      rw [List.length_nil, List.replicate_one, after_cons, next,
        step_drain_nil inputs hStage hWaiting, ← hWaiting]
      rfl
  | cons status rest ih =>
      rw [List.length_cons, List.replicate_succ, after_cons, next,
        step_drain_cons inputs hStage hWaiting]
      exact ih hStage rfl

/-- The controller of a console that has just joined is as at power-on. -/
theorem Console.controller_join {Listener : Type} {menu : MenuSettings} {watch : Interlock.Watch}
    {console : Console Listener} (hJoin : join menu watch = .ok console) :
    console.controller = .powerOn menu := by
  unfold join at hJoin
  split at hJoin
  · cases hJoin
    rfl
  · cases hJoin

/-- Lines for the log are not for the sequencer. -/
theorem ControlLoop.post_log_append (outbox : Sequencer.Outbox) (lines : List Log.Line)
    (effects : List (Controller.Effect Unit)) :
    post outbox (lines.map .log ++ effects) = post outbox effects := by
  have hNone : Controller.calls (lines.map .log : List (Controller.Effect Unit)) = [] := by
    apply Controller.calls_of_routine
    intro effect hMem
    obtain ⟨line, _, rfl⟩ := List.mem_map.mp hMem
    trivial
  rw [post_eq, post_eq, Controller.calls_append, hNone, List.nil_append]

namespace Firmware

open Controller ControlLoop

section

variable (firmware : Firmware)

/-- What the loop knows of the machine, at a stage of a pass. -/
def view (stage : Stage) : ControlLoop where
  controller := firmware.console.controller
  outbox := firmware.front.outbox
  feedback := firmware.feedback
  stage := stage

/-- What the tick of a pass finds. -/
def found (now : UInt32) : Inputs where
  now := now
  interlock := (firmware.console.watch.poll firmware.console.observer).1
  stick := firmware.stick

/-! The steps of a pass. -/

/-- What the controller asks for reaches the loop as changes in the outbox only; pictures, reports
and lines go past it. -/
theorem view_settle (console : Console Unit) (effects : List (Effect Unit)) (stage : Stage) :
    (firmware.settle console effects).1.view stage =
      ⟨console.controller, post firmware.front.outbox effects, firmware.feedback, stage⟩ := by
  simp only [settle, view, Front.outbox_carryOutAll]

/-- The part of a pass that looks for a finished job is two steps of the loop, the second of them
a finish if there was a word. -/
theorem view_settleDone (inputs : Inputs) :
    firmware.settleDone.1.view .takeProgress =
      (firmware.view .takeDone).after [.proceed inputs, .proceed inputs] := by
  cases hDone : firmware.feedback.done with
  | false =>
      simp only [settleDone, Sequencer.Feedback.takeDone, hDone, Bool.false_eq_true, if_false]
      simp only [view, after, List.foldl_cons, List.foldl_nil, next, step, proceed,
        Sequencer.Feedback.takeDone, hDone]
  | true =>
      simp only [settleDone, Sequencer.Feedback.takeDone, hDone, if_true, view_settle]
      simp only [view, after, List.foldl_cons, List.foldl_nil, next, step, proceed,
        Sequencer.Feedback.takeDone, hDone, ask, Console.ask]

theorem view_takeProgress (inputs : Inputs) :
    firmware.takeProgress.2.view (.drain firmware.takeProgress.1) =
      (firmware.view .takeProgress).next (.proceed inputs) := rfl

/-- Draining takes one step for each change that waits, and one to find that there is none. -/
theorem view_drain (progress : Option UInt8) (inputs : Inputs) :
    firmware.drain.1.view (.tick progress) =
      (firmware.view (.drain progress)).after
        (List.replicate (firmware.front.outbox.waiting.length + 1) (.proceed inputs)) := by
  have hStage : (firmware.view (.drain progress)).stage = .drain progress := rfl
  exact (after_drain hStage inputs).symm

/-- The tick of a pass is the tick of the loop with what the machine finds on its inputs then. -/
theorem view_tick (now : UInt32) (progress : Option UInt8) :
    (firmware.tick now progress).1.view .takeDone =
      (firmware.view (.tick progress)).next (.proceed (firmware.found now)) := by
  simp only [tick, view_settle, Console.tick, Console.tickAmid, Console.act, post_log_append]
  rfl

theorem found_settleDone (now : UInt32) :
    firmware.settleDone.1.found now = firmware.found now := by
  cases hDone : firmware.feedback.done <;>
    simp [settleDone, Sequencer.Feedback.takeDone, hDone, settle, found, stick, Console.ask]

/-- A pass of the machine is a run of the loop in which nothing is reported. -/
theorem exists_view_lonePass (now : UInt32) :
    ∃ count, (firmware.lonePass now).1.view .takeDone =
      (firmware.view .takeDone).after
        (List.replicate count (.proceed (firmware.found now))) := by
  let inputs := firmware.found now
  let settled := firmware.settleDone.1
  let informed := settled.takeProgress.2
  let drained := informed.drain.1
  have hFound : drained.found now = inputs := firmware.found_settleDone now
  have hSettled := firmware.view_settleDone inputs
  have hInformed := settled.view_takeProgress inputs
  have hDrained := informed.view_drain settled.takeProgress.1 inputs
  have hTicked := drained.view_tick now settled.takeProgress.1
  rw [hFound, hDrained, hInformed, hSettled] at hTicked
  refine ⟨2 + (1 + (informed.front.outbox.waiting.length + 1 + 1)), ?_⟩
  rw [← List.replicate_append_replicate, ← List.replicate_append_replicate,
    ← List.replicate_append_replicate, after_append, after_append, after_append]
  exact hTicked

end

/-! The life of the machine. -/

/-- What can happen to the machine, with no sequencer to take the changes. -/
inductive Occasion where
  | pass (now : UInt32)
  | report (report : Sequencer.Report)
  | wipers (wipers : Wipers)
  | guard (happening : Interlock.Happening)
  | visit (host target : String)

def meet (firmware : Firmware) : Occasion → Firmware
  | .pass now => (firmware.lonePass now).1
  | .report report => { firmware with feedback := firmware.feedback.hear report }
  | .wipers wipers => { firmware with wipers := wipers }
  | .guard happening =>
      { firmware with console := firmware.console.withGuard (·.undergo happening) }
  | .visit host target => (firmware.handle host target).2.1

/-- Whatever the machine meets, the loop that is seen in it goes through some events of its
own. -/
theorem exists_view_meet (firmware : Firmware) (occasion : Occasion) :
    ∃ events, (firmware.meet occasion).view .takeDone = (firmware.view .takeDone).after events := by
  cases occasion with
  | pass now =>
      obtain ⟨count, hPass⟩ := firmware.exists_view_lonePass now
      exact ⟨_, hPass⟩
  | report report => exact ⟨[.report report], rfl⟩
  | wipers wipers => exact ⟨[], rfl⟩
  | guard happening => exact ⟨[], rfl⟩
  | visit host target => exact ⟨[], rfl⟩

/-- A machine that has come up is where the loop begins. -/
theorem view_boot {settings : Settings} {cable : Panel.Cable} {guardOpen : Bool}
    {firmware : Firmware} {lines : List Log.Line}
    (hBoot : boot settings cable guardOpen = .ok (firmware, lines)) :
    firmware.view .takeDone = ControlLoop.powerOn settings.menu := by
  unfold boot at hBoot
  split at hBoot
  · cases hBoot
  split at hBoot
  · cases hBoot
  let watch : Interlock.Watch := { guard := { level := guardOpen } }
  cases hJoin : (Console.join settings.menu watch : Except Fault (Console Unit)) with
  | error cause =>
      rw [hJoin] at hBoot
      cases hBoot
  | ok joined =>
      rw [hJoin] at hBoot
      cases hPoint : AccessPoint.prepare settings.network settings.timing.nameService with
      | error cause =>
          rw [hPoint] at hBoot
          cases hBoot
      | ok point =>
          rw [hPoint] at hBoot
          cases hBoot
          have hController := Console.controller_join hJoin
          simp only [view, Front.outbox_carryOutAll, Console.ask, hController]
          rfl

/-- Whatever happens to the machine, the loop inside it makes a run. -/
theorem exists_view_foldl_meet (firmware : Firmware) (occasions : List Occasion) :
    ∃ events, (occasions.foldl meet firmware).view .takeDone =
      (firmware.view .takeDone).after events := by
  induction occasions generalizing firmware with
  | nil => exact ⟨[], rfl⟩
  | cons occasion rest ih =>
      obtain ⟨first, hFirst⟩ := firmware.exists_view_meet occasion
      obtain ⟨second, hSecond⟩ := ih (firmware.meet occasion)
      refine ⟨first ++ second, ?_⟩
      rw [after_append, ← hFirst]
      exact hSecond

/-- A machine without a sequencer never has more than one change waiting, and loses none. -/
theorem waiting_le_one_of_boot {settings : Settings} {cable : Panel.Cable} {guardOpen : Bool}
    {firmware : Firmware} {lines : List Log.Line}
    (hBoot : boot settings cable guardOpen = .ok (firmware, lines)) (occasions : List Occasion) :
    let outbox := (occasions.foldl meet firmware).front.outbox
    outbox.waiting.length ≤ 1 ∧ outbox.dropped = 0 := by
  obtain ⟨events, hRun⟩ := firmware.exists_view_foldl_meet occasions
  rw [view_boot hBoot] at hRun
  obtain ⟨⟨taken, changed, hSynced⟩, _⟩ := (synced_powerOn settings.menu).after events
  rw [← hRun] at hSynced
  exact ⟨hSynced.waiting_le_one, hSynced.dropped⟩

end Firmware

end TapeCutter
