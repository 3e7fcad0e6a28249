import TapeCutter.Proofs.Controller.Steering
import TapeCutter.Proofs.Front.Mirror

/-! The job ends while the guard is moved, and the controller hears of one of the two
first. Which one it was can be told neither from the controller afterwards nor from what
is shown; and the end of a job is heard once, however often it is reported. -/
namespace TapeCutter

namespace Controller

variable {Listener : Type}

/-- Controllers that differ in nothing but a memory that no longer counts. -/
structure Alike (first second : Controller Listener) : Prop where
  rest : second = { first with state := { first.state with run := second.state.run } }
  run : first.state.run.Agrees second.state.run

theorem Alike.refl (controller : Controller Listener) : controller.Alike controller :=
  ⟨rfl, .refl controller.state.run⟩

theorem Alike.picture_eq {first second : Controller Listener} (alike : first.Alike second) :
    second.state.picture = first.state.picture := by
  rw [alike.rest]
  simp only [State.picture, alike.run.status]

theorem Alike.report_eq {first second : Controller Listener} (alike : first.Alike second) :
    second.state.report = first.state.report := by
  rw [alike.rest]
  simp only [State.report, State.publishedPercent, alike.run.status]

/-- Without a job both orders come down to the guard alone. With one, the order decides
whether the job is stopped or forgotten, but not where the machine comes to rest. -/
theorem alike_finish_setPaused (controller : Controller Listener) (paused : Bool) :
    (controller.finish.1.setPaused paused).1.Alike (controller.setPaused paused).1.finish.1 := by
  have hKept : (controller.setPaused paused).1.state.run.Active ↔ controller.state.run.Active :=
    Run.Machine.apply_ofInterlock_active_iff controller.state.run paused
  by_cases hActive : controller.state.run.Active
  · rw [finish_of_active hActive, finish_of_active (hKept.mpr hActive)]
    exact ⟨rfl, Run.Machine.apply_runComplete_ofInterlock_agrees hActive paused⟩
  · rw [finish_of_not_active hActive, finish_of_not_active (mt hKept.mp hActive)]
    exact .refl _

end Controller

namespace Front

open Controller Screen

variable {Panel Listener : Type} {painter : Painter}

/-- The end of a job and a move of the guard, in either order. No job is left, and the
controller ends up the same, except for what it remembers while it is not paused; so does
the last report, and so does the picture, whatever was on the display and whichever
pictures the panel refuses. Once the end of a job is taken in, a second word of it
changes nothing and asks for nothing but a line in the log. -/
theorem finish_in_either_order (hConfined : painter.Confined)
    (take : Panel → Frame → Option DisplayFault × Panel) (front : Front Panel)
    (controller : Controller Listener) (paused : Bool) :
    let finishFirst := controller.run [.finish, .setPaused paused]
    let guardFirst := controller.run [.setPaused paused, .finish]
    let shownFinishFirst := (front.carryOutAll painter take finishFirst.2).1
    let shownGuardFirst := (front.carryOutAll painter take guardFirst.2).1
    let finished := controller.finish.1
    ¬guardFirst.1.state.run.Active ∧ finishFirst.1.Alike guardFirst.1 ∧
      shownFinishFirst.report = shownGuardFirst.report ∧
        shownFinishFirst.display.frame = shownGuardFirst.display.frame ∧
          finished.finish.1 = finished ∧
            ∀ effect ∈ finished.finish.2, ∃ line, effect = .log line := by
  intro finishFirst guardFirst shownFinishFirst shownGuardFirst finished
  have alike : finishFirst.1.Alike guardFirst.1 := alike_finish_setPaused controller paused
  have hFinishFirst : shownFinishFirst.Shows painter finishFirst.1.state := by
    simp only [shownFinishFirst, finishFirst, run_cons, carryOutAll_append]
    exact shows_setPaused hConfined _ _ paused
  have hGuardFirst : shownGuardFirst.Shows painter guardFirst.1.state := by
    simp only [shownGuardFirst, guardFirst, run_cons, carryOutAll_append]
    exact (shows_setPaused hConfined front controller paused).glimpse hConfined (glimpse_finish _)
  refine ⟨not_active_finish _, alike, ?_, ?_, ?_⟩
  · rw [hFinishFirst.report, hGuardFirst.report, alike.report_eq]
  · rw [hFinishFirst.frame, hGuardFirst.frame, alike.picture_eq]
  · rw [finish_of_not_active (not_active_finish controller)]
    refine ⟨rfl, ?_⟩
    intro effect hMem
    exact ⟨_, List.mem_singleton.mp hMem⟩

/-- A job that waits at forty percent is finished while the guard is closed. It is either
forgotten before it could go on, or stopped after it went on; only the memories differ. -/
theorem finish_amid_release :
    let refuse : Unit → Frame → Option DisplayFault × Unit := fun panel _ => (some .bus, panel)
    let operations : List (Operation Unit) :=
      [.start, .tick ⟨0, none, some false, { up := true }⟩,
        .tick ⟨20, none, none, { pressed := true }⟩, .tick ⟨40, some 40, none, {}⟩,
        .setPaused true]
    let controller := ((powerOn {} : Controller Unit).run operations).1
    let finishFirst := controller.run [.finish, .setPaused false]
    let guardFirst := controller.run [.setPaused false, .finish]
    let front : Front Unit := { panel := () }
    let shownFinishFirst := (front.carryOutAll .standard refuse finishFirst.2).1
    let shownGuardFirst := (front.carryOutAll .standard refuse guardFirst.2).1
    Painter.standard.Confined ∧ controller.state.run = ⟨.paused, .running⟩ ∧
      controller.state.percent = 40 ∧ finishFirst.1.state.run = ⟨.idle, .idle⟩ ∧
        guardFirst.1.state.run = ⟨.idle, .running⟩ ∧ finishFirst.1.Alike guardFirst.1 ∧
          shownGuardFirst.report = ⟨1, 1, .idle, none⟩ ∧
            shownFinishFirst.report = ⟨1, 1, .idle, none⟩ ∧
              shownFinishFirst.display.frame = shownGuardFirst.display.frame := by
  intro refuse operations controller finishFirst guardFirst front shownFinishFirst shownGuardFirst
  obtain ⟨_, hAlike, hReport, hFrame, _⟩ :=
    finish_in_either_order Painter.standard_confined refuse front controller false
  have hGuardFirst : shownGuardFirst.report = ⟨1, 1, .idle, none⟩ := by
    simp only [shownGuardFirst, report_carryOutAll]
    rfl
  exact ⟨Painter.standard_confined, rfl, rfl, rfl, rfl, hAlike, hGuardFirst,
    hReport.trans hGuardFirst, hFrame⟩

end Front

end TapeCutter
