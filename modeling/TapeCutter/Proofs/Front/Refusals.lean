import TapeCutter.Proofs.Controller.Calls
import TapeCutter.Proofs.Controller.Replay
import TapeCutter.Proofs.Front.Mirror
import TapeCutter.Proofs.Panel.Recovery
import TapeCutter.Proofs.Trace

/-! A panel that refuses pictures. Nothing of it is seen by the controller or by those who
read the report, and nothing of it stays: every order hands over the whole picture as it
is then, so the first picture that is taken again shows all that was drawn in between. -/
namespace TapeCutter

open Screen (Frame Painter)

/-- A picture that was handed to a panel, and what became of it. -/
structure Handover where
  frame : Frame
  outcome : Option DisplayFault

def Handover.refused (handover : Handover) : Bool := handover.outcome.isSome

/-- A panel, and all that it has been handed, oldest first. -/
structure Recorded (Panel : Type) where
  panel : Panel
  handovers : List Handover := []

def Recorded.take {Panel : Type} (take : Panel → Frame → Option DisplayFault × Panel)
    (recorded : Recorded Panel) (frame : Frame) : Option DisplayFault × Recorded Panel :=
  let (outcome, panel) := take recorded.panel frame
  (outcome, ⟨panel, recorded.handovers ++ [⟨frame, outcome⟩]⟩)

namespace Front

open Controller Panel

variable {Panel Other Line Listener : Type} {painter : Painter}
  {take : Panel → Frame → Option DisplayFault × Panel}
  {takeOther : Other → Frame → Option DisplayFault × Other}

/-- A frame that is refused is counted, and stays as it was painted. -/
theorem handed_eq (display : Screen.Display) (outcome : Option DisplayFault) :
    (display.handed outcome).1 =
      ⟨display.frame, display.failures + if outcome.isSome then 1 else 0⟩ := by
  cases outcome with
  | none =>
      simp only [Screen.Display.handed, Option.isSome_none, Bool.false_eq_true, if_false,
        UInt32.add_zero]
  | some fault => rfl

/-- An order is drawn, the picture that comes of it is handed over, once, and a refusal is
counted. -/
theorem carryOut_draw (front : Front (Recorded Panel)) (order : Screen.Draw) :
    let frame := front.display.frame.draw painter order
    let taken := take front.panel.panel frame
    let next := (front.carryOut painter (Recorded.take take)
      (.draw order : Effect Listener)).1
    next.panel = ⟨taken.2, front.panel.handovers ++ [⟨frame, taken.1⟩]⟩ ∧
      next.display = ⟨frame, front.display.failures + if taken.1.isSome then 1 else 0⟩ := by
  intro frame taken next
  exact ⟨rfl, handed_eq { front.display with frame := frame } taken.1⟩

/-- What a front has come to, as far as the panel has no say in it. -/
structure Agrees (front : Front (Recorded Panel)) (other : Front (Recorded Other)) : Prop where
  report : front.report = other.report
  outbox : front.outbox = other.outbox
  frame : front.display.frame = other.display.frame
  handed : front.panel.handovers.length = other.panel.handovers.length

/-- Two fronts that agree go on to, with any two panels, since no request looks at what a panel
has answered. -/
theorem Agrees.carryOut {front : Front (Recorded Panel)} {other : Front (Recorded Other)}
    (agrees : front.Agrees other) (effect : Effect Listener) :
    (front.carryOut painter (Recorded.take take) effect).1.Agrees
      (other.carryOut painter (Recorded.take takeOther) effect).1 := by
  cases effect with
  | draw order =>
      obtain ⟨hPanel, hDisplay⟩ := @carryOut_draw _ Listener painter take front order
      obtain ⟨hPanelOther, hDisplayOther⟩ :=
        @carryOut_draw _ Listener painter takeOther other order
      refine ⟨agrees.report, agrees.outbox, ?_, ?_⟩
      · rw [hDisplay, hDisplayOther]
        exact congrArg (Frame.draw painter · order) agrees.frame
      · rw [hPanel, hPanelOther, List.length_append, List.length_append, List.length_singleton,
          List.length_singleton, agrees.handed]
  | publish report => exact ⟨rfl, agrees.outbox, agrees.frame, agrees.handed⟩
  | announce event => exact agrees
  | tell listener status =>
      refine ⟨agrees.report, ?_, agrees.frame, agrees.handed⟩
      exact congrArg (fun outbox : Sequencer.Outbox => (outbox.send status).1) agrees.outbox
  | log line => exact agrees

/-- No list of requests tells two panels apart. -/
theorem Agrees.carryOutAll {front : Front (Recorded Panel)} {other : Front (Recorded Other)}
    (agrees : front.Agrees other) (effects : List (Effect Listener)) :
    (front.carryOutAll painter (Recorded.take take) effects).1.Agrees
      (other.carryOutAll painter (Recorded.take takeOther) effects).1 := by
  induction effects generalizing front other with
  | nil => exact agrees
  | cons effect rest ih => exact ih (agrees.carryOut effect)

/-- The account of a front after a number of orders. Whatever became of it, the last picture
that was handed over is the one that the display holds. -/
structure Accounts (front : Front (Recorded Panel)) (drawn : Nat) : Prop where
  handed : front.panel.handovers.length = drawn
  failures : front.display.failures =
    UInt32.ofNat (front.panel.handovers.countP Handover.refused)
  latest : ∀ last, front.panel.handovers.getLast? = some last →
    last.frame = front.display.frame

theorem accounts_fresh (panel : Panel) :
    ({ panel := { panel := panel } } : Front (Recorded Panel)).Accounts 0 :=
  ⟨rfl, rfl, nofun⟩

/-- Every order is handed over once, in the order of painting, and each refusal is counted. -/
theorem Accounts.carryOut {front : Front (Recorded Panel)} {drawn : Nat}
    (accounts : front.Accounts drawn) (effect : Effect Listener) :
    (front.carryOut painter (Recorded.take take) effect).1.Accounts
      (drawn + (orders [effect]).length) := by
  cases effect with
  | draw order =>
      obtain ⟨hPanel, hDisplay⟩ := @carryOut_draw _ Listener painter take front order
      constructor
      · rw [hPanel, List.length_append, accounts.handed]
        rfl
      · rw [hPanel, hDisplay, List.countP_append, accounts.failures, UInt32.ofNat_add,
          List.countP_singleton]
        generalize (take front.panel.panel (front.display.frame.draw painter order)).1 = outcome
        cases outcome <;> rfl
      · intro last hLast
        rw [hPanel, List.getLast?_concat] at hLast
        rw [hDisplay, ← Option.some_inj.mp hLast]
  | publish report => exact ⟨accounts.handed, accounts.failures, accounts.latest⟩
  | announce event => exact accounts
  | tell listener status => exact ⟨accounts.handed, accounts.failures, accounts.latest⟩
  | log line => exact accounts

theorem Accounts.carryOutAll {front : Front (Recorded Panel)} {drawn : Nat}
    (accounts : front.Accounts drawn) (effects : List (Effect Listener)) :
    (front.carryOutAll painter (Recorded.take take) effects).1.Accounts
      (drawn + (orders effects).length) := by
  induction effects generalizing front drawn with
  | nil => exact accounts
  | cons effect rest ih =>
      have hCount : drawn + (orders (effect :: rest)).length =
          drawn + (orders [effect]).length + (orders rest).length := by
        rw [← List.singleton_append, orders_append, List.length_append, Nat.add_assoc]
      rw [hCount]
      exact ih (accounts.carryOut effect)

/-- What a panel keeps whenever it takes a picture, it keeps throughout. -/
theorem panel_carryOutAll {Holds : Panel → Prop}
    (hTake : ∀ panel frame, Holds panel → Holds (take panel frame).2) {front : Front Panel}
    (hHolds : Holds front.panel) (effects : List (Effect Listener)) :
    Holds (front.carryOutAll painter take effects).1.panel := by
  induction effects generalizing front with
  | nil => exact hHolds
  | cons effect rest ih =>
      apply ih
      cases effect with
      | draw order => exact hTake _ _ hHolds
      | publish report => exact hHolds
      | announce event => exact hHolds
      | tell listener status => exact hHolds
      | log line => exact hHolds

end Front

/-- A chip in the basic set that shows the last picture it was handed, unless that one was
reported as refused. -/
structure Recorded.Shows {Line : Type} (recorded : Recorded (Panel.Wired Line)) : Prop where
  basic : recorded.panel.chip.extended = false
  shown : ∀ last, recorded.handovers.getLast? = some last → last.outcome = none →
    recorded.panel.chip.memory = last.frame.bytes

/-- A frame that gets through shows on the glass as a whole, whatever was lost before. -/
theorem Recorded.Shows.take {Line : Type} {recorded : Recorded (Panel.Wired Line)}
    (shows : recorded.Shows) (carrier : Panel.Carrier Line) (frame : Frame) :
    (Recorded.take (Panel.Wired.take carrier) recorded frame).2.Shows := by
  have lands := Panel.Wired.lands carrier shows.basic (.picture frame)
  refine ⟨lands.basic, ?_⟩
  intro last hLast hTaken
  obtain rfl : _ = last := Option.some_inj.mp (List.getLast?_concat.symm.trans hLast)
  exact lands.shown frame rfl hTaken

/-- A controller and the front that its requests go to. -/
structure Station (Panel Listener : Type) where
  controller : Controller Listener
  front : Front (Recorded Panel)

/-- What is noticed of an operation by all but the panel: what has become of the controller,
of the report and of the picture, the events and the calls of listeners, and how many
pictures have been handed over. -/
structure Notice (Listener : Type) where
  controller : Controller Listener
  report : StatusReport
  events : List Controller.Event
  calls : List (Listener × Run.Status)
  frame : Frame
  handed : Nat

namespace Station

open Controller Panel

variable {First Second Line Listener : Type}

/-- A controller at a front that nothing has been asked of. -/
def fresh (controller : Controller Listener) (panel : First) : Station First Listener :=
  ⟨controller, { panel := { panel := panel } }⟩

section

variable (painter : Painter) (take : First → Frame → Option DisplayFault × First)

def step (station : Station First Listener) (operation : Operation Listener) :
    Station First Listener :=
  let (controller, effects) := station.controller.perform operation
  ⟨controller, (station.front.carryOutAll painter (Recorded.take take) effects).1⟩

def after (station : Station First Listener) (operations : List (Operation Listener)) :
    Station First Listener :=
  operations.foldl (step painter take) station

def notices (station : Station First Listener) (operation : Operation Listener) :
    List (Notice Listener) :=
  let effects := (station.controller.perform operation).2
  let next := station.step painter take operation
  [⟨next.controller, next.front.report, announcements effects, calls effects,
    next.front.display.frame, next.front.panel.handovers.length⟩]

/-- The front of a station is told by the requests of its controller. -/
theorem front_after (station : Station First Listener) (operations : List (Operation Listener)) :
    (station.after painter take operations).front =
      (station.front.carryOutAll painter (Recorded.take take)
        (station.controller.run operations).2).1 := by
  induction operations generalizing station with
  | nil => rfl
  | cons operation rest ih =>
      rw [run_cons, Front.carryOutAll_append]
      exact ih (station.step painter take operation)

end

/-- Two stations that differ in nothing but what their panels have made of the pictures. -/
structure Agrees (station : Station First Listener) (other : Station Second Listener) : Prop where
  controller : station.controller = other.controller
  front : station.front.Agrees other.front

/-- One operation at two stations that agree is noticed alike, and leaves them agreeing. -/
theorem Agrees.step {station : Station First Listener} {other : Station Second Listener}
    (agrees : station.Agrees other) (painter : Painter)
    (take : First → Frame → Option DisplayFault × First)
    (takeOther : Second → Frame → Option DisplayFault × Second) (operation : Operation Listener) :
    station.notices painter take operation = other.notices painter takeOther operation ∧
      (station.step painter take operation).Agrees (other.step painter takeOther operation) := by
  obtain ⟨controller, front⟩ := station
  obtain ⟨_, otherFront⟩ := other
  obtain ⟨rfl, hFront⟩ := agrees
  have hNext : (front.carryOutAll painter (Recorded.take take)
      (controller.perform operation).2).1.Agrees
        (otherFront.carryOutAll painter (Recorded.take takeOther)
          (controller.perform operation).2).1 :=
    hFront.carryOutAll (controller.perform operation).2
  refine ⟨?_, rfl, hNext⟩
  simp only [notices, Station.step, hNext.report, hNext.frame, hNext.handed]

/-- The account of a station amid an operation, after some others. -/
theorem accounts_after (painter : Painter) (take : First → Frame → Option DisplayFault × First)
    (controller : Controller Listener) (panel : First) (operations : List (Operation Listener))
    (requests : List (Effect Listener)) :
    (((fresh controller panel).after painter take operations).front.carryOutAll painter
      (Recorded.take take) requests).1.Accounts
        (orders ((controller.run operations).2 ++ requests)).length := by
  rw [front_after, ← Front.carryOutAll_append, ← Nat.zero_add (List.length _)]
  exact (Front.accounts_fresh panel).carryOutAll _

/-- Two stations whose panels refuse pictures in any way of their own are the same to all but
the panels, operation by operation. At any moment of a run, also amid the requests of an
operation, one picture has been handed over for every order, the refusals are counted
modulo two to the thirty-second, and the picture that was handed over last is the whole one
that the display holds. So a chip that took the last picture shows all of it, however many it has
lost before. -/
theorem refusals_unnoticed (painter : Painter)
    (take : First → Frame → Option DisplayFault × First)
    (takeOther : Second → Frame → Option DisplayFault × Second) (panel : First) (other : Second)
    (carrier : Carrier Line) (wired : Wired Line) (hBasic : wired.chip.extended = false)
    (controller : Controller Listener) (operations : List (Operation Listener))
    (requests : List (Effect Listener)) :
    let station := (fresh controller panel).after painter take operations
    let front := (station.front.carryOutAll painter (Recorded.take take) requests).1
    let handovers := front.panel.handovers
    let fitted := (fresh controller wired).after painter (Wired.take carrier) operations
    let glass := (fitted.front.carryOutAll painter (Recorded.take (Wired.take carrier)) requests).1
    Trace.collect (step painter take) (notices painter take) (fresh controller panel) operations =
        Trace.collect (step painter takeOther) (notices painter takeOther)
          (fresh controller other) operations ∧
      handovers.length = (orders ((controller.run operations).2 ++ requests)).length ∧
      front.display.failures.toNat = handovers.countP Handover.refused % UInt32.size ∧
      (∀ last, handovers.getLast? = some last → last.frame = front.display.frame) ∧
      ∀ last, glass.panel.handovers.getLast? = some last → last.outcome = none →
        glass.panel.panel.chip.memory = glass.display.frame.bytes := by
  intro station front handovers fitted glass
  have accounts : front.Accounts _ :=
    accounts_after painter take controller panel operations requests
  have glassAccounts : glass.Accounts _ :=
    accounts_after painter (Wired.take carrier) controller wired operations requests
  refine ⟨?_, accounts.handed, ?_, accounts.latest, ?_⟩
  · have agrees : (fresh controller panel).Agrees (fresh controller other) :=
      ⟨rfl, rfl, rfl, rfl, rfl⟩
    exact Trace.collect_eq_of_related Agrees
      (fun _ _ operation agrees => agrees.step painter take takeOther operation) agrees operations
  · rw [accounts.failures]
    exact UInt32.toNat_ofNat'
  · intro last hLast hTaken
    have shows : glass.panel.Shows := by
      simp only [glass, fitted, front_after, ← Front.carryOutAll_append]
      exact Front.panel_carryOutAll (fun _ frame shows => shows.take carrier frame)
        ⟨hBasic, nofun⟩ _
    rw [shows.shown last hLast hTaken, glassAccounts.latest last hLast]

/-- The first picture is drawn band by band, and the panel refuses it three times, each time
at another signal. The button is drawn last; with it all four bands come to be seen. -/
theorem glass_whole_after_refusals :
    let carrier : Carrier (List Bool) :=
      ⟨fun verdicts _ => (verdicts.headD true, verdicts.tail), fun _ => false⟩
    let wired : Wired (List Bool) := ⟨[false] ++ [true, false] ++ [true, true, true, false], {}⟩
    let controller : Controller Unit := powerOn {}
    let glass := ((fresh controller wired).after .standard (Wired.take carrier) [.start]).front
    wired.chip.extended = false ∧
      glass.panel.handovers.map Handover.outcome = [some .line, some .bus, some .bus, none] ∧
        glass.panel.panel.chip.memory = glass.display.frame.bytes := by
  intro carrier wired controller glass
  let refuse : Unit → Frame → Option DisplayFault × Unit := fun panel _ => (some .bus, panel)
  have hOutcomes : glass.panel.handovers.map Handover.outcome =
      [some .line, some .bus, some .bus, none] := rfl
  obtain ⟨_, _, _, _, hGlass⟩ := refusals_unnoticed .standard refuse refuse () () carrier wired rfl
    controller [.start] []
  refine ⟨rfl, hOutcomes, ?_⟩
  have hLast : glass.panel.handovers.getLast?.map Handover.outcome = some none := by
    rw [← List.getLast?_map, hOutcomes]
    rfl
  obtain ⟨last, hSome, hTaken⟩ := Option.map_eq_some_iff.mp hLast
  exact hGlass last hSome hTaken

end Station

end TapeCutter
