import TapeCutter.Front
import TapeCutter.Proofs.Controller.Sights
import TapeCutter.Proofs.Screen.Locality

/-! What can be seen of the machine. The screen and the published report show the
state the controller is in, and nothing of how it got there: an operation either
repaints all of the screen and reports, or repaints the one band that it changes, or
changes nothing that can be seen. -/
namespace TapeCutter

namespace Controller

open Screen (Draw Frame OnScreen Painter)

variable {Listener : Type}

/-! The picture of a state. -/

/-- The picture of a state leaves no place of the screen as it was. -/
theorem exists_mem_picture_covers (state : State) {x y : Int} (hInside : OnScreen x y) :
    ∃ order ∈ state.picture, order.area.covers x y = true := by
  unfold State.picture
  split
  · exact ⟨_, List.mem_cons_self, Screen.covers_screen hInside⟩
  · rcases Screen.band_covers_cases hInside with hBand | hBand | hBand | hBand
    · exact ⟨_, List.mem_cons_self, hBand⟩
    · exact ⟨_, List.mem_cons_of_mem _ List.mem_cons_self, hBand⟩
    · exact ⟨_, List.mem_cons_of_mem _ (List.mem_cons_of_mem _ List.mem_cons_self), hBand⟩
    · exact ⟨_, List.mem_of_getLast? rfl, hBand⟩

/-- A full picture covers whatever was painted before. -/
theorem foldl_picture_eq {painter : Painter} (hConfined : painter.Confined) (state : State)
    (frame other : Frame) :
    state.picture.foldl (Frame.draw painter) frame =
      state.picture.foldl (Frame.draw painter) other :=
  Frame.foldl_draw_eq_of_cover hConfined (fun _ _ => exists_mem_picture_covers state) frame other

/-- During a run the progress bar can be repainted on its own. -/
theorem draw_progress_foldl_picture {painter : Painter} (hConfined : painter.Confined)
    {state : State} (hRunning : state.run.status = .running) (percent : UInt8) (frame : Frame) :
    (state.picture.foldl (Frame.draw painter) frame).draw painter (.progress percent true) =
      { state with percent := percent }.picture.foldl (Frame.draw painter) frame := by
  have hApart : ∀ x y, OnScreen x y →
      (Draw.button (state.row == .startStop) true).area.covers x y = true →
        (Draw.progress percent true).area.covers x y = false :=
    fun _ _ => Screen.covers_band_eq_false (by decide) (by decide)
  have hSame : (Draw.progress percent true).area = (Draw.progress state.percent true).area := rfl
  simp only [State.picture, hRunning, reduceCtorEq, if_false, Run.Status.isRunning,
    List.foldl_cons, List.foldl_nil]
  -- The new bar is not under the button, and it hides the old one.
  rw [Frame.draw_draw_comm hConfined hApart, Frame.draw_draw_of_area_eq hConfined hSame]

end Controller

namespace Front

open Controller Screen

variable {Panel Listener : Type} {painter : Painter}
  {take : Panel → Frame → Option DisplayFault × Panel}

theorem carryOutAll_append (front : Front Panel) (first second : List (Effect Listener)) :
    (front.carryOutAll painter take (first ++ second)).1 =
      ((front.carryOutAll painter take first).1.carryOutAll painter take second).1 := by
  induction first generalizing front with
  | nil => rfl
  | cons effect rest ih => exact ih _

/-- The frame is what the orders have painted on it, one after another; no panel has a say in
that. -/
theorem frame_carryOutAll (front : Front Panel) (effects : List (Effect Listener)) :
    (front.carryOutAll painter take effects).1.display.frame =
      (orders effects).foldl (Frame.draw painter) front.display.frame := by
  induction effects generalizing front with
  | nil => rfl
  | cons effect rest ih =>
      refine (ih _).trans ?_
      cases effect with
      | draw order =>
          exact congrArg ((orders rest).foldl (Frame.draw painter))
            (front.display.frame_drawBy painter take front.panel order)
      | publish report => rfl
      | announce event => rfl
      | tell listener status => rfl
      | log line => rfl

/-- The portal has the last report there was, or the one from before. -/
theorem report_carryOutAll (front : Front Panel) (effects : List (Effect Listener)) :
    (front.carryOutAll painter take effects).1.report =
      (reports effects).getLast?.getD front.report := by
  induction effects generalizing front with
  | nil => rfl
  | cons effect rest ih =>
      refine (ih _).trans ?_
      cases effect with
      | publish report =>
          show _ = (report :: reports rest).getLast?.getD front.report
          rw [List.getLast?_cons]
          rfl
      | draw order => rfl
      | announce event => rfl
      | tell listener status => rfl
      | log line => rfl

/-- Screen and report show this state. -/
structure Shows (painter : Painter) (front : Front Panel) (state : State) : Prop where
  frame : front.display.frame = state.picture.foldl (Frame.draw painter) .blank
  report : front.report = state.report

/-- A refresh shows the state, whatever was shown before. -/
theorem shows_of_refreshes (hConfined : painter.Confined) {effects : List (Effect Listener)}
    {state : State} (refreshes : Refreshes effects state) (front : Front Panel) :
    (front.carryOutAll painter take effects).1.Shows painter state := by
  constructor
  · rw [frame_carryOutAll, refreshes.orders]
    exact foldl_picture_eq hConfined state _ _
  · rw [report_carryOutAll, refreshes.reports]
    rfl

/-! What a stage lets be seen is enough to go on from one state to the next. -/

section

variable (hConfined : painter.Confined)

include hConfined

/-- A pause is shown as soon as it begins, and its end as soon as it is over. -/
theorem shows_setPaused (front : Front Panel) (controller : Controller Listener) (paused : Bool) :
    (front.carryOutAll painter take (controller.setPaused paused).2).1.Shows painter
      (controller.setPaused paused).1.state := by
  obtain ⟨_, hNews, hEffects⟩ := exists_setPaused_refresh controller paused
  rw [hEffects]
  exact shows_of_refreshes hConfined (hNews.refreshes _) front

theorem shows_start (front : Front Panel) (controller : Controller Listener) :
    (front.carryOutAll painter take controller.start.2).1.Shows painter
      controller.start.1.state :=
  shows_of_refreshes hConfined ((refreshes_refresh _).append ⟨rfl, rfl⟩) front

/-- During a run the report is left out while the progress stays the same. -/
theorem Shows.advanced {front : Front Panel} {state : State} (shows : front.Shows painter state)
    (hRunning : state.run.status = .running) (percent : UInt8) :
    (front.carryOutAll painter take
      ((if percent = state.percent then []
        else [.publish { state with percent := percent }.report] : List (Effect Listener)) ++
          [.draw (.progress percent true)])).1.Shows painter { state with percent := percent } := by
  constructor
  · have hNews : ∀ report, orders (if percent = state.percent then []
        else [.publish report] : List (Effect Listener)) = [] := by
      intro report
      split <;> rfl
    rw [frame_carryOutAll, orders_append, hNews, shows.frame]
    exact draw_progress_foldl_picture hConfined hRunning percent .blank
  · rw [report_carryOutAll, reports_append]
    by_cases hSame : percent = state.percent
    · rw [if_pos hSame, hSame]
      exact shows.report
    · rw [if_neg hSame]
      rfl

/-- Whatever a stage lets be seen, the front shows the state it leaves. -/
theorem Shows.glimpse {front : Front Panel} {before after : State}
    {effects : List (Effect Listener)} (shows : front.Shows painter before)
    (glimpse : Glimpse before effects after) :
    (front.carryOutAll painter take effects).1.Shows painter after := by
  cases glimpse with
  | refreshed hNews hRest hEffects =>
      rw [hEffects]
      exact shows_of_refreshes hConfined ((hNews.refreshes after).append hRest) front
  | advanced hRunning hAfter hEffects =>
      rw [hEffects, hAfter]
      exact shows.advanced hConfined hRunning _
  | unseen hUnseen hPicture hReport =>
      constructor
      · rw [frame_carryOutAll, hUnseen.1, hPicture]
        exact shows.frame
      · rw [report_carryOutAll, hUnseen.2, hReport]
        exact shows.report

theorem Shows.watched {front : Front Panel} {start finish : State}
    {effects : List (Effect Listener)} (shows : front.Shows painter start)
    (watched : Watched start effects finish) :
    (front.carryOutAll painter take effects).1.Shows painter finish := by
  induction watched with
  | nil => exact shows
  | snoc _ last ih =>
      rw [carryOutAll_append]
      exact ih.glimpse hConfined last

/-- After any run the front shows the state of the controller. -/
theorem Shows.run {front : Front Panel} {controller : Controller Listener}
    (shows : front.Shows painter controller.state) (operations : List (Operation Listener)) :
    (front.carryOutAll painter take (controller.run operations).2).1.Shows painter
      (controller.run operations).1.state :=
  shows.watched hConfined (stagewise_watched.run controller operations)

end

/-- After any run that begins with the first picture, whichever pictures the panel
refuses, the report is that of the present state, and the picture is the one that a new
display holds once this state is painted on it. -/
theorem shown_eq_refreshed {Fresh : Type} (hConfined : painter.Confined)
    (take : Panel → Frame → Option DisplayFault × Panel)
    (takeFresh : Fresh → Frame → Option DisplayFault × Fresh) (front : Front Panel) (fresh : Fresh)
    (menu : MenuSettings) (operations : List (Operation Listener)) :
    let controller := (powerOn menu : Controller Listener)
    let state := (controller.run (.start :: operations)).1.state
    let shown := (front.carryOutAll painter take (controller.run (.start :: operations)).2).1
    let refreshed := (({ panel := fresh } : Front Fresh).carryOutAll painter takeFresh
      (state.refresh : List (Effect Listener))).1
    shown.report = ⟨state.quantityPerKit.value, state.kitCount.value, state.run.status,
        if state.run.status = .running then some state.percent else none⟩ ∧
      shown.display.frame = refreshed.display.frame := by
  intro controller state shown refreshed
  have started : (front.carryOutAll painter take controller.start.2).1.Shows painter
      controller.start.1.state := shows_start hConfined front controller
  have shows : shown.Shows painter state := by
    simp only [shown, run_cons, carryOutAll_append]
    exact started.run hConfined operations
  constructor
  · rw [shows.report, State.report, State.publishedPercent]
    simp only [Run.Status.isRunning_eq_true_iff]
  · have anew : refreshed.Shows painter state :=
      shows_of_refreshes hConfined (refreshes_refresh state) _
    rw [shows.frame, anew.frame]

/-- A job at forty percent, on a panel that takes no picture at all: the dial of the kits
was turned to two before, and the guard was open for a while. -/
theorem shown_amid_job :
    let refuse : Unit → Frame → Option DisplayFault × Unit := fun panel _ => (some .bus, panel)
    let operations : List (Operation Unit) :=
      [.tick ⟨0, none, some false, { down := true }⟩, .tick ⟨20, none, none, {}⟩,
        .tick ⟨40, none, none, { right := true }⟩, .tick ⟨60, none, none, {}⟩,
        .tick ⟨80, none, none, { down := true, pressed := true }⟩, .tick ⟨100, some 30, none, {}⟩,
        .setPaused true, .tick ⟨120, some 35, none, {}⟩, .setPaused false,
        .tick ⟨140, some 40, none, {}⟩]
    let front : Front Unit := { panel := () }
    let shown := (front.carryOutAll .standard refuse
      ((powerOn {} : Controller Unit).run (.start :: operations)).2).1
    let orders : List Draw :=
      [.quantityPerKit 1 false true, .kitCount 2 false true, .progress 40 true, .button true true]
    let refreshed := (front.carryOutAll .standard refuse
      (orders.map Effect.draw : List (Effect Unit))).1
    Painter.standard.Confined ∧ shown.report = ⟨1, 2, .running, some 40⟩ ∧
      shown.display.frame = refreshed.display.frame := by
  intro refuse operations front shown orders refreshed
  obtain ⟨hReport, hFrame⟩ :=
    shown_eq_refreshed Painter.standard_confined refuse refuse front () {} operations
  refine ⟨Painter.standard_confined, hReport, hFrame.trans ?_⟩
  rw [frame_carryOutAll, frame_carryOutAll, orders_refresh, orders_map_draw]
  rfl

end Front

end TapeCutter
