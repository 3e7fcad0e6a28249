import TapeCutter.Proofs.Controller.Stages
import TapeCutter.Proofs.Run.Course

/-! What can be seen of a controller: the orders to the screen and the reports, apart or
as they alternate. An operation goes by in stages, and there are just three kinds of
them: a new state is shown in full, or the bar of a running machine is painted, or there
is nothing to see and nothing that should be seen has changed. -/
namespace TapeCutter.Controller

variable {Listener : Type}

def Effect.order? : Effect Listener → Option Screen.Draw
  | .draw order => some order
  | _ => none

def Effect.report? : Effect Listener → Option StatusReport
  | .publish report => some report
  | _ => none

/-- The orders to the screen among requests, oldest first. -/
def orders (effects : List (Effect Listener)) : List Screen.Draw := effects.filterMap Effect.order?

/-- The reports among requests, oldest first. -/
def reports (effects : List (Effect Listener)) : List StatusReport :=
  effects.filterMap Effect.report?

@[simp] theorem orders_append (first second : List (Effect Listener)) :
    orders (first ++ second) = orders first ++ orders second :=
  List.filterMap_append

@[simp] theorem reports_append (first second : List (Effect Listener)) :
    reports (first ++ second) = reports first ++ reports second :=
  List.filterMap_append

theorem orders_map_draw (list : List Screen.Draw) :
    orders (list.map Effect.draw : List (Effect Listener)) = list := by
  simp [orders, Effect.order?, List.filterMap_map, Function.comp_def]

@[simp] theorem orders_refresh (state : State) :
    orders (state.refresh : List (Effect Listener)) = state.picture := by
  rw [State.refresh, orders_append, orders_map_draw]
  exact List.append_nil _

/-- A refresh reports the state once. -/
@[simp] theorem reports_refresh (state : State) :
    reports (state.refresh : List (Effect Listener)) = [state.report] := by
  have hOrders : reports (state.picture.map Effect.draw : List (Effect Listener)) = [] := by
    simp [reports, Effect.report?]
  rw [State.refresh, reports_append, hOrders]
  rfl

/-- What goes to the screen or into the report. -/
def Effect.visible : Effect Listener → Bool
  | .draw _ => true
  | .publish _ => true
  | _ => false

/-- The orders and reports among requests, as they alternate. -/
def sights (effects : List (Effect Listener)) : List (Effect Listener) :=
  effects.filter Effect.visible

@[simp] theorem sights_append (first second : List (Effect Listener)) :
    sights (first ++ second) = sights first ++ sights second :=
  List.filter_append first second

/-- A refresh can be seen from its first request to its last. -/
@[simp] theorem sights_refresh (state : State) :
    sights (state.refresh : List (Effect Listener)) = state.refresh := by
  rw [sights, List.filter_eq_self]
  intro effect hMem
  rw [State.refresh, List.mem_append, List.mem_map, List.mem_singleton] at hMem
  rcases hMem with ⟨order, _, rfl⟩ | rfl
  · rfl
  · rfl

/-- Outside the pause the four bands are painted, top to bottom. -/
theorem refresh_of_ne_paused {state : State} (hStatus : state.run.status ≠ .paused) :
    (state.refresh : List (Effect Listener)) =
      [.draw (.quantityPerKit state.quantityPerKit.value (state.row == .quantityPerKit)
          state.run.status.isRunning),
        .draw (.kitCount state.kitCount.value (state.row == .kitCount) state.run.status.isRunning),
        .draw (.progress state.percent state.run.status.isRunning),
        .draw (.button (state.row == .startStop) state.run.status.isRunning),
        .publish state.report] := by
  rw [State.refresh, State.picture, if_neg hStatus]
  rfl

/-- Requests that neither paint nor report. -/
def Unseen (effects : List (Effect Listener)) : Prop := orders effects = [] ∧ reports effects = []

/-- Requests that neither paint nor report cannot be seen. -/
theorem Unseen.sights_eq_nil {effects : List (Effect Listener)} (hUnseen : Unseen effects) :
    sights effects = [] := by
  rw [sights, List.filter_eq_nil_iff]
  intro effect hMem
  cases effect with
  | draw order => cases List.filterMap_eq_nil_iff.mp hUnseen.1 _ hMem
  | publish report => cases List.filterMap_eq_nil_iff.mp hUnseen.2 _ hMem
  | announce event => exact Bool.false_ne_true
  | tell listener status => exact Bool.false_ne_true
  | log line => exact Bool.false_ne_true

theorem unseen_reported (transition : Run.Transition) (trigger : Run.Trigger) :
    Unseen (reported transition trigger : List (Effect Listener)) := ⟨rfl, rfl⟩

/-- The news of a move cannot be seen before the refresh behind it. -/
theorem unseen_moved (state : State) (move : Menu.Move) :
    Unseen (state.moved move : State × List (Effect Listener)).2 := by
  unfold State.moved
  split <;> exact ⟨rfl, rfl⟩

/-- Requests that end up in a full picture and a report of a state. -/
structure Refreshes (effects : List (Effect Listener)) (state : State) : Prop where
  orders : orders effects = state.picture
  reports : reports effects = [state.report]

theorem refreshes_refresh (state : State) :
    Refreshes (state.refresh : List (Effect Listener)) state :=
  ⟨orders_refresh state, reports_refresh state⟩

/-- News in front of a refresh does not change what is painted. -/
theorem Unseen.refreshes {news : List (Effect Listener)} (hNews : Unseen news) (state : State) :
    Refreshes (news ++ state.refresh) state := by
  constructor
  · rw [orders_append, hNews.1, orders_refresh, List.nil_append]
  · rw [reports_append, hNews.2, reports_refresh, List.nil_append]

/-- What follows a refresh and cannot be seen does not change what is painted. -/
theorem Refreshes.append {effects after : List (Effect Listener)} {state : State}
    (refreshes : Refreshes effects state) (hAfter : Unseen after) :
    Refreshes (effects ++ after) state := by
  constructor
  · rw [orders_append, refreshes.orders, hAfter.1, List.append_nil]
  · rw [reports_append, refreshes.reports, hAfter.2, List.append_nil]

/-- A number as it was, or one that can be shown on the bar. -/
def OnBar (percent previous : UInt8) : Prop := percent = previous ∨ percent ≤ 100

theorem onBar_zero (previous : UInt8) : OnBar 0 previous := Or.inr (by decide)

/-- All that a stage of an operation can let be seen of its change of state. -/
inductive Glimpse (before : State) (effects : List (Effect Listener)) (after : State) : Prop where
  /-- The new state is painted and reported in full. -/
  | refreshed {news rest : List (Effect Listener)} (hNews : Unseen news) (hRest : Unseen rest)
      (hEffects : effects = news ++ after.refresh ++ rest)
      (hPercent : OnBar after.percent before.percent)
  /-- The bar of a running machine is painted, after a report if it has moved. -/
  | advanced {percent : UInt8} (hRunning : before.run.status = .running)
      (hAfter : after = { before with percent := percent })
      (hEffects : effects = (if percent = before.percent then [] else [.publish after.report]) ++
        [.draw (.progress percent true)])
      (hPercent : OnBar percent before.percent)
  /-- There is nothing to see. -/
  | unseen (hUnseen : Unseen effects) (hPicture : after.picture = before.picture)
      (hReport : after.report = before.report) (hPercent : OnBar after.percent before.percent)

/-- A percentage that begins within a hundred stays there. -/
theorem Glimpse.percent_le {before after : State} {effects : List (Effect Listener)}
    (glimpse : Glimpse before effects after) (hBefore : before.percent ≤ 100) :
    after.percent ≤ 100 := by
  have hOnBar : OnBar after.percent before.percent := by
    cases glimpse with
    | refreshed _ _ _ hPercent => exact hPercent
    | advanced _ hAfter _ hPercent =>
        rw [hAfter]
        exact hPercent
    | unseen _ _ _ hPercent => exact hPercent
  rcases hOnBar with hSame | hLe
  · rw [hSame]
    exact hBefore
  · exact hLe

/-! The stages of a tick, and the other operations. -/

theorem glimpse_self (state : State) {effects : List (Effect Listener)} (hUnseen : Unseen effects) :
    Glimpse state effects state :=
  .unseen hUnseen rfl rfl (Or.inl rfl)

/-- Whatever it changes, the interlock ends in a refresh. -/
theorem exists_setPaused_refresh (controller : Controller Listener) (paused : Bool) :
    ∃ news, Unseen news ∧
      (controller.setPaused paused).2 = news ++ (controller.setPaused paused).1.state.refresh := by
  refine ⟨_, ?_, rfl⟩
  split <;> exact ⟨rfl, rfl⟩

/-- The start of a pause and its end are shown by a refresh. -/
theorem glimpse_setPaused (controller : Controller Listener) (paused : Bool) :
    Glimpse controller.state (controller.setPaused paused).2
      (controller.setPaused paused).1.state := by
  obtain ⟨news, hNews, hEffects⟩ := exists_setPaused_refresh controller paused
  exact .refreshed hNews ⟨rfl, rfl⟩ (by rw [hEffects, List.append_nil]) (Or.inl rfl)

theorem glimpse_start (controller : Controller Listener) :
    Glimpse controller.state controller.start.2 controller.start.1.state := by
  have hNothing : Unseen ([] : List (Effect Listener)) := ⟨rfl, rfl⟩
  exact .refreshed hNothing ⟨rfl, rfl⟩ rfl (Or.inl rfl)

theorem glimpse_navigate (controller : Controller Listener) (now : UInt32) (move : Menu.Move) :
    Glimpse controller.state (controller.navigate now move).2
      (controller.navigate now move).1.state := by
  obtain ⟨_, _, _, hMoved⟩ := @exists_moved_eq Listener controller.state move
  simp only [navigate]
  split
  · refine .refreshed (unseen_moved controller.state move) ⟨rfl, rfl⟩ (List.append_nil _).symm ?_
    rw [hMoved]
    exact Or.inl rfl
  · exact glimpse_self _ ⟨rfl, rfl⟩

/-- Progress is shown on the bar, and reported if the bar moves. -/
theorem glimpse_advance {controller : Controller Listener}
    (hRunning : controller.state.run.status = .running) (progress : Option UInt8) :
    Glimpse controller.state (controller.advance progress).2
      (controller.advance progress).1.state := by
  refine .advanced hRunning rfl rfl ?_
  cases progress with
  | none => exact Or.inl rfl
  | some percent =>
      right
      dsimp only
      split
      · assumption
      · exact UInt8.le_refl _

/-- What a tick does about the stick or the progress shows as a refresh, on the bar, or not at
all. -/
theorem glimpse_attend (controller : Controller Listener) (sample : Sample) :
    Glimpse controller.state (controller.attend sample).2 (controller.attend sample).1.state := by
  unfold attend
  cases hStatus : controller.state.run.status with
  | idle =>
      simp only [browse]
      cases sample.stick.move? with
      | none => exact glimpse_self _ ⟨rfl, rfl⟩
      | some move => exact glimpse_navigate controller sample.now move
  | running => exact glimpse_advance hStatus sample.progress
  | paused => exact glimpse_self _ ⟨rfl, rfl⟩

theorem glimpse_toggle (controller : Controller Listener) :
    Glimpse controller.state controller.toggle.2 controller.toggle.1.state := by
  simp only [toggle]
  split
  · refine .refreshed (unseen_reported _ _) ?_ rfl ?_
    · cases controller.listener <;> exact ⟨rfl, rfl⟩
    · dsimp only
      split
      · exact onBar_zero _
      · exact Or.inl rfl
  · exact glimpse_self _ ⟨rfl, rfl⟩

/-- The switch is not shown. -/
theorem glimpse_hold (controller : Controller Listener) (pressed : Bool) :
    Glimpse controller.state ([] : List (Effect Listener)) (controller.hold pressed).state :=
  .unseen ⟨rfl, rfl⟩ rfl rfl (Or.inl rfl)

/-- A job that is finished during the pause is forgotten behind the pause screen. -/
theorem glimpse_finish (controller : Controller Listener) :
    Glimpse controller.state controller.finish.2 controller.finish.1.state := by
  simp only [finish]
  split
  · exact .refreshed (unseen_reported _ _) ⟨rfl, rfl⟩ rfl (onBar_zero _)
  · split
    · rename_i hMoved hActive
      have hWaiting := Run.Machine.eq_waiting_of_apply_runComplete_eq_none hActive hMoved
      refine .unseen ⟨rfl, rfl⟩ ?_ ?_ (onBar_zero _)
      · simp only [State.picture, hWaiting]
        rfl
      · simp only [State.report, State.publishedPercent, hWaiting]
        rfl
    · exact glimpse_self _ ⟨rfl, rfl⟩

/-- Stages one after another. -/
inductive Watched (start : State) : List (Effect Listener) → State → Prop where
  | nil : Watched start [] start
  | snoc {effects more : List (Effect Listener)} {middle finish : State}
      (prior : Watched start effects middle) (last : Glimpse middle more finish) :
      Watched start (effects ++ more) finish

theorem Glimpse.watched {before after : State} {effects : List (Effect Listener)}
    (glimpse : Glimpse before effects after) : Watched before effects after :=
  Watched.nil.snoc glimpse

theorem Watched.append {start middle finish : State} {first second : List (Effect Listener)}
    (earlier : Watched start first middle) (later : Watched middle second finish) :
    Watched start (first ++ second) finish := by
  induction later with
  | nil =>
      rw [List.append_nil]
      exact earlier
  | snoc _ last ih =>
      rw [← List.append_assoc]
      exact ih.snoc last

/-- So no run lets more be seen than its stages do. -/
theorem stagewise_watched :
    Stagewise fun (before : Controller Listener) effects after =>
      Watched before.state effects after.state where
  nothing _ := .nil
  append := Watched.append
  start controller := (glimpse_start controller).watched
  setPaused controller paused := (glimpse_setPaused controller paused).watched
  attend controller sample := (glimpse_attend controller sample).watched
  hold controller pressed := (glimpse_hold controller pressed).watched
  toggle controller := (glimpse_toggle controller).watched
  finish controller := (glimpse_finish controller).watched
  install _ _ := .nil

end TapeCutter.Controller
