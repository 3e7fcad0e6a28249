import TapeCutter.Proofs.Controller.Sights

/-! What is seen of a controller, cut into scenes. There are three of them: all four bands
with a report, the pause screen with a report, and the progress bar of a running machine.
The bar only ever goes on from a picture of the same run, so nothing is painted over the
pause screen but a full picture. -/
namespace TapeCutter.Controller

variable {Listener : Type}

inductive Scene where
  /-- The four bands, with the row that the cursor is on. -/
  | full (quantity kits percent : UInt8) (onQuantity onKits onButton running : Bool)
  | pause (quantity kits : UInt8)
  /-- The bar alone. The dials are those of the report, which may be left out. -/
  | bar (quantity kits percent : UInt8) (reported : Bool)
deriving DecidableEq

namespace Scene

/-- The requests that make up a scene, in their order. -/
def requests : Scene → List (Effect Listener)
  | full quantity kits percent onQuantity onKits onButton running =>
      [.draw (.quantityPerKit quantity onQuantity running), .draw (.kitCount kits onKits running),
        .draw (.progress percent running), .draw (.button onButton running),
        .publish ⟨quantity, kits, if running then .running else .idle,
          if running then some percent else none⟩]
  | pause quantity kits => [.draw .paused, .publish ⟨quantity, kits, .paused, none⟩]
  | bar quantity kits percent reported =>
      (if reported then [.publish ⟨quantity, kits, .running, some percent⟩] else []) ++
        [.draw (.progress percent true)]

/-- One row is marked, and the number on the bar is a percentage. -/
def Sound : Scene → Prop
  | full _ _ percent onQuantity onKits onButton _ =>
      [onQuantity, onKits, onButton].count true = 1 ∧ percent ≤ 100
  | pause _ _ => True
  | bar _ _ percent _ => percent ≤ 100

/-- The dials and the percentage of a run, if the scene shows one. -/
def run? : Scene → Option (UInt8 × UInt8 × UInt8)
  | full quantity kits percent _ _ _ true => some (quantity, kits, percent)
  | full _ _ _ _ _ _ false => none
  | pause _ _ => none
  | bar quantity kits percent _ => some (quantity, kits, percent)

/-- What may come after a scene, or first of all. A full picture and the pause screen may
always come. The bar goes on from a run with the same dials, and the report is left out
just if the percentage is the one that is shown already. -/
def MayFollow (last : Option Scene) : Scene → Prop
  | full _ _ _ _ _ _ _ => True
  | pause _ _ => True
  | bar quantity kits percent reported =>
      ∃ shown, last.bind run? = some (quantity, kits, shown) ∧
        (reported = false ↔ percent = shown)

/-- Scenes of which each may follow the one before it. -/
def Ordered (last : Option Scene) : List Scene → Prop
  | [] => True
  | scene :: rest => scene.MayFollow last ∧ Ordered (some scene) rest

/-- To put one scene behind others it is enough to look at the last of them. -/
theorem Ordered.concat {last : Option Scene} {scenes : List Scene} (ordered : Ordered last scenes)
    {scene : Scene} (hFollow : scene.MayFollow (scenes.getLast?.or last)) :
    Ordered last (scenes ++ [scene]) := by
  induction scenes generalizing last with
  | nil => exact ⟨hFollow, trivial⟩
  | cons first rest ih =>
      refine ⟨ordered.1, ih ordered.2 ?_⟩
      rw [List.getLast?_cons] at hFollow
      cases hRest : rest.getLast? with
      | none =>
          rw [hRest] at hFollow
          exact hFollow
      | some scene =>
          rw [hRest] at hFollow
          exact hFollow

end Scene

/-- The scene that shows a state. -/
def State.scene (state : State) : Scene :=
  if state.run.status = .paused then .pause state.quantityPerKit.value state.kitCount.value
  else
    .full state.quantityPerKit.value state.kitCount.value state.percent
      (state.row == .quantityPerKit) (state.row == .kitCount) (state.row == .startStop)
      state.run.status.isRunning

theorem requests_scene (state : State) :
    (state.scene.requests : List (Effect Listener)) = state.refresh := by
  unfold State.scene State.refresh State.picture State.report State.publishedPercent
  cases hStatus : state.run.status <;> rfl

/-- A state within a hundred makes a sound scene. -/
theorem sound_scene {state : State} (hPercent : state.percent ≤ 100) : state.scene.Sound := by
  unfold State.scene
  split
  · trivial
  · refine ⟨?_, hPercent⟩
    cases state.row <;> rfl

theorem mayFollow_scene (last : Option Scene) (state : State) : state.scene.MayFollow last := by
  unfold State.scene
  split <;> trivial

/-- The dials and the percentage of a run, if the machine reports one. -/
def State.run? (state : State) : Option (UInt8 × UInt8 × UInt8) :=
  state.report.percent.map fun percent =>
    (state.report.quantityPerKit, state.report.kitCount, percent)

theorem run?_scene (state : State) : state.scene.run? = state.run? := by
  unfold State.scene State.run? State.report State.publishedPercent
  cases hStatus : state.run.status <;> rfl

/-- The scene of a running machine shows the run. -/
theorem run?_of_running {state : State} (hRunning : state.run.status = .running) :
    state.run? = some (state.quantityPerKit.value, state.kitCount.value, state.percent) := by
  unfold State.run? State.report State.publishedPercent
  rw [hRunning]
  rfl

/-- Scenes that have led up to a state. The last of them shows the run, if there is one. -/
structure Staged (scenes : List Scene) (state : State) : Prop where
  sound : ∀ scene ∈ scenes, scene.Sound
  ordered : Scene.Ordered none scenes
  run : scenes.getLast?.bind Scene.run? = state.run?
  percent : state.percent ≤ 100

/-- Nothing has been shown at power-on. -/
theorem staged_powerOn (menu : MenuSettings) : Staged [] (State.powerOn menu) where
  sound := List.forall_mem_nil _
  ordered := trivial
  run := rfl
  percent := UInt8.zero_le

theorem Staged.concat {scenes : List Scene} {before after : State} (staged : Staged scenes before)
    {scene : Scene} (hSound : scene.Sound) (hFollow : scene.MayFollow scenes.getLast?)
    (hRun : scene.run? = after.run?) (hPercent : after.percent ≤ 100) :
    Staged (scenes ++ [scene]) after where
  sound := by
    rw [List.forall_mem_append, List.forall_mem_singleton]
    exact ⟨staged.sound, hSound⟩
  ordered := staged.ordered.concat (by rwa [Option.or_none])
  run := by
    rw [List.getLast?_concat]
    exact hRun
  percent := hPercent

/-- The bar goes on from the run that is shown. -/
theorem Staged.bar {scenes : List Scene} {state : State} (staged : Staged scenes state)
    (hRunning : state.run.status = .running) {percent : UInt8} (hPercent : percent ≤ 100) :
    let scene := Scene.bar state.quantityPerKit.value state.kitCount.value percent
      (percent != state.percent)
    sights ((if percent = state.percent then []
        else [.publish { state with percent := percent }.report] : List (Effect Listener)) ++
          [.draw (.progress percent true)]) = scene.requests ∧
      Staged (scenes ++ [scene]) { state with percent := percent } := by
  intro scene
  have hAfter : { state with percent := percent }.run? = scene.run? := run?_of_running hRunning
  constructor
  · rw [State.report, State.publishedPercent, hRunning]
    by_cases hSame : percent = state.percent
    · simp only [scene, Scene.requests, if_pos hSame, bne_eq_false_iff_eq.mpr hSame]
      rfl
    · simp only [scene, Scene.requests, if_neg hSame, bne_iff_ne.mpr hSame]
      rfl
  · refine staged.concat hPercent ⟨state.percent, ?_, ?_⟩ hAfter.symm hPercent
    · rw [staged.run, run?_of_running hRunning]
    · exact bne_eq_false_iff_eq

/-- Every stage adds one scene at most. -/
theorem Staged.glimpse {scenes : List Scene} {before after : State}
    {effects : List (Effect Listener)} (staged : Staged scenes before)
    (glimpse : Glimpse before effects after) :
    ∃ more : List Scene, sights effects = more.flatMap Scene.requests ∧
      Staged (scenes ++ more) after := by
  have hPercent := glimpse.percent_le staged.percent
  cases glimpse with
  | refreshed hNews hRest hEffects =>
      refine ⟨[after.scene], ?_, ?_⟩
      · rw [hEffects, sights_append, sights_append, hNews.sights_eq_nil, hRest.sights_eq_nil,
          sights_refresh, List.nil_append, List.append_nil, List.flatMap_singleton,
          requests_scene]
      · exact staged.concat (sound_scene hPercent) (mayFollow_scene _ after) (run?_scene after)
          hPercent
  | advanced hRunning hAfter hEffects =>
      subst hAfter
      obtain ⟨hSights, hStaged⟩ := @Staged.bar Listener _ _ staged hRunning _ hPercent
      refine ⟨[_], ?_, hStaged⟩
      rw [hEffects, hSights, List.flatMap_singleton]
  | unseen hUnseen _ hReport =>
      refine ⟨[], hUnseen.sights_eq_nil, ?_⟩
      rw [List.append_nil]
      refine ⟨staged.sound, staged.ordered, ?_, hPercent⟩
      rw [staged.run, State.run?, State.run?, hReport]

/-- Stages from power-on can be cut into scenes. -/
theorem Watched.exists_scenes {menu : MenuSettings} {effects : List (Effect Listener)}
    {finish : State} (watched : Watched (State.powerOn menu) effects finish) :
    ∃ scenes : List Scene, sights effects = scenes.flatMap Scene.requests ∧
      Staged scenes finish := by
  induction watched with
  | nil => exact ⟨[], rfl, staged_powerOn menu⟩
  | snoc _ last ih =>
      obtain ⟨scenes, hSights, hStaged⟩ := ih
      obtain ⟨more, hMore, hNext⟩ := hStaged.glimpse last
      exact ⟨scenes ++ more, by rw [sights_append, hSights, hMore, List.flatMap_append], hNext⟩

/-- The orders and reports of any run from power-on are scenes one after another. Each
full picture marks one row and shows the values of the report that follows; the bar comes
only in a run that was shown in full, and shows the value that was reported last. -/
theorem sights_eq_scenes (menu : MenuSettings) (operations : List (Operation Listener)) :
    ∃ scenes : List Scene,
      sights ((powerOn menu : Controller Listener).run operations).2 =
          scenes.flatMap Scene.requests ∧
        (∀ scene ∈ scenes, scene.Sound) ∧ Scene.Ordered none scenes := by
  have hWatched := stagewise_watched.run (powerOn menu : Controller Listener) operations
  obtain ⟨scenes, hSights, hStaged⟩ := hWatched.exists_scenes
  exact ⟨scenes, hSights, hStaged.sound, hStaged.ordered⟩

end TapeCutter.Controller
