import TapeCutter.Proofs.Console.Levels
import TapeCutter.Proofs.Interlock.Timeline

/-! The controller at a guard of its own. The switch moves and the interrupt comes in
at any time, also between the two steps of a look. A tick ends paused exactly when its
look read a high level or an opening was latched since the last look, so a short
opening pauses the machine for one tick, and no opening is lost. -/
namespace TapeCutter.Console

variable {Listener : Type}

/-- A tick at the guard is a tick that is given what its look finds. -/
theorem tickAmid_eq_heed (console : Console Listener) (between : List Interlock.Happening)
    (now : UInt32) (progress : Option UInt8) (stick : Menu.Stick) :
    console.tickAmid between now progress stick =
      (console.withGuard fun guard => (guard.lookAmid between).2).heed
        (console.watch.guard.lookAmid between).1 now progress stick := rfl

/-- What happens at a console whose observer is the only one to look at the guard. -/
inductive Moment (Listener : Type) where
  | happens (happening : Interlock.Happening)
  /-- The raw level is read, by nobody in particular. -/
  | read
  | start
  | finish
  | install (listener : Listener)
  | join
  | tick (between : List Interlock.Happening) (now : UInt32) (progress : Option UInt8)
      (stick : Menu.Stick)

/-- Reading the raw level answers with a level and leaves the console alone. -/
def pass (console : Console Listener) : Moment Listener → Console Listener
  | .happens happening => console.withGuard (·.undergo happening)
  | .read => console
  | .start => (console.ask .start).1
  | .finish => (console.ask .finish).1
  | .install listener => (console.ask (.install listener)).1
  | .join => { console with watch := console.watch.subscribe.2 }
  | .tick between now progress stick => (console.tickAmid between now progress stick).1

def through (console : Console Listener) (moments : List (Moment Listener)) : Console Listener :=
  moments.foldl pass console

def Moment.instants (observer : Nat) : Moment Listener → List Interlock.Instant
  | .happens happening => [.happens happening]
  | .tick between _ _ _ => between.map .happens ++ [.taken observer]
  | _ => []

/-- The life of the latch through these moments. -/
def timeline (observer : Nat) (moments : List (Moment Listener)) : List Interlock.Instant :=
  moments.flatMap (Moment.instants observer)

theorem guard_join {menu : MenuSettings} {watch : Interlock.Watch} {console : Console Listener}
    (hJoin : join menu watch = .ok console) : console.watch.guard = watch.guard := by
  unfold join at hJoin
  split at hJoin
  · rename_i hSubscribe
    cases hJoin
    exact congrArg (·.2.guard) hSubscribe.symm
  · cases hJoin

theorem observer_pass (console : Console Listener) (moment : Moment Listener) :
    (console.pass moment).observer = console.observer := by
  cases moment <;> rfl

/-- The guard goes through the instants of a moment in their order: a look takes the latch behind
the happenings that fall between its two steps. -/
theorem guard_pass (console : Console Listener) (moment : Moment Listener) :
    (console.pass moment).watch.guard =
      console.watch.guard.outlast (moment.instants console.observer) := by
  cases moment with
  | tick between now progress stick =>
      exact console.watch.guard.lookAmid_guard between console.observer
  | happens happening => rfl
  | read => rfl
  | start => rfl
  | finish => rfl
  | install listener => rfl
  | join => rfl

/-- The latch at any time is decided by the timeline alone, without the controller. -/
theorem guard_through (console : Console Listener) (moments : List (Moment Listener)) :
    (console.through moments).watch.guard =
      console.watch.guard.outlast (timeline console.observer moments) := by
  induction moments generalizing console with
  | nil => rfl
  | cons moment rest ih =>
      rw [timeline, List.flatMap_cons, Interlock.Guard.outlast_append, ← guard_pass,
        ← observer_pass console moment]
      exact ih (console.pass moment)

/-- Nobody notices what happens to the guard until somebody looks. -/
theorem Steady.withGuard {console : Console Listener} {seen : Option Bool}
    (steady : console.Steady seen) (change : Interlock.Guard → Interlock.Guard) :
    (console.withGuard change).Steady seen :=
  ⟨steady.resume, steady.memory, steady.paused⟩

/-- After a tick the controller is steady for what the look of this tick has found. -/
theorem Steady.tickAmid {console : Console Listener} {seen : Option Bool}
    (steady : console.Steady seen) (between : List Interlock.Happening) (now : UInt32)
    (progress : Option UInt8) (stick : Menu.Stick) :
    (console.tickAmid between now progress stick).1.Steady
      (some (console.watch.guard.lookAmid between).1) := by
  rw [tickAmid_eq_heed]
  exact (steady.withGuard _).heed _ now progress stick

/-- Every moment leaves the console steady for some level that was found. -/
theorem Steady.pass {console : Console Listener} {seen : Option Bool}
    (steady : console.Steady seen) (moment : Moment Listener) :
    ∃ found, (console.pass moment).Steady found := by
  cases moment with
  | tick between now progress stick => exact ⟨_, steady.tickAmid between now progress stick⟩
  | happens happening => exact ⟨seen, steady.withGuard (·.undergo happening)⟩
  | read => exact ⟨seen, steady⟩
  | start => exact ⟨seen, steady.take .start nofun⟩
  | finish => exact ⟨seen, steady.take .finish nofun⟩
  | install listener => exact ⟨seen, steady.take (.install listener) nofun⟩
  | join => exact ⟨seen, steady.take .join nofun⟩

theorem Steady.through {console : Console Listener} {seen : Option Bool}
    (steady : console.Steady seen) (moments : List (Moment Listener)) :
    ∃ found, (console.through moments).Steady found := by
  induction moments generalizing console seen with
  | nil => exact ⟨seen, steady⟩
  | cons moment rest ih =>
      obtain ⟨_, hNext⟩ := steady.pass moment
      exact ih hNext

/-- From power-on, through anything that happens before the console joins and through
any moments after that: a tick ends paused exactly when the level it reads is high or
an opening was latched that no tick has taken. An opening is therefore never lost,
however short; a raw reading takes nothing away from it; and a tick that reads a low
level after its opening was taken, with no new one latched, ends the pause. -/
theorem tickAmid_paused_iff {menu : MenuSettings} {level : Bool} {early : List Interlock.Happening}
    {observers : Interlock.Observers} {console : Console Listener}
    (hJoin : join menu ⟨early.foldl Interlock.Guard.undergo { level := level }, observers⟩ =
      .ok console)
    (moments : List (Moment Listener)) (between : List Interlock.Happening) (now : UInt32)
    (progress : Option UInt8) (stick : Menu.Stick) :
    let reached := console.through moments
    let life := early.map .happens ++ timeline console.observer moments ++ between.map .happens
    (reached.tickAmid between now progress stick).1.controller.state.run.status = .paused ↔
      reached.watch.tripped = true ∨ Interlock.OpenedSince (fun _ => True) life := by
  intro reached life
  obtain ⟨_, steady⟩ := (steady_join hJoin).through moments
  -- The tick is paused by what its look finds; what it finds is a matter of the latch alone.
  rw [(steady.tickAmid between now progress stick).paused, Option.some_inj]
  have hGuard : reached.watch.guard =
      Interlock.Guard.outlast { level := level }
        (early.map .happens ++ timeline console.observer moments) := by
    have hStart : console.watch.guard = early.foldl _ _ := guard_join hJoin
    rw [Interlock.Guard.outlast_append, Interlock.Guard.outlast_map_happens, ← hStart]
    exact guard_through console moments
  rw [Interlock.Watch.tripped, hGuard]
  exact Interlock.Guard.lookAmid_outlast_iff rfl _ between

/-- An opening that is latched between the two steps of a look, while the level stays
low, still pauses the machine in that tick. -/
theorem paused_by_opening_amid_look :
    let console : Console Unit := ⟨.powerOn {}, ⟨{}, ⟨[none]⟩⟩, 0⟩
    let moments : List (Moment Unit) := [.start, .tick [] 0 none {}, .read]
    join {} ⟨([] : List Interlock.Happening).foldl Interlock.Guard.undergo {}, {}⟩ = .ok console ∧
      (console.through moments).watch.tripped = false ∧
      ((console.through moments).tickAmid [.interrupted true] 1 none
        {}).1.controller.state.run.status = .paused := by
  intro console moments
  have hJoin : join {} ⟨([] : List Interlock.Happening).foldl Interlock.Guard.undergo {}, {}⟩ =
      .ok console := rfl
  refine ⟨hJoin, rfl, ?_⟩
  apply (tickAmid_paused_iff hJoin moments [.interrupted true] 1 none {}).mpr
  exact Or.inr ⟨[.taken 0], [], rfl, nofun⟩

end TapeCutter.Console
