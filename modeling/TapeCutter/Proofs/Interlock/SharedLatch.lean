import TapeCutter.Proofs.Interlock.Memory
import TapeCutter.Proofs.Interlock.Timeline
import TapeCutter.Proofs.Trace

/-! One latch for many observers. A level that stays is told to every observer, since
each has a memory of its own. A latched opening is not: whoever looks first takes it.
Here is exactly when an opening still reaches an observer. -/
namespace TapeCutter.Interlock.Watch

/-- A guard that nobody watches yet, with nothing latched. -/
def fresh (level : Bool) : Watch := ⟨{ level := level }, {}⟩

inductive Moment where
  | happens (happening : Happening)
  | join
  /-- An observer looks, with happenings between the two steps of the look. -/
  | poll (observer : Nat) (between : List Happening)

def pass (watch : Watch) : Moment → Watch
  | .happens happening => { watch with guard := watch.guard.undergo happening }
  | .join => watch.subscribe.2
  | .poll observer between => (watch.pollAmid between observer).2.1

def after (watch : Watch) (moments : List Moment) : Watch := moments.foldl pass watch

def Moment.instants : Moment → List Instant
  | .happens happening => [.happens happening]
  | .join => []
  | .poll observer between => between.map .happens ++ [.taken observer]

/-- The life of the latch through these moments. -/
def timeline (moments : List Moment) : List Instant := moments.flatMap Moment.instants

def told (watch : Watch) (observer : Nat) : Moment → Option Bool
  | .poll other between => if other = observer then (watch.pollAmid between other).1 else none
  | _ => none

/-- The reports given to one observer, oldest first. -/
def reports (watch : Watch) (observer : Nat) : List Moment → List Bool :=
  Trace.collect pass (fun found moment => (found.told observer moment).toList) watch

/-- The guard goes through the instants of a moment in their order. -/
theorem guard_pass (watch : Watch) (moment : Moment) :
    (watch.pass moment).guard = watch.guard.outlast moment.instants := by
  cases moment with
  | happens happening => rfl
  | join => rfl
  | poll observer between => exact watch.guard.lookAmid_guard between observer

/-- The latch is told by the timeline alone, whoever the observers are. -/
theorem guard_after (watch : Watch) (moments : List Moment) :
    (watch.after moments).guard = watch.guard.outlast (timeline moments) := by
  induction moments generalizing watch with
  | nil => rfl
  | cons moment rest ih =>
      rw [timeline, List.flatMap_cons, Guard.outlast_append, ← guard_pass]
      exact ih (watch.pass moment)

/-- A report is remembered, and nothing else changes the memory. -/
theorem memory_pass (watch : Watch) (observer : Nat) (moment : Moment) :
    (watch.pass moment).observers.memory observer =
      (watch.told observer moment).or (watch.observers.memory observer) := by
  cases moment with
  | happens happening => rfl
  | join => exact watch.observers.memory_subscribe observer
  | poll other between =>
      by_cases hOther : other = observer
      · rw [told, if_pos hOther, hOther]
        exact watch.observers.memory_poll_self observer (watch.guard.lookAmid between).1
      · rw [told, if_neg hOther]
        exact Observers.memory_poll_of_ne hOther watch.observers (watch.guard.lookAmid between).1

/-- An observer remembers the last report it was given. -/
theorem memory_after (watch : Watch) (observer : Nat) (moments : List Moment) :
    (watch.after moments).observers.memory observer =
      (watch.reports observer moments).getLast?.or (watch.observers.memory observer) := by
  induction moments generalizing watch with
  | nil => rfl
  | cons moment rest ih =>
      -- A later report hides this one, and this one hides the memory before it.
      rw [reports, Trace.collect_cons, ← reports, List.getLast?_append, Option.or_assoc]
      have hStep := ih (watch.pass moment)
      rw [memory_pass] at hStep
      refine hStep.trans ?_
      cases watch.told observer moment <;> rfl

/-- What an observer is told at a look depends on the finding and on what it was told
last. -/
theorem pollAmid_answer {level : Bool} {moments : List Moment} {observer : Nat}
    (hJoined : observer < ((fresh level).after moments).observers.count)
    (between : List Happening) :
    let last := ((fresh level).reports observer moments).getLast?
    let tripped := (((fresh level).after moments).guard.lookAmid between).1
    (((fresh level).after moments).pollAmid between observer).1 =
      if last = some tripped then none else some tripped := by
  intro last tripped
  have hFresh : (fresh level).observers.memory observer = none := rfl
  have hMemory : ((fresh level).after moments).observers.memory observer = last := by
    rw [memory_after, hFresh, Option.or_none]
  rw [← hMemory]
  exact Observers.poll_answer_of_joined hJoined tripped

/-- The answer to a closed guard never looks like the answer to an open one. -/
theorem answer_eq_iff (last : Option Bool) (tripped : Bool) :
    ((if last = some tripped then none else some tripped) =
        if last = some true then none else some true) ↔ tripped = true := by
  cases tripped with
  | true => exact iff_of_true rfl rfl
  | false =>
      rcases last with _ | _ | _
      · simp
      · simp
      · simp

/-- A latched opening still reaches an observer exactly when the level is high at its
look, or when nobody at all has looked since the last opening was latched. That the
observer itself has not looked since is not enough: another one may have taken the
latch. To an observer that is the only one to look, every opening is told. -/
theorem opening_told_iff (level : Bool) (moments : List Moment) (between : List Happening)
    {observer : Nat} (hJoined : observer < ((fresh level).after moments).observers.count) :
    let watch := (fresh level).after moments
    let life := timeline moments ++ between.map .happens
    let last := ((fresh level).reports observer moments).getLast?
    let owed := if last = some true then none else some true
    ((watch.pollAmid between observer).1 = owed ↔
        watch.tripped = true ∨ OpenedSince (fun _ => True) life) ∧
      ((∀ other, .taken other ∈ life → other = observer) → OpenedSince (· = observer) life →
        (watch.pollAmid between observer).1 = owed) := by
  intro watch life last owed
  have hGuard : watch.guard = (fresh level).guard.outlast (timeline moments) :=
    guard_after (fresh level) moments
  have hOpen : (watch.guard.lookAmid between).1 = true ↔
      watch.tripped = true ∨ OpenedSince (fun _ => True) life := by
    rw [tripped, hGuard]
    exact Guard.lookAmid_outlast_iff rfl (timeline moments) between
  have hOwed : (watch.pollAmid between observer).1 = owed ↔
      watch.tripped = true ∨ OpenedSince (fun _ => True) life := by
    rw [← hOpen, ← answer_eq_iff last, ← pollAmid_answer hJoined between]
  refine ⟨hOwed, ?_⟩
  intro hLone opened
  -- Nobody else has taken the latch, so an opening since one's own look is one since any look.
  exact hOwed.mpr (Or.inr (opened.of_taken hLone))

/-- The second observer is told of an opening although the first has just taken an
earlier one and the guard is closed again. -/
theorem opening_told_after_another :
    let moments : List Moment :=
      [.join, .join, .poll 0 [], .poll 1 [], .happens (.interrupted true), .poll 0 [],
        .happens (.interrupted true)]
    1 < ((fresh false).after moments).observers.count ∧
      (((fresh false).after moments).poll 1).1 = some true := by
  intro moments
  have hJoined : 1 < ((fresh false).after moments).observers.count := by decide
  refine ⟨hJoined, ?_⟩
  apply (opening_told_iff false moments [] hJoined).1.mpr
  exact Or.inr ⟨[.taken 0, .taken 1, .happens (.interrupted true), .taken 0], [], rfl, nofun⟩

/-- An opening that came after the second observer's last look is gone when it looks
again: the first observer has taken the latch in between, and the guard is closed. -/
theorem opening_taken_by_another :
    let moments : List Moment :=
      [.join, .join, .poll 0 [], .poll 1 [], .happens (.interrupted true), .poll 0 []]
    OpenedSince (· = 1) (timeline moments) ∧
      ((fresh false).reports 1 moments).getLast? = some false ∧
      (((fresh false).after moments).poll 1).1 = none := by
  refine ⟨⟨[.taken 0, .taken 1], [.taken 0], rfl, ?_⟩, rfl, rfl⟩
  intro observer hMem hSecond
  rw [List.mem_singleton] at hMem
  cases hMem
  cases hSecond

end TapeCutter.Interlock.Watch
