import Mathlib.Data.List.Destutter
import Mathlib.Data.List.ReduceOption
import TapeCutter.Proofs.Interlock.Memory
import TapeCutter.Proofs.Trace

/-! The observers side by side. There are four places, and no number is given out twice.
Whatever the others ask, and in whatever order, an observer is told of its own levels with
their repetitions left out, and of nothing else. -/
namespace TapeCutter.Interlock

/-- What can be asked of the observers' book. -/
inductive Call where
  | subscribe
  | poll (observer : Nat) (tripped : Bool)
deriving DecidableEq

/-- The level at a poll, if it is a poll of this observer. -/
def Call.level? (observer : Nat) : Call → Option Bool
  | .subscribe => none
  | .poll other tripped => if other = observer then some tripped else none

/-- The levels at an observer's own polls, oldest first. -/
def ownLevels (observer : Nat) (calls : List Call) : List Bool :=
  calls.filterMap (Call.level? observer)

theorem ownLevels_cons (observer : Nat) (call : Call) (rest : List Call) :
    ownLevels observer (call :: rest) =
      (call.level? observer).toList ++ ownLevels observer rest := by
  rw [ownLevels, List.filterMap_cons]
  cases call.level? observer <;> rfl

/-- The answers owed to someone who remembers this level and finds those. -/
def news (remembered : Option Bool) : List Bool → List (Option Bool)
  | [] => []
  | level :: rest =>
      (if remembered = some level then none else some level) :: news (some level) rest

/-- The level found last is remembered, and the levels that are told of are the changes. -/
theorem cons_reduceOption_news (level : Bool) (later : List Bool) :
    level :: (news (some level) later).reduceOption = later.destutter' (· ≠ ·) level := by
  induction later generalizing level with
  | nil => rfl
  | cons next rest ih =>
      rw [news]
      by_cases hSame : level = next
      · rw [if_pos (congrArg some hSame), List.reduceOption_cons_of_none,
          List.destutter'_cons_neg (h := not_not_intro hSame), hSame, ih]
      · rw [if_neg (mt Option.some.inj hSame), List.reduceOption_cons_of_some,
          List.destutter'_cons_pos (h := hSame), ih]

/-- The first level is told of in any case. -/
theorem reduceOption_news_none (levels : List Bool) :
    (news none levels).reduceOption = levels.destutter (· ≠ ·) := by
  cases levels with
  | nil => rfl
  | cons level later =>
      rw [news, if_neg (Option.some_ne_none level).symm, List.reduceOption_cons_of_some,
        cons_reduceOption_news, List.destutter_cons']

/-- Whoever hears the news last heard what was last found, if anything was new. -/
theorem getLast?_reduceOption_news (remembered : Option Bool) (levels : List Bool) :
    (news remembered levels).reduceOption.getLast?.or remembered =
      levels.getLast?.or remembered := by
  induction levels generalizing remembered with
  | nil => rfl
  | cons level rest ih =>
      have hRest := ih (some level)
      rw [news, List.getLast?_cons, Option.some_or]
      by_cases hSame : remembered = some level
      · rw [if_pos hSame, List.reduceOption_cons_of_none, hSame, hRest]
        cases rest.getLast? <;> rfl
      · rw [if_neg hSame, List.reduceOption_cons_of_some, List.getLast?_cons, Option.some_or]
        revert hRest
        cases (news (some level) rest).reduceOption.getLast? <;> cases rest.getLast? <;> simp

namespace Observers

def serve (observers : Observers) : Call → Observers
  | .subscribe => observers.subscribe.2
  | .poll observer tripped => (observers.poll observer tripped).2.1

def after (observers : Observers) (calls : List Call) : Observers := calls.foldl serve observers

/-- The number given out by a call, if it gives one out. -/
def number? (observers : Observers) : Call → Option Nat
  | .subscribe => observers.subscribe.1.toOption
  | .poll _ _ => none

/-- The numbers given out, oldest first. -/
def numbers (observers : Observers) : List Call → List Nat :=
  Trace.collect serve (fun observers call => (observers.number? call).toList) observers

/-- The answer of a call to this observer, if it is a poll of its own. -/
def answer? (observers : Observers) (observer : Nat) : Call → Option (Option Bool)
  | .subscribe => none
  | .poll other tripped =>
      if other = observer then some (observers.poll other tripped).1 else none

/-- The answers to one observer's polls, oldest first. -/
def answers (observers : Observers) (observer : Nat) : List Call → List (Option Bool) :=
  Trace.collect serve (fun observers call => (observers.answer? observer call).toList) observers

theorem count_poll (observers : Observers) (observer : Nat) (tripped : Bool) :
    (observers.poll observer tripped).2.1.count = observers.count := by
  rw [count, seen_poll, List.length_set, count]

theorem subscribe_of_room {observers : Observers} (hRoom : observers.count < capacity) :
    observers.subscribe = (.ok observers.count, ⟨observers.seen ++ [none]⟩) := if_pos hRoom

theorem subscribe_of_full {observers : Observers} (hFull : ¬observers.count < capacity) :
    observers.subscribe = (.error .observersExhausted, observers) := if_neg hFull

/-- Nobody who has joined is forgotten. -/
theorem count_le_serve (observers : Observers) (call : Call) :
    observers.count ≤ (observers.serve call).count := by
  cases call with
  | poll observer tripped => exact (observers.count_poll observer tripped).ge
  | subscribe =>
      rw [serve]
      by_cases hRoom : observers.count < capacity
      · simp [subscribe_of_room hRoom, count]
      · rw [subscribe_of_full hRoom]

/-- The numbers go up from the first free one until the places are taken. -/
theorem numbers_eq (observers : Observers) (calls : List Call) :
    observers.numbers calls =
        List.range' observers.count (min (capacity - observers.count) (calls.count .subscribe)) ∧
      (observers.after calls).count =
        observers.count + min (capacity - observers.count) (calls.count .subscribe) := by
  induction calls generalizing observers with
  | nil => simp [numbers, after]
  | cons call rest ih =>
      have hRest := ih (observers.serve call)
      rw [numbers, Trace.collect_cons, ← numbers, after, List.foldl_cons, ← after, hRest.1, hRest.2]
      cases call with
      | poll observer tripped =>
          rw [serve, count_poll, List.count_cons_of_ne (by simp)]
          exact ⟨rfl, rfl⟩
      | subscribe =>
          rw [number?, serve, List.count_cons_self]
          by_cases hRoom : observers.count < capacity
          · have hNext : (⟨observers.seen ++ [none]⟩ : Observers).count = observers.count + 1 := by
              simp [count]
            rw [subscribe_of_room hRoom, hNext]
            have hLess : min (capacity - observers.count) (rest.count .subscribe + 1) =
                min (capacity - (observers.count + 1)) (rest.count .subscribe) + 1 := by omega
            rw [hLess, List.range'_succ]
            exact ⟨rfl, by omega⟩
          · rw [subscribe_of_full hRoom]
            have hNone : capacity - observers.count = 0 := by omega
            simp [hNone, Except.toOption]

/-- An observer is answered out of its own memory and its own levels. -/
theorem answers_eq_news {observers : Observers} {observer : Nat}
    (hJoined : observer < observers.count) (calls : List Call) :
    observers.answers observer calls =
      news (observers.memory observer) (ownLevels observer calls) := by
  induction calls generalizing observers with
  | nil => rfl
  | cons call rest ih =>
      have hRest := ih (Nat.lt_of_lt_of_le hJoined (observers.count_le_serve call))
      rw [answers, Trace.collect_cons, ← answers, hRest, ownLevels_cons]
      cases call with
      | subscribe =>
          rw [serve, memory_subscribe]
          rfl
      | poll other tripped =>
          rw [answer?, serve, Call.level?]
          by_cases hOwn : other = observer
          · -- What the observer finds it remembers from now on, told of it or not.
            have hNow : (observers.poll observer tripped).2.1.memory observer = some tripped := by
              rw [memory_poll_self, poll_answer_of_joined hJoined]
              split
              · rename_i hSame
                rw [hSame, Option.none_or]
              · rw [Option.some_or]
            rw [if_pos hOwn, if_pos hOwn, hOwn, hNow, poll_answer_of_joined hJoined]
            rfl
          · rw [if_neg hOwn, if_neg hOwn, memory_poll_of_ne hOwn]
            rfl

/-- A number that is handed out is new, and whoever gets it remembers nothing. -/
theorem fresh_of_subscribe {calls : List Call} {observer : Nat}
    (hJoins : (({} : Observers).after calls).subscribe.1 = .ok observer) :
    observer ∉ ({} : Observers).numbers calls ∧
      observer < (({} : Observers).after calls).subscribe.2.count ∧
      (({} : Observers).after calls).subscribe.2.memory observer = none := by
  obtain ⟨hNumbers, hCount⟩ := numbers_eq {} calls
  by_cases hRoom : (({} : Observers).after calls).count < capacity
  · have hSubscribe := subscribe_of_room hRoom
    have hSeen := seen_of_subscribe hSubscribe
    rw [hSubscribe] at hJoins
    cases hJoins
    refine ⟨?_, ?_, ?_⟩
    · rw [hNumbers, hCount, List.mem_range'_1]
      omega
    · rw [hSubscribe]
      exact (List.getElem?_eq_some_iff.mp hSeen).1
    · rw [hSubscribe, memory, hSeen]
      rfl
  · rw [subscribe_of_full hRoom] at hJoins
    cases hJoins

/-- At most four observers ever join, under numbers that nobody has had before, and one that
finds no place changes nothing. From its joining on, an observer is told of exactly those of
its own levels that differ from the one before, the first included; so what it was told last
is what it found last. Two observers that find the same levels get the same answers, whoever
else joins or asks, whatever they find and however their turns fall. -/
theorem told_of_own_changes (calls : List Call) :
    let reached := ({} : Observers).after calls
    let given := ({} : Observers).numbers calls
    given = List.range (min 4 (calls.count .subscribe)) ∧ given.length ≤ 4 ∧ given.Nodup ∧
      (∀ cause, reached.subscribe.1 = .error cause → reached.subscribe.2 = reached) ∧
      ∀ observer, reached.subscribe.1 = .ok observer →
        observer ∉ given ∧ ∀ later,
          let levels := ownLevels observer later
          let answers := reached.subscribe.2.answers observer later
          let reports := answers.reduceOption
          reports = levels.destutter (· ≠ ·) ∧
            answers.head? = levels.head?.map some ∧ reports.IsChain (· ≠ ·) ∧
            reports.getLast? = levels.getLast? ∧
            ∀ otherCalls otherObserver otherLater,
              (({} : Observers).after otherCalls).subscribe.1 = .ok otherObserver →
                ownLevels otherObserver otherLater = levels →
                  (({} : Observers).after otherCalls).subscribe.2.answers otherObserver
                    otherLater = answers := by
  intro reached given
  have hGiven : given = List.range (min 4 (calls.count .subscribe)) := by
    rw [List.range_eq_range']
    exact (numbers_eq {} calls).1
  refine ⟨hGiven, ?_, ?_, ?_, ?_⟩
  · rw [hGiven, List.length_range]
    exact Nat.min_le_left 4 _
  · rw [hGiven]
    exact List.nodup_range
  · intro cause hFails
    by_cases hRoom : reached.count < capacity
    · rw [subscribe_of_room hRoom] at hFails
      cases hFails
    · rw [subscribe_of_full hRoom]
  · intro observer hJoins
    obtain ⟨hFresh, hJoined, hMemory⟩ := fresh_of_subscribe hJoins
    refine ⟨hFresh, ?_⟩
    intro later levels answers reports
    have hAnswers : answers = news none levels := by
      rw [← hMemory]
      exact answers_eq_news hJoined later
    have hReports : reports = levels.destutter (· ≠ ·) := by
      rw [← reduceOption_news_none, ← hAnswers]
    refine ⟨hReports, ?_, ?_, ?_, ?_⟩
    · rw [hAnswers]
      cases levels <;> rfl
    · rw [hReports]
      exact List.isChain_destutter _ levels
    · have hLast := getLast?_reduceOption_news none levels
      rwa [Option.or_none, Option.or_none, ← hAnswers] at hLast
    · intro otherCalls otherObserver otherLater hOther hLevels
      obtain ⟨_, hOtherJoined, hOtherMemory⟩ := fresh_of_subscribe hOther
      rw [answers_eq_news hOtherJoined, hOtherMemory, hLevels, hAnswers]

/-- The second of two observers finds the guard closed, closed and open; the first finds
it open throughout, and a third joins in between. -/
theorem second_told_amid_others :
    let calls : List Call := [.subscribe, .poll 0 true]
    let later : List Call :=
      [.poll 0 true, .poll 1 false, .subscribe, .poll 2 true, .poll 1 false, .poll 0 true,
        .poll 1 true]
    let reached := ({} : Observers).after calls
    reached.subscribe.1 = .ok 1 ∧
      reached.subscribe.2.answers 1 later = [some false, none, some true] ∧
        (({} : Observers).after []).subscribe.2.answers 0
            [.poll 0 false, .poll 0 false, .poll 0 true] =
          [some false, none, some true] := by
  intro calls later reached
  have hJoins : reached.subscribe.1 = .ok 1 := rfl
  obtain ⟨_, hTold⟩ := (told_of_own_changes calls).2.2.2.2 1 hJoins
  have hAnswers : reached.subscribe.2.answers 1 later = [some false, none, some true] := by
    decide
  refine ⟨hJoins, hAnswers, ?_⟩
  rw [← hAnswers]
  exact (hTold later).2.2.2.2 [] 0 _ rfl rfl

end Observers

end TapeCutter.Interlock
