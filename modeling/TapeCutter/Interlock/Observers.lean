import TapeCutter.Fault
import TapeCutter.Log

/-! Interlock changes, told to each observer separately. The guard switch gives
a level, but the machine acts on changes; every observer has its own memory of
the level it last saw, so a change one observer has taken is still told to the
others. -/
namespace TapeCutter.Interlock

/-- The level each observer last saw, in the order they joined. An observer
that has not asked yet has seen nothing. -/
structure Observers where
  seen : List (Option Bool) := []
deriving DecidableEq

namespace Observers

/-- The number of places. -/
def capacity : Nat := 4

def count (observers : Observers) : Nat := observers.seen.length

/-- A new observer and its number. A full house is left as it was. -/
def subscribe (observers : Observers) : Except Fault Nat × Observers :=
  if observers.count < capacity then
    (.ok observers.count, ⟨observers.seen ++ [none]⟩)
  else (.error .observersExhausted, observers)

/-- What is logged when an observer's view moves to `tripped`. A guard found
closed at the first look is no news. -/
def changeLog (observer : Nat) (before : Option Bool) (tripped : Bool) : List Log.Line :=
  match before, tripped with
  | none, true =>
      [Log.warn ("SAFETY: interlock open at first sample (subscriber " ++
        Text.decimal observer ++ ")")]
  | none, false => []
  | some _, true =>
      [Log.warn ("SAFETY: interlock tripped (subscriber " ++ Text.decimal observer ++ ")")]
  | some _, false =>
      [Log.info ("SAFETY: interlock released (subscriber " ++ Text.decimal observer ++ ")")]

/-- The level, if it differs from the one this observer saw last. The first
look always differs. A number nobody was given learns nothing. -/
def poll (observers : Observers) (observer : Nat) (tripped : Bool) :
    Option Bool × Observers × List Log.Line :=
  match observers.seen[observer]? with
  | none => (none, observers, [])
  | some before =>
      if before = some tripped then (none, observers, [])
      else (some tripped, ⟨observers.seen.set observer (some tripped)⟩,
        changeLog observer before tripped)

end Observers

end TapeCutter.Interlock
