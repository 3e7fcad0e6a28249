import TapeCutter.Interlock.Observers

/-! The guard switch. Its level is read at every look; an interrupt latches
openings, so one that is over before the next look is still taken once. -/
namespace TapeCutter.Interlock

/-- The level now (open is high), and whether an opening has been latched
since the last look. -/
structure Guard where
  level : Bool := false
  latched : Bool := false
deriving DecidableEq

/-- What happens to a guard at any time, also while somebody looks at it. -/
inductive Happening where
  /-- The switch moves, or stays where it is. -/
  | moved (high : Bool)
  /-- The interrupt comes in and has seen this level. -/
  | interrupted (high : Bool)
deriving DecidableEq

namespace Guard

/-- The interrupt. Only an open guard is latched. -/
def interrupt (guard : Guard) (high : Bool) : Guard :=
  { guard with latched := guard.latched || high }

/-- The switch and the interrupt are independent: an opening may be latched
although no look ever finds the level high. -/
def undergo (guard : Guard) : Happening → Guard
  | .moved high => { guard with level := high }
  | .interrupted high => guard.interrupt high

/-- Whether an opening is latched. Taking it clears the latch. -/
def takeLatch (guard : Guard) : Bool × Guard := (guard.latched, { guard with latched := false })

/-- Open now, or opened since the last look. The level is read first, then the
latch is taken; anything may happen in between. -/
def lookAmid (guard : Guard) (between : List Happening) : Bool × Guard :=
  let (opened, after) := (between.foldl undergo guard).takeLatch
  (guard.level || opened, after)

/-- A look in which nothing happens. -/
def look (guard : Guard) : Bool × Guard := guard.lookAmid []

end Guard

/-- The guard with everyone who watches it. -/
structure Watch where
  guard : Guard := {}
  observers : Observers := {}
deriving DecidableEq

namespace Watch

def subscribe (watch : Watch) : Except Fault Nat × Watch :=
  let (outcome, observers) := watch.observers.subscribe
  (outcome, { watch with observers := observers })

/-- One observer is given a level and told of a change. -/
def tell (watch : Watch) (observer : Nat) (tripped : Bool) :
    Option Bool × Watch × List Log.Line :=
  let (change, observers, lines) := watch.observers.poll observer tripped
  (change, { watch with observers := observers }, lines)

/-- One observer looks at the guard and is told of a change. The latch is
shared: looking takes it for all observers. -/
def pollAmid (watch : Watch) (between : List Happening) (observer : Nat) :
    Option Bool × Watch × List Log.Line :=
  let (tripped, guard) := watch.guard.lookAmid between
  { watch with guard := guard }.tell observer tripped

/-- A poll in which nothing happens. -/
def poll (watch : Watch) (observer : Nat) : Option Bool × Watch × List Log.Line :=
  watch.pollAmid [] observer

/-- The raw level, for no observer in particular. The latch is left alone. -/
def tripped (watch : Watch) : Bool := watch.guard.level

end Watch

end TapeCutter.Interlock
