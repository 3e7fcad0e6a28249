/-! Autorepeat of a held stick on a millisecond clock that wraps. Only the
time since the last accepted move counts, so the wrap is not noticed. -/
namespace TapeCutter.Menu

/-- When the last move was accepted, and whether the stick has been centred
since. The first move of all counts as one from the centre. -/
structure Autorepeat where
  lastAccepted : UInt32 := 0
  rearmed : Bool := true
deriving DecidableEq

namespace Autorepeat

/-- A move is accepted after the centre, and otherwise once the interval has passed. -/
def ready (gate : Autorepeat) (now interval : UInt32) : Bool :=
  gate.rearmed || interval ≤ now - gate.lastAccepted

def accept (now : UInt32) : Autorepeat := ⟨now, false⟩

/-- The stick is centred. The time of the last move is kept. -/
def rearm (gate : Autorepeat) : Autorepeat := { gate with rearmed := true }

end Autorepeat

end TapeCutter.Menu
