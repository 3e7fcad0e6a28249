import TapeCutter.Menu.Row

/-! The thumb stick: one classified sample, and the menu move it asks for.
Up and down move the cursor and win over left and right, which turn the dial
of the selected row. -/
namespace TapeCutter.Menu

/-- One sample. Opposite directions can both be set when the thresholds overlap. -/
structure Stick where
  up : Bool := false
  down : Bool := false
  left : Bool := false
  right : Bool := false
  pressed : Bool := false
deriving DecidableEq, Inhabited

/-- What a deflected stick asks for. -/
inductive Move where
  | rowUp
  | rowDown
  | valueDown
  | valueUp
deriving DecidableEq

namespace Move

/-- The move changes the cursor rather than a value. -/
def vertical : Move → Bool
  | rowUp => true
  | rowDown => true
  | valueDown => false
  | valueUp => false

/-- The row after the move. Turning a dial leaves the cursor where it is. -/
def row : Move → Row → Row
  | rowUp, row => row.above
  | rowDown, row => row.below
  | valueDown, row => row
  | valueUp, row => row

end Move

namespace Stick

def vertical (stick : Stick) : Bool := stick.up || stick.down

def horizontal (stick : Stick) : Bool := stick.left || stick.right

/-- Any direction is set. The push switch does not count. -/
def deflected (stick : Stick) : Bool := stick.vertical || stick.horizontal

/-- Up before down before left before right; nothing when centred. -/
def move? (stick : Stick) : Option Move :=
  if stick.up then some .rowUp
  else if stick.down then some .rowDown
  else if stick.left then some .valueDown
  else if stick.right then some .valueUp
  else none

/-- A stick asks for nothing just if it is not deflected. -/
theorem move?_eq_none_iff (stick : Stick) : stick.move? = none ↔ stick.deflected = false := by
  unfold move? deflected vertical horizontal
  cases stick.up <;> cases stick.down <;> cases stick.left <;> cases stick.right <;> simp

/-- A sample of both wipers and the level of the switch. A wiper within the
margin of either rail counts as a deflection; the switch pulls its level low.
A margin beyond full scale puts the upper threshold at zero. -/
def classify (fullScale margin x y : UInt16) (switchHigh : Bool) : Stick where
  up := y < margin
  down := (if margin ≤ fullScale then fullScale - margin else 0) < y
  left := x < margin
  right := (if margin ≤ fullScale then fullScale - margin else 0) < x
  pressed := !switchHigh

end Stick

end TapeCutter.Menu
