/-! The three menu rows, top to bottom, on a ring. -/
namespace TapeCutter.Menu

/-- The row the cursor is on. -/
inductive Row where
  | quantityPerKit
  | kitCount
  | startStop
deriving DecidableEq, Inhabited

namespace Row

def all : List Row := [quantityPerKit, kitCount, startStop]

/-- The word in log lines. -/
def name : Row → String
  | quantityPerKit => "QuantityPerKit"
  | kitCount => "KitCount"
  | startStop => "StartStop"

/-- Position from the top, from zero. -/
def index : Row → Nat
  | quantityPerKit => 0
  | kitCount => 1
  | startStop => 2

/-- One row down; the bottom row leads to the top one. -/
def below : Row → Row
  | quantityPerKit => kitCount
  | kitCount => startStop
  | startStop => quantityPerKit

/-- One row up; the top row leads to the bottom one. -/
def above : Row → Row
  | quantityPerKit => startStop
  | kitCount => quantityPerKit
  | startStop => kitCount

theorem index_below (row : Row) : row.below.index = (row.index + 1) % 3 := by
  cases row <;> rfl

theorem index_above (row : Row) : row.above.index = (row.index + 2) % 3 := by
  cases row <;> rfl

end Row

end TapeCutter.Menu
