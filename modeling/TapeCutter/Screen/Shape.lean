import TapeCutter.Screen.Frame

/-! The shapes the screen is made of, and those who paint them. A painter never reads
the picture: what it leaves at a place is a matter of the shape alone. -/
namespace TapeCutter.Screen

/-- The letterings of the screen. Every character of one fills a cell of the same size. -/
inductive Typeface where
  /-- Labels, numbers and the button. -/
  | label
  /-- The heading of the pause screen. -/
  | heading
  /-- The advice on the pause screen. -/
  | hint
deriving DecidableEq

namespace Typeface

def width : Typeface → Nat
  | label => 6
  | heading => 9
  | hint => 4

def height : Typeface → Nat
  | label => 9
  | heading => 15
  | hint => 6

end Typeface

/-- A line of text by the top left corner of its first cell. Inverted text is light
on dark cells; plain text is dark on whatever is there. -/
structure Caption where
  face : Typeface
  text : String
  left : Nat
  top : Nat
  inverted : Bool := false
deriving DecidableEq

inductive Shape where
  | caption (caption : Caption)
  /-- A rectangle, filled or as a thin line along its edge. -/
  | box (area : Area) (filled : Bool)
  /-- A thin level line with both its ends. -/
  | rule (left right top : Nat)
deriving DecidableEq

/-- The box of a shape. For a caption these are the cells of its characters. -/
def Shape.area : Shape → Area
  | caption line => ⟨line.left, line.top, line.text.length * line.face.width, line.face.height⟩
  | box area _ => area
  | rule left right top => ⟨left, top, right + 1 - left, 1⟩

/-- What is left at a place of the screen by a shape: dark, light, or what was there. -/
abbrev Painter := Shape → Nat → Nat → Option Bool

/-- No shape is painted beyond its own box, as far as the screen goes. -/
def Painter.Confined (painter : Painter) : Prop :=
  ∀ shape x y, x < width → y < height → painter shape x y ≠ none → shape.area.covers x y = true

def Frame.paint (painter : Painter) (frame : Frame) (shape : Shape) : Frame :=
  let ink := painter shape
  frame.revise fun x y old => (ink x y).getD old

end TapeCutter.Screen
