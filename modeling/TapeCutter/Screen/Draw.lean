import TapeCutter.Screen.Shape
import TapeCutter.Text.Decimal

/-! What the screen shows. Four bands of twelve rows hold the two dials, the
progress bar and the button; the pause screen takes all of it. Each order
repaints its own part from nothing. -/
namespace TapeCutter.Screen

/-- An order to repaint one part of the screen. -/
inductive Draw where
  /-- The resistors in one kit. -/
  | quantityPerKit (value : UInt8) (highlighted running : Bool)
  | kitCount (value : UInt8) (highlighted running : Bool)
  /-- The progress bar, or an empty band. -/
  | progress (percent : UInt8) (visible : Bool)
  | button (highlighted running : Bool)
  /-- The whole screen while the guard is open. -/
  | paused
deriving DecidableEq

def bandHeight : Nat := 12

/-- A band across the whole screen. -/
def band (top : Nat) : Area := ⟨0, top, width, bandHeight⟩

def screen : Area := ⟨0, 0, width, height⟩

/-- A heading, a line under it, and what to do about it. -/
def pauseShapes : List Shape :=
  [.caption ⟨.heading, "PAUSED", 15, 0, false⟩, .rule 0 83 15,
    .caption ⟨.hint, "Safety switch", 0, 18, false⟩,
    .caption ⟨.hint, "flipped; please", 0, 25, false⟩,
    .caption ⟨.hint, "resolve the issue!", 0, 32, false⟩]

namespace Frame

variable (painter : Painter)

def clearBand (frame : Frame) (top : Nat) : Frame := frame.clear (band top)

/-- A label and a number. The box around the number shows that it can be
changed, so it is missing during a run, and with it the mark. A number of more
than two digits runs over the right edge of its box. -/
def drawDial (frame : Frame) (top : Nat) (label : String) (labelLeft boxLeft : Nat)
    (value : UInt8) (highlighted running : Bool) : Frame :=
  let labelled :=
    (frame.clearBand top).paint painter (.caption ⟨.label, label, labelLeft, top + 2, false⟩)
  let boxed :=
    if running then labelled else labelled.paint painter (.box ⟨boxLeft, top, 15, 11⟩ highlighted)
  let left := boxLeft + (if value < 10 then 5 else 1)
  boxed.paint painter
    (.caption ⟨.label, Text.decimal value.toNat, left, top + 2, !running && highlighted⟩)

/-- The bar is laid over its label by inversion, so the label stays readable. -/
def drawBar (frame : Frame) (top percent : Nat) : Frame :=
  let framed := frame.paint painter (.box ⟨4, top, 77, 11⟩ false)
  let left := if percent < 10 then 36 else if percent < 100 then 33 else 30
  let labelled := framed.paint painter
    (.caption ⟨.label, Text.decimal percent ++ "%", left, top + 2, false⟩)
  labelled.invert ⟨5, top + 1, percent * 75 / 100, 9⟩

def drawProgress (frame : Frame) (percent : UInt8) (visible : Bool) : Frame :=
  let cleared := frame.clearBand 24
  if visible then cleared.drawBar painter 24 (min percent.toNat 100) else cleared

def drawButton (frame : Frame) (highlighted running : Bool) : Frame :=
  let boxed := (frame.clearBand 36).paint painter (.box ⟨25, 37, 33, 11⟩ highlighted)
  let label := if running then "Stop" else "Start"
  let left := if running then 30 else 27
  boxed.paint painter (.caption ⟨.label, label, left, 39, highlighted⟩)

def drawPaused (frame : Frame) : Frame :=
  pauseShapes.foldl (paint painter) (frame.clear screen)

/-- The picture after an order. -/
def draw (frame : Frame) : Draw → Frame
  | .quantityPerKit value highlighted running =>
      frame.drawDial painter 0 "R per kit:" 4 64 value highlighted running
  | .kitCount value highlighted running =>
      frame.drawDial painter 12 "Kits:" 20 50 value highlighted running
  | .progress percent visible => frame.drawProgress painter percent visible
  | .button highlighted running => frame.drawButton painter highlighted running
  | .paused => frame.drawPaused painter

end Frame

end TapeCutter.Screen
