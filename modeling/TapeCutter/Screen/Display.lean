import TapeCutter.Fault
import TapeCutter.Log
import TapeCutter.Screen.Draw
import TapeCutter.Screen.Font

/-! The display: a picture in memory that is handed to the panel after every
order. A panel that refuses it costs a line in the log and nothing else; the
next order hands over the whole picture again. -/
namespace TapeCutter.Screen

/-- The picture, and how often the panel has refused it. The count wraps. -/
structure Display where
  frame : Frame := .blank
  failures : UInt32 := 0
deriving DecidableEq

namespace Display

/-- What becomes of handing over the picture. -/
def handed (display : Display) : Option DisplayFault → Display × List Log.Line
  | none => (display, [])
  | some fault =>
      let failures := display.failures + 1
      ({ display with failures := failures },
        [Log.warn ("LCD flush failed: " ++ fault.message ++ " (" ++
          Text.decimal failures.toNat ++ " total)")])

/-- One order, by a painter, on a panel given by its state and its way to take a picture. -/
def drawBy {Panel : Type} (painter : Painter) (take : Panel → Frame → Option DisplayFault × Panel)
    (display : Display) (panel : Panel) (order : Draw) : Display × Panel × List Log.Line :=
  let frame := display.frame.draw painter order
  let (outcome, panel) := take panel frame
  let (display, lines) := { display with frame := frame }.handed outcome
  (display, panel, lines)

/-- A panel that refuses a picture does not change it. -/
theorem frame_drawBy {Panel : Type} (painter : Painter)
    (take : Panel → Frame → Option DisplayFault × Panel) (display : Display) (panel : Panel)
    (order : Draw) :
    (display.drawBy painter take panel order).1.frame = display.frame.draw painter order := by
  rw [drawBy]
  rcases take panel (display.frame.draw painter order) with ⟨_ | fault, panel⟩
  · rfl
  · rfl

/-- One order by the painter of the machine. -/
def draw {Panel : Type} (take : Panel → Frame → Option DisplayFault × Panel)
    (display : Display) (panel : Panel) (order : Draw) : Display × Panel × List Log.Line :=
  display.drawBy .standard take panel order

end Display

end TapeCutter.Screen
