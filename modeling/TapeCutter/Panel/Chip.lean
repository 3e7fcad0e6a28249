import TapeCutter.Panel.Cable

/-! The chip behind the glass. It has two instruction sets; picture data goes to
the place its address points to, and the address moves on by itself, along the
columns first and to the next bank after the last of them. -/
namespace TapeCutter.Panel

structure Chip where
  /-- The level of the mode line. -/
  dataMode : Bool := false
  /-- The extended instruction set is selected. -/
  extended : Bool := false
  column : Fin 84 := 0
  bank : Fin 6 := 0
  memory : Vector UInt8 Screen.size := .replicate Screen.size 0
  displayMode : UInt8 := 0
  contrast : UInt8 := 0
  bias : UInt8 := 0
  temperature : UInt8 := 0
deriving DecidableEq

namespace Chip

/-- The place in memory that the next byte of a picture goes to. -/
def address (chip : Chip) : Fin Screen.size :=
  ⟨chip.column + chip.bank * 84, by
    have hColumn := chip.column.isLt
    have hBank := chip.bank.isLt
    unfold Screen.size
    omega⟩

/-- The address moves on. Behind the last place comes the first. -/
def advance (chip : Chip) : Chip :=
  if chip.column = 83 then { chip with column := 0, bank := chip.bank + 1 }
  else { chip with column := chip.column + 1 }

def store (chip : Chip) (byte : UInt8) : Chip :=
  { chip with memory := chip.memory.set chip.address byte }.advance

/-- One command. The choice of the instruction set belongs to both sets; a byte
without a meaning in the present set is passed over. -/
def obey (chip : Chip) (byte : UInt8) : Chip :=
  if byte &&& 0xF8 = 0x20 then { chip with extended := byte &&& 1 != 0 }
  else if chip.extended then
    if byte &&& 0x80 ≠ 0 then { chip with contrast := byte &&& 0x7F }
    else if byte &&& 0xF8 = 0x10 then { chip with bias := byte &&& 0x07 }
    else if byte &&& 0xFC = 0x04 then { chip with temperature := byte &&& 0x03 }
    else chip
  else if byte &&& 0x80 ≠ 0 then
    if hColumn : (byte &&& 0x7F).toNat < 84 then { chip with column := ⟨_, hColumn⟩ } else chip
  else if byte &&& 0xF8 = 0x40 then
    if hBank : (byte &&& 0x07).toNat < 6 then { chip with bank := ⟨_, hBank⟩ } else chip
  else if byte &&& 0xF8 = 0x08 then { chip with displayMode := byte &&& 0x05 }
  else chip

def accept (chip : Chip) (byte : UInt8) : Chip :=
  if chip.dataMode then chip.store byte else chip.obey byte

/-- A reset selects the basic set and the first place. The memory keeps what it holds. -/
def reset (chip : Chip) : Chip :=
  { chip with extended := false, column := 0, bank := 0, displayMode := 0 }

/-- A signal that was tried. Bytes that did not arrive do nothing. A control line
whose call fails may take its level all the same; `slips` says whether it does. -/
def see (slips : Bool) (chip : Chip) (attempt : Attempt) : Chip :=
  match attempt.signal with
  | .mode high => if attempt.arrived || slips then { chip with dataMode := high } else chip
  | .send bytes => if attempt.arrived then bytes.foldl accept chip else chip
  | .reset high => if (attempt.arrived || slips) && !high then chip.reset else chip
  | .wait _ => chip

/-- The bytes of an attempt that reach the chip, each with the level of the mode line. -/
def hears (chip : Chip) (attempt : Attempt) : List (Bool × UInt8) :=
  match attempt.signal with
  | .send bytes => if attempt.arrived then bytes.map fun byte => (chip.dataMode, byte) else []
  | _ => []

end Chip

/-- How signals fare on a line, whose state may depend on all it has carried. -/
structure Carrier (Line : Type) where
  /-- Whether a signal on this wire arrives, and the line after it. -/
  carry : Line → Wire → Bool × Line
  /-- Whether the control line whose call has just failed took its level. -/
  slips : Line → Bool

/-- A chip at the far end of a line. -/
structure Wired (Line : Type) where
  line : Line
  chip : Chip
deriving DecidableEq

namespace Wired

variable {Line : Type} (carrier : Carrier Line)

def send (wired : Wired Line) (signals : List Signal) : Option DisplayFault × Wired Line :=
  let delivery := deliverBy carrier.carry wired.line signals
  (delivery.fault,
    ⟨delivery.cable, delivery.attempts.foldl (Chip.see (carrier.slips delivery.cable)) wired.chip⟩)

def take (wired : Wired Line) (frame : Screen.Frame) : Option DisplayFault × Wired Line :=
  wired.send carrier (showFrame frame)

end Wired

end TapeCutter.Panel
