import TapeCutter.Fault
import TapeCutter.Screen.Frame

/-! Signals to the panel. An operation is a list of signals; it is sent in order
and abandoned at the first signal that fails. A byte is a command or picture
data, depending on the level of the mode line when it arrives. -/
namespace TapeCutter.Panel

/-- What a signal travels on. -/
inductive Wire where
  | bus
  /-- Low for commands, high for picture data. -/
  | mode
  /-- Low resets the panel. -/
  | reset
deriving DecidableEq

inductive Signal where
  | reset (high : Bool)
  | mode (high : Bool)
  /-- Milliseconds in which nothing is sent. -/
  | wait (duration : Nat)
  | send (bytes : List UInt8)
deriving DecidableEq

/-- The wire a signal needs. Waiting needs none and cannot fail. -/
def Signal.wire? : Signal → Option Wire
  | reset _ => some .reset
  | mode _ => some .mode
  | wait _ => none
  | send _ => some .bus

/-- How a failure on this wire is reported. -/
def Wire.fault : Wire → DisplayFault
  | bus => .bus
  | mode => .line
  | reset => .line

namespace Command

/-- Selects the basic instruction set. -/
def basic : UInt8 := 0x20

/-- Selects the extended instruction set. -/
def extended : UInt8 := 0x21

def temperature : UInt8 := 0x04

/-- The ratio that drives forty-eight rows. -/
def bias : UInt8 := 0x14

/-- The contrast, in seven bits. -/
def contrast (level : UInt8) : UInt8 := 0x80 ||| (level &&& 0x7F)

/-- Dark dots on a light ground. -/
def normalMode : UInt8 := 0x0C

def firstColumn : UInt8 := 0x80

def firstBank : UInt8 := 0x40

end Command

/-- Bytes, behind the level of the mode line that says what they are. -/
def transfer (data : Bool) (bytes : List UInt8) : List Signal := [.mode data, .send bytes]

def commands (bytes : List UInt8) : List Signal := transfer false bytes

/-- Reset, then contrast, temperature and bias in the extended set, then the
display mode in the basic set. -/
def setUp : List Signal :=
  [.reset false, .wait 10, .reset true] ++
    commands [Command.extended, Command.contrast 0x31, Command.temperature, Command.bias,
      Command.basic, Command.normalMode]

def setContrast (level : UInt8) : List Signal :=
  commands [Command.extended, Command.contrast level, Command.basic]

/-- The whole picture from the top left corner. -/
def showFrame (frame : Screen.Frame) : List Signal :=
  commands [Command.firstColumn, Command.firstBank] ++ transfer true frame.bytes.toList

end TapeCutter.Panel
