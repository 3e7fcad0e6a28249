import TapeCutter.Menu.Stick
import TapeCutter.Text.Bounded
import TapeCutter.Text.Decimal

/-! The settings of one machine. Durations are in milliseconds unless a field
says otherwise. The defaults are the ones a machine is delivered with. -/
namespace TapeCutter

/-- An internet address in four bytes, most significant first. -/
structure Address where
  a : UInt8
  b : UInt8
  c : UInt8
  d : UInt8
deriving DecidableEq

namespace Address

def bytes (address : Address) : List UInt8 := [address.a, address.b, address.c, address.d]

/-- Four decimal numbers with points between them. -/
def host (address : Address) : String :=
  Text.decimal address.a.toNat ++ "." ++ Text.decimal address.b.toNat ++ "." ++
    Text.decimal address.c.toNat ++ "." ++ Text.decimal address.d.toNat

/-- The front page at this address. The longest takes twenty-three bytes. -/
def url (address : Address) : Text.Bounded 24 :=
  .ofPieces ["http://", Text.decimal address.a.toNat, ".", Text.decimal address.b.toNat, ".",
    Text.decimal address.c.toNat, ".", Text.decimal address.d.toNat, "/"]

end Address

/-- The ranges of the two dials, which both start at one, and how fast a held
stick repeats. Moving the cursor is slower than turning a dial. -/
structure MenuSettings where
  maxQuantityPerKit : UInt8 := 10
  maxKitCount : UInt8 := 50
  verticalRepeat : UInt32 := 500
  horizontalRepeat : UInt32 := 250
deriving DecidableEq

/-- The full-scale reading of a wiper, and how close to either rail counts as a
deflection. -/
structure StickSettings where
  fullScale : UInt16 := 4095
  margin : UInt16 := 500
deriving DecidableEq

/-- The pace of the control loop, the least pace of name service, and how long
the watchdog waits for a pass of the loop. -/
structure TimingSettings where
  tick : UInt32 := 20
  nameService : UInt32 := 30
  watchdog : UInt32 := 5000
deriving DecidableEq

/-- The network the machine opens. The lifetime of name answers is in seconds. -/
structure NetworkSettings where
  ssid : Text.Bounded 32 := ⟨"Resistor_Cutter", by decide⟩
  password : Text.Bounded 64 := ⟨"tekb0ts!", by decide⟩
  channel : UInt8 := 6
  maxClients : UInt8 := 1
  address : Address := ⟨4, 3, 2, 1⟩
  answerLifetime : UInt32 := 3600
deriving DecidableEq

structure Settings where
  menu : MenuSettings := {}
  stick : StickSettings := {}
  timing : TimingSettings := {}
  network : NetworkSettings := {}
deriving DecidableEq

/-- The time a held stick waits between two moves of this kind. -/
def MenuSettings.repeatInterval (menu : MenuSettings) (move : Menu.Move) : UInt32 :=
  if move.vertical then menu.verticalRepeat else menu.horizontalRepeat

/-- A sample of the wipers and the switch, by these thresholds. -/
def StickSettings.classify (stick : StickSettings) (x y : UInt16) (switchHigh : Bool) :
    Menu.Stick :=
  Menu.Stick.classify stick.fullScale stick.margin x y switchHigh

end TapeCutter
