import TapeCutter.Log
import TapeCutter.Settings.Basic

/-! The board: which pin carries what, and how its inputs read while nothing is
connected to them. Without the board's own devices, setting them up and feeding
the watchdog leave nothing but a line in the log. -/
namespace TapeCutter.Board

/-- Clock of the display. -/
def displayClock : Int := 17

/-- Data of the display. -/
def displayData : Int := 16

def displayMode : Int := 4

def displayEnable : Int := 0

def displayReset : Int := 2

/-- Clock rate of the display in hertz. -/
def displayRate : Nat := 4000000

def stickSwitch : Int := 32

def stickX : Int := 34

def stickY : Int := 35

/-- Converter channel of the horizontal wiper. -/
def channelX : Nat := 6

def channelY : Nat := 7

/-- The guard switch. -/
def guardSwitch : Int := 33

/-- All inputs are pulled high but the guard switch, which is closed. -/
def restingLevel (pin : Int) : Bool := pin != guardSwitch

/-- Every converter channel reads half of full scale. -/
def restingSample : UInt16 := 2048

/-- A stick that nobody touches, by these thresholds. -/
def restingStick (stick : StickSettings) : Menu.Stick :=
  stick.classify restingSample restingSample (restingLevel stickSwitch)

def setUpLog : List Log.Line :=
  [Log.info "hw_init(sim): peripheral init skipped", Log.info "hw_init(sim): ISR service skipped"]

/-- The watchdog is set to a time in milliseconds. -/
def watchdogLog (timeout : UInt32) : List Log.Line :=
  [Log.info ("Watchdog(sim): no-op (" ++ Text.decimal timeout.toNat ++ "ms)")]

end TapeCutter.Board
