import TapeCutter.Panel.Signal

/-! The cable between the board and the panel, with its breaks. -/
namespace TapeCutter.Panel

/-- Broken wires fail every signal. Besides, a loose contact fails one signal
after a number of others, whatever its wire. -/
structure Cable where
  broken : List Wire := []
  loose : Option Nat := none
deriving DecidableEq

namespace Cable

/-- One signal on a wire: whether it arrives, and the cable after it. -/
def carry (cable : Cable) (wire : Wire) : Bool × Cable :=
  (!(cable.broken.contains wire) && cable.loose != some 0,
    { cable with loose := cable.loose.bind fun n => if n = 0 then none else some (n - 1) })

end Cable

/-- A signal that was tried, and whether it arrived. -/
structure Attempt where
  signal : Signal
  arrived : Bool
deriving DecidableEq

/-- What became of an operation, and the cable after it. -/
structure Delivery (Line : Type) where
  attempts : List Attempt
  fault : Option DisplayFault
  cable : Line

/-- An operation over a line of any kind, given by how it carries a signal on a wire. -/
def deliverBy {Line : Type} (carry : Line → Wire → Bool × Line) (line : Line) :
    List Signal → Delivery Line
  | [] => ⟨[], none, line⟩
  | signal :: rest =>
      match signal.wire? with
      | none =>
          let later := deliverBy carry line rest
          { later with attempts := ⟨signal, true⟩ :: later.attempts }
      | some wire =>
          let (arrived, line) := carry line wire
          if arrived then
            let later := deliverBy carry line rest
            { later with attempts := ⟨signal, true⟩ :: later.attempts }
          else ⟨[⟨signal, false⟩], some wire.fault, line⟩

/-- An operation over a cable. -/
def deliver (cable : Cable) (signals : List Signal) : Delivery Cable :=
  deliverBy Cable.carry cable signals

/-- What can be seen from outside: the level the mode line was last asked for,
and the bytes that last arrived as picture data. -/
structure Glass where
  dataMode : Bool := false
  shown : List UInt8 := []
deriving DecidableEq

/-- The mode line takes its level even when the call for it fails. -/
def Glass.see (glass : Glass) (attempt : Attempt) : Glass :=
  match attempt.signal with
  | .mode high => { glass with dataMode := high }
  | .send bytes =>
      if attempt.arrived && glass.dataMode then { glass with shown := bytes } else glass
  | .reset _ => glass
  | .wait _ => glass

/-- A cable and what is seen at its far end. -/
structure Link where
  cable : Cable := {}
  glass : Glass := {}
deriving DecidableEq

namespace Link

def send (link : Link) (signals : List Signal) : Option DisplayFault × Link :=
  let delivery := deliver link.cable signals
  (delivery.fault, ⟨delivery.cable, delivery.attempts.foldl Glass.see link.glass⟩)

def take (link : Link) (frame : Screen.Frame) : Option DisplayFault × Link :=
  link.send (showFrame frame)

end Link

end TapeCutter.Panel
