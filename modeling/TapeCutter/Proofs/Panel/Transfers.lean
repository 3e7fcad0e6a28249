import TapeCutter.Panel.Chip
import TapeCutter.Proofs.Trace

/-! What a failure leaves of an operation. The signals before the failing one have arrived
and nothing is tried after it. Bytes travel behind the level of the mode line that belongs
to them, so they arrive under that level or not at all, wherever the line was left before. -/
namespace TapeCutter.Panel

variable {Line : Type}

/-- The attempts that an operation can come to, and what it reports. -/
inductive Delivered : List Signal → List Attempt → Option DisplayFault → Prop where
  | done : Delivered [] [] none
  | arrives (signal : Signal) {rest : List Signal} {attempts : List Attempt}
      {fault : Option DisplayFault} (later : Delivered rest attempts fault) :
      Delivered (signal :: rest) (⟨signal, true⟩ :: attempts) fault
  | fails {signal : Signal} (rest : List Signal) {wire : Wire} (hWire : signal.wire? = some wire) :
      Delivered (signal :: rest) [⟨signal, false⟩] (some wire.fault)

/-- What is tried of an operation, and what is reported of it, is one of these, whatever the
carrier does. -/
theorem delivered_deliverBy (carry : Line → Wire → Bool × Line) (line : Line)
    (signals : List Signal) :
    Delivered signals (deliverBy carry line signals).attempts
      (deliverBy carry line signals).fault := by
  induction signals generalizing line with
  | nil => exact .done
  | cons signal rest ih =>
      rw [deliverBy]
      split
      · exact .arrives signal (ih line)
      · rename_i wire hWire
        obtain ⟨arrived, next⟩ := carry line wire
        cases arrived with
        | true => exact .arrives signal (ih next)
        | false => exact .fails rest hWire

namespace Delivered

variable {first second signals : List Signal} {attempts : List Attempt}
  {fault : Option DisplayFault}

/-- A part of an operation that comes to an end is followed by the rest. -/
theorem of_append (delivered : Delivered (first ++ second) attempts fault) :
    Delivered first attempts fault ∧ fault ≠ none ∨
      ∃ earlier later, attempts = earlier ++ later ∧ Delivered first earlier none ∧
        Delivered second later fault := by
  induction first generalizing attempts with
  | nil => exact Or.inr ⟨[], attempts, rfl, .done, delivered⟩
  | cons signal rest ih =>
      cases delivered with
      | arrives _ later =>
          rcases ih later with ⟨hFirst, hFault⟩ | ⟨earlier, last, rfl, hFirst, hSecond⟩
          · exact Or.inl ⟨.arrives signal hFirst, hFault⟩
          · exact Or.inr ⟨_, last, rfl, .arrives signal hFirst, hSecond⟩
      | fails _ hWire => exact Or.inl ⟨.fails rest hWire, Option.some_ne_none _⟩

/-- The attempts of an operation, told without it: all of its signals, or those up to the
first that failed. The report names the wire of that one. -/
theorem attempts_eq (delivered : Delivered signals attempts fault) :
    fault = none ∧ attempts = signals.map (⟨·, true⟩) ∨
      ∃ before failing rest wire, signals = before ++ failing :: rest ∧
        failing.wire? = some wire ∧ fault = some wire.fault ∧
          attempts = before.map (⟨·, true⟩) ++ [⟨failing, false⟩] := by
  induction delivered with
  | done => exact Or.inl ⟨rfl, rfl⟩
  | arrives signal _ ih =>
      rcases ih with ⟨hFault, rfl⟩ | ⟨before, failing, rest, wire, rfl, hWire, hFault, rfl⟩
      · exact Or.inl ⟨hFault, rfl⟩
      · exact Or.inr ⟨signal :: before, failing, rest, wire, rfl, hWire, hFault, rfl⟩
  | @fails failing rest wire hWire =>
      exact Or.inr ⟨[], failing, rest, wire, rfl, hWire, rfl, rfl⟩

end Delivered

namespace Chip

/-- The bytes that reach the chip with some attempts, each with the level of the mode line. -/
def heard (slips : Bool) (chip : Chip) (attempts : List Attempt) : List (Bool × UInt8) :=
  Trace.collect (see slips) hears chip attempts

/-- What a transfer can come to, and what of it reaches the chip: all its bytes, or nothing
but a level of the mode line. -/
inductive Transferred (data : Bool) (bytes : List UInt8) (chip : Chip) :
    Option DisplayFault → List (Bool × UInt8) → Chip → Prop where
  | all : Transferred data bytes chip none (bytes.map fun byte => (data, byte))
      (bytes.foldl accept { chip with dataMode := data })
  | nothing (fault : DisplayFault) (level : Bool) :
      Transferred data bytes chip (some fault) [] { chip with dataMode := level }

/-- A transfer that fails at its first signal has moved nothing, and one that fails at its second
has moved the mode line only. -/
theorem transferred_of_delivered {data : Bool} {bytes : List UInt8} {attempts : List Attempt}
    {fault : Option DisplayFault} (delivered : Delivered (transfer data bytes) attempts fault)
    (slips : Bool) (chip : Chip) :
    Transferred data bytes chip fault (chip.heard slips attempts)
      (attempts.foldl (see slips) chip) := by
  cases delivered with
  | fails _ hWire =>
      cases slips with
      | true => exact .nothing _ data
      | false => exact .nothing _ chip.dataMode
  | arrives _ later =>
      cases later with
      | fails _ hWire => exact .nothing _ data
      | arrives _ last =>
          cases last
          have hHeard : chip.heard slips [⟨.mode data, true⟩, ⟨.send bytes, true⟩] =
              bytes.map fun byte => (data, byte) := List.append_nil _
          rw [hHeard]
          exact .all

theorem heard_append (slips : Bool) (chip : Chip) (first second : List Attempt) :
    chip.heard slips (first ++ second) =
      chip.heard slips first ++ (first.foldl (see slips) chip).heard slips second :=
  Trace.collect_append chip first second

end Chip

end TapeCutter.Panel
