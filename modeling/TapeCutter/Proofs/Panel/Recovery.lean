import TapeCutter.Proofs.Panel.Memory
import TapeCutter.Proofs.Panel.Transfers

/-! The panel after any failures. Whatever was lost before, a picture that is reported as
shown has replaced all of the panel's memory: every operation leaves the panel in the basic
instruction set, and a picture sets the address to the first place before its bytes come. -/
namespace TapeCutter.Panel

/-- What is asked of a panel that has been set up. -/
inductive Operation where
  | contrast (level : UInt8)
  | picture (frame : Screen.Frame)

namespace Operation

def signals : Operation → List Signal
  | contrast level => setContrast level
  | picture frame => showFrame frame

/-- The bytes of an operation in their order, each with the level of the mode line that
makes it a command or a byte of the picture. -/
def traffic : Operation → List (Bool × UInt8)
  | contrast level => [(false, Command.extended), (false, Command.contrast level),
      (false, Command.basic)]
  | picture frame => [(false, Command.firstColumn), (false, Command.firstBank)] ++
      frame.bytes.toList.map fun byte => (true, byte)

/-- An operation on a panel: what it reported, the bytes that reached the panel with it,
and the panel after it. -/
structure Lands (operation : Operation) (fault : Option DisplayFault)
    (heard : List (Bool × UInt8)) (left : Chip) : Prop where
  /-- The next operation finds the set that it counts on. -/
  basic : left.extended = false
  /-- Nothing arrives out of its order or under the wrong level. -/
  inOrder : heard <+: operation.traffic
  complete : fault = none → heard = operation.traffic
  shown : ∀ frame, operation = picture frame → fault = none → left.memory = frame.bytes

variable {chip left : Chip} {fault : Option DisplayFault} {heard : List (Bool × UInt8)}

/-- A contrast that is lost, or gets through, leaves the chip in the basic set with the memory it
had. -/
theorem lands_contrast (hBasic : chip.extended = false) (level : UInt8)
    (transferred : Chip.Transferred false
      [Command.extended, Command.contrast level, Command.basic] chip fault heard left) :
    (contrast level).Lands fault heard left := by
  cases transferred with
  | all =>
      rw [Chip.foldl_accept_commands rfl]
      exact ⟨Chip.extended_obey_basic _, List.prefix_rfl, fun _ => rfl, nofun⟩
  | nothing fault line => exact ⟨hBasic, List.nil_prefix, nofun, nofun⟩

/-- The picture itself was not even tried. -/
theorem lands_picture_of_unled (hBasic : chip.extended = false) (frame : Screen.Frame)
    (led : Chip.Transferred false [Command.firstColumn, Command.firstBank] chip fault heard left)
    (hFault : fault ≠ none) : (picture frame).Lands fault heard left := by
  cases led with
  | all => exact absurd rfl hFault
  | nothing fault line => exact ⟨hBasic, List.nil_prefix, nofun, nofun⟩

/-- A picture whose place has been set is stored as a whole or not at all. -/
theorem lands_picture_of_led {place : Chip} {commands bytes : List (Bool × UInt8)}
    (hBasic : chip.extended = false) (frame : Screen.Frame)
    (led : Chip.Transferred false [Command.firstColumn, Command.firstBank] chip none commands place)
    (transferred : Chip.Transferred true frame.bytes.toList place fault bytes left) :
    (picture frame).Lands fault (commands ++ bytes) left := by
  cases led with
  | all =>
      have hListens : ({ chip with dataMode := false } : Chip).extended = false := hBasic
      rw [Chip.foldl_accept_commands rfl, Chip.obey_firstPlace hListens] at transferred
      cases transferred with
      | nothing fault line =>
          refine ⟨hBasic, ?_, nofun, nofun⟩
          rw [List.append_nil]
          exact List.prefix_append _ _
      | all =>
          have hMode : ({ chip with dataMode := true, column := 0, bank := 0 } : Chip).dataMode =
              true := rfl
          obtain ⟨hStored, hKept⟩ := Chip.foldl_accept_picture hMode frame.bytes.toList
          rw [hStored]
          refine ⟨hKept.trans hBasic, List.prefix_rfl, fun _ => rfl, ?_⟩
          rintro _ ⟨⟩ _
          exact Chip.memory_of_picture rfl frame

/-- Whatever becomes of an operation on a panel in the basic set. -/
theorem lands (hBasic : chip.extended = false) {operation : Operation} {attempts : List Attempt}
    (delivered : Delivered operation.signals attempts fault) (slips : Bool) :
    operation.Lands fault (chip.heard slips attempts) (attempts.foldl (Chip.see slips) chip) := by
  cases operation with
  | contrast level =>
      exact lands_contrast hBasic level (Chip.transferred_of_delivered delivered slips chip)
  | picture frame =>
      rcases delivered.of_append with ⟨hFirst, hFault⟩ | ⟨earlier, later, rfl, hFirst, hSecond⟩
      · exact lands_picture_of_unled hBasic frame
          (Chip.transferred_of_delivered hFirst slips chip) hFault
      · rw [Chip.heard_append, List.foldl_append]
        exact lands_picture_of_led hBasic frame (Chip.transferred_of_delivered hFirst slips chip)
          (Chip.transferred_of_delivered hSecond slips _)

end Operation

/-- Setting up has worked only if the panel has taken all of its commands. -/
theorem basic_of_setUp {attempts : List Attempt} (delivered : Delivered setUp attempts none)
    (slips : Bool) (chip : Chip) : (attempts.foldl (Chip.see slips) chip).extended = false := by
  rcases delivered.of_append with ⟨_, hFault⟩ | ⟨earlier, later, rfl, _, hCommands⟩
  · exact absurd rfl hFault
  · rw [List.foldl_append]
    have transferred :=
      Chip.transferred_of_delivered hCommands slips (earlier.foldl (Chip.see slips) chip)
    generalize Chip.heard _ _ _ = heard at transferred
    generalize later.foldl _ _ = left at transferred ⊢
    cases transferred
    rw [Chip.foldl_accept_commands rfl]
    exact Chip.obey_normalMode (Chip.extended_obey_basic _)

/-- What failed first is told by the report, up to which of the control lines it was. -/
theorem Signal.fault_of_wire {signal : Signal} {wire : Wire} (hWire : signal.wire? = some wire) :
    (∃ bytes, signal = .send bytes) ∧ wire.fault = .bus ∨
      ((∃ high, signal = .mode high) ∨ ∃ high, signal = .reset high) ∧ wire.fault = .line := by
  cases signal with
  | send bytes =>
      cases hWire
      exact Or.inl ⟨⟨bytes, rfl⟩, rfl⟩
  | mode high =>
      cases hWire
      exact Or.inr ⟨Or.inl ⟨high, rfl⟩, rfl⟩
  | reset high =>
      cases hWire
      exact Or.inr ⟨Or.inr ⟨high, rfl⟩, rfl⟩
  | wait duration => cases hWire

namespace Wired

variable {Line : Type} (carrier : Carrier Line)

/-- The panel after some operations, whatever became of them. -/
def after (wired : Wired Line) (operations : List Operation) : Wired Line :=
  operations.foldl (fun wired operation => (wired.send carrier operation.signals).2) wired

/-- The bytes that reach the panel with an operation. -/
def heard (wired : Wired Line) (operation : Operation) : List (Bool × UInt8) :=
  let delivery := deliverBy carrier.carry wired.line operation.signals
  wired.chip.heard (carrier.slips delivery.cable) delivery.attempts

/-- Whatever the carrier does with an operation, it lands as it should. -/
theorem lands {wired : Wired Line} (hBasic : wired.chip.extended = false)
    (operation : Operation) :
    operation.Lands (wired.send carrier operation.signals).1 (wired.heard carrier operation)
      (wired.send carrier operation.signals).2.chip :=
  Operation.lands hBasic (delivered_deliverBy _ _ _) _

/-- After any operations the panel is ready for the next one. -/
theorem basic_after {wired : Wired Line} (hBasic : wired.chip.extended = false)
    (operations : List Operation) : (wired.after carrier operations).chip.extended = false := by
  induction operations generalizing wired with
  | nil => exact hBasic
  | cons operation rest ih => exact ih (lands carrier hBasic operation).basic

/-- A panel behind any line, which held anything at power-on and has been set up. Whatever
has failed since then, every operation leaves it in the basic set, and what reaches it with
an operation is a beginning of the bytes of that operation, the commands under the low level
and the picture under the high one. A picture that is reported as shown fills the memory. An
operation that fails has tried nothing behind the failing signal, and the report tells
whether that one was for the bus or for a control line. -/
theorem shown_after_any_failures (wired : Wired Line)
    (hSetUp : (wired.send carrier setUp).1 = none) (operations : List Operation)
    (operation : Operation) :
    let found := (wired.send carrier setUp).2.after carrier operations
    let attempts := (deliverBy carrier.carry found.line operation.signals).attempts
    let heard := found.heard carrier operation
    let fault := (found.send carrier operation.signals).1
    let left := (found.send carrier operation.signals).2.chip
    left.extended = false ∧
      heard <+: operation.traffic ∧ (fault = none → heard = operation.traffic) ∧
      (∀ frame, operation = .picture frame → fault = none → left.memory = frame.bytes) ∧
      (fault = none ∧ attempts = operation.signals.map (⟨·, true⟩) ∨
        ∃ before failing rest, operation.signals = before ++ failing :: rest ∧
          attempts = before.map (⟨·, true⟩) ++ [⟨failing, false⟩] ∧
          ((∃ bytes, failing = .send bytes) ∧ fault = some .bus ∨
            ((∃ high, failing = .mode high) ∨ ∃ high, failing = .reset high) ∧
              fault = some .line)) := by
  intro found attempts heard fault left
  have delivered : Delivered operation.signals attempts fault :=
    delivered_deliverBy carrier.carry found.line operation.signals
  have hBooted : (wired.send carrier setUp).2.chip.extended = false := by
    have booted := delivered_deliverBy carrier.carry wired.line setUp
    rw [show (deliverBy carrier.carry wired.line setUp).fault = none from hSetUp] at booted
    exact basic_of_setUp booted _ wired.chip
  have lands : operation.Lands fault heard left :=
    Wired.lands carrier (basic_after carrier hBooted operations) operation
  refine ⟨lands.basic, lands.inOrder, lands.complete, lands.shown, ?_⟩
  rcases delivered.attempts_eq with
    hAll | ⟨before, failing, rest, wire, hSignals, hWire, hFault, hTried⟩
  · exact Or.inl hAll
  · refine Or.inr ⟨before, failing, rest, hSignals, hTried, ?_⟩
    rw [hFault]
    rcases failing.fault_of_wire hWire with ⟨hSend, hBus⟩ | ⟨hLine, hControl⟩
    · exact Or.inl ⟨hSend, congrArg some hBus⟩
    · exact Or.inr ⟨hLine, congrArg some hControl⟩

/-- A change of the contrast and a picture are lost, the picture with the address already
set. The panel was in the middle of another picture at power-on. -/
theorem shown_after_lost_picture :
    let carrier : Carrier (List Bool) :=
      ⟨fun verdicts _ => (verdicts.headD true, verdicts.tail), fun _ => true⟩
    let verdicts := [true, true, true, true] ++ [true, false] ++ [true, true, true, false]
    let wired : Wired (List Bool) :=
      ⟨verdicts, { dataMode := true, extended := true, column := 5, bank := 3 }⟩
    let frame := Screen.Frame.blank.set 5 9 true
    let found := (wired.send carrier setUp).2.after carrier [.contrast 0x40, .picture .blank]
    (wired.send carrier setUp).1 = none ∧ found.line = [] ∧
      (found.take carrier frame).1 = none ∧
        (found.take carrier frame).2.chip.memory = frame.bytes := by
  intro carrier verdicts wired frame found
  have hSetUp : (wired.send carrier setUp).1 = none := rfl
  have hShown : (found.take carrier frame).1 = none := rfl
  obtain ⟨_, _, _, hMemory, _⟩ := shown_after_any_failures carrier wired hSetUp
    [.contrast 0x40, .picture .blank] (.picture frame)
  exact ⟨hSetUp, rfl, hShown, hMemory frame rfl hShown⟩

end Wired

end TapeCutter.Panel
