import TapeCutter.Proofs.Controller.Moves
import TapeCutter.Proofs.Menu.Ring

/-! The menu counts. Where the cursor is and what the dials are at follows from how many
moves of each kind were accepted, and for a dial on its own row; in which order they came,
and what happened in between, is of no account. -/
namespace TapeCutter.Controller

variable {Listener : Type}

/-- How many of these moves are of this kind. -/
def times (moves : List Accepted) (move : Menu.Move) : Int :=
  moves.countP fun accepted => accepted.move = move

/-- How many of these moves are of this kind, with the cursor on this row. -/
def timesOn (row : Menu.Row) (moves : List Accepted) (move : Menu.Move) : Int :=
  moves.countP fun accepted => accepted.row = row ∧ accepted.move = move

namespace Accepted

/-- How far a move takes the cursor down. -/
def rowStep (accepted : Accepted) : Int :=
  match accepted.move with
  | .rowDown => 1
  | .rowUp => -1
  | .valueUp => 0
  | .valueDown => 0

/-- How far a move turns the dial of a row up. -/
def dialStep (row : Menu.Row) (accepted : Accepted) : Int :=
  if accepted.row = row then
    match accepted.move with
    | .valueUp => 1
    | .valueDown => -1
    | .rowUp => 0
    | .rowDown => 0
  else 0

theorem index_turn (accepted : Accepted) (entries : Menu.Row × Menu.Dial × Menu.Dial) :
    ((accepted.turn entries).1.index : Int) = (entries.1.index + accepted.rowStep) % 3 := by
  obtain ⟨row, quantity, kits⟩ := entries
  obtain ⟨now, on, move⟩ := accepted
  cases move with
  | rowUp => exact row.index_above_int
  | rowDown => exact row.index_below_int
  | valueUp => cases row <;> rfl
  | valueDown => cases row <;> rfl

end Accepted

/-- How far moves take the cursor down in all. -/
def rowDrift (moves : List Accepted) : Int := times moves .rowDown - times moves .rowUp

/-- How far moves turn the dial of a row up in all. -/
def dialDrift (row : Menu.Row) (moves : List Accepted) : Int :=
  timesOn row moves .valueUp - timesOn row moves .valueDown

theorem rowDrift_concat (moves : List Accepted) (accepted : Accepted) :
    rowDrift (moves ++ [accepted]) = rowDrift moves + accepted.rowStep := by
  obtain ⟨now, row, move⟩ := accepted
  cases move <;> simp [rowDrift, times, Accepted.rowStep, List.countP_append] <;> omega

theorem dialDrift_concat (row : Menu.Row) (moves : List Accepted) (accepted : Accepted) :
    dialDrift row (moves ++ [accepted]) = dialDrift row moves + accepted.dialStep row := by
  obtain ⟨now, other, move⟩ := accepted
  by_cases hRow : other = row
  · cases move <;>
      simp [dialDrift, timesOn, Accepted.dialStep, List.countP_append, hRow] <;> omega
  · simp [dialDrift, timesOn, Accepted.dialStep, List.countP_append, hRow]

/-- A dial with this maximum, that many steps from one. -/
structure TurnedBy (dial : Menu.Dial) (most : Nat) (steps : Int) : Prop where
  max : dial.max.toNat = most
  place : dial.place = steps % most

/-- A dial that has been turned by so many steps is turned by one more, or not at all if the move
is not for its row. -/
theorem TurnedBy.turnDial {dial : Menu.Dial} {most : Nat} {steps : Int}
    (turned : TurnedBy dial most steps) (accepted : Accepted) (row : Menu.Row) :
    TurnedBy (accepted.turnDial row dial) most (steps + accepted.dialStep row) := by
  have hStays : TurnedBy dial most (steps + 0) := by
    rw [Int.add_zero]
    exact turned
  unfold Accepted.turnDial Accepted.dialStep
  split
  · cases accepted.move with
    | rowUp => exact hStays
    | rowDown => exact hStays
    | valueUp =>
        refine ⟨turned.max, ?_⟩
        dsimp only
        rw [Menu.Dial.place_up, turned.max, turned.place, Int.emod_add_emod]
    | valueDown =>
        refine ⟨turned.max, ?_⟩
        dsimp only
        rw [Menu.Dial.place_down, turned.max, turned.place, Int.emod_add_emod]
  · exact hStays

/-- A dial shows where its steps have taken it, counted round the ring. -/
theorem TurnedBy.value {dial : Menu.Dial} {most : Nat} {steps : Int}
    (turned : TurnedBy dial most steps) : (dial.value.toNat : Int) = 1 + steps % most := by
  rw [← turned.place, Menu.Dial.place]
  omega

/-- The entries of a menu with these maxima, by the accepted moves. -/
structure Tallied (most mostKits : Nat) (moves : List Accepted)
    (entries : Menu.Row × Menu.Dial × Menu.Dial) : Prop where
  row : (entries.1.index : Int) = rowDrift moves % 3
  quantity : TurnedBy entries.2.1 most (dialDrift .quantityPerKit moves)
  kits : TurnedBy entries.2.2 mostKits (dialDrift .kitCount moves)

/-- One more accepted move keeps the tally. -/
theorem Tallied.turn {most mostKits : Nat} {moves : List Accepted}
    {entries : Menu.Row × Menu.Dial × Menu.Dial} (tallied : Tallied most mostKits moves entries)
    (accepted : Accepted) :
    Tallied most mostKits (moves ++ [accepted]) (accepted.turn entries) := by
  constructor
  · rw [rowDrift_concat, ← Int.emod_add_emod, ← tallied.row]
    exact accepted.index_turn entries
  · rw [dialDrift_concat]
    exact tallied.quantity.turnDial accepted .quantityPerKit
  · rw [dialDrift_concat]
    exact tallied.kits.turnDial accepted .kitCount

/-- After any run the entries are where the accepted moves have turned them. -/
theorem tallied_run (menu : MenuSettings) (operations : List (Operation Listener)) :
    Tallied (max 1 menu.maxQuantityPerKit.toNat) (max 1 menu.maxKitCount.toNat)
      ((powerOn menu : Controller Listener).glean accepted? operations)
      ((powerOn menu : Controller Listener).run operations).1.state.entries := by
  have hStart : Tallied (max 1 menu.maxQuantityPerKit.toNat) (max 1 menu.maxKitCount.toNat) []
      (powerOn menu : Controller Listener).state.entries := by
    obtain ⟨hPlace, hMax⟩ := Menu.Dial.ofMax_at_one menu.maxQuantityPerKit
    obtain ⟨hPlaceKits, hMaxKits⟩ := Menu.Dial.ofMax_at_one menu.maxKitCount
    exact ⟨rfl, ⟨hMax, hPlace.trans (Int.zero_emod _).symm⟩,
      ⟨hMaxKits, hPlaceKits.trans (Int.zero_emod _).symm⟩⟩
  refine glean_invariant (fun moves controller =>
    Tallied (max 1 menu.maxQuantityPerKit.toNat) (max 1 menu.maxKitCount.toNat) moves
      controller.state.entries) ?_ hStart operations
  intro moves controller operation tallied
  rw [entries_perform]
  cases controller.accepted? operation with
  | some accepted => exact tallied.turn accepted
  | none =>
      rw [Option.toList_none, List.append_nil]
      exact tallied

/-- After any run, the cursor and the dials told by the moves that were accepted in it: the
row is as many rows down as there were moves down more than up, round the menu, and a dial
is as many steps from one as it was turned up more than down on its own row, round its
range. An accepted move makes its one change, and nothing but an accepted move makes any.
All numbers on the way, computed with checks, fit their words. -/
theorem entries_count_moves (menu : MenuSettings) (operations : List (Operation Listener)) :
    let start : Controller Listener := powerOn menu
    let moves := start.glean accepted? operations
    let controller := (start.run operations).1
    let state := controller.state
    (state.row.index : Int) = (times moves .rowDown - times moves .rowUp) % 3 ∧
      (state.quantityPerKit.value.toNat : Int) =
        1 + (timesOn .quantityPerKit moves .valueUp - timesOn .quantityPerKit moves .valueDown) %
          (max 1 menu.maxQuantityPerKit.toNat : Nat) ∧
      (state.kitCount.value.toNat : Int) =
        1 + (timesOn .kitCount moves .valueUp - timesOn .kitCount moves .valueDown) %
          (max 1 menu.maxKitCount.toNat : Nat) ∧
      (∀ operation, (controller.perform operation).1.state.entries =
        match controller.accepted? operation with
        | some accepted => accepted.turn state.entries
        | none => state.entries) ∧
      state.row.StepsFit ∧ state.quantityPerKit.StepsFit ∧ state.kitCount.StepsFit := by
  intro start moves controller state
  have tallied : Tallied _ _ moves state.entries := tallied_run menu operations
  refine ⟨tallied.row, tallied.quantity.value, tallied.kits.value, ?_, state.row.stepsFit,
    state.quantityPerKit.stepsFit, state.kitCount.stepsFit⟩
  intro operation
  rw [entries_perform]
  cases controller.accepted? operation <;> rfl

end TapeCutter.Controller
