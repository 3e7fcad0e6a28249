import TapeCutter.Dns.Resolver
import TapeCutter.Proofs.Controller.Moves

/-! The clock may stand anywhere. Two things look at it, the menu's gate and the resolver,
and both look only at how far it is from a time they have taken down before. So everything
goes as it goes on a clock that is ahead by any amount, wherever either of the two wraps,
and only the times that were taken down tell the two runs apart. -/
namespace TapeCutter

namespace Menu.Autorepeat

/-- The gate on a clock that is ahead. -/
def later (shift : UInt32) (gate : Autorepeat) : Autorepeat :=
  { gate with lastAccepted := gate.lastAccepted + shift }

/-- A gate knows how long it has waited, not what time it is. -/
theorem ready_later (gate : Autorepeat) (shift now interval : UInt32) :
    (gate.later shift).ready (now + shift) interval = gate.ready now interval := by
  have hWait : now + shift - (gate.lastAccepted + shift) = now - gate.lastAccepted := by grind
  rw [ready, later, hWait, ready]

end Menu.Autorepeat

def Sample.later (shift : UInt32) (sample : Sample) : Sample :=
  { sample with now := sample.now + shift }

namespace Controller

variable {Listener : Type}

/-- The same operation on a clock that is ahead. -/
def Operation.later (shift : UInt32) : Operation Listener → Operation Listener
  | .tick sample => .tick (sample.later shift)
  | operation => operation

/-- The controller on a clock that is ahead. The time of the last accepted move is ahead as
well if it is stamped; before the first move it is not a time. -/
def later (shift : UInt32) (stamped : Bool) (controller : Controller Listener) :
    Controller Listener :=
  { controller with
    gate := if stamped then controller.gate.later shift else controller.gate }

@[simp] theorem state_later (shift : UInt32) (stamped : Bool) (controller : Controller Listener) :
    (controller.later shift stamped).state = controller.state := rfl

/-- A gate without a stamp is as it was at power-on. -/
def FreshUnless (stamped : Bool) (controller : Controller Listener) : Prop :=
  stamped = false → controller.gate = {}

section

variable (shift : UInt32) (stamped : Bool) (controller : Controller Listener)

/-! The stages that do not look at the stick do not look at the clock. -/

/-- The step for the interlock does not look at the clock. -/
theorem guarded_later (interlock : Option Bool) :
    (controller.later shift stamped).guarded interlock =
      Prod.map (later shift stamped) id (controller.guarded interlock) := by
  cases interlock <;> rfl

/-- The push of the button does not look at the clock. -/
theorem toggle_later :
    (controller.later shift stamped).toggle =
      Prod.map (later shift stamped) id controller.toggle := by
  simp only [toggle, later]
  split <;> rfl

/-- A tick that pushes the switch is at its place on any clock. -/
theorem push_later (pressed : Bool) :
    (controller.later shift stamped).push pressed =
      Prod.map (later shift stamped) id (controller.push pressed) := by
  unfold push
  rw [state_later]
  split
  · exact toggle_later shift stamped (controller.hold pressed)
  · rfl

theorem finish_later :
    (controller.later shift stamped).finish =
      Prod.map (later shift stamped) id controller.finish := by
  simp only [finish, later]
  cases (controller.state.run.apply .runComplete).2 with
  | some transition => rfl
  | none =>
      dsimp only
      rw [apply_ite (Prod.map (later shift stamped) id)]
      rfl

/-! The stage that does. -/

variable {stamped controller}

/-- The gate of a controller is open at the same ticks on both clocks. Before the first move it
remembers no time that would have to be shifted, and is open on both. -/
theorem ready_later (hFresh : controller.FreshUnless stamped) (now interval : UInt32) :
    (controller.later shift stamped).gate.ready (now + shift) interval =
      controller.gate.ready now interval := by
  cases stamped with
  | true => exact controller.gate.ready_later shift now interval
  | false =>
      -- The gate is open, whatever time it holds.
      rw [show (controller.later shift false).gate = controller.gate from rfl, hFresh rfl]
      rfl

/-- The same moves are heeded. -/
theorem heeded?_later (hFresh : controller.FreshUnless stamped) (sample : Sample) :
    (controller.later shift stamped).heeded? (sample.later shift) = controller.heeded? sample := by
  unfold heeded?
  simp only [Sample.later, ready_later shift hFresh]
  rfl

/-- Looking at the stick commutes with the shift. Only a move that is heeded writes a time, and
then it is a time of the clock that is ahead. -/
theorem attend_later (hFresh : controller.FreshUnless stamped) (sample : Sample) :
    (controller.later shift stamped).attend (sample.later shift) =
      Prod.map (later shift (stamped || (controller.heeded? sample).isSome)) id
        (controller.attend sample) := by
  have hSame := heeded?_later shift hFresh sample
  by_cases hIdle : controller.state.run.status = .idle
  · have hIdleLater : (controller.later shift stamped).state.run.status = .idle := hIdle
    cases hHeeded : controller.heeded? sample with
    | some move =>
        rw [hHeeded] at hSame
        rw [attend_of_heeded hHeeded, attend_of_heeded hSame, Option.isSome_some, Bool.or_true]
        rfl
    | none =>
        rw [hHeeded] at hSame
        rw [Option.isSome_none, Bool.or_false]
        have hStickLater : (sample.later shift).stick.deflected = sample.stick.deflected := rfl
        cases hStick : sample.stick.deflected with
        | true =>
            rw [attend_of_rejected hIdle hStick hHeeded,
              attend_of_rejected hIdleLater (hStickLater.trans hStick) hSame]
            rfl
        | false =>
            rw [attend_of_centred hIdle hStick,
              attend_of_centred hIdleLater (hStickLater.trans hStick)]
            cases stamped <;> rfl
  · rw [show controller.heeded? sample = none from if_neg hIdle, Option.isSome_none, Bool.or_false]
    unfold attend
    rw [state_later]
    cases hStatus : controller.state.run.status with
    | idle => exact absurd hStatus hIdle
    | running => rfl
    | paused => rfl

/-- The time of a tick is looked at by the gate alone, after the interlock step and not before. -/
theorem tick_later (hFresh : controller.FreshUnless stamped) (sample : Sample) :
    (controller.later shift stamped).tick (sample.later shift) =
      Prod.map (later shift (stamped || (controller.accepted? (.tick sample)).isSome)) id
        (controller.tick sample) := by
  have hGuarded : (controller.guarded sample.interlock).1.FreshUnless stamped := by
    rw [FreshUnless, (guarded_entries controller sample.interlock).2.1]
    exact hFresh
  have hAttend := attend_later shift hGuarded sample
  rw [accepted?, Option.isSome_map]
  simp only [tick]
  rw [show (sample.later shift).interlock = sample.interlock from rfl,
    show (sample.later shift).stick = sample.stick from rfl, guarded_later]
  simp only [Prod.map_fst, Prod.map_snd, hAttend, push_later, state_later]
  split
  · rename_i hPaused
    have hNotIdle : (controller.guarded sample.interlock).1.state.run.status ≠ .idle := by
      simp [hPaused]
    rw [heeded?, if_neg hNotIdle, Option.isSome_none, Bool.or_false]
    rfl
  · rfl

/-- Every operation does on the clock that is ahead what it does on the other one, and the two
controllers differ by the shift as before. -/
theorem perform_later (hFresh : controller.FreshUnless stamped)
    (operation : Operation Listener) :
    (controller.later shift stamped).perform (operation.later shift) =
      Prod.map (later shift (stamped || (controller.accepted? operation).isSome)) id
        (controller.perform operation) := by
  -- Only a tick can accept a move.
  have hElse : ∀ result : Controller Listener × List (Effect Listener),
      Prod.map (later shift stamped) id result =
        Prod.map (later shift (stamped || false)) id result := by
    rw [Bool.or_false]
    exact fun _ => rfl
  cases operation with
  | tick sample => exact tick_later shift hFresh sample
  | start => exact hElse controller.start
  | setPaused paused => exact hElse (controller.setPaused paused)
  | finish => exact (finish_later shift stamped controller).trans (hElse controller.finish)
  | install listener => exact hElse (controller.install listener, [])

/-- Until a move is accepted the gate is as it was at power-on. -/
theorem freshUnless_perform (hFresh : controller.FreshUnless stamped)
    (operation : Operation Listener) :
    (controller.perform operation).1.FreshUnless
      (stamped || (controller.accepted? operation).isSome) := by
  intro hStamped
  obtain ⟨hBefore, hAccepted⟩ := Bool.or_eq_false_iff.mp hStamped
  rw [Option.isSome_eq_false_iff, Option.isNone_iff_eq_none] at hAccepted
  rw [gate_perform, hAccepted, hFresh hBefore]
  cases controller.rested? operation <;> rfl

end

end Controller

namespace Dns.Resolver

/-- The resolver on a clock that is ahead, which shows once it has made a pass. -/
def later (shift : UInt32) (resolver : Resolver) : Resolver :=
  { resolver with lastPass := resolver.lastPass.map (· + shift) }

theorem due_later (resolver : Resolver) (shift now : UInt32) :
    (resolver.later shift).due (now + shift) = resolver.due now := by
  unfold due later
  cases resolver.lastPass with
  | none => rfl
  | some last =>
      have hWait : now + shift - (last + shift) = now - last := by grind
      simp only [Option.map_some, hWait]

variable {Network : Type} (socket : Socket Network)

/-- What comes in is answered without a look at the clock. -/
theorem serve_later (resolver : Resolver) (shift : UInt32) (count : Nat) (buffer : List UInt8)
    (network : Network) :
    (resolver.later shift).serve socket count buffer network =
      resolver.serve socket count buffer network := by
  induction count generalizing buffer network with
  | zero => rfl
  | succ count ih =>
      simp only [serve, ih]
      rfl

/-- The network cannot tell the two clocks from what the resolver sends. -/
theorem pollOver_later (resolver : Resolver) (shift now : UInt32) (network : Network) :
    (resolver.later shift).pollOver socket (now + shift) network =
      Prod.map id (Prod.map (later shift) id) (resolver.pollOver socket now network) := by
  unfold pollOver
  rw [due_later, serve_later]
  split <;> rfl

end Dns.Resolver

/-- A controller and a resolver in one loop, and the network that the resolver is on. -/
structure Tandem (Listener Network : Type) where
  controller : Controller Listener
  resolver : Dns.Resolver
  network : Network

/-- What can happen next. -/
inductive Turn (Listener Network : Type) where
  | operate (operation : Controller.Operation Listener)
  | poll (now : UInt32)
  /-- The network changes by itself. -/
  | happen (change : Network → Network)

/-- What a turn brought about, and how it left the machine and the count of replies. -/
structure Outcome (Listener : Type) where
  effects : List (Controller.Effect Listener)
  replies : List Dns.Datagram
  state : Controller.State
  answered : UInt32

variable {Listener Network : Type}

def Turn.operation? : Turn Listener Network → Option (Controller.Operation Listener)
  | .operate operation => some operation
  | .poll _ => none
  | .happen _ => none

/-- The same turn on a clock that is ahead. -/
def Turn.later (shift : UInt32) : Turn Listener Network → Turn Listener Network
  | .operate operation => .operate (operation.later shift)
  | .poll now => .poll (now + shift)
  | .happen change => .happen change

namespace Tandem

open Controller

variable (socket : Dns.Socket Network)

/-- One turn, its requests, and the replies that got out. -/
def take (tandem : Tandem Listener Network) :
    Turn Listener Network → Tandem Listener Network × List (Effect Listener) × List Dns.Datagram
  | .operate operation =>
      let (controller, effects) := tandem.controller.perform operation
      ({ tandem with controller := controller }, effects, [])
  | .poll now =>
      let (replies, resolver, network) := tandem.resolver.pollOver socket now tandem.network
      ({ tandem with resolver := resolver, network := network }, [], replies)
  | .happen change => ({ tandem with network := change tandem.network }, [], [])

/-- Turns in order, and the outcome of each. -/
def run (tandem : Tandem Listener Network) :
    List (Turn Listener Network) → Tandem Listener Network × List (Outcome Listener)
  | [] => (tandem, [])
  | turn :: rest =>
      let (next, effects, replies) := tandem.take socket turn
      let (last, outcomes) := next.run rest
      (last, ⟨effects, replies, next.controller.state, next.resolver.answered⟩ :: outcomes)

/-- Both on a clock that is ahead. -/
def later (shift : UInt32) (stamped : Bool) (tandem : Tandem Listener Network) :
    Tandem Listener Network :=
  { tandem with
    controller := tandem.controller.later shift stamped
    resolver := tandem.resolver.later shift }

/-- The moves that are accepted in a run. -/
def moves (tandem : Tandem Listener Network) (turns : List (Turn Listener Network)) :
    List Accepted :=
  tandem.controller.glean accepted? (turns.filterMap Turn.operation?)

/-- A move is accepted in this turn. -/
def moved (tandem : Tandem Listener Network) (turn : Turn Listener Network) : Bool :=
  (turn.operation?.bind tandem.controller.accepted?).isSome

variable (shift : UInt32) {stamped : Bool} {tandem : Tandem Listener Network}

/-- One turn of either part, or of the network, keeps the two tandems apart by the shift. -/
theorem take_later (hFresh : tandem.controller.FreshUnless stamped)
    (turn : Turn Listener Network) :
    (tandem.later shift stamped).take socket (turn.later shift) =
      Prod.map (later shift (stamped || tandem.moved turn)) id (tandem.take socket turn) := by
  cases turn with
  | operate operation =>
      simp only [take, Turn.later]
      rw [show (tandem.later shift stamped).controller = tandem.controller.later shift stamped
        from rfl, perform_later shift hFresh]
      rfl
  | poll now =>
      rw [show tandem.moved (.poll now) = false from rfl, Bool.or_false]
      simp only [take, Turn.later]
      rw [show (tandem.later shift stamped).resolver = tandem.resolver.later shift from rfl,
        Dns.Resolver.pollOver_later]
      rfl
  | happen change =>
      rw [show tandem.moved (.happen change) = false from rfl, Bool.or_false]
      rfl

theorem freshUnless_take (hFresh : tandem.controller.FreshUnless stamped)
    (turn : Turn Listener Network) :
    (tandem.take socket turn).1.controller.FreshUnless (stamped || tandem.moved turn) := by
  cases turn with
  | operate operation => exact freshUnless_perform hFresh operation
  | poll now =>
      rw [show tandem.moved (.poll now) = false from rfl, Bool.or_false]
      exact hFresh
  | happen change =>
      rw [show tandem.moved (.happen change) = false from rfl, Bool.or_false]
      exact hFresh

theorem moves_cons (turn : Turn Listener Network) (rest : List (Turn Listener Network)) :
    tandem.moves (turn :: rest) =
      (turn.operation?.bind tandem.controller.accepted?).toList ++
        (tandem.take socket turn).1.moves rest := by
  cases turn <;> rfl

/-- A run shifted as a whole has the same outcomes, turn by turn. -/
theorem run_later (hFresh : tandem.controller.FreshUnless stamped)
    (turns : List (Turn Listener Network)) :
    (tandem.later shift stamped).run socket (turns.map (Turn.later shift)) =
      Prod.map (later shift (stamped || !(tandem.moves turns).isEmpty)) id
        (tandem.run socket turns) := by
  induction turns generalizing tandem stamped with
  | nil =>
      rw [show tandem.moves [] = [] from rfl, List.isEmpty_nil, Bool.not_true, Bool.or_false]
      rfl
  | cons turn rest ih =>
      have hMoves : (!(tandem.moves (turn :: rest)).isEmpty) =
          (tandem.moved turn || !((tandem.take socket turn).1.moves rest).isEmpty) := by
        rw [moves_cons socket, moved]
        cases turn.operation?.bind tandem.controller.accepted? <;> rfl
      simp only [List.map_cons, run]
      rw [take_later socket shift hFresh, hMoves, ← Bool.or_assoc]
      simp only [Prod.map_fst, ih (freshUnless_take socket hFresh turn)]
      rfl

/-- A controller and a resolver that has made no pass run in one loop, over any network and
with any socket. Were the clock ahead by any amount at every reading, wherever it may wrap,
all would be the same, turn by turn: the requests, the state of the machine, the replies
that get out and their count. What differs in the end, by that amount, is the time of the
last accepted move, if there was one, and the time of the last pass, if there was one. -/
theorem shift_unnoticed (menu : MenuSettings) (address : Address)
    (lifetime interval : UInt32) (network : Network) (turns : List (Turn Listener Network))
    (shift : UInt32) :
    let start : Tandem Listener Network :=
      ⟨powerOn menu, { address := address, lifetime := lifetime, interval := interval }, network⟩
    let plain := start.run socket turns
    let gate := plain.1.controller.gate
    start.run socket (turns.map (Turn.later shift)) =
      ({ plain.1 with
          controller := { plain.1.controller with
            gate :=
              if start.moves turns = [] then gate
              else { gate with lastAccepted := gate.lastAccepted + shift } }
          resolver := { plain.1.resolver with
            lastPass := plain.1.resolver.lastPass.map (· + shift) } },
        plain.2) := by
  intro start plain gate
  have hFresh : start.controller.FreshUnless false := fun _ => rfl
  refine (run_later socket shift hFresh turns).trans ?_
  cases start.moves turns <;> rfl

end Tandem

end TapeCutter
