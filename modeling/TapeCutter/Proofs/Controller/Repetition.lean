import TapeCutter.Proofs.Controller.Moves
import TapeCutter.Proofs.Controller.Sights

/-! The pace of the menu. A deflected stick moves an idle machine at once if it was centred
since the last accepted move, and otherwise as soon as the interval of its direction has
passed since then. Everything the gate holds against a move is in the past of the run:
which moves were accepted, and which ticks found the stick at rest. -/
namespace TapeCutter

/-- The time that goes by along readings of a clock that wraps. A step from one reading to
the next counts as the shortest it can be. -/
def elapsed (since : UInt32) : List UInt32 → Nat
  | [] => 0
  | next :: rest => (next - since).toNat + elapsed next rest

/-- No reading on the way is farther from the last one than the whole way is long. -/
theorem sub_le_elapsed {since reading last : UInt32} {readings : List UInt32}
    (hMem : reading ∈ since :: readings) :
    (last - reading).toNat ≤ elapsed since (readings ++ [last]) := by
  induction readings generalizing since reading with
  | nil =>
      rw [List.mem_singleton.mp hMem]
      exact Nat.le_refl _
  | cons next rest ih =>
      rw [List.cons_append, elapsed]
      rcases List.mem_cons.mp hMem with rfl | hLater
      · have hSplit : last - reading = (last - next) + (next - reading) := by grind
        have hRest : (last - next).toNat ≤ _ := ih List.mem_cons_self
        rw [hSplit, UInt32.toNat_add]
        omega
      · have hRest := ih hLater
        omega

namespace Controller

variable {Listener : Type}

def Operation.now? : Operation Listener → Option UInt32
  | .tick sample => some sample.now
  | _ => none

/-- The readings of the clock at the ticks, oldest first. -/
def readings (operations : List (Operation Listener)) : List UInt32 :=
  operations.filterMap Operation.now?

/-- Some tick found the stick at rest, and no move has been accepted after it. -/
def RestedSince (controller : Controller Listener) (operations : List (Operation Listener)) :
    Prop :=
  ∃ earlier later, operations = earlier ++ later ∧
    (controller.run earlier).1.glean accepted? later = [] ∧
      (controller.run earlier).1.glean rested? later ≠ []

theorem not_restedSince_nil (controller : Controller Listener) :
    ¬controller.RestedSince [] := by
  rintro ⟨earlier, later, hSplit, _, hRested⟩
  rw [(List.append_eq_nil_iff.mp hSplit.symm).2] at hRested
  exact hRested rfl

/-- The rest since the last move lies behind the first operation of a run or in it. In it, it
counts as long as nothing is accepted behind. -/
theorem restedSince_cons_iff {controller : Controller Listener} {operation : Operation Listener}
    {rest : List (Operation Listener)} :
    controller.RestedSince (operation :: rest) ↔
      (controller.perform operation).1.RestedSince rest ∨
        controller.accepted? operation = none ∧ controller.rested? operation ≠ none ∧
          (controller.perform operation).1.glean accepted? rest = [] := by
  constructor
  · rintro ⟨earlier, later, hSplit, hNone, hRested⟩
    cases earlier with
    | nil =>
        rw [List.nil_append] at hSplit
        rw [← hSplit] at hNone hRested
        obtain ⟨hHere, hLater⟩ := glean_cons_eq_nil_iff.mp hNone
        by_cases hRest : (controller.perform operation).1.glean rested? rest = []
        · right
          refine ⟨hHere, ?_, hLater⟩
          intro hOperation
          exact hRested (glean_cons_eq_nil_iff.mpr ⟨hOperation, hRest⟩)
        · exact Or.inl ⟨[], rest, rfl, hLater, hRest⟩
    | cons first earlier =>
        obtain ⟨rfl, hRest⟩ := List.cons_eq_cons.mp hSplit
        exact Or.inl ⟨earlier, later, hRest, hNone, hRested⟩
  · rintro (⟨earlier, later, hSplit, hNone, hRested⟩ | ⟨hHere, hRested, hLater⟩)
    · exact ⟨operation :: earlier, later, congrArg _ hSplit, hNone, hRested⟩
    · refine ⟨[], operation :: rest, rfl, glean_cons_eq_nil_iff.mpr ⟨hHere, hLater⟩, ?_⟩
      intro hNil
      exact hRested (glean_cons_eq_nil_iff.mp hNil).1

/-- A rest after an accepted move is one in the operations that follow the move. -/
theorem rested_of_accepted {controller : Controller Listener}
    {earlier between : List (Operation Listener)} {operation : Operation Listener}
    (hAccepted : (controller.run earlier).1.accepted? operation ≠ none)
    (hRested : controller.RestedSince (earlier ++ operation :: between)) :
    ((controller.run earlier).1.perform operation).1.glean rested? between ≠ [] := by
  induction earlier generalizing controller with
  | nil =>
      rcases restedSince_cons_iff.mp hRested with ⟨before, after, rfl, _, hAfter⟩ | ⟨hNone, _⟩
      · rw [glean_append]
        exact fun hNil => hAfter (List.append_eq_nil_iff.mp hNil).2
      · exact absurd hNone hAccepted
  | cons first rest ih =>
      rw [List.cons_append] at hRested
      rcases restedSince_cons_iff.mp hRested with hLater | ⟨_, _, hNone⟩
      · exact ih hAccepted hLater
      · rw [glean_append] at hNone
        have hHere := (List.append_eq_nil_iff.mp hNone).2
        exact absurd (glean_cons_eq_nil_iff.mp hHere).1 hAccepted

/-- The gate is open after a run if it was before and no move has been accepted, or if the stick
has rested since the last one. -/
theorem rearmed_run (controller : Controller Listener) (operations : List (Operation Listener)) :
    (controller.run operations).1.gate.rearmed = true ↔
      controller.gate.rearmed = true ∧ controller.glean accepted? operations = [] ∨
        controller.RestedSince operations := by
  induction operations generalizing controller with
  | nil =>
      simp only [glean_nil, not_restedSince_nil, or_false, and_true]
      exact Iff.rfl
  | cons operation rest ih =>
      rw [run_cons, ih, gate_perform, restedSince_cons_iff, glean_cons_eq_nil_iff]
      cases hAccepted : controller.accepted? operation with
      | some accepted => simp [Menu.Autorepeat.accept]
      | none =>
          cases hRested : controller.rested? operation with
          | some now =>
              simp only [Menu.Autorepeat.rearm, true_and, ne_eq, reduceCtorEq, not_false_eq_true]
              constructor
              · rintro (hNone | hLater)
                · exact Or.inr (Or.inr hNone)
                · exact Or.inr (Or.inl hLater)
              · rintro (⟨_, hNone⟩ | hLater | hNone)
                · exact Or.inl hNone
                · exact Or.inr hLater
                · exact Or.inl hNone
          | none => simp

/-- The time that the gate remembers is that of the last accepted move. -/
theorem lastAccepted_run (controller : Controller Listener)
    (operations : List (Operation Listener)) :
    (controller.run operations).1.gate.lastAccepted =
      ((controller.glean accepted? operations).getLast?.map Accepted.now).getD
        controller.gate.lastAccepted := by
  induction operations generalizing controller with
  | nil => rfl
  | cons operation rest ih =>
      rw [run_cons, ih, gate_perform, glean_cons]
      cases hAccepted : controller.accepted? operation with
      | some accepted =>
          rw [Option.toList_some, List.singleton_append, List.getLast?_cons]
          cases ((controller.perform operation).1.glean accepted? rest).getLast? <;> rfl
      | none => cases controller.rested? operation <;> rfl

/-- What the gate of a run says, told by the run. -/
theorem ready_run (menu : MenuSettings) (operations : List (Operation Listener))
    (now interval : UInt32) :
    let start : Controller Listener := powerOn menu
    let moves := start.glean accepted? operations
    (start.run operations).1.gate.ready now interval = true ↔
      moves = [] ∨ start.RestedSince operations ∨
        ∃ last, moves.getLast? = some last ∧ interval ≤ now - last.now := by
  intro start moves
  have hRearmed : _ ↔ true = true ∧ moves = [] ∨ _ := rearmed_run start operations
  have hLast : _ = (moves.getLast?.map Accepted.now).getD 0 := lastAccepted_run start operations
  rw [Menu.Autorepeat.ready, Bool.or_eq_true, decide_eq_true_iff, hRearmed, hLast, or_assoc]
  simp only [true_and]
  -- The time that the gate starts with never counts: without a move it is open anyway.
  cases hMoves : moves.getLast? with
  | none =>
      rw [List.getLast?_eq_none_iff.mp hMoves]
      simp
  | some last => simp

/-- A move is accepted at the time of its tick. -/
theorem now_of_accepted {controller : Controller Listener} {operation : Operation Listener}
    {accepted : Accepted} (hAccepted : controller.accepted? operation = some accepted) :
    operation.now? = some accepted.now := by
  cases operation with
  | tick sample =>
      obtain ⟨_, _, rfl⟩ := Option.map_eq_some_iff.mp hAccepted
      rfl
  | start => cases hAccepted
  | setPaused paused => cases hAccepted
  | finish => cases hAccepted
  | install listener => cases hAccepted

/-- The times of accepted moves are readings of the clock in the run. -/
theorem mem_readings_of_accepted {controller : Controller Listener}
    {operations : List (Operation Listener)} {accepted : Accepted}
    (hMem : accepted ∈ controller.glean accepted? operations) :
    accepted.now ∈ readings operations := by
  obtain ⟨found, operation, hOperation, hAccepted⟩ := exists_of_mem_glean hMem
  exact List.mem_filterMap.mpr ⟨operation, hOperation, now_of_accepted hAccepted⟩

/-- Where the gate opens without a rest since some accepted move, the interval has passed
since the last accepted move, and that is the one in question or lies after it. -/
theorem exists_waited {menu : MenuSettings} {earlier between : List (Operation Listener)}
    {operation : Operation Listener} {now interval : UInt32} {accepted : Accepted}
    (hReady : ((powerOn menu : Controller Listener).run
      (earlier ++ operation :: between)).1.gate.ready now interval = true)
    (hAccepted : ((powerOn menu : Controller Listener).run earlier).1.accepted? operation =
      some accepted)
    (hRest : (((powerOn menu : Controller Listener).run earlier).1.perform
      operation).1.glean rested? between = []) :
    ∃ last, (accepted :: (((powerOn menu : Controller Listener).run earlier).1.perform
        operation).1.glean accepted? between).getLast? = some last ∧
      interval ≤ now - last.now := by
  have hSome : ((powerOn menu : Controller Listener).run earlier).1.accepted? operation ≠ none := by
    rw [hAccepted]
    exact nofun
  rcases (ready_run menu _ now interval).mp hReady with hNone | hRested | ⟨last, hLast, hWait⟩
  · rw [glean_append, List.append_eq_nil_iff] at hNone
    exact absurd (glean_cons_eq_nil_iff.mp hNone.2).1 hSome
  · exact absurd hRest (rested_of_accepted hSome hRested)
  · rw [glean_append, glean_cons, hAccepted, Option.toList_some, List.singleton_append,
      List.getLast?_append, List.getLast?_cons, Option.some_or, ← List.getLast?_cons] at hLast
    exact ⟨last, hLast, hWait⟩

/-- Without a rest since some accepted move, the gate stays closed until the interval has
passed since then. If the move is the last that was accepted, the two readings say so
themselves. -/
theorem apart_of_restless {menu : MenuSettings} {earlier between : List (Operation Listener)}
    {first : Sample} {now interval : UInt32}
    (hReady : ((powerOn menu : Controller Listener).run
      (earlier ++ .tick first :: between)).1.gate.ready now interval = true)
    (hFirst : ((powerOn menu : Controller Listener).run earlier).1.accepted? (.tick first) ≠ none)
    (hRest : (((powerOn menu : Controller Listener).run earlier).1.perform
      (.tick first)).1.glean rested? between = []) :
    interval.toNat ≤ elapsed first.now (readings between ++ [now]) ∧
      ((((powerOn menu : Controller Listener).run earlier).1.perform
          (.tick first)).1.glean accepted? between = [] →
        interval ≤ now - first.now) := by
  obtain ⟨accepted, hAccepted⟩ := Option.ne_none_iff_exists'.mp hFirst
  have hNow : first.now = accepted.now := Option.some_inj.mp (now_of_accepted hAccepted)
  obtain ⟨last, hLast, hWait⟩ := exists_waited hReady hAccepted hRest
  constructor
  · have hMem : last.now ∈ first.now :: readings between := by
      rcases List.mem_cons.mp (List.mem_of_getLast? hLast) with rfl | hBetween
      · rw [hNow]
        exact List.mem_cons_self
      · exact List.mem_cons_of_mem _ (mem_readings_of_accepted hBetween)
    exact Nat.le_trans (UInt32.le_iff_toNat_le.mp hWait) (sub_le_elapsed hMem)
  · intro hNone
    rw [hNone] at hLast
    obtain rfl : accepted = last := Option.some_inj.mp hLast
    rw [hNow]
    exact hWait

/-- An accepted move is made, and the machine is shown in full, once. -/
theorem attend_of_accepted {controller : Controller Listener} {sample : Sample}
    {accepted : Accepted} (hAccepted : controller.accepted? (.tick sample) = some accepted) :
    let attended := (controller.guarded sample.interlock).1.attend sample
    attended.1.state.entries = accepted.turn controller.state.entries ∧
      sights attended.2 = attended.1.state.refresh := by
  intro attended
  obtain ⟨move, hHeeded, rfl⟩ := Option.map_eq_some_iff.mp hAccepted
  have hAttend : attended = _ := attend_of_heeded hHeeded
  rw [hAttend, ← (guarded_entries controller sample.interlock).1]
  constructor
  · exact entries_moved _ sample.now move
  · rw [sights_append, (unseen_moved _ move).sights_eq_nil, sights_refresh]
    rfl

/-- After any run, whether the menu accepts the move of a deflected stick in a tick that
finds the machine idle, told by the run itself: it is the first move of all, or some tick
found the stick at rest since the last accepted move, or the interval of its direction has
passed since then. An accepted move is made and shown in full, once; one that is not
accepted leaves no trace. So without a rest in between, an accepted move comes after every
earlier one by its interval at least, whatever lies between them, and wherever the clock
wraps; for the one just before it, the difference of their two readings says so. -/
theorem accepted_iff_rested_or_waited (menu : MenuSettings)
    (operations : List (Operation Listener)) (sample : Sample) (move : Menu.Move) :
    let start : Controller Listener := powerOn menu
    let controller := (start.run operations).1
    let moves := start.glean accepted? operations
    let guarded := (controller.guarded sample.interlock).1
    let attended := guarded.attend sample
    let accepted : Accepted := ⟨sample.now, controller.state.row, move⟩
    let interval := if move.vertical then menu.verticalRepeat else menu.horizontalRepeat
    guarded.state.run.status = .idle → sample.stick.move? = some move →
      (controller.accepted? (.tick sample) = some accepted ↔
        moves = [] ∨ start.RestedSince operations ∨
          ∃ last, moves.getLast? = some last ∧ interval ≤ sample.now - last.now) ∧
      (controller.accepted? (.tick sample) = some accepted →
        attended.1.state.entries = accepted.turn controller.state.entries ∧
          sights attended.2 = attended.1.state.refresh) ∧
      (controller.accepted? (.tick sample) ≠ some accepted → attended = (guarded, [])) ∧
      (controller.accepted? (.tick sample) = some accepted →
        ∀ earlier first between, operations = earlier ++ .tick first :: between →
          let found := (start.run earlier).1
          let next := (found.perform (.tick first)).1
          found.accepted? (.tick first) ≠ none → next.glean rested? between = [] →
            interval.toNat ≤ elapsed first.now (readings between ++ [sample.now]) ∧
              (next.glean accepted? between = [] → interval ≤ sample.now - first.now)) := by
  intro start controller moves guarded attended accepted interval hIdle hMove
  have hReady : controller.accepted? (.tick sample) = some accepted ↔
      controller.gate.ready sample.now interval = true := by
    have hInterval : controller.menu.repeatInterval move = interval := by
      rw [menu_run]
      rfl
    rw [← hInterval]
    exact accepted?_eq_some_iff hIdle hMove
  refine ⟨hReady.trans (ready_run menu operations sample.now interval), attend_of_accepted,
    attend_of_not_accepted hIdle hMove, ?_⟩
  rintro hTaken earlier first between rfl found next hFirst hRest
  exact apart_of_restless (hReady.mp hTaken) hFirst hRest

/-- The stick is held up from just before the clock wraps until after it. A pause in between,
in which the stick is at rest, does not count as a rest, so the second move is refused
until half a second is over. -/
theorem accepted_after_waiting_amid_wrap :
    let up : Menu.Stick := { up := true }
    let first : Sample := ⟨0xFFFFFF00, none, some false, up⟩
    let between : List (Operation Unit) :=
      [.setPaused true, .tick ⟨0xFFFFFFF0, none, none, {}⟩, .setPaused false,
        .tick ⟨100, none, none, up⟩]
    let operations : List (Operation Unit) := .start :: .tick first :: between
    let sample : Sample := ⟨300, none, none, up⟩
    let start : Controller Unit := powerOn {}
    let controller := (start.run operations).1
    (controller.guarded sample.interlock).1.state.run.status = .idle ∧
      sample.stick.move? = some .rowUp ∧
        start.glean accepted? operations = [⟨0xFFFFFF00, .quantityPerKit, .rowUp⟩] ∧
          controller.accepted? (.tick sample) = some ⟨300, .startStop, .rowUp⟩ ∧
            500 ≤ elapsed first.now (readings between ++ [sample.now]) := by
  intro up first between operations sample start controller
  have hIdle : (controller.guarded sample.interlock).1.state.run.status = .idle := rfl
  have hMoves : start.glean accepted? operations = [⟨0xFFFFFF00, .quantityPerKit, .rowUp⟩] := by
    decide
  obtain ⟨hIff, _, _, hApart⟩ :=
    accepted_iff_rested_or_waited {} operations sample .rowUp hIdle rfl
  have hTaken : controller.accepted? (.tick sample) = some ⟨300, .startStop, .rowUp⟩ := by
    refine hIff.mpr (Or.inr (Or.inr ⟨_, congrArg List.getLast? hMoves, ?_⟩))
    decide
  refine ⟨hIdle, rfl, hMoves, hTaken, ?_⟩
  exact (hApart hTaken [.start] first between rfl (by decide) (by decide)).1

end Controller

end TapeCutter
