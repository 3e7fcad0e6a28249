import TapeCutter.Controller.Step

/-! The past of a controller as an outsider sees it: what was asked, and what was
requested in return, operation by operation. Notes about the past are a fold over
it. An invariant between the notes and the controller that one operation keeps
holds after every run. A reader who is told of the requests only, and not of the
operations, keeps notes of the signals among them. -/
namespace TapeCutter.Controller

variable {Listener : Type}

/-- One operation and the requests it made. The controller's state is not part
of it. -/
structure Entry (Listener : Type) where
  operation : Operation Listener
  effects : List (Effect Listener)

/-- The entries of a run, oldest first. -/
def history (controller : Controller Listener) :
    List (Operation Listener) → List (Entry Listener)
  | [] => []
  | operation :: rest =>
      let (next, effects) := controller.perform operation
      ⟨operation, effects⟩ :: next.history rest

/-- An outsider's record of a run is complete: it has all requests, in order. -/
theorem flatMap_history (controller : Controller Listener)
    (operations : List (Operation Listener)) :
    (controller.history operations).flatMap Entry.effects = (controller.run operations).2 := by
  induction operations generalizing controller with
  | nil => rfl
  | cons operation rest ih =>
      simp only [history, run, List.flatMap_cons, ih]

/-- Lift an invariant between notes and controller from one operation to a run.
Nothing is assumed about how far the notes go back. -/
theorem run_invariant {Note : Type} (note : Note → Entry Listener → Note)
    (Holds : Note → Controller Listener → Prop)
    (hStep : ∀ notes controller operation, Holds notes controller →
      Holds (note notes ⟨operation, (controller.perform operation).2⟩)
        (controller.perform operation).1)
    {notes : Note} {controller : Controller Listener} (hHolds : Holds notes controller)
    (operations : List (Operation Listener)) :
    Holds ((controller.history operations).foldl note notes) (controller.run operations).1 := by
  induction operations generalizing notes controller with
  | nil => exact hHolds
  | cons operation rest ih => exact ih (hStep notes controller operation hHolds)

section

variable {Signal Note : Type} {signal? : Effect Listener → Option Signal}
  {read? : Note → Signal → Option Note}

/-- The signals among requests take a reader from one note to another. A reader who
finds a signal out of place has no note left. -/
def Leads (signal? : Effect Listener → Option Signal) (read? : Note → Signal → Option Note)
    (before : Note) (effects : List (Effect Listener)) (after : Note) : Prop :=
  (effects.filterMap signal?).foldlM read? before = some after

theorem leads_of_silent {effects : List (Effect Listener)}
    (hSilent : effects.filterMap signal? = []) (note : Note) :
    Leads signal? read? note effects note := by
  rw [Leads, hSilent]
  rfl

/-- A reader who gets through all requests gets through their first part, and through the rest
from there. -/
theorem leads_append_iff {before after : Note} {first second : List (Effect Listener)} :
    Leads signal? read? before (first ++ second) after ↔
      ∃ middle, Leads signal? read? before first middle ∧
        Leads signal? read? middle second after := by
  simp only [Leads, List.filterMap_append, List.foldlM_append]
  exact Option.bind_eq_some_iff

theorem Leads.append {before middle after : Note} {first second : List (Effect Listener)}
    (hFirst : Leads signal? read? before first middle)
    (hSecond : Leads signal? read? middle second after) :
    Leads signal? read? before (first ++ second) after :=
  leads_append_iff.mpr ⟨middle, hFirst, hSecond⟩

/-- A reader reads one signal after the other. -/
theorem leads_cons_iff {before after : Note} {effect : Effect Listener} {signal : Signal}
    {rest : List (Effect Listener)} (hSignal : signal? effect = some signal) :
    Leads signal? read? before (effect :: rest) after ↔
      ∃ middle, read? before signal = some middle ∧ Leads signal? read? middle rest after := by
  simp only [Leads, List.filterMap_cons_some hSignal, List.foldlM_cons]
  exact Option.bind_eq_some_iff

theorem Leads.cons {before middle after : Note} {effect : Effect Listener} {signal : Signal}
    {rest : List (Effect Listener)} (hSignal : signal? effect = some signal)
    (hRead : read? before signal = some middle) (hRest : Leads signal? read? middle rest after) :
    Leads signal? read? before (effect :: rest) after :=
  (leads_cons_iff hSignal).mpr ⟨middle, hRead, hRest⟩

/-- Requests that are no signal pass the reader by. -/
theorem leads_cons_silent_iff {before after : Note} {effect : Effect Listener}
    {rest : List (Effect Listener)} (hSilent : signal? effect = none) :
    Leads signal? read? before (effect :: rest) after ↔ Leads signal? read? before rest after := by
  rw [Leads, List.filterMap_cons_none hSilent]
  exact Iff.rfl

end

end TapeCutter.Controller
