/-! Runs of any machine that takes one event after another. What is of interest about a
run is picked out of it by someone who sees every event together with the state that it
finds. -/
namespace TapeCutter.Trace

variable {State Event Found : Type}

/-- What is picked out of a run, oldest first. -/
def collect (step : State → Event → State) (pick : State → Event → List Found) (state : State) :
    List Event → List Found
  | [] => []
  | event :: rest => pick state event ++ collect step pick (step state event) rest

variable {step : State → Event → State} {pick : State → Event → List Found}

@[simp] theorem collect_nil (state : State) : collect step pick state [] = [] := rfl

theorem collect_cons (state : State) (event : Event) (rest : List Event) :
    collect step pick state (event :: rest) =
      pick state event ++ collect step pick (step state event) rest := rfl

/-- What is picked out of a run goes on from the state that its first part has left. -/
theorem collect_append (state : State) (first second : List Event) :
    collect step pick state (first ++ second) =
      collect step pick state first ++ collect step pick (first.foldl step state) second := by
  induction first generalizing state with
  | nil => rfl
  | cons event rest ih =>
      simp only [List.cons_append, collect_cons, List.foldl_cons, ih, List.append_assoc]

theorem collect_concat (state : State) (events : List Event) (event : Event) :
    collect step pick state (events ++ [event]) =
      collect step pick state events ++ pick (events.foldl step state) event := by
  rw [collect_append, collect_cons, collect_nil, List.append_nil]

/-- Two machines that stay related, and show the same while they are, show the same in a run. -/
theorem collect_eq_of_related {Other : Type} {stepOther : Other → Event → Other}
    {pickOther : Other → Event → List Found} (Related : State → Other → Prop)
    (hStep : ∀ state other event, Related state other →
      pick state event = pickOther other event ∧
        Related (step state event) (stepOther other event))
    {state : State} {other : Other} (hRelated : Related state other) (events : List Event) :
    collect step pick state events = collect stepOther pickOther other events := by
  induction events generalizing state other with
  | nil => rfl
  | cons event rest ih =>
      obtain ⟨hHere, hNext⟩ := hStep state other event hRelated
      rw [collect_cons, collect_cons, hHere, ih hNext]

/-- The last of what is picked out of a list is picked out of its front only if nothing behind
gives anything. -/
theorem getLast?_filterMap_cons (pick? : Event → Option Found) (first : Event)
    (rest : List Event) :
    ((first :: rest).filterMap pick?).getLast? =
      (rest.filterMap pick?).getLast?.or (pick? first) := by
  rw [List.filterMap_cons]
  cases pick? first with
  | none => exact (Option.or_none).symm
  | some value =>
      rw [List.getLast?_cons]
      cases (rest.filterMap pick?).getLast? <;> rfl

end TapeCutter.Trace
