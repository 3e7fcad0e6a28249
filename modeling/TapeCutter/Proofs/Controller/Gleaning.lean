import TapeCutter.Proofs.Controller.Stages
import TapeCutter.Proofs.Trace

/-! What can be picked out of a run by someone who sees every operation together with
the controller that it finds. The history of a run knows the requests only; what an
operation found is needed where it decides whether the operation counts for anything. -/
namespace TapeCutter.Controller

variable {Listener α : Type}

/-- A run of the controller, as a run of a machine that shows nothing. -/
theorem run_eq_foldl (controller : Controller Listener) (operations : List (Operation Listener)) :
    (controller.run operations).1 =
      operations.foldl (fun found operation => (found.perform operation).1) controller := by
  induction operations generalizing controller with
  | nil => rfl
  | cons operation rest ih => rw [run_cons, List.foldl_cons, ih]

/-- What is picked out of a run, oldest first. Every operation gives one thing at most. -/
def glean (pick? : Controller Listener → Operation Listener → Option α)
    (controller : Controller Listener) : List (Operation Listener) → List α :=
  Trace.collect (fun found operation => (found.perform operation).1)
    (fun found operation => (pick? found operation).toList) controller

variable {pick? : Controller Listener → Operation Listener → Option α}

@[simp] theorem glean_nil (controller : Controller Listener) :
    controller.glean pick? [] = [] := rfl

theorem glean_cons (controller : Controller Listener) (operation : Operation Listener)
    (rest : List (Operation Listener)) :
    controller.glean pick? (operation :: rest) =
      (pick? controller operation).toList ++
        (controller.perform operation).1.glean pick? rest :=
  Trace.collect_cons controller operation rest

/-- What is picked out of a run goes on from the controller that its first part has left. -/
theorem glean_append (controller : Controller Listener)
    (first second : List (Operation Listener)) :
    controller.glean pick? (first ++ second) =
      controller.glean pick? first ++ (controller.run first).1.glean pick? second := by
  rw [run_eq_foldl]
  exact Trace.collect_append controller first second

/-- Nothing is picked out of a run just if nothing is at any operation. -/
theorem glean_cons_eq_nil_iff {controller : Controller Listener} {operation : Operation Listener}
    {rest : List (Operation Listener)} :
    controller.glean pick? (operation :: rest) = [] ↔
      pick? controller operation = none ∧
        (controller.perform operation).1.glean pick? rest = [] := by
  rw [glean_cons, List.append_eq_nil_iff]
  cases pick? controller operation <;> simp

theorem mem_glean_cons_iff {controller : Controller Listener} {operation : Operation Listener}
    {rest : List (Operation Listener)} {picked : α} :
    picked ∈ controller.glean pick? (operation :: rest) ↔
      pick? controller operation = some picked ∨
        picked ∈ (controller.perform operation).1.glean pick? rest := by
  rw [glean_cons, List.mem_append, Option.mem_toList]

/-- Whatever is picked comes from an operation of the run. -/
theorem exists_of_mem_glean {controller : Controller Listener}
    {operations : List (Operation Listener)} {picked : α}
    (hMem : picked ∈ controller.glean pick? operations) :
    ∃ found, ∃ operation ∈ operations, pick? found operation = some picked := by
  induction operations generalizing controller with
  | nil => cases hMem
  | cons operation rest ih =>
      rcases mem_glean_cons_iff.mp hMem with hHere | hLater
      · exact ⟨controller, operation, List.mem_cons_self, hHere⟩
      · obtain ⟨found, other, hOther, hPick⟩ := ih hLater
        exact ⟨found, other, List.mem_cons_of_mem operation hOther, hPick⟩

/-- Lift an invariant between what has been picked and the controller from one operation
to a run. -/
theorem glean_invariant (Holds : List α → Controller Listener → Prop)
    (hStep : ∀ picked controller operation, Holds picked controller →
      Holds (picked ++ (pick? controller operation).toList) (controller.perform operation).1)
    {picked : List α} {controller : Controller Listener} (hHolds : Holds picked controller)
    (operations : List (Operation Listener)) :
    Holds (picked ++ controller.glean pick? operations) (controller.run operations).1 := by
  induction operations generalizing picked controller with
  | nil =>
      rw [glean_nil, List.append_nil]
      exact hHolds
  | cons operation rest ih =>
      rw [glean_cons, run_cons, ← List.append_assoc]
      exact ih (hStep picked controller operation hHolds)

end TapeCutter.Controller
