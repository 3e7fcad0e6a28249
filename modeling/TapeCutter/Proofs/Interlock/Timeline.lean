import TapeCutter.Interlock.Guard

/-! The life of the latch on one timeline. A look is two instants, the reading of the
level and the taking of the latch, and whatever happens may fall before, between or
after them. Here the latch is tied to what has happened, for any timeline. -/
namespace TapeCutter.Interlock

/-- An indivisible event in the life of a latch. -/
inductive Instant where
  | happens (happening : Happening)
  /-- The latch is taken on behalf of this observer. -/
  | taken (observer : Nat)

/-- An opening was latched, and none of these observers has taken the latch since. -/
def OpenedSince (takers : Nat → Prop) (timeline : List Instant) : Prop :=
  ∃ before after, timeline = before ++ .happens (.interrupted true) :: after ∧
    ∀ observer, .taken observer ∈ after → ¬takers observer

/-- An opening is still there at the end if it came later, or if it was the first instant and
nobody of these has taken it since. -/
theorem openedSince_cons {takers : Nat → Prop} {instant : Instant} {rest : List Instant} :
    OpenedSince takers (instant :: rest) ↔ OpenedSince takers rest ∨
      instant = .happens (.interrupted true) ∧
        ∀ observer, .taken observer ∈ rest → ¬takers observer := by
  constructor
  · rintro ⟨before, after, hSplit, hTaken⟩
    cases before with
    | nil =>
        cases hSplit
        exact Or.inr ⟨rfl, hTaken⟩
    | cons first before =>
        cases hSplit
        exact Or.inl ⟨before, after, rfl, hTaken⟩
  · rintro (⟨before, after, rfl, hTaken⟩ | ⟨rfl, hTaken⟩)
    · exact ⟨instant :: before, after, rfl, hTaken⟩
    · exact ⟨[], rest, rfl, hTaken⟩

theorem not_openedSince_nil (takers : Nat → Prop) : ¬OpenedSince takers [] := by
  rintro ⟨before, after, hSplit, _⟩
  exact List.append_ne_nil_of_right_ne_nil before (List.cons_ne_nil _ _) hSplit.symm

/-- If nobody else has taken the latch at all, it makes no difference who is counted. -/
theorem OpenedSince.of_taken {takers : Nat → Prop} {timeline : List Instant}
    (opened : OpenedSince takers timeline)
    (hTakers : ∀ observer, .taken observer ∈ timeline → takers observer) :
    OpenedSince (fun _ => True) timeline := by
  obtain ⟨before, after, rfl, hTaken⟩ := opened
  refine ⟨before, after, rfl, ?_⟩
  intro observer hMem _
  exact hTaken observer hMem
    (hTakers observer (List.mem_append_right before (List.mem_cons_of_mem _ hMem)))

namespace Guard

def endure (guard : Guard) : Instant → Guard
  | .happens happening => guard.undergo happening
  | .taken _ => guard.takeLatch.2

def outlast (guard : Guard) (timeline : List Instant) : Guard := timeline.foldl endure guard

theorem outlast_append (guard : Guard) (first second : List Instant) :
    guard.outlast (first ++ second) = (guard.outlast first).outlast second :=
  List.foldl_append

theorem outlast_map_happens (guard : Guard) (happenings : List Happening) :
    guard.outlast (happenings.map .happens) = happenings.foldl undergo guard :=
  List.foldl_map

/-- An interrupt at an open guard sets the latch, and any look takes it. -/
theorem latched_endure_iff (guard : Guard) (instant : Instant) :
    (guard.endure instant).latched = true ↔ instant = .happens (.interrupted true) ∨
      guard.latched = true ∧ ∀ observer, .taken observer ≠ instant := by
  cases instant with
  | taken observer => simp [endure, takeLatch]
  | happens happening =>
      cases happening with
      | moved high => simp [endure, undergo]
      | interrupted high => cases high <;> simp [endure, undergo, interrupt]

/-- The latch tells just what it is there for: whether an opening was latched that
nobody has taken. An opening that was there at the beginning lasts until the first
taking. -/
theorem latched_outlast_iff (guard : Guard) (timeline : List Instant) :
    (guard.outlast timeline).latched = true ↔ OpenedSince (fun _ => True) timeline ∨
      guard.latched = true ∧ ∀ observer, .taken observer ∉ timeline := by
  induction timeline generalizing guard with
  | nil => simp [outlast, not_openedSince_nil]
  | cons instant rest ih =>
      -- The first instant moves the latch that the rest of the timeline begins with.
      have hOutlast : guard.outlast (instant :: rest) = (guard.endure instant).outlast rest := rfl
      rw [hOutlast, ih, latched_endure_iff, openedSince_cons, or_assoc, or_and_right, and_assoc,
        ← forall_and]
      simp only [not_true_eq_false, imp_false, List.mem_cons, not_or, ne_eq]

/-- A look finds the guard open if the level is high at its first instant or the
latch is set at its second. -/
theorem lookAmid_open_iff (guard : Guard) (between : List Happening) :
    (guard.lookAmid between).1 = true ↔
      guard.level = true ∨ (guard.outlast (between.map .happens)).latched = true := by
  rw [outlast_map_happens]
  exact Bool.or_eq_true_iff

/-- A look finds the guard open if its level is high, or if it has been open since anybody's last
look, happenings within this look included. -/
theorem lookAmid_outlast_iff {guard : Guard} (hClear : guard.latched = false)
    (timeline : List Instant) (between : List Happening) :
    ((guard.outlast timeline).lookAmid between).1 = true ↔
      (guard.outlast timeline).level = true ∨
        OpenedSince (fun _ => True) (timeline ++ between.map .happens) := by
  rw [lookAmid_open_iff, ← outlast_append, latched_outlast_iff, hClear]
  simp only [Bool.false_eq_true, false_and, or_false]

theorem lookAmid_guard (guard : Guard) (between : List Happening) (observer : Nat) :
    (guard.lookAmid between).2 = guard.outlast (between.map .happens ++ [.taken observer]) := by
  rw [outlast_append, outlast_map_happens]
  rfl

end Guard

end TapeCutter.Interlock
