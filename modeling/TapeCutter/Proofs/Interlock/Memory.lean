import TapeCutter.Interlock.Observers

/-! What the observers of the interlock remember. A look replaces the memory of
the one who looks by the level found, whether or not that was news, and touches
no other memory. -/
namespace TapeCutter.Interlock.Observers

/-- The level an observer remembers. Who has not looked yet remembers none, and nor
does a number nobody was given. -/
def memory (observers : Observers) (observer : Nat) : Option Bool :=
  (observers.seen[observer]?).join

/-- Looking at a level that is remembered already writes it again. -/
theorem seen_poll (observers : Observers) (observer : Nat) (tripped : Bool) :
    (observers.poll observer tripped).2.1.seen =
      observers.seen.set observer (some tripped) := by
  unfold poll
  split
  · rename_i hNobody
    exact (List.set_eq_of_length_le (List.getElem?_eq_none_iff.mp hNobody)).symm
  · rename_i before hBefore
    split
    · rename_i hSame
      obtain ⟨hPlace, hMemory⟩ := List.getElem?_eq_some_iff.mp hBefore
      rw [← hSame, ← hMemory, List.set_getElem_self]
    · rfl

/-- News is what differs from the memory. The first look always does. -/
theorem poll_answer {observers : Observers} {observer : Nat} {before : Option Bool}
    (hBefore : observers.seen[observer]? = some before) (tripped : Bool) :
    (observers.poll observer tripped).1 =
      if before = some tripped then none else some tripped := by
  simp only [poll, hBefore]
  split <;> rfl

/-- Who looks remembers what was found. -/
theorem seen_poll_self {observers : Observers} {observer : Nat} {before : Option Bool}
    (hBefore : observers.seen[observer]? = some before) (tripped : Bool) :
    (observers.poll observer tripped).2.1.seen[observer]? = some (some tripped) := by
  rw [seen_poll]
  exact List.getElem?_set_self (List.getElem?_eq_some_iff.mp hBefore).1

/-- The look of one observer is no concern of another. -/
theorem seen_poll_of_ne {observer other : Nat} (hOther : other ≠ observer)
    (observers : Observers) (tripped : Bool) :
    (observers.poll other tripped).2.1.seen[observer]? = observers.seen[observer]? := by
  rw [seen_poll]
  exact List.getElem?_set_ne hOther

/-- To join leaves the memories of the others alone. -/
theorem seen_subscribe {observers : Observers} {observer : Nat} {before : Option Bool}
    (hBefore : observers.seen[observer]? = some before) :
    observers.subscribe.2.seen[observer]? = some before := by
  unfold subscribe
  split
  · rw [List.getElem?_append_left (List.getElem?_eq_some_iff.mp hBefore).1, hBefore]
  · exact hBefore

theorem seen_of_subscribe {observers after : Observers} {observer : Nat}
    (hJoined : observers.subscribe = (.ok observer, after)) :
    after.seen[observer]? = some none := by
  unfold subscribe at hJoined
  split at hJoined
  · cases hJoined
    exact List.getElem?_concat_length
  · cases hJoined

/-- An observer is told what it finds unless it remembers it. -/
theorem poll_answer_of_joined {observers : Observers} {observer : Nat}
    (hJoined : observer < observers.count) (tripped : Bool) :
    (observers.poll observer tripped).1 =
      if observers.memory observer = some tripped then none else some tripped := by
  have hPlace := List.getElem?_eq_getElem (l := observers.seen) hJoined
  rw [poll_answer hPlace, memory, hPlace]
  rfl

theorem memory_subscribe (observers : Observers) (observer : Nat) :
    observers.subscribe.2.memory observer = observers.memory observer := by
  unfold subscribe
  split
  · by_cases hThere : observer < observers.seen.length
    · rw [memory, List.getElem?_append_left hThere, memory]
    · rw [Nat.not_lt] at hThere
      rw [memory, List.getElem?_append_right hThere, memory, List.getElem?_eq_none hThere]
      cases observer - observers.seen.length <;> rfl
  · rfl

/-- What an observer is told it remembers; told nothing, it has found what it
remembers already. -/
theorem memory_poll_self (observers : Observers) (observer : Nat) (tripped : Bool) :
    (observers.poll observer tripped).2.1.memory observer =
      (observers.poll observer tripped).1.or (observers.memory observer) := by
  cases hBefore : observers.seen[observer]? with
  | none => simp [poll, hBefore]
  | some before =>
      rw [memory, seen_poll_self hBefore, poll_answer hBefore, memory, hBefore]
      split
      · rename_i hSame
        exact hSame.symm
      · rfl

theorem memory_poll_of_ne {observer other : Nat} (hOther : other ≠ observer)
    (observers : Observers) (tripped : Bool) :
    (observers.poll other tripped).2.1.memory observer = observers.memory observer := by
  rw [memory, seen_poll_of_ne hOther, memory]

end TapeCutter.Interlock.Observers
