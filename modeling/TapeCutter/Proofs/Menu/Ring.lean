import TapeCutter.Menu.Dial
import TapeCutter.Menu.Row

/-! Rows and dials as rings. A step forward adds one to the place on the ring and a step
back takes one away, up to a whole turn. The numbers in between are small: computed with
a check after every operation, both steps come out as they do on machine words. -/
namespace TapeCutter.Menu

/-- A number, if an unsigned word with this many values can hold it. -/
def word? (size : Nat) (number : Int) : Option Int :=
  if 0 ≤ number ∧ number < size then some number else none

/-- The remainder of a division, unless it is one by zero. -/
def remainder? (number divisor : Int) : Option Int :=
  if divisor = 0 then none else some (number % divisor)

theorem word?_eq_some {size : Nat} {number : Int} (hLow : 0 ≤ number) (hHigh : number < size) :
    word? size number = some number :=
  if_pos ⟨hLow, hHigh⟩

theorem remainder?_eq_some {number divisor : Int} (hDivisor : divisor ≠ 0) :
    remainder? number divisor = some (number % divisor) :=
  if_neg hDivisor

namespace Row

theorem index_below_int (row : Row) : (row.below.index : Int) = (row.index + 1) % 3 := by
  exact_mod_cast row.index_below

theorem index_above_int (row : Row) : (row.above.index : Int) = (row.index + -1) % 3 := by
  rw [row.index_above]
  omega

/-- The next row by its number, in bytes, every result checked. -/
def checkedBelow? (row : Row) : Option Row := do
  let next ← word? UInt8.size (row.index + 1)
  let place ← remainder? next 3
  Row.all[place.toNat]?

/-- The previous row by its number, in bytes, every result checked. -/
def checkedAbove? (row : Row) : Option Row := do
  let sum ← word? UInt8.size (row.index + 3)
  let next ← word? UInt8.size (sum - 1)
  let place ← remainder? next 3
  Row.all[place.toNat]?

/-- No step from this row leaves its bytes. -/
def StepsFit (row : Row) : Prop :=
  row.checkedBelow? = some row.below ∧ row.checkedAbove? = some row.above

theorem stepsFit (row : Row) : row.StepsFit := by
  cases row <;> exact ⟨rfl, rfl⟩

end Row

namespace Dial

/-- How far the dial is from one. -/
def place (dial : Dial) : Int := dial.value.toNat - 1

theorem value_up (dial : Dial) :
    (dial.up.value.toNat : Int) = dial.value.toNat % dial.max.toNat + 1 := by
  exact_mod_cast dial.toNat_upValue

/-- A step down in whole numbers, where no difference is cut off at zero. -/
theorem value_down (dial : Dial) :
    (dial.down.value.toNat : Int) =
      ((dial.value.toNat + dial.max.toNat - 2 : Nat) : Int) % dial.max.toNat + 1 := by
  exact_mod_cast dial.toNat_downValue

theorem place_up (dial : Dial) : dial.up.place = (dial.place + 1) % dial.max.toNat := by
  rw [place, place, value_up]
  simp

/-- A step down takes one away on the ring that begins with zero. -/
theorem place_down (dial : Dial) : dial.down.place = (dial.place + -1) % dial.max.toNat := by
  have hOne := dial.one_le
  have hMax := dial.le_max
  have hSum : ((dial.value.toNat + dial.max.toNat - 2 : Nat) : Int) =
      dial.value.toNat - 1 + -1 + dial.max.toNat := by omega
  rw [place, place, value_down, hSum, Int.add_emod_right]
  omega

/-- A dial at power-on is at one, and goes up to the maximum that is set, but at least to
one. -/
theorem ofMax_at_one (most : UInt8) :
    (Dial.ofMax most).place = 0 ∧ (Dial.ofMax most).max.toNat = Max.max 1 most.toNat := by
  unfold ofMax
  split
  · rename_i hZero
    rw [hZero]
    exact ⟨rfl, rfl⟩
  · rename_i hZero
    have hNat : most.toNat ≠ 0 := fun hNat => hZero (UInt8.toNat_inj.mp hNat)
    refine ⟨rfl, ?_⟩
    dsimp only
    omega

/-- A step up in bytes, every result checked. -/
def checkedUp? (dial : Dial) : Option Int := do
  let rest ← remainder? dial.value.toNat dial.max.toNat
  word? UInt8.size (rest + 1)

/-- A step down, every result checked. The sum is taken in sixteen bits, and what comes
of it has to fit a byte again. -/
def checkedDown? (dial : Dial) : Option Int := do
  let sum ← word? UInt16.size (dial.value.toNat + dial.max.toNat)
  let less ← word? UInt16.size (sum - 2)
  let rest ← remainder? less dial.max.toNat
  let next ← word? UInt16.size (rest + 1)
  word? UInt8.size next

/-- The step up never leaves its bytes. -/
theorem checkedUp?_eq (dial : Dial) : dial.checkedUp? = some (dial.up.value.toNat : Int) := by
  have hOne := dial.one_le
  have hMax := dial.le_max
  have hByte : dial.max.toNat < UInt8.size := dial.max.toNat_lt
  have hLess : dial.value.toNat % dial.max.toNat < dial.max.toNat := Nat.mod_lt _ (by omega)
  rw [checkedUp?, remainder?_eq_some (by omega), Option.bind_eq_bind, Option.bind_some, value_up]
  exact word?_eq_some (by omega) (by omega)

theorem checkedDown?_eq (dial : Dial) :
    dial.checkedDown? = some (dial.down.value.toNat : Int) := by
  have hOne := dial.one_le
  have hMax := dial.le_max
  have hByte : dial.max.toNat < UInt8.size := dial.max.toNat_lt
  have hWide : 2 * UInt8.size ≤ UInt16.size := by decide
  have hLess : (dial.value.toNat + dial.max.toNat - 2) % dial.max.toNat < dial.max.toNat :=
    Nat.mod_lt _ (by omega)
  have hSum : (dial.value.toNat + dial.max.toNat : Int) - 2 =
      (dial.value.toNat + dial.max.toNat - 2 : Nat) := by omega
  rw [checkedDown?, word?_eq_some (by omega) (by omega), Option.bind_eq_bind, Option.bind_some,
    hSum, word?_eq_some (by omega) (by omega), Option.bind_some,
    remainder?_eq_some (by omega), Option.bind_some, value_down,
    word?_eq_some (by omega) (by omega), Option.bind_some]
  exact word?_eq_some (by omega) (by omega)

/-- No step of this dial leaves its words. -/
def StepsFit (dial : Dial) : Prop :=
  dial.checkedUp? = some (dial.up.value.toNat : Int) ∧
    dial.checkedDown? = some (dial.down.value.toNat : Int)

theorem stepsFit (dial : Dial) : dial.StepsFit := ⟨dial.checkedUp?_eq, dial.checkedDown?_eq⟩

end Dial

end TapeCutter.Menu
