/-! A number between one and a maximum that wraps at both ends. The values are
bytes; the bounds are part of the type, so no step can leave them. -/
namespace TapeCutter.Menu

structure Dial where
  value : UInt8
  max : UInt8
  one_le : 1 ≤ value.toNat
  le_max : value.toNat ≤ max.toNat
deriving DecidableEq

namespace Dial

/-- A dial at one. A maximum of zero counts as one. -/
def ofMax (max : UInt8) : Dial :=
  if hZero : max = 0 then ⟨1, 1, by decide, by decide⟩
  else
    ⟨1, max, by decide, by
      have : max.toNat ≠ 0 := fun hNat => hZero (UInt8.toNat_inj.mp hNat)
      simp only [UInt8.toNat_one]
      omega⟩

/-- The byte after this one; the maximum leads to one. -/
def upValue (dial : Dial) : UInt8 := dial.value % dial.max + 1

/-- The byte before this one; one leads to the maximum. The sum needs more
than a byte, so it is taken in sixteen bits. -/
def downValue (dial : Dial) : UInt8 :=
  ((dial.value.toUInt16 + dial.max.toUInt16 - 2) % dial.max.toUInt16 + 1).toUInt8

/-- A step up is one on a ring that begins with one. -/
theorem toNat_upValue (dial : Dial) :
    dial.upValue.toNat = dial.value.toNat % dial.max.toNat + 1 := by
  have hOne := dial.one_le
  have hMax := dial.le_max
  have hByte := dial.max.toNat_lt
  have hLess : dial.value.toNat % dial.max.toNat < dial.max.toNat := Nat.mod_lt _ (by omega)
  simp only [upValue, UInt8.toNat_add, UInt8.toNat_mod, UInt8.toNat_one]
  omega

/-- A step down goes all but one of the way round the ring. -/
theorem toNat_downValue (dial : Dial) :
    dial.downValue.toNat = (dial.value.toNat + dial.max.toNat - 2) % dial.max.toNat + 1 := by
  have hOne := dial.one_le
  have hMax := dial.le_max
  have hByte := dial.max.toNat_lt
  have hValue := dial.value.toNat_lt
  have hSum : (dial.value.toUInt16 + dial.max.toUInt16 - 2).toNat =
      dial.value.toNat + dial.max.toNat - 2 := by
    rw [UInt16.toNat_sub_of_le]
    · simp only [UInt16.toNat_add, UInt8.toNat_toUInt16, UInt16.reduceToNat]
      omega
    · rw [UInt16.le_iff_toNat_le]
      simp only [UInt16.toNat_add, UInt8.toNat_toUInt16, UInt16.reduceToNat]
      omega
  have hLess : (dial.value.toNat + dial.max.toNat - 2) % dial.max.toNat < dial.max.toNat :=
    Nat.mod_lt _ (by omega)
  simp only [downValue, UInt16.toNat_toUInt8, UInt16.toNat_add, UInt16.toNat_mod, hSum,
    UInt8.toNat_toUInt16, UInt16.toNat_one]
  omega

def up (dial : Dial) : Dial where
  value := dial.upValue
  max := dial.max
  one_le := by rw [toNat_upValue]; omega
  le_max := by
    have hOne := dial.one_le
    have hMax := dial.le_max
    have hLess : dial.value.toNat % dial.max.toNat < dial.max.toNat := Nat.mod_lt _ (by omega)
    rw [toNat_upValue]
    omega

def down (dial : Dial) : Dial where
  value := dial.downValue
  max := dial.max
  one_le := by rw [toNat_downValue]; omega
  le_max := by
    have hOne := dial.one_le
    have hMax := dial.le_max
    have hLess : (dial.value.toNat + dial.max.toNat - 2) % dial.max.toNat < dial.max.toNat :=
      Nat.mod_lt _ (by omega)
    rw [toNat_downValue]
    omega

end Dial

end TapeCutter.Menu
