import Mathlib.Data.List.Induction
import TapeCutter.Panel.Chip

/-! What bytes do to the chip. One level of the mode line holds for a whole transfer, since
neither a command nor a byte of a picture moves it. Commands can lead a panel in the basic
instruction set to the first place, and a picture stored from there fills the memory. -/
namespace TapeCutter.Panel

namespace Chip

/-! A picture fills the memory. -/

/-- The address goes on by one and comes round at the end of the memory. -/
theorem address_advance (chip : Chip) :
    chip.advance.address.val = (chip.address.val + 1) % Screen.size := by
  have hColumn := chip.column.isLt
  have hBank := chip.bank.isLt
  unfold advance
  split
  · rename_i hLast
    simp only [address, hLast, Fin.val_add, Screen.size]
    omega
  · rename_i hMore
    have hBefore : chip.column.val ≠ 83 := fun hEq => hMore (Fin.ext hEq)
    simp only [address, Fin.val_add, Screen.size]
    omega

theorem memory_advance (chip : Chip) : chip.advance.memory = chip.memory := by
  unfold advance
  split <;> rfl

theorem address_store (chip : Chip) (byte : UInt8) :
    (chip.store byte).address.val = (chip.address.val + 1) % Screen.size :=
  address_advance _

theorem memory_store (chip : Chip) (byte : UInt8) :
    (chip.store byte).memory = chip.memory.set chip.address byte chip.address.isLt :=
  memory_advance _

/-- Bytes stored from the first place on stand in the memory in their order. -/
theorem memory_foldl_store {chip : Chip} (hFirst : chip.address.val = 0) (bytes : List UInt8)
    (hRoom : bytes.length ≤ Screen.size) :
    (bytes.foldl store chip).address.val = bytes.length % Screen.size ∧
      ∀ i < bytes.length, (bytes.foldl store chip).memory[i]? = bytes[i]? := by
  induction bytes using List.reverseRecOn with
  | nil => exact ⟨hFirst, fun i hi => absurd hi (Nat.not_lt_zero i)⟩
  | append_singleton before byte ih =>
      rw [List.length_append, List.length_singleton] at hRoom
      obtain ⟨hAddress, hMemory⟩ := ih (Nat.le_of_succ_le hRoom)
      rw [Nat.mod_eq_of_lt hRoom] at hAddress
      rw [List.foldl_append, List.foldl_cons, List.foldl_nil, address_store, memory_store]
      constructor
      · rw [hAddress, List.length_append, List.length_singleton]
      · intro i hi
        rw [List.length_append, List.length_singleton] at hi
        rcases Nat.lt_succ_iff_lt_or_eq.mp hi with hBefore | rfl
        · have hOther : (before.foldl store chip).address.val ≠ i := by omega
          rw [Vector.getElem?_set_ne _ hOther, List.getElem?_append_left hBefore]
          exact hMemory i hBefore
        · rw [List.getElem?_concat_length, ← hAddress, Vector.getElem?_set_self]

theorem memory_of_picture {chip : Chip} (hFirst : chip.address.val = 0) (frame : Screen.Frame) :
    (frame.bytes.toList.foldl store chip).memory = frame.bytes := by
  have hLength : frame.bytes.toList.length = Screen.size := Vector.length_toList
  obtain ⟨_, hMemory⟩ := memory_foldl_store hFirst frame.bytes.toList (Nat.le_of_eq hLength)
  apply Vector.ext
  intro i hi
  have hSame := hMemory i (Nat.lt_of_lt_of_eq hi hLength.symm)
  rw [Vector.getElem?_toList, Vector.getElem?_eq_getElem hi, Vector.getElem?_eq_getElem hi] at hSame
  exact Option.some_inj.mp hSame

/-! Neither commands nor pictures move the mode line, so one level holds for a whole transfer. -/

theorem dataMode_obey (chip : Chip) (byte : UInt8) : (chip.obey byte).dataMode = chip.dataMode := by
  unfold obey
  repeat' split
  all_goals rfl

theorem store_kept (chip : Chip) (byte : UInt8) :
    (chip.store byte).dataMode = chip.dataMode ∧ (chip.store byte).extended = chip.extended := by
  unfold store advance
  split <;> exact ⟨rfl, rfl⟩

/-- With the mode line low every byte is a command, since no command moves the line. -/
theorem foldl_accept_commands {chip : Chip} (hMode : chip.dataMode = false) (bytes : List UInt8) :
    bytes.foldl accept chip = bytes.foldl obey chip := by
  induction bytes generalizing chip with
  | nil => rfl
  | cons byte rest ih =>
      have hHere : chip.accept byte = chip.obey byte := by simp [accept, hMode]
      rw [List.foldl_cons, List.foldl_cons, hHere, ih ((dataMode_obey chip byte).trans hMode)]

/-- With the mode line high every byte is stored, and storing leaves the set of commands alone. -/
theorem foldl_accept_picture {chip : Chip} (hMode : chip.dataMode = true) (bytes : List UInt8) :
    bytes.foldl accept chip = bytes.foldl store chip ∧
      (bytes.foldl store chip).extended = chip.extended := by
  induction bytes generalizing chip with
  | nil => exact ⟨rfl, rfl⟩
  | cons byte rest ih =>
      have hHere : chip.accept byte = chip.store byte := by simp [accept, hMode]
      obtain ⟨hKeptMode, hKeptSet⟩ := store_kept chip byte
      obtain ⟨hRest, hSet⟩ := ih (hKeptMode.trans hMode)
      rw [List.foldl_cons, List.foldl_cons, hHere]
      exact ⟨hRest, hSet.trans hKeptSet⟩

theorem extended_obey_basic (chip : Chip) : (chip.obey Command.basic).extended = false := rfl

/-- To choose the picture mode is no command of the extended set. -/
theorem obey_normalMode {chip : Chip} (hBasic : chip.extended = false) :
    (chip.obey Command.normalMode).extended = false := by
  cases chip
  cases hBasic
  rfl

/-- The two commands in front of a picture lead a panel in the basic set to the first place. -/
theorem obey_firstPlace {chip : Chip} (hBasic : chip.extended = false) :
    [Command.firstColumn, Command.firstBank].foldl obey chip =
      { chip with column := 0, bank := 0 } := by
  cases chip
  cases hBasic
  rfl

end Chip

end TapeCutter.Panel
