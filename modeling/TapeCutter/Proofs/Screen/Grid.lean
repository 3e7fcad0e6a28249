import Mathlib.Data.Int.Range
import Mathlib.Data.List.Nodup
import Mathlib.Data.List.ProdSigma
import Mathlib.Data.Prod.Basic
import TapeCutter.Proofs.Screen.Locality

/-! Pictures as grids of dark and light places. A picture in memory is nothing but its grid,
written into bytes bank by bank; whatever is done to the bytes is done to the grid place by
place. A rectangle may lie anywhere and be of any size, and counts as far as the screen goes. -/
namespace TapeCutter.Screen

/-- Whether each place of the screen is dark, by column and row. -/
abbrev Grid := Fin width → Fin height → Bool

/-- What can be done to a picture. -/
inductive Edit where
  | set (x y : Int) (on : Bool)
  | invert (area : Area)
  | clear (area : Area)
  | clearAll
  | plot (pixels : List (Int × Int × Bool))

/-- The places that an edit is about, on the screen or not. -/
def Edit.Touches (x y : Int) : Edit → Prop
  | set x' y' _ => x = x' ∧ y = y'
  | invert area => area.covers x y
  | clear area => area.covers x y
  | clearAll => True
  | plot pixels => ∃ on, (x, y, on) ∈ pixels

namespace Grid

def cell (grid : Grid) (x y : Int) : Bool :=
  if inside : 0 ≤ x ∧ x < 84 ∧ 0 ≤ y ∧ y < 48 then
    grid ⟨x.toNat, by unfold width; omega⟩ ⟨y.toNat, by unfold height; omega⟩
  else false

def put (grid : Grid) (x y : Int) (on : Bool) : Grid :=
  fun column row => if x = column ∧ y = row then on else grid column row

/-- An edit place by place. -/
def edit (grid : Grid) : Edit → Grid
  | .set x y on => grid.put x y on
  | .invert area => fun column row =>
      if area.covers column row then !grid column row else grid column row
  | .clear area => fun column row => if area.covers column row then false else grid column row
  | .clearAll => fun _ _ => false
  | .plot pixels => pixels.foldl (fun grid (x, y, on) => grid.put x y on) grid

end Grid

/-- The byte that a place is kept in: eight rows to a bank, one column to a byte. -/
def byteOf (column : Fin width) (row : Fin height) : Fin size :=
  ⟨column + 84 * (row / 8), by
    have hColumn : column.val < 84 := column.isLt
    have hRow : row.val < 48 := row.isLt
    unfold size
    omega⟩

theorem bitAt_xor_bit (byte : UInt8) (k j : Fin 8) :
    bitAt (byte ^^^ bit k) j = (bitAt byte j ^^ decide (k = j)) := by
  simp only [bitAt_eq_getLsbD, UInt8.toBitVec_xor, BitVec.getLsbD_xor, getLsbD_bit]

/-- The mask of a bit turns this bit over and no other. -/
theorem xor_bit (byte : UInt8) (k : Fin 8) : byte ^^^ bit k = putBit byte k (!bitAt byte k) := by
  refine eq_of_bitAt_eq fun j => ?_
  rw [bitAt_xor_bit, bitAt_putBit]
  by_cases hPlace : k = j
  · simp [hPlace]
  · simp [hPlace]

namespace Area

/-- The places of a rectangle, row by row. -/
def points (area : Area) : List (Int × Int) :=
  (Int.range area.top area.bottom ×ˢ Int.range area.left area.right).map Prod.swap

theorem mem_points_iff {area : Area} {x y : Int} : (x, y) ∈ area.points ↔ area.covers x y := by
  rw [points, covers_iff, List.mem_map]
  constructor
  · rintro ⟨⟨y', x'⟩, hMem, hSwap⟩
    cases hSwap
    rw [List.mem_product, Int.mem_range_iff, Int.mem_range_iff] at hMem
    exact hMem.symm
  · rintro ⟨hx, hy⟩
    exact ⟨(y, x), List.mem_product.mpr ⟨Int.mem_range_iff.mpr hy, Int.mem_range_iff.mpr hx⟩, rfl⟩

/-- No place is visited twice. -/
theorem nodup_points (area : Area) : area.points.Nodup := by
  have hOnce : ∀ low high : Int, (Int.range low high).Nodup := fun low high =>
    List.Nodup.map (fun _ _ hSame => Int.ofNat_inj.mp (Int.add_left_cancel hSame)) List.nodup_range
  exact ((hOnce _ _).product (hOnce _ _)).map Prod.swap_injective

end Area

theorem onScreen_of_fin (column : Fin width) (row : Fin height) : OnScreen column row := by
  have hColumn : column.val < 84 := column.isLt
  have hRow : row.val < 48 := row.isLt
  unfold OnScreen
  omega

namespace Frame

variable (frame : Frame)

def edit : Edit → Frame
  | .set x y on => frame.set x y on
  | .invert area => frame.invert area
  | .clear area => frame.clear area
  | .clearAll => .blank
  | .plot pixels => frame.plot pixels

/-- The grid that a picture is kept for. -/
def grid : Grid := fun column row => frame.pixel column row

theorem grid_apply (column : Fin width) (row : Fin height) :
    frame.grid column row = frame.pixel column row := rfl

/-- What a frame says of a place, also of one beyond its edges, is what the grid says. -/
theorem pixel_eq_cell (x y : Int) : frame.pixel x y = frame.grid.cell x y := by
  unfold Grid.cell
  split
  · rename_i hInside
    rw [grid, Int.toNat_of_nonneg hInside.1, Int.toNat_of_nonneg hInside.2.2.1]
  · rename_i hOutside
    exact frame.pixel_eq_false_of_outside hOutside

theorem grid_set (x y : Int) (on : Bool) : (frame.set x y on).grid = frame.grid.put x y on := by
  funext column row
  rw [grid, pixel_set, Grid.put]
  by_cases hPlace : x = column ∧ y = row
  · obtain ⟨rfl, rfl⟩ := hPlace
    have hInside := onScreen_of_fin column row
    rw [if_pos ⟨rfl, rfl, hInside⟩, if_pos ⟨rfl, rfl⟩]
  · rw [if_neg hPlace, if_neg fun hAll => hPlace ⟨hAll.1.symm, hAll.2.1.symm⟩, grid]

theorem grid_plot (pixels : List (Int × Int × Bool)) :
    (frame.plot pixels).grid =
      pixels.foldl (fun grid (x, y, on) => grid.put x y on) frame.grid := by
  induction pixels generalizing frame with
  | nil => rfl
  | cons pixel rest ih =>
      obtain ⟨x, y, on⟩ := pixel
      refine (ih (frame.set x y on)).trans ?_
      rw [grid_set]
      rfl

/-- What is done to the bytes is done to the grid. -/
theorem grid_edit (edit : Edit) : (frame.edit edit).grid = frame.grid.edit edit := by
  cases edit with
  | set x y on => exact frame.grid_set x y on
  | invert area =>
      funext column row
      have hInside := onScreen_of_fin column row
      rw [grid_apply, Frame.edit, pixel_invert _ _ ⟨hInside.1, hInside.2.1⟩ hInside.2.2]
      change _ = if area.covers column row then !frame.pixel column row else frame.pixel column row
      cases area.covers column row <;> simp
  | clear area =>
      funext column row
      rw [grid_apply, Frame.edit, pixel_clear]
      change _ = if area.covers column row then false else frame.pixel column row
      cases area.covers column row <;> simp
  | clearAll =>
      funext column row
      exact pixel_blank column row
  | plot pixels => exact frame.grid_plot pixels

/-- The edits of a frame are edits of its grid. -/
theorem grid_foldl_edit (edits : List Edit) :
    (edits.foldl edit frame).grid = edits.foldl Grid.edit frame.grid := by
  induction edits generalizing frame with
  | nil => rfl
  | cons first rest ih => rw [List.foldl_cons, List.foldl_cons, ih, grid_edit]

/-- The rows of a bank stand in the bits of its bytes, the top row in the lowest. -/
theorem testBit_byteOf (column : Fin width) (row : Fin height) :
    frame.bytes[byteOf column row].toNat.testBit (row % 8) = frame.grid column row := by
  have hInside := onScreen_of_fin column row
  have hPlace : place? column row =
      some (byteOf column row, ⟨row % 8, Nat.mod_lt _ (by decide)⟩) := by
    refine (dif_pos hInside).trans ?_
    simp only [Int.toNat_natCast, byteOf, Option.some.injEq, Prod.mk.injEq, Fin.mk.injEq,
      and_true]
    omega
  rw [grid_apply, pixel, hPlace]
  simp only [bitAt_eq_getLsbD, ← BitVec.testBit_toNat, UInt8.toNat_toBitVec]

theorem eq_of_grid_eq {frame other : Frame} (hGrid : frame.grid = other.grid) : frame = other :=
  eq_of_agreeOn fun x y _ _ => by rw [pixel_eq_cell, pixel_eq_cell, hGrid]

/-- The picture that a grid is kept in. -/
def ofGrid (grid : Grid) : Frame := blank.revise fun x y _ => grid.cell x y

/-- Every grid is the grid of a frame. -/
theorem grid_ofGrid (grid : Grid) : (ofGrid grid).grid = grid := by
  funext column row
  have hInside := onScreen_of_fin column row
  rw [grid_apply, ofGrid, pixel_revise _ _ ⟨hInside.1, hInside.2.1⟩ hInside.2.2,
    Int.toNat_of_nonneg hInside.1, Int.toNat_of_nonneg hInside.2.2.1]
  exact dif_pos hInside

/-- Every grid is kept in exactly one way. -/
theorem grid_bijective :
    Function.Bijective fun bytes : Vector UInt8 size => (Frame.mk bytes).grid := by
  constructor
  · intro bytes others hGrid
    exact congrArg Frame.bytes (eq_of_grid_eq hGrid)
  · intro grid
    exact ⟨(ofGrid grid).bytes, grid_ofGrid grid⟩

/-- An edit changes nothing but the places it is about. -/
theorem pixel_edit_of_not_touches {edit : Edit} {x y : Int} (hApart : ¬ edit.Touches x y) :
    (frame.edit edit).pixel x y = frame.pixel x y := by
  cases edit with
  | set x' y' on =>
      rw [Frame.edit, pixel_set, if_neg fun hAll => hApart ⟨hAll.1, hAll.2.1⟩]
  | invert area =>
      by_cases hInside : OnScreen x y
      · rw [Frame.edit, pixel_invert _ _ ⟨hInside.1, hInside.2.1⟩ hInside.2.2,
          Bool.eq_false_iff.mpr hApart, Bool.xor_false]
      · rw [pixel_eq_false_of_outside _ hInside, pixel_eq_false_of_outside _ hInside]
  | clear area =>
      rw [Frame.edit, pixel_clear, Bool.eq_false_iff.mpr hApart, Bool.not_false, Bool.and_true]
  | clearAll => exact absurd trivial hApart
  | plot pixels =>
      rw [Frame.edit]
      induction pixels generalizing frame with
      | nil => rfl
      | cons pixel rest ih =>
          obtain ⟨x', y', on⟩ := pixel
          have hRest : ¬ (Edit.plot rest).Touches x y := fun ⟨value, hMem⟩ =>
            hApart ⟨value, List.mem_cons_of_mem _ hMem⟩
          have hFirst : ¬ (x = x' ∧ y = y') := by
            rintro ⟨rfl, rfl⟩
            exact hApart ⟨on, List.mem_cons_self⟩
          refine (ih (frame.set x' y' on) hRest).trans ?_
          rw [pixel_set, if_neg fun hAll => hFirst ⟨hAll.1, hAll.2.1⟩]

/-- One bit turned over by its mask. A place outside the screen is passed over. -/
def flip (x y : Int) : Frame :=
  match place? x y with
  | some (index, k) => ⟨frame.bytes.set index (frame.bytes.get index ^^^ bit k) index.isLt⟩
  | none => frame

/-- To flip a bit is to set its pixel to what it is not. -/
theorem flip_eq_set (x y : Int) : frame.flip x y = frame.set x y (!frame.pixel x y) := by
  unfold flip set pixel
  cases place? x y with
  | none => rfl
  | some place =>
      have hByte := xor_bit (frame.bytes.get place.1) place.2
      exact congrArg (fun byte => Frame.mk (frame.bytes.set place.1 byte)) hByte

theorem pixel_flip (x y x' y' : Int) :
    (frame.flip x y).pixel x' y' =
      if x' = x ∧ y' = y ∧ 0 ≤ x ∧ x < 84 ∧ 0 ≤ y ∧ y < 48 then !frame.pixel x y
      else frame.pixel x' y' := by
  rw [flip_eq_set, pixel_set]

/-- Flipping every point of a list once turns the points of the list. -/
theorem pixel_foldl_flip {points : List (Int × Int)} (hOnce : points.Nodup) {x y : Int}
    (hInside : OnScreen x y) :
    (points.foldl (fun frame point => frame.flip point.1 point.2) frame).pixel x y =
      (frame.pixel x y ^^ decide ((x, y) ∈ points)) := by
  induction points generalizing frame with
  | nil => simp
  | cons point rest ih =>
      obtain ⟨hFirst, hRest⟩ := List.nodup_cons.mp hOnce
      rw [List.foldl_cons, ih _ hRest, pixel_flip]
      by_cases hHere : (x, y) = point
      -- It comes here and never again, so it stays turned over.
      · subst hHere
        rw [if_pos ⟨rfl, rfl, hInside⟩]
        simp [hFirst]
      · rw [if_neg fun hAll => hHere (Prod.ext hAll.1 hAll.2.1)]
        simp [hHere]

/-- Erasing the points of a list blanks them and nothing else. -/
theorem pixel_foldl_erase (points : List (Int × Int)) {x y : Int} (hInside : OnScreen x y) :
    (points.foldl (fun frame point => frame.set point.1 point.2 false) frame).pixel x y =
      (frame.pixel x y && !decide ((x, y) ∈ points)) := by
  induction points generalizing frame with
  | nil => simp
  | cons point rest ih =>
      rw [List.foldl_cons, ih, pixel_set]
      by_cases hHere : (x, y) = point
      · subst hHere
        rw [if_pos ⟨rfl, rfl, hInside⟩]
        simp
      · rw [if_neg fun hAll => hHere (Prod.ext hAll.1 hAll.2.1)]
        simp [hHere]

/-- A rectangle is inverted by turning over one bit for each of its places. -/
theorem invert_eq_foldl (area : Area) :
    frame.invert area =
      area.points.foldl (fun frame point => frame.flip point.1 point.2) frame := by
  refine eq_of_agreeOn fun x y hInside _ => ?_
  rw [pixel_invert _ _ ⟨hInside.1, hInside.2.1⟩ hInside.2.2,
    pixel_foldl_flip frame area.nodup_points hInside]
  simp [Area.mem_points_iff]

/-- Clearing an area is the loop that erases its points one by one. -/
theorem clear_eq_foldl (area : Area) :
    frame.clear area =
      area.points.foldl (fun frame point => frame.set point.1 point.2 false) frame := by
  refine eq_of_agreeOn fun x y hInside _ => ?_
  rw [pixel_clear, pixel_foldl_erase frame area.points hInside]
  simp [Area.mem_points_iff]

theorem edit_eq_self {edit : Edit} (hOutside : ∀ x y, OnScreen x y → ¬ edit.Touches x y) :
    frame.edit edit = frame :=
  eq_of_agreeOn fun x y hInside _ => frame.pixel_edit_of_not_touches (hOutside x y hInside)

theorem invert_invert (area : Area) : (frame.invert area).invert area = frame := by
  refine eq_of_agreeOn fun x y hInside _ => ?_
  rw [pixel_invert _ _ ⟨hInside.1, hInside.2.1⟩ hInside.2.2,
    pixel_invert _ _ ⟨hInside.1, hInside.2.1⟩ hInside.2.2, Bool.xor_assoc, Bool.xor_self,
    Bool.xor_false]

end Frame

/-- A picture is a grid of dark and light places. After any edits its pixels are those of the
grid after the same edits; each stands in its own bit, and every grid is kept in just one way.
A rectangle is edited by walking over its places, each of them once. What is off the screen is
of no account, nothing but the places meant is touched, and inverting twice changes nothing. -/
theorem frame_refines_grid (frame : Frame) (edits : List Edit) :
    let after := edits.foldl Frame.edit frame
    let grid := edits.foldl Grid.edit frame.grid
    (∀ x y : Int, after.pixel x y = grid.cell x y) ∧
    (∀ (column : Fin width) (row : Fin height),
      after.bytes[byteOf column row].toNat.testBit (row % 8) = grid column row) ∧
    Function.Bijective (fun bytes : Vector UInt8 size => (Frame.mk bytes).grid) ∧
    Frame.blank.grid = (fun _ _ => false) ∧
    (∀ area : Area,
      after.invert area =
        area.points.foldl (fun frame point => frame.flip point.1 point.2) after ∧
      after.clear area =
        area.points.foldl (fun frame point => frame.set point.1 point.2 false) after ∧
      (∀ x y, (x, y) ∈ area.points ↔ area.covers x y) ∧ area.points.Nodup ∧
      (after.invert area).invert area = after) ∧
    ∀ edit : Edit,
      (∀ x y, ¬ edit.Touches x y → (after.edit edit).pixel x y = after.pixel x y) ∧
      ((∀ x y, OnScreen x y → ¬ edit.Touches x y) → after.edit edit = after) := by
  intro after grid
  have hGrid : after.grid = grid := frame.grid_foldl_edit edits
  refine ⟨fun x y => ?_, fun column row => ?_, Frame.grid_bijective, ?_, fun area => ?_,
    fun edit => ⟨fun x y => after.pixel_edit_of_not_touches, after.edit_eq_self⟩⟩
  · rw [after.pixel_eq_cell, hGrid]
  · rw [after.testBit_byteOf, hGrid]
  · funext column row
    exact Frame.pixel_blank column row
  · exact ⟨after.invert_eq_foldl area, after.clear_eq_foldl area,
      fun x y => Area.mem_points_iff, area.nodup_points, after.invert_invert area⟩

end TapeCutter.Screen
