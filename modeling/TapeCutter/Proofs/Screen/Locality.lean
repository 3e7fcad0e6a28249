import TapeCutter.Screen.Draw
import TapeCutter.Screen.Font

/-! Where a picture changes. An order to draw repaints its own part of the screen from
nothing and leaves the rest alone, as long as the painter keeps every shape in its own
box. So what counts at a place is the last order whose part it is in. -/
namespace TapeCutter.Screen

def OnScreen (x y : Int) : Prop := 0 ≤ x ∧ x < 84 ∧ 0 ≤ y ∧ y < 48

/-- A byte is its eight bits. -/
theorem eq_of_bitAt_eq {byte other : UInt8} (hBits : ∀ k, bitAt byte k = bitAt other k) :
    byte = other := by
  apply UInt8.toBitVec_inj.mp
  apply BitVec.eq_of_getLsbD_eq
  intro k hk
  simpa only [bitAt_eq_getLsbD] using hBits ⟨k, hk⟩

/-- Every bit of a picture is at a place of the screen. -/
theorem exists_place?_eq (index : Fin size) (k : Fin 8) :
    ∃ x y, OnScreen x y ∧ place? x y = some (index, k) := by
  have hSize : index.val < 504 := index.isLt
  have hInside : OnScreen (index.val % 84 : Nat) (index.val / 84 * 8 + k.val : Nat) := by
    unfold OnScreen
    omega
  refine ⟨_, _, hInside, (dif_pos hInside).trans ?_⟩
  simp only [Int.toNat_natCast, Option.some.injEq, Prod.mk.injEq, Fin.ext_iff]
  omega

/-- An area covers the rows and columns from its corner on, up to where it is cut off. -/
theorem Area.covers_iff {area : Area} {x y : Int} :
    area.covers x y = true ↔
      (area.left ≤ x ∧ x < area.right) ∧ area.top ≤ y ∧ y < area.bottom := by
  simp only [covers, Bool.and_eq_true, decide_eq_true_eq, and_assoc]

theorem Area.covers_eq_false_of_rows {area : Area} {x y : Int}
    (hRows : y < area.top ∨ area.top + area.height ≤ y) : area.covers x y = false := by
  have hBottom : area.bottom ≤ area.top + area.height := Int.min_le_left _ _
  rw [← Bool.not_eq_true, covers_iff]
  omega

theorem bottom_band {top : Nat} (hTop : top ≤ 36) : (band top).bottom = top + 12 := by
  apply Int.min_eq_left
  show (top : Int) + 12 ≤ 2147483647
  omega

/-- On the screen a band is told by its rows alone. -/
theorem covers_band_iff {top : Nat} {x y : Int} (hTop : top ≤ 36) (hInside : OnScreen x y) :
    (band top).covers x y = true ↔ top ≤ y ∧ y < top + 12 := by
  rw [Area.covers_iff, bottom_band hTop]
  exact and_iff_right ⟨hInside.1, hInside.2.1⟩

/-- The four bands make up the screen. -/
theorem band_covers_cases {x y : Int} (hInside : OnScreen x y) :
    (band 0).covers x y = true ∨ (band 12).covers x y = true ∨ (band 24).covers x y = true ∨
      (band 36).covers x y = true := by
  rw [covers_band_iff (by decide) hInside, covers_band_iff (by decide) hInside,
    covers_band_iff (by decide) hInside, covers_band_iff (by decide) hInside]
  unfold OnScreen at hInside
  omega

/-- No place is in two bands. -/
theorem covers_band_eq_false {top other : Nat} {x y : Int} (hTop : top ≤ 36)
    (hApart : top + 12 ≤ other ∨ other + 12 ≤ top) (hInside : OnScreen x y)
    (hWithin : (band top).covers x y = true) : (band other).covers x y = false := by
  rw [covers_band_iff hTop hInside] at hWithin
  apply Area.covers_eq_false_of_rows
  show y < (other : Int) ∨ (other : Int) + 12 ≤ y
  omega

theorem covers_screen {x y : Int} (hInside : OnScreen x y) : screen.covers x y = true :=
  Area.covers_iff.mpr ⟨⟨hInside.1, hInside.2.1⟩, hInside.2.2⟩

theorem Area.covers_of_onScreen {area : Area} {x y : Int} (hInside : OnScreen x y)
    (hColumns : area.left ≤ x ∧ x < area.left + area.width)
    (hRows : area.top ≤ y ∧ y < area.top + area.height) : area.covers x y = true := by
  unfold OnScreen at hInside
  rw [covers_iff, right, bottom, limit, Int.lt_min, Int.lt_min]
  omega

/-- The ink of a caption stays in the cells of its characters. -/
theorem Caption.inside_of_inkAt {line : Caption} {x y : Nat} (hInk : line.inkAt x y ≠ none) :
    (line.left ≤ x ∧ x < line.left + line.text.length * line.face.width) ∧
      line.top ≤ y ∧ y < line.top + line.face.height := by
  unfold inkAt at hInk
  split at hInk
  · rename_i hCell
    simp only [Bool.and_eq_true, decide_eq_true_eq] at hCell
    have hWidth : 0 < line.face.width := by cases line.face <;> decide
    have hColumn : (x - line.left) / line.face.width < line.text.toList.length := by
      apply Nat.lt_of_not_le
      intro hBeyond
      rw [List.getElem?_eq_none hBeyond] at hInk
      exact hInk rfl
    rw [Nat.div_lt_iff_lt_mul hWidth, String.length_toList] at hColumn
    omega
  · exact absurd rfl hInk

/-- The painter of the machine keeps every shape in its box. -/
theorem Painter.standard_confined : standard.Confined := by
  intro shape x y hx hy hInk
  have hInside : OnScreen x y := by
    unfold width at hx
    unfold height at hy
    unfold OnScreen
    omega
  cases shape with
  | caption line =>
      have hCells := Caption.inside_of_inkAt hInk
      apply Area.covers_of_onScreen hInside
      · simp only [Shape.area]
        omega
      · simp only [Shape.area]
        omega
  | box area filled =>
      have hDark : (if filled then area.covers x y else area.rim x y) = true := by
        apply Decidable.byContradiction
        intro hLight
        exact hInk (if_neg hLight)
      cases filled with
      | true => exact hDark
      | false => exact (Bool.and_eq_true_iff.mp hDark).1
  | rule left right top =>
      have hDark : (left ≤ x && x ≤ right && y == top) = true := by
        apply Decidable.byContradiction
        intro hLight
        exact hInk (if_neg hLight)
      simp only [Bool.and_eq_true, decide_eq_true_eq, beq_iff_eq] at hDark
      apply Area.covers_of_onScreen hInside
      · simp only [Shape.area]
        omega
      · simp only [Shape.area]
        omega

/-- What lies within the rows of a band lies nowhere else. -/
theorem covers_eq_false_of_band {area : Area} {top : Nat} {x y : Int} (hTop : top ≤ 36)
    (hFirst : top ≤ area.top) (hLast : area.top + area.height ≤ top + 12)
    (hInside : OnScreen x y) (hBeyond : (band top).covers x y = false) :
    area.covers x y = false := by
  rw [← Bool.not_eq_true, covers_band_iff hTop hInside] at hBeyond
  apply Area.covers_eq_false_of_rows
  omega

namespace Frame

/-- Two pictures look the same at these places of the screen. -/
def AgreeOn (places : Int → Int → Prop) (frame other : Frame) : Prop :=
  ∀ x y, OnScreen x y → places x y → frame.pixel x y = other.pixel x y

/-- A picture is what can be seen of it. -/
theorem eq_of_agreeOn {frame other : Frame} (hAgree : AgreeOn (fun _ _ => True) frame other) :
    frame = other := by
  obtain ⟨bytes⟩ := frame
  obtain ⟨others⟩ := other
  congr 1
  apply Vector.ext
  intro i hi
  apply eq_of_bitAt_eq
  intro k
  obtain ⟨x, y, hInside, hPlace⟩ := exists_place?_eq ⟨i, hi⟩ k
  have hHere := hAgree x y hInside trivial
  simpa only [pixel, hPlace, Fin.getElem_fin] using hHere

variable {places : Int → Int → Prop} {frame other : Frame}

theorem AgreeOn.trans {last : Frame} (hFirst : AgreeOn places frame other)
    (hSecond : AgreeOn places other last) : AgreeOn places frame last :=
  fun x y hInside hPlace => (hFirst x y hInside hPlace).trans (hSecond x y hInside hPlace)

/-- An operation that looks at nothing but the place it changes keeps agreement. -/
theorem AgreeOn.revise (hAgree : AgreeOn places frame other) (ink : Nat → Nat → Bool → Bool) :
    AgreeOn places (frame.revise ink) (other.revise ink) := by
  intro x y hInside hPlace
  have hx : 0 ≤ x ∧ x < 84 := ⟨hInside.1, hInside.2.1⟩
  rw [pixel_revise _ _ hx hInside.2.2, pixel_revise _ _ hx hInside.2.2, hAgree x y hInside hPlace]

/-- Frames that agree somewhere still do with one more shape painted on both. -/
theorem AgreeOn.paint (hAgree : AgreeOn places frame other) (painter : Painter) (shape : Shape) :
    AgreeOn places (frame.paint painter shape) (other.paint painter shape) := by
  unfold Frame.paint
  exact hAgree.revise _

/-- Nothing is left of a picture where it has been cleared. -/
theorem agreeOn_clear (frame other : Frame) {area : Area}
    (hPlaces : ∀ x y, OnScreen x y → places x y → area.covers x y = true) :
    AgreeOn places (frame.clear area) (other.clear area) := by
  intro x y hInside hPlace
  rw [pixel_clear, pixel_clear, hPlaces x y hInside hPlace]
  simp

/-! What an operation leaves alone. -/

/-- Clearing an area does nothing outside. -/
theorem clear_agreeOn (frame : Frame) {area : Area}
    (hPlaces : ∀ x y, OnScreen x y → places x y → area.covers x y = false) :
    AgreeOn places (frame.clear area) frame := by
  intro x y hInside hPlace
  rw [pixel_clear, hPlaces x y hInside hPlace]
  simp

/-- Inverting an area does nothing outside. -/
theorem invert_agreeOn (frame : Frame) {area : Area}
    (hPlaces : ∀ x y, OnScreen x y → places x y → area.covers x y = false) :
    AgreeOn places (frame.invert area) frame := by
  intro x y hInside hPlace
  rw [pixel_invert _ _ ⟨hInside.1, hInside.2.1⟩ hInside.2.2, hPlaces x y hInside hPlace,
    Bool.xor_false]

/-- A confined painter does nothing outside the area of the shape. -/
theorem paint_agreeOn {painter : Painter} (hConfined : painter.Confined) (frame : Frame)
    {shape : Shape}
    (hPlaces : ∀ x y, OnScreen x y → places x y → shape.area.covers x y = false) :
    AgreeOn places (frame.paint painter shape) frame := by
  intro x y hInside hPlace
  have ⟨hLeft, hRight, hTop, hBottom⟩ := hInside
  have hNone : painter shape x.toNat y.toNat = none := by
    have hOwn := hConfined shape x.toNat y.toNat (by unfold width; omega) (by unfold height; omega)
    rw [Int.toNat_of_nonneg hLeft, Int.toNat_of_nonneg hTop, hPlaces x y hInside hPlace] at hOwn
    exact Decidable.byContradiction fun hInk => Bool.false_ne_true (hOwn hInk)
  rw [paint, pixel_revise _ _ ⟨hLeft, hRight⟩ ⟨hTop, hBottom⟩, hNone, Option.getD_none]

/-! The four bands. -/

variable {painter : Painter} {top : Nat}

theorem clearBand_agreeOn (frame : Frame) (top : Nat) :
    AgreeOn (fun x y => (band top).covers x y = false) (frame.clearBand top) frame :=
  clear_agreeOn frame fun _ _ _ hBeyond => hBeyond

theorem agreeOn_clearBand (frame other : Frame) (top : Nat) :
    AgreeOn (fun x y => (band top).covers x y = true) (frame.clearBand top) (other.clearBand top) :=
  agreeOn_clear frame other fun _ _ _ hWithin => hWithin

/-- A shape that lies in the rows of a band is of no concern to the rest of the screen. -/
theorem paint_agreeOn_beyond (hConfined : painter.Confined) (hBand : top ≤ 36) (frame : Frame)
    {shape : Shape} (hFirst : top ≤ shape.area.top)
    (hLast : shape.area.top + shape.area.height ≤ top + 12) :
    AgreeOn (fun x y => (band top).covers x y = false) (frame.paint painter shape) frame :=
  paint_agreeOn hConfined frame fun _ _ => covers_eq_false_of_band hBand hFirst hLast

/-- Captions of a band start two rows below its top. -/
theorem caption_agreeOn_beyond (hConfined : painter.Confined) (hBand : top ≤ 36) (frame : Frame)
    (text : String) (left : Nat) (inverted : Bool) :
    AgreeOn (fun x y => (band top).covers x y = false)
      (frame.paint painter (.caption ⟨.label, text, left, top + 2, inverted⟩)) frame := by
  apply paint_agreeOn_beyond hConfined hBand
  · simp only [Shape.area]
    omega
  · simp only [Shape.area, Typeface.height]
    omega

/-- A dial is drawn within its band. -/
theorem drawDial_agreeOn_beyond (hConfined : painter.Confined) (hBand : top ≤ 36) (frame : Frame)
    (label : String) (labelLeft boxLeft : Nat) (value : UInt8) (highlighted running : Bool) :
    AgreeOn (fun x y => (band top).covers x y = false)
      (frame.drawDial painter top label labelLeft boxLeft value highlighted running) frame := by
  have hLabelled := (caption_agreeOn_beyond hConfined hBand (frame.clearBand top) label labelLeft
    false).trans (clearBand_agreeOn frame top)
  unfold drawDial
  refine (caption_agreeOn_beyond hConfined hBand _ _ _ _).trans ?_
  cases running with
  | true => exact hLabelled
  | false =>
      refine AgreeOn.trans ?_ hLabelled
      apply paint_agreeOn_beyond hConfined hBand
      · exact Int.le_refl _
      · simp only [Shape.area]
        omega

/-- The bar is drawn within its band, whatever the percentage. -/
theorem drawBar_agreeOn_beyond (hConfined : painter.Confined) (hBand : top ≤ 36) (frame : Frame)
    (percent : Nat) :
    AgreeOn (fun x y => (band top).covers x y = false) (frame.drawBar painter top percent)
      frame := by
  have hFramed : AgreeOn (fun x y => (band top).covers x y = false)
      (frame.paint painter (.box ⟨4, top, 77, 11⟩ false)) frame := by
    apply paint_agreeOn_beyond hConfined hBand
    · exact Int.le_refl _
    · simp only [Shape.area]
      omega
  simp only [drawBar]
  refine AgreeOn.trans (invert_agreeOn _ ?_)
    ((caption_agreeOn_beyond hConfined hBand _ _ _ _).trans hFramed)
  intro x y hInside hBeyond
  apply covers_eq_false_of_band hBand _ _ hInside hBeyond
  · simp only
    omega
  · simp only
    omega

/-- The progress is drawn within its band, shown or hidden. -/
theorem drawProgress_agreeOn_beyond (hConfined : painter.Confined) (frame : Frame)
    (percent : UInt8) (visible : Bool) :
    AgreeOn (fun x y => (band 24).covers x y = false)
      (frame.drawProgress painter percent visible) frame := by
  cases visible with
  | false => exact clearBand_agreeOn frame 24
  | true =>
      exact (drawBar_agreeOn_beyond hConfined (by decide) _ _).trans (clearBand_agreeOn frame 24)

theorem drawButton_agreeOn_beyond (hConfined : painter.Confined) (frame : Frame)
    (highlighted running : Bool) :
    AgreeOn (fun x y => (band 36).covers x y = false)
      (frame.drawButton painter highlighted running) frame := by
  have hBoxed : AgreeOn (fun x y => (band 36).covers x y = false)
      ((frame.clearBand 36).paint painter (.box ⟨25, 37, 33, 11⟩ highlighted)) frame :=
    (paint_agreeOn_beyond hConfined (by decide) _ (by decide +revert) (by decide +revert)).trans
      (clearBand_agreeOn frame 36)
  refine AgreeOn.trans ?_ hBoxed
  apply paint_agreeOn_beyond hConfined (by decide)
  · simp only [Shape.area]
    omega
  · simp only [Shape.area, Typeface.height]
    omega

end Frame

/-- The part of the screen an order repaints. -/
def Draw.area : Draw → Area
  | .quantityPerKit .. => band 0
  | .kitCount .. => band 12
  | .progress .. => band 24
  | .button .. => band 36
  | .paused => screen

namespace Frame

variable {painter : Painter}

/-- An order leaves the rest of the screen alone. -/
theorem draw_agreeOn_beyond (hConfined : painter.Confined) (frame : Frame) (order : Draw) :
    AgreeOn (fun x y => order.area.covers x y = false) (frame.draw painter order) frame := by
  cases order with
  | quantityPerKit value highlighted running =>
      exact drawDial_agreeOn_beyond hConfined (by decide) frame _ _ _ value highlighted running
  | kitCount value highlighted running =>
      exact drawDial_agreeOn_beyond hConfined (by decide) frame _ _ _ value highlighted running
  | progress percent visible => exact drawProgress_agreeOn_beyond hConfined frame percent visible
  | button highlighted running =>
      exact drawButton_agreeOn_beyond hConfined frame highlighted running
  | paused =>
      intro x y hInside hBeyond
      rw [Draw.area, covers_screen hInside] at hBeyond
      cases hBeyond

/-- A dial in its band is drawn anew, with nothing left of what was there. -/
theorem agreeOn_drawDial (frame other : Frame) (top : Nat) (label : String)
    (labelLeft boxLeft : Nat) (value : UInt8) (highlighted running : Bool) :
    AgreeOn (fun x y => (band top).covers x y = true)
      (frame.drawDial painter top label labelLeft boxLeft value highlighted running)
      (other.drawDial painter top label labelLeft boxLeft value highlighted running) := by
  have hLabelled := (agreeOn_clearBand frame other top).paint painter
    (.caption ⟨.label, label, labelLeft, top + 2, false⟩)
  unfold drawDial
  apply AgreeOn.paint
  cases running with
  | true => exact hLabelled
  | false => exact hLabelled.paint painter _

theorem AgreeOn.drawBar {places : Int → Int → Prop} {frame other : Frame}
    (hAgree : AgreeOn places frame other) (top percent : Nat) :
    AgreeOn places (frame.drawBar painter top percent) (other.drawBar painter top percent) := by
  unfold Frame.drawBar Frame.invert
  apply AgreeOn.revise
  apply AgreeOn.paint
  exact hAgree.paint painter _

/-- The progress clears its band first, so nothing is left of what was there. -/
theorem agreeOn_drawProgress (frame other : Frame) (percent : UInt8) (visible : Bool) :
    AgreeOn (fun x y => (band 24).covers x y = true) (frame.drawProgress painter percent visible)
      (other.drawProgress painter percent visible) := by
  have hCleared := agreeOn_clearBand frame other 24
  cases visible with
  | false => exact hCleared
  | true => exact hCleared.drawBar 24 _

/-- The button clears its band first, so nothing is left of what was there. -/
theorem agreeOn_drawButton (frame other : Frame) (highlighted running : Bool) :
    AgreeOn (fun x y => (band 36).covers x y = true) (frame.drawButton painter highlighted running)
      (other.drawButton painter highlighted running) := by
  unfold drawButton
  apply AgreeOn.paint
  apply AgreeOn.paint
  exact agreeOn_clearBand frame other 36

/-- Shapes painted on both frames keep them agreeing where they did. -/
theorem AgreeOn.foldl_paint {places : Int → Int → Prop} {frame other : Frame}
    (hAgree : AgreeOn places frame other) (shapes : List Shape) :
    AgreeOn places (shapes.foldl (Frame.paint painter) frame)
      (shapes.foldl (Frame.paint painter) other) := by
  induction shapes generalizing frame other with
  | nil => exact hAgree
  | cons shape rest ih =>
      rw [List.foldl_cons, List.foldl_cons]
      apply ih
      exact hAgree.paint painter shape

theorem agreeOn_drawPaused (frame other : Frame) :
    AgreeOn (fun x y => screen.covers x y = true) (frame.drawPaused painter)
      (other.drawPaused painter) :=
  (agreeOn_clear frame other fun _ _ _ hWithin => hWithin).foldl_paint pauseShapes

/-- An order repaints its own part from nothing. -/
theorem agreeOn_draw (frame other : Frame) (order : Draw) :
    AgreeOn (fun x y => order.area.covers x y = true) (frame.draw painter order)
      (other.draw painter order) := by
  cases order with
  | quantityPerKit value highlighted running => exact agreeOn_drawDial frame other 0 _ _ _ _ _ _
  | kitCount value highlighted running => exact agreeOn_drawDial frame other 12 _ _ _ _ _ _
  | progress percent visible => exact agreeOn_drawProgress frame other percent visible
  | button highlighted running => exact agreeOn_drawButton frame other highlighted running
  | paused => exact agreeOn_drawPaused frame other

/-- What an order leaves at a place: its own picture within its part, and what was there
beyond it. -/
theorem pixel_draw (hConfined : painter.Confined) (frame : Frame) (order : Draw) {x y : Int}
    (hInside : OnScreen x y) :
    (frame.draw painter order).pixel x y =
      if order.area.covers x y = true then (blank.draw painter order).pixel x y
      else frame.pixel x y := by
  split
  · rename_i hWithin
    exact agreeOn_draw frame blank order x y hInside hWithin
  · rename_i hBeyond
    exact draw_agreeOn_beyond hConfined frame order x y hInside (eq_false_of_ne_true hBeyond)

/-! Orders one after another. -/

theorem AgreeOn.draw {places : Int → Int → Prop} {frame other : Frame}
    (hConfined : painter.Confined) (hAgree : AgreeOn places frame other) (order : Draw) :
    AgreeOn places (frame.draw painter order) (other.draw painter order) := by
  intro x y hInside hPlace
  rw [pixel_draw hConfined frame order hInside, pixel_draw hConfined other order hInside,
    hAgree x y hInside hPlace]

theorem AgreeOn.foldl_draw {places : Int → Int → Prop} {frame other : Frame}
    (hConfined : painter.Confined) (hAgree : AgreeOn places frame other) (orders : List Draw) :
    AgreeOn places (orders.foldl (Frame.draw painter) frame)
      (orders.foldl (Frame.draw painter) other) := by
  induction orders generalizing frame other with
  | nil => exact hAgree
  | cons order rest ih => exact ih (hAgree.draw hConfined order)

/-- Orders whose parts make up the whole screen leave nothing of what was there. -/
theorem foldl_draw_eq_of_cover (hConfined : painter.Confined) {orders : List Draw}
    (hCover : ∀ x y, OnScreen x y → ∃ order ∈ orders, order.area.covers x y = true)
    (frame other : Frame) :
    orders.foldl (draw painter) frame = orders.foldl (draw painter) other := by
  apply eq_of_agreeOn
  intro x y hInside _
  obtain ⟨order, hMem, hWithin⟩ := hCover x y hInside
  obtain ⟨before, after, rfl⟩ := List.append_of_mem hMem
  rw [List.foldl_append, List.foldl_append, List.foldl_cons, List.foldl_cons]
  -- At this place the two pictures agree from `order` on, whatever they were before it.
  exact (agreeOn_draw _ _ order).foldl_draw hConfined after x y hInside hWithin

/-- Orders for different parts of the screen may be carried out in either order. -/
theorem draw_draw_comm (hConfined : painter.Confined) {first second : Draw}
    (hApart : ∀ x y, OnScreen x y → first.area.covers x y = true →
      second.area.covers x y = false)
    (frame : Frame) :
    (frame.draw painter first).draw painter second =
      (frame.draw painter second).draw painter first := by
  apply eq_of_agreeOn
  intro x y hInside _
  rw [pixel_draw hConfined (frame.draw painter first) second hInside,
    pixel_draw hConfined frame first hInside,
    pixel_draw hConfined (frame.draw painter second) first hInside,
    pixel_draw hConfined frame second hInside]
  by_cases hFirst : first.area.covers x y = true
  · simp only [hFirst, hApart x y hInside hFirst, if_true, Bool.false_eq_true, if_false]
  · rw [if_neg hFirst, if_neg hFirst]

/-- Of two orders for the same part only the later one is seen. -/
theorem draw_draw_of_area_eq (hConfined : painter.Confined) {first second : Draw}
    (hSame : second.area = first.area) (frame : Frame) :
    (frame.draw painter first).draw painter second = frame.draw painter second := by
  apply eq_of_agreeOn
  intro x y hInside _
  rw [pixel_draw hConfined (frame.draw painter first) second hInside,
    pixel_draw hConfined frame first hInside, pixel_draw hConfined frame second hInside, hSame]
  split <;> rfl

end Frame

end TapeCutter.Screen
