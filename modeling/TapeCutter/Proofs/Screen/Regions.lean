import Mathlib.Data.List.Nodup
import TapeCutter.Proofs.Screen.Locality
import TapeCutter.Screen.Display

/-! The four bands as regions of their own. An order for a band paints its twelve rows from
its arguments and touches no other row, so orders for different bands do not notice each
other, of orders for one band the last is seen, and one order for each band leaves nothing
of a pause screen. -/
namespace TapeCutter.Screen

namespace Draw

/-- The top row of the band that an order repaints. The pause screen is not confined to one. -/
def band? : Draw → Option Nat
  | .quantityPerKit .. => some 0
  | .kitCount .. => some 12
  | .progress .. => some 24
  | .button .. => some 36
  | .paused => none

/-- One order for each band, in whatever order. -/
def EachBand (orders : List Draw) : Prop :=
  (orders.map band?).Perm [some 0, some 12, some 24, some 36]

variable {order first second : Draw} {top : Nat} {orders : List Draw}

theorem eq_paused_of_band? (hNone : order.band? = none) : order = .paused := by
  cases order with
  | paused => rfl
  | quantityPerKit | kitCount | progress | button => cases hNone

theorem area_of_band? (hBand : order.band? = some top) : order.area = band top ∧ top ≤ 36 := by
  cases order <;> cases hBand <;> exact ⟨rfl, by decide⟩

theorem covers_iff_of_band? (hBand : order.band? = some top) {x y : Int}
    (hInside : OnScreen x y) : order.area.covers x y = true ↔ top ≤ y ∧ y < top + 12 := by
  obtain ⟨hArea, hTop⟩ := area_of_band? hBand
  rw [hArea, covers_band_iff hTop hInside]

/-- Two different bands have at least a band's height between their top rows. -/
theorem apart_of_band? {other : Nat} (hFirst : first.band? = some top)
    (hSecond : second.band? = some other) (hDiffer : top ≠ other) :
    top + 12 ≤ other ∨ other + 12 ≤ top := by
  cases first <;> cases hFirst <;> cases second <;> cases hSecond <;> omega

/-- Orders for the same band have the same area. -/
theorem area_eq_of_band?_eq (hSame : first.band? = second.band?) : second.area = first.area := by
  cases hBand : first.band? with
  | some top =>
      rw [(area_of_band? hBand).1, (area_of_band? (hSame.symm.trans hBand)).1]
  | none =>
      rw [eq_paused_of_band? hBand, eq_paused_of_band? (hSame.symm.trans hBand)]

/-- Every place of the screen is in the part of one of the orders. -/
theorem EachBand.exists_covers (each : EachBand orders) {x y : Int} (hInside : OnScreen x y) :
    ∃ order ∈ orders, order.area.covers x y = true := by
  have hOrder {top : Nat} (hMem : some top ∈ [some 0, some 12, some 24, some 36])
      (hCovers : (band top).covers x y = true) :
      ∃ order ∈ orders, order.area.covers x y = true := by
    obtain ⟨order, hOrder, hBand⟩ := List.mem_map.mp (each.mem_iff.mpr hMem)
    exact ⟨order, hOrder, by rwa [(area_of_band? hBand).1]⟩
  rcases band_covers_cases hInside with hCovers | hCovers | hCovers | hCovers
  · exact hOrder (by decide) hCovers
  · exact hOrder (by decide) hCovers
  · exact hOrder (by decide) hCovers
  · exact hOrder (by decide) hCovers

/-- No two of the orders are for the same band. -/
theorem EachBand.eq_or_apart (each : EachBand orders) (hFirst : first ∈ orders)
    (hSecond : second ∈ orders) :
    first = second ∨ ∃ top other, first.band? = some top ∧ second.band? = some other ∧
      top ≠ other := by
  have hNodup : (orders.map band?).Nodup := each.nodup_iff.mpr (by decide)
  have hSome {order : Draw} (hMem : order ∈ orders) : ∃ top, order.band? = some top := by
    have hMapped := each.mem_iff.mp (List.mem_map_of_mem hMem)
    cases hBand : order.band? with
    | some top => exact ⟨top, rfl⟩
    | none =>
        rw [hBand] at hMapped
        exact absurd hMapped (by decide)
  obtain ⟨top, hTop⟩ := hSome hFirst
  obtain ⟨other, hOther⟩ := hSome hSecond
  by_cases hDiffer : top = other
  · refine Or.inl (List.inj_on_of_nodup_map hNodup hFirst hSecond ?_)
    rw [hTop, hOther, hDiffer]
  · exact Or.inr ⟨top, other, hTop, hOther, hDiffer⟩

end Draw

namespace Frame

variable {painter : Painter} {order first second : Draw} {top : Nat}

/-- What an order for a band leaves anywhere: its own picture in its rows, and in the others
what was there. -/
theorem pixel_draw_of_band? (hConfined : painter.Confined) (hBand : order.band? = some top)
    (frame : Frame) (x y : Int) :
    (frame.draw painter order).pixel x y =
      if top ≤ y ∧ y < top + 12 then (blank.draw painter order).pixel x y
      else frame.pixel x y := by
  by_cases hInside : OnScreen x y
  · rw [pixel_draw hConfined frame order hInside]
    exact if_congr (Draw.covers_iff_of_band? hBand hInside) rfl rfl
  · rw [pixel_eq_false_of_outside _ hInside, pixel_eq_false_of_outside _ hInside,
      pixel_eq_false_of_outside _ hInside, ite_self]

theorem drawPaused_eq (frame other : Frame) :
    frame.draw painter .paused = other.draw painter .paused :=
  eq_of_agreeOn fun x y hInside _ =>
    agreeOn_draw frame other .paused x y hInside (covers_screen hInside)

/-- Two different bands can be drawn in either order. -/
theorem draw_comm_of_band? (hConfined : painter.Confined) {other : Nat}
    (hFirst : first.band? = some top) (hSecond : second.band? = some other) (hDiffer : top ≠ other)
    (frame : Frame) :
    (frame.draw painter first).draw painter second =
      (frame.draw painter second).draw painter first := by
  obtain ⟨hArea, hTop⟩ := Draw.area_of_band? hFirst
  apply draw_draw_comm hConfined
  intro x y hInside hWithin
  rw [hArea] at hWithin
  rw [(Draw.area_of_band? hSecond).1]
  exact covers_band_eq_false hTop (Draw.apart_of_band? hFirst hSecond hDiffer) hInside hWithin

/-- One order for each band paints the whole screen, the same in whatever order. -/
theorem foldl_draw_of_eachBand (hConfined : painter.Confined) {orders others : List Draw}
    (each : Draw.EachBand orders) (hPerm : orders.Perm others) (frame other : Frame) :
    others.foldl (draw painter) frame = orders.foldl (draw painter) other := by
  have hOrder : orders.foldl (draw painter) frame = others.foldl (draw painter) frame := by
    refine hPerm.foldl_eq' (fun first hFirst second hSecond frame => ?_) frame
    rcases each.eq_or_apart hFirst hSecond with rfl | ⟨top, other, hTop, hOther, hDiffer⟩
    · rfl
    · exact draw_comm_of_band? hConfined hTop hOther hDiffer frame
  rw [← hOrder]
  exact foldl_draw_eq_of_cover hConfined (fun _ _ => each.exists_covers) frame other

/-- A percentage beyond a hundred is drawn as a hundred. -/
theorem drawProgress_congr (frame : Frame) {percent other : UInt8} (visible : Bool)
    (hSame : min percent.toNat 100 = min other.toNat 100) :
    frame.draw painter (.progress percent visible) =
      frame.draw painter (.progress other visible) := by
  simp only [draw, drawProgress, hSame]

theorem drawProgress_hidden (frame : Frame) (percent : UInt8) :
    frame.draw painter (.progress percent false) = frame.clearBand 24 := by
  simp only [draw, drawProgress, Bool.false_eq_true, if_false]

/-- The mark is only seen in the box, and there is none during a run. -/
theorem drawDial_running (frame : Frame) (top : Nat) (label : String) (labelLeft boxLeft : Nat)
    (value : UInt8) (highlighted other : Bool) :
    frame.drawDial painter top label labelLeft boxLeft value highlighted true =
      frame.drawDial painter top label labelLeft boxLeft value other true := by
  simp only [drawDial, if_true, Bool.not_true, Bool.false_and]

end Frame

/-- The display keeps the picture that an order makes of the one it had, whatever the panel
does. Of a picture, an order for a band changes only the twelve rows of that band, and what it
leaves there is the same for every picture; the pause screen leaves nothing of what was there.
So orders for different bands may change places, of two orders for the same part the later one
counts, and one order for each band, in whatever order, leaves nothing of a pause screen. The
progress is shown up to a hundred and not at all if it is hidden, and during a run the dials
are not marked. -/
theorem draws_keep_to_bands {painter : Painter} (hConfined : painter.Confined) :
    (∀ (Panel : Type) (take : Panel → Frame → Option DisplayFault × Panel) (display : Display)
      (panel : Panel) (order : Draw),
      (display.drawBy painter take panel order).1.frame = display.frame.draw painter order) ∧
      (∀ (order : Draw) (top : Nat), order.band? = some top →
        ∀ (frame other : Frame) (x y : Int),
          if top ≤ y ∧ y < top + 12 then
            (frame.draw painter order).pixel x y = (other.draw painter order).pixel x y
          else (frame.draw painter order).pixel x y = frame.pixel x y) ∧
      (∀ frame other : Frame, frame.draw painter .paused = other.draw painter .paused) ∧
      (∀ (first second : Draw) (top other : Nat), first.band? = some top →
        second.band? = some other → top ≠ other → ∀ frame : Frame,
          (frame.draw painter first).draw painter second =
            (frame.draw painter second).draw painter first) ∧
      (∀ first second : Draw, first.band? = second.band? → ∀ frame : Frame,
        (frame.draw painter first).draw painter second = frame.draw painter second) ∧
      (∀ orders others : List Draw, Draw.EachBand orders → orders.Perm others →
        ∀ frame other : Frame,
          others.foldl (Frame.draw painter) (frame.draw painter .paused) =
            orders.foldl (Frame.draw painter) other) ∧
      (∀ (percent other : UInt8) (visible : Bool),
        min percent.toNat 100 = min other.toNat 100 ∨ visible = false → ∀ frame : Frame,
          frame.draw painter (.progress percent visible) =
            frame.draw painter (.progress other visible)) ∧
      ∀ (value : UInt8) (highlighted other : Bool) (frame : Frame),
        frame.draw painter (.quantityPerKit value highlighted true) =
            frame.draw painter (.quantityPerKit value other true) ∧
          frame.draw painter (.kitCount value highlighted true) =
            frame.draw painter (.kitCount value other true) := by
  refine ⟨?_, ?_, Frame.drawPaused_eq, ?_, ?_, ?_, ?_, ?_⟩
  · intro Panel take display panel order
    exact display.frame_drawBy painter take panel order
  · intro order top hBand frame other x y
    rw [Frame.pixel_draw_of_band? hConfined hBand frame,
      Frame.pixel_draw_of_band? hConfined hBand other]
    split <;> rfl
  · intro first second top other hFirst hSecond hDiffer frame
    exact Frame.draw_comm_of_band? hConfined hFirst hSecond hDiffer frame
  · intro first second hSame frame
    exact Frame.draw_draw_of_area_eq hConfined (Draw.area_eq_of_band?_eq hSame) frame
  · intro orders others each hPerm frame other
    exact Frame.foldl_draw_of_eachBand hConfined each hPerm _ other
  · rintro percent other visible (hSame | rfl) frame
    · exact Frame.drawProgress_congr frame visible hSame
    · rw [Frame.drawProgress_hidden, Frame.drawProgress_hidden]
  · intro value highlighted other frame
    simp only [Frame.draw]
    exact ⟨Frame.drawDial_running frame 0 _ _ _ value highlighted other,
      Frame.drawDial_running frame 12 _ _ _ value highlighted other⟩

/-- The bands are repainted after a pause, with numbers too wide for their boxes, from the
bottom to the top. The same is seen as when they are painted from the top on an empty screen. -/
theorem repainted_from_below_after_pause :
    let dark := Frame.blank.invert screen
    let orders : List Draw :=
      [.quantityPerKit 255 true false, .kitCount 100 false false, .progress 250 true,
        .button true false]
    let fresh := orders.foldl (Frame.draw .standard) .blank
    Painter.standard.Confined ∧ Draw.EachBand orders ∧
      orders.reverse.foldl (Frame.draw .standard) (dark.draw .standard .paused) = fresh ∧
      fresh.draw .standard (.progress 100 true) = fresh.draw .standard (.progress 250 true) := by
  intro dark orders fresh
  have each : Draw.EachBand orders := List.Perm.refl _
  obtain ⟨-, -, -, -, -, hEach, hProgress, -⟩ := draws_keep_to_bands Painter.standard_confined
  exact ⟨Painter.standard_confined, each,
    hEach orders orders.reverse each orders.reverse_perm.symm dark .blank,
    hProgress 100 250 true (Or.inl rfl) fresh⟩

end TapeCutter.Screen
