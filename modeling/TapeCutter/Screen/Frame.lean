/-! The picture in memory: six banks of eighty-four bytes, eight rows to a bank,
the top row in the lowest bit. A picture is read through `pixel`, which is light
outside the screen, and every operation is described by what it does to `pixel`. -/
namespace TapeCutter.Screen

def width : Nat := 84

def height : Nat := 48

/-- The number of bytes of a picture. -/
def size : Nat := 504

structure Frame where
  bytes : Vector UInt8 size
deriving DecidableEq

/-- A byte with one bit set. -/
def bit (k : Fin 8) : UInt8 := 1 <<< UInt8.ofNat k

def bitAt (byte : UInt8) (k : Fin 8) : Bool := byte &&& bit k != 0

/-- A byte from its bits. -/
def pack (bits : Fin 8 → Bool) : UInt8 :=
  (List.finRange 8).foldl (fun byte k => if bits k then byte ||| bit k else byte) 0

/-- A byte with one bit given a value. -/
def putBit (byte : UInt8) (k : Fin 8) (on : Bool) : UInt8 :=
  if on then byte ||| bit k else byte &&& ~~~bit k

/-- The byte and the bit of a place on the screen. -/
def place? (x y : Int) : Option (Fin size × Fin 8) :=
  if inside : 0 ≤ x ∧ x < 84 ∧ 0 ≤ y ∧ y < 48 then
    some (⟨x.toNat + y.toNat / 8 * 84, by unfold size; omega⟩, ⟨y.toNat % 8, by omega⟩)
  else none

theorem bitAt_eq_getLsbD (byte : UInt8) (k : Fin 8) : bitAt byte k = byte.toBitVec.getLsbD k := by
  obtain ⟨v⟩ := byte
  revert v k
  decide

theorem getLsbD_bit (k j : Fin 8) : (bit k).toBitVec.getLsbD j = decide (k = j) := by
  revert k j
  decide

theorem bitAt_zero (k : Fin 8) : bitAt 0 k = false := by
  simp [bitAt]

theorem bitAt_or_bit (byte : UInt8) (k j : Fin 8) :
    bitAt (byte ||| bit k) j = (bitAt byte j || decide (k = j)) := by
  simp only [bitAt_eq_getLsbD, UInt8.toBitVec_or, BitVec.getLsbD_or, getLsbD_bit]

/-- A bit that is put in is found there, and the other seven are as they were. -/
theorem bitAt_putBit (byte : UInt8) (k j : Fin 8) (on : Bool) :
    bitAt (putBit byte k on) j = if k = j then on else bitAt byte j := by
  cases on
  · simp only [putBit, Bool.false_eq_true, if_false, bitAt_eq_getLsbD, UInt8.toBitVec_and,
      UInt8.toBitVec_not, BitVec.getLsbD_and, BitVec.getLsbD_not, getLsbD_bit, j.isLt, decide_true,
      Bool.true_and]
    by_cases hPlace : k = j <;> simp [hPlace]
  · simp only [putBit, if_true, bitAt_or_bit]
    by_cases hPlace : k = j <;> simp [hPlace]

/-- Bits put in one after another are all found at the end, next to those there were. -/
theorem bitAt_foldl (bits : Fin 8 → Bool) (places : List (Fin 8)) (byte : UInt8) (j : Fin 8) :
    bitAt (places.foldl (fun byte k => if bits k then byte ||| bit k else byte) byte) j =
      (bitAt byte j || (bits j && places.contains j)) := by
  induction places generalizing byte with
  | nil => simp
  | cons k places ih =>
      rw [List.foldl_cons, ih]
      by_cases hBit : bits k
      · rw [if_pos hBit, bitAt_or_bit]
        by_cases hPlace : k = j
        · subst hPlace
          simp [hBit]
        · have hOther : ¬ j = k := fun hEq => hPlace hEq.symm
          simp [hPlace, hOther]
      · rw [if_neg hBit]
        by_cases hPlace : j = k
        · subst hPlace
          simp [hBit]
        · simp [hPlace]

/-- A byte that is packed from eight bits has these bits. -/
theorem bitAt_pack (bits : Fin 8 → Bool) (j : Fin 8) : bitAt (pack bits) j = bits j := by
  rw [pack, bitAt_foldl, bitAt_zero]
  simp

/-- Every point of the screen has its bit, in the byte of its column and its band of eight
rows. -/
theorem place?_inside {x y : Int} (hx : 0 ≤ x ∧ x < 84) (hy : 0 ≤ y ∧ y < 48) :
    ∃ index k, place? x y = some (index, k) ∧ index.val % 84 = x.toNat ∧
      index.val / 84 * 8 + k.val = y.toNat := by
  refine ⟨_, _, dif_pos ⟨hx.1, hx.2, hy.1, hy.2⟩, ?_, ?_⟩
  · show (x.toNat + y.toNat / 8 * 84) % 84 = x.toNat
    omega
  · show (x.toNat + y.toNat / 8 * 84) / 84 * 8 + y.toNat % 8 = y.toNat
    omega

/-- Two places of the screen share byte and bit only when they are one place. -/
theorem place?_injective {x y x' y' : Int} {place : Fin size × Fin 8}
    (hPlace : place? x y = some place) (hPlace' : place? x' y' = some place) : x = x' ∧ y = y' := by
  unfold place? at hPlace hPlace'
  split at hPlace
  · split at hPlace'
    · simp only [Option.some.injEq] at hPlace hPlace'
      have hSame := hPlace.trans hPlace'.symm
      simp only [Prod.mk.injEq, Fin.mk.injEq] at hSame
      omega
    · simp at hPlace'
  · simp at hPlace

/-- A rectangle by its top left corner. Its far edges are excluded, and stay
within the range of thirty-two bits. -/
structure Area where
  left : Int
  top : Int
  width : Nat
  height : Nat
deriving DecidableEq

namespace Area

/-- The largest coordinate. -/
def limit : Int := 2147483647

def right (area : Area) : Int := min (area.left + area.width) limit

def bottom (area : Area) : Int := min (area.top + area.height) limit

def covers (area : Area) (x y : Int) : Bool :=
  area.left ≤ x && x < area.right && area.top ≤ y && y < area.bottom

/-- On the outermost ring of places the area covers. -/
def rim (area : Area) (x y : Int) : Bool :=
  area.covers x y &&
    (x == area.left || x == area.right - 1 || y == area.top || y == area.bottom - 1)

end Area

namespace Frame

def blank : Frame := ⟨.replicate size 0⟩

def pixel (frame : Frame) (x y : Int) : Bool :=
  match place? x y with
  | some (index, k) => bitAt frame.bytes[index] k
  | none => false

/-- One pixel. A place outside the screen is passed over. -/
def set (frame : Frame) (x y : Int) (on : Bool) : Frame :=
  match place? x y with
  | some (index, k) => ⟨frame.bytes.set index (putBit frame.bytes[index] k on)⟩
  | none => frame

/-- A list of pixels, in order. -/
def plot (frame : Frame) (pixels : List (Int × Int × Bool)) : Frame :=
  pixels.foldl (fun frame (x, y, on) => frame.set x y on) frame

/-- Every pixel anew, from its place and its value so far. -/
def revise (frame : Frame) (ink : Nat → Nat → Bool → Bool) : Frame :=
  ⟨.ofFn fun index => pack fun k =>
    ink (index % 84) (index / 84 * 8 + k) (bitAt frame.bytes[index] k)⟩

def clear (frame : Frame) (area : Area) : Frame :=
  frame.revise fun x y old => old && !area.covers x y

def invert (frame : Frame) (area : Area) : Frame :=
  frame.revise fun x y old => old ^^ area.covers x y

/-- Beyond its edges a frame is blank. -/
theorem pixel_eq_false_of_outside (frame : Frame) {x y : Int}
    (hOutside : ¬ (0 ≤ x ∧ x < 84 ∧ 0 ≤ y ∧ y < 48)) : frame.pixel x y = false := by
  simp [pixel, place?, hOutside]

theorem pixel_blank (x y : Int) : blank.pixel x y = false := by
  unfold pixel
  split
  · simp [blank, bitAt_zero]
  · rfl

/-- Setting a point shows at this point if it is on the screen, and nowhere else. -/
theorem pixel_set (frame : Frame) (x y : Int) (on : Bool) (x' y' : Int) :
    (frame.set x y on).pixel x' y' =
      if x' = x ∧ y' = y ∧ 0 ≤ x ∧ x < 84 ∧ 0 ≤ y ∧ y < 48 then on else frame.pixel x' y' := by
  by_cases hInside : 0 ≤ x ∧ x < 84 ∧ 0 ≤ y ∧ y < 48
  · obtain ⟨index, k, hPlace, -, -⟩ := place?_inside ⟨hInside.1, hInside.2.1⟩ hInside.2.2
    by_cases hSame : x' = x ∧ y' = y
    · obtain ⟨rfl, rfl⟩ := hSame
      simp [pixel, set, hPlace, hInside, bitAt_putBit]
    · have hCond : ¬ (x' = x ∧ y' = y ∧ 0 ≤ x ∧ x < 84 ∧ 0 ≤ y ∧ y < 48) :=
        fun hAll => hSame ⟨hAll.1, hAll.2.1⟩
      rw [if_neg hCond]
      simp only [pixel, set, hPlace]
      cases hOther : place? x' y' with
      | none => rfl
      | some place =>
          obtain ⟨index', k'⟩ := place
          show bitAt ((frame.bytes.set index _)[index']) k' = bitAt frame.bytes[index'] k'
          have hDiffer : ¬ (index = index' ∧ k = k') := by
            rintro ⟨rfl, rfl⟩
            exact hSame ((place?_injective hOther hPlace))
          simp only [Fin.getElem_fin, Vector.getElem_set]
          by_cases hIndex : index.val = index'.val
          · have hEq : index = index' := Fin.ext hIndex
            subst hEq
            have hBit : ¬ k = k' := fun hk => hDiffer ⟨rfl, hk⟩
            simp [bitAt_putBit, hBit]
          · simp [hIndex]
  · have hCond : ¬ (x' = x ∧ y' = y ∧ 0 ≤ x ∧ x < 84 ∧ 0 ≤ y ∧ y < 48) :=
      fun hAll => hInside hAll.2.2
    rw [if_neg hCond]
    simp [set, place?, hInside]

/-- A frame that is revised asks about every point of the screen just once, by its place and by
what it was. -/
theorem pixel_revise (frame : Frame) (ink : Nat → Nat → Bool → Bool) {x y : Int}
    (hx : 0 ≤ x ∧ x < 84) (hy : 0 ≤ y ∧ y < 48) :
    (frame.revise ink).pixel x y = ink x.toNat y.toNat (frame.pixel x y) := by
  obtain ⟨index, k, hPlace, hColumn, hRow⟩ := place?_inside hx hy
  simp only [pixel, revise, hPlace, Fin.getElem_fin, Vector.getElem_ofFn, bitAt_pack, hColumn, hRow]

/-- Clearing an area blanks what it covers, also of an area that goes beyond the edges. -/
theorem pixel_clear (frame : Frame) (area : Area) (x y : Int) :
    (frame.clear area).pixel x y = (frame.pixel x y && !area.covers x y) := by
  by_cases hInside : 0 ≤ x ∧ x < 84 ∧ 0 ≤ y ∧ y < 48
  · rw [clear, pixel_revise _ _ ⟨hInside.1, hInside.2.1⟩ hInside.2.2,
      Int.toNat_of_nonneg hInside.1, Int.toNat_of_nonneg hInside.2.2.1]
  · simp [pixel_eq_false_of_outside _ hInside]

/-- Inverting an area turns what it covers of the screen. -/
theorem pixel_invert (frame : Frame) (area : Area) {x y : Int} (hx : 0 ≤ x ∧ x < 84)
    (hy : 0 ≤ y ∧ y < 48) :
    (frame.invert area).pixel x y = (frame.pixel x y ^^ area.covers x y) := by
  rw [invert, pixel_revise _ _ hx hy, Int.toNat_of_nonneg hx.1, Int.toNat_of_nonneg hy.1]

end Frame

end TapeCutter.Screen
