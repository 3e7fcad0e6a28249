/-! Text that fits a fixed number of bytes in UTF-8. The bound is part of the
type; building such a text drops whole pieces, never half of one. -/
namespace TapeCutter.Text

structure Bounded (capacity : Nat) where
  text : String
  fits : text.utf8ByteSize ≤ capacity
deriving DecidableEq

namespace Bounded

variable {capacity : Nat}

def empty : Bounded capacity := ⟨"", Nat.zero_le _⟩

/-- The text itself, when it fits. -/
def ofString? (text : String) : Option (Bounded capacity) :=
  if fits : text.utf8ByteSize ≤ capacity then some ⟨text, fits⟩ else none

/-- Pieces are appended in order up to the first that does not fit; that one
and all later ones are dropped. -/
def extend (start : Bounded capacity) : List String → Bounded capacity
  | [] => start
  | piece :: rest =>
      match ofString? (start.text ++ piece) with
      | some longer => extend longer rest
      | none => start

def ofPieces (pieces : List String) : Bounded capacity := extend empty pieces

theorem ofString?_of_fits {text : String} (fits : text.utf8ByteSize ≤ capacity) :
    (ofString? text : Option (Bounded capacity)) = some ⟨text, fits⟩ := by
  simp [ofString?, fits]

/-- Nothing that has been written is taken back. -/
theorem utf8ByteSize_le_foldl (start : String) (pieces : List String) :
    start.utf8ByteSize ≤ (pieces.foldl (· ++ ·) start).utf8ByteSize := by
  induction pieces generalizing start with
  | nil => exact Nat.le_refl _
  | cons piece rest ih =>
      refine Nat.le_trans ?_ (ih (start ++ piece))
      rw [String.utf8ByteSize_append]
      exact Nat.le_add_right _ _

/-- Pieces that fit together are all kept. -/
theorem text_extend {start : Bounded capacity} {pieces : List String}
    (fits : (pieces.foldl (· ++ ·) start.text).utf8ByteSize ≤ capacity) :
    (extend start pieces).text = pieces.foldl (· ++ ·) start.text := by
  induction pieces generalizing start with
  | nil => rfl
  | cons piece rest ih =>
      have hPiece : (start.text ++ piece).utf8ByteSize ≤ capacity :=
        Nat.le_trans (utf8ByteSize_le_foldl _ rest) fits
      rw [extend, ofString?_of_fits hPiece]
      exact ih fits

theorem text_ofPieces {pieces : List String} (fits : (String.join pieces).utf8ByteSize ≤ capacity) :
    (ofPieces pieces : Bounded capacity).text = String.join pieces := text_extend fits

/-- A text that fits is kept whole. -/
theorem text_ofPieces_singleton {text : String} (fits : text.utf8ByteSize ≤ capacity) :
    (ofPieces [text] : Bounded capacity).text = text := by
  have hJoin : String.join [text] = text := String.empty_append
  rw [text_ofPieces (by rwa [hJoin]), hJoin]

end Bounded

end TapeCutter.Text
