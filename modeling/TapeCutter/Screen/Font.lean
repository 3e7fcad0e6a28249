import TapeCutter.Screen.Shape

/-! The painter of the machine, with its characters: one list of rows per character and
one binary numeral per row, the leftmost dot first. Only the characters that the screen
writes have a shape; every other one is blank. -/
namespace TapeCutter.Screen

def labelRows : Char → List Nat
  | '%' =>
      [0b010000, 0b101010, 0b010010, 0b000100, 0b001000,
        0b010010, 0b010101, 0b000010, 0b000000]
  | '0' =>
      [0b000000, 0b001100, 0b010010, 0b010010, 0b010010,
        0b010010, 0b001100, 0b000000, 0b000000]
  | '1' =>
      [0b000000, 0b001000, 0b011000, 0b001000, 0b001000,
        0b001000, 0b011100, 0b000000, 0b000000]
  | '2' =>
      [0b000000, 0b001100, 0b010010, 0b000010, 0b000100,
        0b001000, 0b011110, 0b000000, 0b000000]
  | '3' =>
      [0b000000, 0b011110, 0b000100, 0b001100, 0b000010,
        0b000010, 0b011100, 0b000000, 0b000000]
  | '4' =>
      [0b000000, 0b000100, 0b001100, 0b010100, 0b100100,
        0b111110, 0b000100, 0b000000, 0b000000]
  | '5' =>
      [0b000000, 0b011110, 0b010000, 0b011100, 0b000010,
        0b000010, 0b011100, 0b000000, 0b000000]
  | '6' =>
      [0b000000, 0b001100, 0b010000, 0b011100, 0b010010,
        0b010010, 0b001100, 0b000000, 0b000000]
  | '7' =>
      [0b000000, 0b011110, 0b000010, 0b000010, 0b000100,
        0b001000, 0b001000, 0b000000, 0b000000]
  | '8' =>
      [0b000000, 0b001100, 0b010010, 0b001100, 0b010010,
        0b010010, 0b001100, 0b000000, 0b000000]
  | '9' =>
      [0b000000, 0b001100, 0b010010, 0b010010, 0b001110,
        0b000010, 0b001100, 0b000000, 0b000000]
  | ':' =>
      [0b000000, 0b000000, 0b001100, 0b001100, 0b000000,
        0b001100, 0b001100, 0b000000, 0b000000]
  | 'K' =>
      [0b000000, 0b010010, 0b010100, 0b011000, 0b010100,
        0b010010, 0b010010, 0b000000, 0b000000]
  | 'R' =>
      [0b000000, 0b011100, 0b010010, 0b010010, 0b011100,
        0b010010, 0b010010, 0b000000, 0b000000]
  | 'S' =>
      [0b000000, 0b001100, 0b010010, 0b001000, 0b000100,
        0b010010, 0b001100, 0b000000, 0b000000]
  | 'a' =>
      [0b000000, 0b000000, 0b000000, 0b001110, 0b010010,
        0b010010, 0b001110, 0b000000, 0b000000]
  | 'e' =>
      [0b000000, 0b000000, 0b000000, 0b001100, 0b010110,
        0b011000, 0b001110, 0b000000, 0b000000]
  | 'i' =>
      [0b000000, 0b001000, 0b000000, 0b011000, 0b001000,
        0b001000, 0b011100, 0b000000, 0b000000]
  | 'k' =>
      [0b000000, 0b010000, 0b010000, 0b010100, 0b011000,
        0b010100, 0b010010, 0b000000, 0b000000]
  | 'o' =>
      [0b000000, 0b000000, 0b000000, 0b001100, 0b010010,
        0b010010, 0b001100, 0b000000, 0b000000]
  | 'p' =>
      [0b000000, 0b000000, 0b000000, 0b011100, 0b010010,
        0b010010, 0b011100, 0b010000, 0b010000]
  | 'r' =>
      [0b000000, 0b000000, 0b000000, 0b010100, 0b011010,
        0b010000, 0b010000, 0b000000, 0b000000]
  | 's' =>
      [0b000000, 0b000000, 0b000000, 0b001110, 0b011000,
        0b000110, 0b011100, 0b000000, 0b000000]
  | 't' =>
      [0b000000, 0b001000, 0b001000, 0b011100, 0b001000,
        0b001010, 0b000100, 0b000000, 0b000000]
  | _ => []

def headingRows : Char → List Nat
  | 'A' =>
      [0b000000000, 0b000000000, 0b000110000, 0b001111000, 0b011001100,
        0b110000110, 0b110000110, 0b110000110, 0b111111110, 0b110000110,
        0b110000110, 0b110000110, 0b000000000, 0b000000000, 0b000000000]
  | 'D' =>
      [0b000000000, 0b000000000, 0b111111000, 0b110001100, 0b110000110,
        0b110000110, 0b110000110, 0b110000110, 0b110000110, 0b110000110,
        0b110001100, 0b111111000, 0b000000000, 0b000000000, 0b000000000]
  | 'E' =>
      [0b000000000, 0b000000000, 0b011111110, 0b011000000, 0b011000000,
        0b011000000, 0b011111100, 0b011000000, 0b011000000, 0b011000000,
        0b011000000, 0b011111110, 0b000000000, 0b000000000, 0b000000000]
  | 'P' =>
      [0b000000000, 0b000000000, 0b111111100, 0b110000110, 0b110000110,
        0b110000110, 0b111111100, 0b110000000, 0b110000000, 0b110000000,
        0b110000000, 0b110000000, 0b000000000, 0b000000000, 0b000000000]
  | 'S' =>
      [0b000000000, 0b000000000, 0b011111100, 0b110000110, 0b110000000,
        0b110000000, 0b011111100, 0b000000110, 0b000000110, 0b000000110,
        0b110000110, 0b011111100, 0b000000000, 0b000000000, 0b000000000]
  | 'U' =>
      [0b000000000, 0b000000000, 0b110000110, 0b110000110, 0b110000110,
        0b110000110, 0b110000110, 0b110000110, 0b110000110, 0b110000110,
        0b011001100, 0b001111000, 0b000000000, 0b000000000, 0b000000000]
  | _ => []

def hintRows : Char → List Nat
  | '!' =>
      [0b0100, 0b0100, 0b0100, 0b0000, 0b0100, 0b0000]
  | ';' =>
      [0b0000, 0b0100, 0b0000, 0b0000, 0b0100, 0b1000]
  | 'S' =>
      [0b0110, 0b1000, 0b0100, 0b0010, 0b1100, 0b0000]
  | 'a' =>
      [0b0000, 0b0110, 0b1010, 0b1010, 0b0110, 0b0000]
  | 'c' =>
      [0b0000, 0b0110, 0b1000, 0b1000, 0b0110, 0b0000]
  | 'd' =>
      [0b0010, 0b0110, 0b1010, 0b1010, 0b0110, 0b0000]
  | 'e' =>
      [0b0000, 0b0100, 0b1010, 0b1100, 0b0110, 0b0000]
  | 'f' =>
      [0b0010, 0b0100, 0b1110, 0b0100, 0b0100, 0b0000]
  | 'h' =>
      [0b1000, 0b1100, 0b1010, 0b1010, 0b1010, 0b0000]
  | 'i' =>
      [0b0100, 0b0000, 0b1100, 0b0100, 0b1110, 0b0000]
  | 'l' =>
      [0b1100, 0b0100, 0b0100, 0b0100, 0b1110, 0b0000]
  | 'o' =>
      [0b0000, 0b0100, 0b1010, 0b1010, 0b0100, 0b0000]
  | 'p' =>
      [0b0000, 0b1100, 0b1010, 0b1100, 0b1000, 0b1000]
  | 'r' =>
      [0b0000, 0b1010, 0b1100, 0b1000, 0b1000, 0b0000]
  | 's' =>
      [0b0000, 0b0110, 0b1100, 0b0010, 0b1100, 0b0000]
  | 't' =>
      [0b0100, 0b1110, 0b0100, 0b0100, 0b0010, 0b0000]
  | 'u' =>
      [0b0000, 0b1010, 0b1010, 0b1010, 0b0110, 0b0000]
  | 'v' =>
      [0b0000, 0b1010, 0b1010, 0b1010, 0b0100, 0b0000]
  | 'w' =>
      [0b0000, 0b1010, 0b1010, 0b1110, 0b1010, 0b0000]
  | 'y' =>
      [0b0000, 0b1010, 0b1010, 0b0110, 0b0010, 0b1100]
  | _ => []

def Typeface.rows : Typeface → Char → List Nat
  | label => labelRows
  | heading => headingRows
  | hint => hintRows

/-- Whether a character has a dot at this place of its cell. -/
def Typeface.dot (face : Typeface) (c : Char) (column row : Nat) : Bool :=
  ((face.rows c)[row]?.getD 0).testBit (face.width - 1 - column)

/-- Inverted text paints its whole cells, plain text its dots only. -/
def Caption.inkAt (line : Caption) (x y : Nat) : Option Bool :=
  if line.left ≤ x && line.top ≤ y && y < line.top + line.face.height then
    match line.text.toList[(x - line.left) / line.face.width]? with
    | none => none
    | some c =>
        let dot := line.face.dot c ((x - line.left) % line.face.width) (y - line.top)
        if line.inverted then some !dot else if dot then some true else none
  else none

def Painter.standard : Painter
  | .caption line, x, y => line.inkAt x y
  | .box area filled, x, y =>
      if (if filled then area.covers x y else area.rim x y) then some true else none
  | .rule left right top, x, y => if left ≤ x && x ≤ right && y == top then some true else none

end TapeCutter.Screen
