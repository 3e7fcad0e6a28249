import TapeCutter.Text.Decimal

/-! String literals of JSON: escapes, surrogate pairs, and the written form. A
literal is read in two stages, first into characters and sixteen-bit units,
then into text. Raw control characters are refused in the first stage, lone
halves of surrogate pairs in the second. -/
namespace TapeCutter.Json

/-- One element between the quotes. -/
inductive Piece where
  | char (c : Char)
  /-- A sixteen-bit unit given by four hexadecimal digits. -/
  | unit (n : Nat)
deriving DecidableEq

def hexDigit? (c : Char) : Option Nat :=
  if '0' ≤ c ∧ c ≤ '9' then some (c.toNat - 48)
  else if 'a' ≤ c ∧ c ≤ 'f' then some (c.toNat - 87)
  else if 'A' ≤ c ∧ c ≤ 'F' then some (c.toNat - 55)
  else none

def unit? (a b c d : Char) : Option Piece :=
  match hexDigit? a, hexDigit? b, hexDigit? c, hexDigit? d with
  | some a, some b, some c, some d => some (.unit (((a * 16 + b) * 16 + c) * 16 + d))
  | _, _, _, _ => none

/-- The character a short escape stands for. -/
def shortEscape? : Char → Option Char
  | '"' => some '"'
  | '\\' => some '\\'
  | '/' => some '/'
  | 'b' => some '\x08'
  | 'f' => some '\x0c'
  | 'n' => some '\n'
  | 'r' => some '\r'
  | 't' => some '\t'
  | _ => none

/-- The pieces up to the closing quote, and the number of characters they take
together with that quote. -/
def pieces? : List Char → Option (List Piece × Nat)
  | [] => none
  | '"' :: _ => some ([], 1)
  | '\\' :: 'u' :: a :: b :: c :: d :: rest =>
      match unit? a b c d, pieces? rest with
      | some piece, some (pieces, taken) => some (piece :: pieces, taken + 6)
      | _, _ => none
  | '\\' :: e :: rest =>
      match shortEscape? e, pieces? rest with
      | some c, some (pieces, taken) => some (.char c :: pieces, taken + 2)
      | _, _ => none
  | c :: rest =>
      if c < ' ' then none
      else
        match pieces? rest with
        | some (pieces, taken) => some (.char c :: pieces, taken + 1)
        | none => none

def highHalf (n : Nat) : Bool := 0xD800 ≤ n && n < 0xDC00

def lowHalf (n : Nat) : Bool := 0xDC00 ≤ n && n < 0xE000

/-- The character above the sixteen-bit range that two halves stand for. -/
def joinHalves (high low : Nat) : Char :=
  Char.ofNat (0x10000 + (high - 0xD800) * 0x400 + (low - 0xDC00))

/-- Text of the pieces. The first argument is a high half that still waits for
its low half, which must be the very next piece. -/
def joinPieces : Option Nat → List Piece → Option (List Char)
  | none, [] => some []
  | some _, [] => none
  | none, .char c :: rest => (joinPieces none rest).map (c :: ·)
  | some _, .char _ :: _ => none
  | none, .unit n :: rest =>
      if highHalf n then joinPieces (some n) rest
      else if lowHalf n then none
      else (joinPieces none rest).map (Char.ofNat n :: ·)
  | some high, .unit n :: rest =>
      if lowHalf n then (joinPieces none rest).map (joinHalves high n :: ·) else none

def hexDigit (n : Nat) : Char := Nat.digitChar n

/-- Quotes and backslashes are escaped, control characters by their short
escape where there is one; all else stands for itself. -/
def escapeChar (c : Char) : List Char :=
  match c with
  | '"' => ['\\', '"']
  | '\\' => ['\\', '\\']
  | '\x08' => ['\\', 'b']
  | '\x0c' => ['\\', 'f']
  | '\n' => ['\\', 'n']
  | '\r' => ['\\', 'r']
  | '\t' => ['\\', 't']
  | _ =>
      if c < ' ' then ['\\', 'u', '0', '0', hexDigit (c.toNat / 16), hexDigit (c.toNat % 16)]
      else [c]

/-- The literal with its quotes. -/
def quote (s : List Char) : List Char := '"' :: s.flatMap escapeChar ++ ['"']

end TapeCutter.Json
