import TapeCutter.Json.Literal
import TapeCutter.Json.Value

/-! Tokens of JSON text. Every token starts at a character that decides its
kind; blanks may stand between tokens and nowhere else. -/
namespace TapeCutter.Json

/-- Punctuation. -/
inductive Mark where
  | openBrace
  | closeBrace
  | openBracket
  | closeBracket
  | comma
  | colon
deriving DecidableEq

inductive Token where
  | mark (mark : Mark)
  | scalar (value : Scalar)
deriving DecidableEq

/-- The length of a run of digits. -/
def digitRun (cs : List Char) : Nat := (cs.takeWhile Char.isDigit).length

/-- The length of the whole part: one zero, or digits that start with another one. -/
def wholePart? : List Char → Option Nat
  | '0' :: _ => some 1
  | cs => if digitRun cs = 0 then none else some (digitRun cs)

/-- The length of a fraction, zero when there is none. A point needs a digit behind it. -/
def fraction? : List Char → Option Nat
  | '.' :: rest => if digitRun rest = 0 then none else some (digitRun rest + 1)
  | _ => some 0

def exponentDigits? (start : Nat) (cs : List Char) : Option Nat :=
  if digitRun cs = 0 then none else some (digitRun cs + start)

/-- The length of an exponent, zero when there is none. -/
def exponent? : List Char → Option Nat
  | 'e' :: '+' :: rest => exponentDigits? 2 rest
  | 'e' :: '-' :: rest => exponentDigits? 2 rest
  | 'E' :: '+' :: rest => exponentDigits? 2 rest
  | 'E' :: '-' :: rest => exponentDigits? 2 rest
  | 'e' :: rest => exponentDigits? 1 rest
  | 'E' :: rest => exponentDigits? 1 rest
  | _ => some 0

/-- A number behind its sign, and its length. -/
def unsigned? (negative : Bool) (cs : List Char) : Option (Scalar × Nat) := do
  let whole ← wholePart? cs
  let fraction ← fraction? (cs.drop whole)
  let exponent ← exponent? (cs.drop (whole + fraction))
  if fraction + exponent = 0 then
    return (.whole negative (Text.number (cs.take whole)), whole)
  else return (.fractional, whole + fraction + exponent)

def number? : List Char → Option (Scalar × Nat)
  | '-' :: rest => (unsigned? true rest).map fun (value, taken) => (value, taken + 1)
  | cs => unsigned? false cs

/-- The first token and the number of characters it takes. -/
def Token.first? : List Char → Option (Token × Nat)
  | '\x7b' :: _ => some (.mark .openBrace, 1)
  | '\x7d' :: _ => some (.mark .closeBrace, 1)
  | '[' :: _ => some (.mark .openBracket, 1)
  | ']' :: _ => some (.mark .closeBracket, 1)
  | ',' :: _ => some (.mark .comma, 1)
  | ':' :: _ => some (.mark .colon, 1)
  | '"' :: rest =>
      (pieces? rest).map fun (pieces, taken) =>
        (.scalar (.text ((joinPieces none pieces).map String.ofList)), taken + 1)
  | 'n' :: 'u' :: 'l' :: 'l' :: _ => some (.scalar .null, 4)
  | 't' :: 'r' :: 'u' :: 'e' :: _ => some (.scalar (.bool true), 4)
  | 'f' :: 'a' :: 'l' :: 's' :: 'e' :: _ => some (.scalar (.bool false), 5)
  | cs => (number? cs).map fun (value, taken) => (.scalar value, taken)

def isBlank (c : Char) : Bool := c == ' ' || c == '\t' || c == '\n' || c == '\r'

/-- All tokens of the text. The first argument counts the characters that still
belong to the token before. -/
def scan? : Nat → List Char → Option (List Token)
  | _, [] => some []
  | skip + 1, _ :: rest => scan? skip rest
  | 0, c :: rest =>
      if isBlank c then scan? 0 rest
      else
        match Token.first? (c :: rest) with
        | some (token, taken) => (scan? (taken - 1) rest).map (token :: ·)
        | none => none

/-- The written form of a scalar. A number whose value was not kept and a
literal without text are written as one of their kind. -/
def Scalar.chars : Scalar → List Char
  | null => ['n', 'u', 'l', 'l']
  | bool true => ['t', 'r', 'u', 'e']
  | bool false => ['f', 'a', 'l', 's', 'e']
  | whole false n => Text.digits n
  | whole true n => '-' :: Text.digits n
  | fractional => ['0', '.', '0']
  | text (some s) => quote s.toList
  | text none => ['"', '\\', 'u', 'd', '8', '0', '0', '"']

def Token.chars : Token → List Char
  | mark .openBrace => ['\x7b']
  | mark .closeBrace => ['\x7d']
  | mark .openBracket => ['[']
  | mark .closeBracket => [']']
  | mark .comma => [',']
  | mark .colon => [':']
  | scalar value => value.chars

end TapeCutter.Json
