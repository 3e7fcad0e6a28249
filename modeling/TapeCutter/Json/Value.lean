/-! JSON values as this machine needs them. Fractions and exponents are told
apart from whole numbers but not evaluated, because no field takes one. -/
namespace TapeCutter

namespace Json

/-- What a string literal says: its text, or nothing when an escape names half
of a surrogate pair without the other half. Such a literal is well formed. -/
abbrev Content := Option String

inductive Scalar where
  | null
  | bool (value : Bool)
  /-- A number without fraction and exponent. A signed zero keeps its sign. -/
  | whole (negative : Bool) (magnitude : Nat)
  /-- A number with a fraction or an exponent. -/
  | fractional
  | text (content : Content)
deriving DecidableEq

end Json

/-- Members keep their order, and a key may occur twice. -/
inductive Json where
  | scalar (value : Json.Scalar)
  | array (items : List Json)
  | object (members : List (Json.Content × Json))

namespace Json

def null : Json := .scalar .null

def nat (n : Nat) : Json := .scalar (.whole false n)

def text (s : String) : Json := .scalar (.text (some s))

/-- An object from its keys and values. -/
def record (members : List (String × Json)) : Json :=
  .object (members.map fun (key, value) => (some key, value))

/-- The number, when it is written as one without sign, fraction or exponent. -/
def nat? : Json → Option Nat
  | .scalar (.whole false n) => some n
  | _ => none

def text? : Json → Option String
  | .scalar (.text content) => content
  | _ => none

def isNull : Json → Bool
  | .scalar .null => true
  | _ => false

end Json

end TapeCutter
