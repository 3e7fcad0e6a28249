import TapeCutter.Json.Value
import TapeCutter.Text.Bounded

/-! Records in JSON. A record is an object with known keys, or an array of the
values in the order of declaration. -/
namespace TapeCutter.Json

/-- The value of each name in order, absent where the record does not give it.
In an object, unknown keys are passed over, and a known key may come once; a
key without text spoils it. An array may not be longer than the list of names. -/
def fields? (names : List String) : Json → Option (List (Option Json))
  | .scalar _ => none
  | .array items =>
      if items.length ≤ names.length then
        some (items.map some ++ List.replicate (names.length - items.length) none)
      else none
  | .object members => do
      let known := members.filter fun (key, _) => names.any fun name => key = some name
      if members.any fun (key, _) => key.isNone then none
      else if names.any fun name => 1 < known.countP fun (key, _) => key = some name then none
      else some (names.map fun name => (known.find? fun (key, _) => key = some name).map (·.2))

/-- A number below the size, as a word of the type that has this many values. -/
def word? {Word : Type} (size : Nat) (ofNat : Nat → Word) (value : Json) : Option Word :=
  match value.nat? with
  | some n => if n < size then some (ofNat n) else none
  | none => none

def uint8? : Json → Option UInt8 := word? UInt8.size UInt8.ofNat

def uint16? : Json → Option UInt16 := word? UInt16.size UInt16.ofNat

def uint32? : Json → Option UInt32 := word? UInt32.size UInt32.ofNat

def bounded? {capacity : Nat} (value : Json) : Option (Text.Bounded capacity) :=
  value.text?.bind Text.Bounded.ofString?

end TapeCutter.Json
