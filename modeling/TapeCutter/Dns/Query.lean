import TapeCutter.Dns.Header
import TapeCutter.Fault

/-! Queries, as far as a resolver needs them that gives every name the same
address. A query with one question in the standard operation is read up to the
end of the question; every other query is recognised by its header alone. -/
namespace TapeCutter.Dns

/-- The question of a standard query: the bytes it takes, and its last two words. -/
structure Question where
  length : Nat
  kind : UInt16
  family : UInt16
deriving DecidableEq

/-- The number of bytes of the message up to the end of the question. -/
def Question.stop (question : Question) : Nat := Header.length + question.length

/-- How a query will be answered. -/
inductive Query where
  | standard (question : Question)
  | unsupported
deriving DecidableEq

/-- The longest label. A greater length byte starts a pointer, which a question
does not use here. -/
def maxLabel : Nat := 63

/-- The greatest number of bytes that lengths and labels may take before the
byte that ends the name. -/
def maxName : Nat := 255

/-- Walk over a name: the bytes it takes together with its final zero, and what
follows. `inLabel` bytes still belong to the present label, and `taken` bytes
are accounted for, those included. -/
def walkName (inLabel taken : Nat) : List UInt8 → Except DnsFault (Nat × List UInt8)
  | [] => .error .truncated
  | byte :: rest =>
      match inLabel with
      | left + 1 => walkName left taken rest
      | 0 =>
          let length := byte.toNat
          if length = 0 then .ok (taken + 1, rest)
          else if maxLabel < length then .error .badName
          else if maxName < taken + 1 + length then .error .badName
          else walkName length (taken + 1 + length) rest

/-- The question that follows a header. -/
def Question.read (body : List UInt8) : Except DnsFault Question := do
  let (name, rest) ← walkName 0 0 body
  match rest with
  | k₁ :: k₀ :: f₁ :: f₀ :: _ => return ⟨name + 4, word k₁ k₀, word f₁ f₀⟩
  | _ => throw .truncated

/-- What a message with this header asks, from the bytes that follow it. -/
def Header.query (header : Header) (body : List UInt8) : Except DnsFault Query :=
  if header.flags &&& Flag.response ≠ 0 then .error .notAQuery
  else if header.flags &&& Flag.operation ≠ 0 ∨ header.questions ≠ 1 then .ok .unsupported
  else (Question.read body).map .standard

def Query.read (packet : List UInt8) : Except DnsFault Query :=
  match Header.read? packet with
  | some (header, body) => header.query body
  | none => .error .truncated

end TapeCutter.Dns
