import TapeCutter.Dns.Query
import TapeCutter.Settings.Basic

/-! Replies. A question for an address gets the one address there is, any other
question an empty reply, and a query that is not understood a refusal. -/
namespace TapeCutter.Dns

/-- The kind and the family of a question for an address. -/
def addressKind : UInt16 := 1

def internetFamily : UInt16 := 1

def Question.asksAddress (question : Question) : Bool :=
  question.kind == addressKind && question.family == internetFamily

/-- The record that gives the name of the question an address. The name is
written as a pointer to the question. -/
def answerRecord (address : Address) (lifetime : UInt32) : List UInt8 :=
  [0xC0, 0x0C] ++ wordBytes addressKind ++ wordBytes internetFamily ++ doubleBytes lifetime ++
    wordBytes 4 ++ address.bytes

/-- The reply to a query with this header and body. It keeps the number of the
query and its wish for recursion, and repeats a question it understood. -/
def replyBytes (header : Header) (body : List UInt8) (address : Address) (lifetime : UInt32) :
    Query → List UInt8
  | .unsupported =>
      Header.bytes ⟨header.id,
        Flag.response ||| (header.flags &&& Flag.recursion) ||| Flag.noSuchName, 0, 0, 0, 0⟩
  | .standard question =>
      let flags := Flag.response ||| Flag.authoritative ||| (header.flags &&& Flag.recursion)
      let asked := body.take question.length
      if question.asksAddress then
        Header.bytes ⟨header.id, flags, 1, 1, 0, 0⟩ ++ asked ++ answerRecord address lifetime
      else Header.bytes ⟨header.id, flags, 1, 0, 0, 0⟩ ++ asked

/-- The reply to a packet, if it fits the room there is. -/
def reply (packet : List UInt8) (address : Address) (lifetime : UInt32) (room : Nat) :
    Except DnsFault (List UInt8) :=
  match Header.read? packet with
  | none => .error .truncated
  | some (header, body) => do
      let query ← header.query body
      let bytes := replyBytes header body address lifetime query
      if room < bytes.length then throw .noRoom
      return bytes

/-- The reply written over the front of a buffer, and its length. The rest of
the buffer keeps its bytes. -/
def replyInto (buffer packet : List UInt8) (address : Address) (lifetime : UInt32) :
    Except DnsFault (Nat × List UInt8) := do
  let bytes ← reply packet address lifetime buffer.length
  return (bytes.length, bytes ++ buffer.drop bytes.length)

/-- No reply is longer than the room for it, whatever the packet says. -/
theorem length_le_of_reply {packet bytes : List UInt8} {address : Address} {lifetime : UInt32}
    {room : Nat} (hReply : reply packet address lifetime room = .ok bytes) :
    bytes.length ≤ room := by
  unfold reply at hReply
  split at hReply
  · cases hReply
  · rename_i header body _
    cases hQuery : header.query body with
    | error fault =>
        rw [hQuery] at hReply
        cases hReply
    | ok query =>
        simp only [hQuery, bind, Except.bind, pure, Except.pure] at hReply
        split at hReply
        · cases hReply
        · cases hReply
          omega

end TapeCutter.Dns
