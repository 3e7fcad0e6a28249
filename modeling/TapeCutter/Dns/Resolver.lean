import TapeCutter.Dns.Reply

/-! The resolver in the control loop. A pass over the datagrams that have come in
happens at most once per interval and takes a few at a time, so the loop is never
held up for long. What a pass finds, and whether its replies get out, is up to the
socket; the one at hand keeps datagrams in the order they came, and can always send. -/
namespace TapeCutter.Dns

/-- A datagram with the number by which its sender is known. -/
structure Datagram where
  sender : Nat
  payload : List UInt8
deriving DecidableEq

/-- The largest payload that is kept, and the room for a reply. -/
def maxPayload : Nat := 512

/-- The number of datagrams one pass takes. -/
def perPass : Nat := 4

/-- What a socket says when it is asked for a datagram. It does not wait for one. -/
inductive Received where
  /-- A datagram, as much of it as there is room for. -/
  | datagram (datagram : Datagram)
  | nothing
  | failed
deriving DecidableEq

/-- A socket, by what it does to the network behind it. -/
structure Socket (Network : Type) where
  receive : Network → Received × Network
  /-- Send a datagram, and learn whether it got out. -/
  send : Network → Datagram → Bool × Network

/-- The socket of a network that is a list of datagrams waiting in order. -/
def Socket.inbox : Socket (List Datagram) where
  receive
    | [] => (.nothing, [])
    | first :: rest => (.datagram first, rest)
  send waiting _ := (true, waiting)

structure Resolver where
  address : Address
  lifetime : UInt32
  interval : UInt32
  /-- The time of the last pass. -/
  lastPass : Option UInt32 := none
  /-- Replies so far. The count wraps. -/
  answered : UInt32 := 0
  waiting : List Datagram := []
deriving DecidableEq

namespace Resolver

/-- A datagram comes in. Whatever is beyond the largest payload is lost. -/
def arrive (resolver : Resolver) (datagram : Datagram) : Resolver :=
  { resolver with
    waiting := resolver.waiting ++ [{ datagram with payload := datagram.payload.take maxPayload }] }

/-- The first pass is always due; later ones once the interval has passed since
the last, on a clock that wraps. -/
def due (resolver : Resolver) (now : UInt32) : Bool :=
  match resolver.lastPass with
  | none => true
  | some last => resolver.interval ≤ now - last

/-- The reply to a datagram, to its sender. A datagram that cannot be answered
is dropped. -/
def answer? (resolver : Resolver) (datagram : Datagram) : Option Datagram :=
  match reply datagram.payload resolver.address resolver.lifetime maxPayload with
  | .ok bytes => some ⟨datagram.sender, bytes⟩
  | .error _ => none

/-- Write the reply to a datagram into a buffer, and send what was written to its sender: what
is to be sent, and the buffer afterwards. -/
def draft (resolver : Resolver) (buffer : List UInt8) (datagram : Datagram) :
    Option Datagram × List UInt8 :=
  match replyInto buffer datagram.payload resolver.address resolver.lifetime with
  | .ok (length, written) => (some ⟨datagram.sender, written.take length⟩, written)
  | .error _ => (none, buffer)

section

variable {Network : Type} (socket : Socket Network)

/-- Ask for a number of datagrams and answer them: the replies that got out. The first time
there is none, or none can be had, is the last. One buffer serves for all replies. -/
def serve (resolver : Resolver) : Nat → List UInt8 → Network → List Datagram × Network
  | 0, _, network => ([], network)
  | count + 1, buffer, network =>
      match socket.receive network with
      | (.datagram datagram, network) =>
          match resolver.draft buffer datagram with
          | (some reply, buffer) =>
              let (sent, network) := socket.send network reply
              let (later, network) := resolver.serve count buffer network
              (if sent then reply :: later else later, network)
          | (none, buffer) => resolver.serve count buffer network
      | (.nothing, network) => ([], network)
      | (.failed, network) => ([], network)

/-- A pass, if one is due, and the replies it sends. -/
def pollOver (resolver : Resolver) (now : UInt32) (network : Network) :
    List Datagram × Resolver × Network :=
  if resolver.due now then
    let (replies, network) := resolver.serve socket perPass (List.replicate maxPayload 0) network
    (replies,
      { resolver with
        lastPass := some now
        answered := resolver.answered + .ofNat replies.length },
      network)
  else ([], resolver, network)

end

/-- A pass over the datagrams that wait. -/
def poll (resolver : Resolver) (now : UInt32) : List Datagram × Resolver :=
  let (replies, next, waiting) := resolver.pollOver .inbox now resolver.waiting
  (replies, { next with waiting := waiting })

/-- A buffer of the size for a reply stays one, and what it held before is not sent. -/
theorem draft_eq (resolver : Resolver) {buffer : List UInt8} (hRoom : buffer.length = maxPayload)
    (datagram : Datagram) :
    (resolver.draft buffer datagram).1 = resolver.answer? datagram ∧
      (resolver.draft buffer datagram).2.length = maxPayload := by
  unfold draft answer?
  rw [replyInto, hRoom]
  cases hReply : reply datagram.payload resolver.address resolver.lifetime maxPayload with
  | error fault => exact ⟨rfl, hRoom⟩
  | ok bytes =>
      have hFits := length_le_of_reply hReply
      refine ⟨?_, ?_⟩
      · simp [bind, Except.bind, pure, Except.pure]
      · simp only [bind, Except.bind, pure, Except.pure, List.length_append, List.length_drop]
        omega

/-- Datagrams that wait are taken in order, and every answer gets out. -/
theorem serve_inbox (resolver : Resolver) (count : Nat) {buffer : List UInt8}
    (hRoom : buffer.length = maxPayload) (waiting : List Datagram) :
    resolver.serve .inbox count buffer waiting =
      ((waiting.take count).filterMap resolver.answer?, waiting.drop count) := by
  induction count generalizing buffer waiting with
  | zero => rfl
  | succ count ih =>
      cases waiting with
      | nil => rfl
      | cons first rest =>
          obtain ⟨hReply, hLeft⟩ := resolver.draft_eq hRoom first
          simp only [serve, Socket.inbox, List.take_succ_cons, List.drop_succ_cons,
            List.filterMap_cons, ← hReply]
          have hRest := ih hLeft rest
          simp only [Socket.inbox] at hRest
          generalize resolver.draft buffer first = drafted at hRest ⊢
          obtain ⟨reply, left⟩ := drafted
          cases reply with
          | none => exact hRest
          | some reply => simp only [hRest, if_true]

/-- A pass over the datagrams that wait takes the oldest off and sends the replies of those it can
answer; the buffer that they share does not show. -/
theorem poll_eq (resolver : Resolver) (now : UInt32) :
    resolver.poll now =
      if resolver.due now then
        let replies := (resolver.waiting.take perPass).filterMap resolver.answer?
        (replies,
          { resolver with
            lastPass := some now
            answered := resolver.answered + .ofNat replies.length
            waiting := resolver.waiting.drop perPass })
      else ([], resolver) := by
  unfold poll pollOver
  rw [serve_inbox _ _ List.length_replicate]
  cases resolver.due now <;> rfl

end Resolver

end TapeCutter.Dns
