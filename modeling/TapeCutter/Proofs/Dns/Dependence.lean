import Mathlib.Data.Nat.Bitwise
import TapeCutter.Dns.Resolver
import TapeCutter.Proofs.Dns.Lengths
import TapeCutter.Proofs.Dns.Replies

/-! What a reply can tell of the packet it answers, and of the buffers both pass through. Two
packets that ask the same of the same number and with the same wish for recursion get the
same reply, byte for byte. The rest of a packet is told by nothing, so it does not matter
where a datagram is cut behind its question, nor what a buffer held before. -/
namespace TapeCutter.Dns

/-- The wish for recursion, as it stands in a packet. -/
def recursionBit (packet : List UInt8) : UInt8 := packet.getD 2 0 &&& 1

/-- Where the question ends, of a query whose question is read. -/
def Query.stop? : Query → Option Nat
  | .standard question => some question.stop
  | .unsupported => none

/-! Bytes of a packet and the header they make up. -/

section

variable {header other : Header} {body others : List UInt8}

theorem take_two_bytes_append (header : Header) (body : List UInt8) :
    (header.bytes ++ body).take 2 = wordBytes header.id := rfl

/-- The identifier stands in the first two bytes. -/
theorem Header.id_eq_of_take
    (hId : (header.bytes ++ body).take 2 = (other.bytes ++ others).take 2) :
    header.id = other.id := by
  rw [take_two_bytes_append, take_two_bytes_append] at hId
  simp only [wordBytes, List.cons.injEq, and_true] at hId
  rw [← word_wordBytes header.id, hId.1, hId.2, word_wordBytes]

/-- The wish for recursion stands in the last bit of the third byte. -/
theorem toNat_recursionBit (header : Header) (body : List UInt8) :
    (recursionBit (header.bytes ++ body)).toNat = header.flags.toNat / 256 % 2 := by
  have hByte : recursionBit (header.bytes ++ body) = (header.flags >>> 8).toUInt8 &&& 1 := rfl
  rw [hByte, UInt8.toNat_and, UInt16.toNat_toUInt8, UInt16.toNat_shiftRight]
  change header.flags.toNat >>> 8 % 2 ^ 8 &&& 2 ^ 1 - 1 = _
  rw [Nat.and_two_pow_sub_one_eq_mod, Nat.shiftRight_eq_div_pow]
  omega

/-- Masked out of the flags it is this bit alone. -/
theorem toNat_recursion (flags : UInt16) :
    (flags &&& Flag.recursion).toNat = flags.toNat / 256 % 2 * 256 := by
  rw [UInt16.toNat_and]
  change flags.toNat &&& 2 ^ 8 = _
  rw [Nat.and_two_pow, Nat.testBit_eq_decide_div_mod_eq]
  change (decide (flags.toNat / 256 % 2 = 1)).toNat * 256 = _
  rcases Nat.mod_two_eq_zero_or_one (flags.toNat / 256) with hBit | hBit <;> rw [hBit] <;> rfl

/-- Headers whose packets agree in that bit wish for recursion alike. -/
theorem Header.recursion_eq_of_bit
    (hBit : recursionBit (header.bytes ++ body) = recursionBit (other.bytes ++ others)) :
    header.flags &&& Flag.recursion = other.flags &&& Flag.recursion := by
  rw [← UInt8.toNat_inj, toNat_recursionBit, toNat_recursionBit] at hBit
  rw [← UInt16.toNat_inj, toNat_recursion, toNat_recursion, hBit]

theorem slice_body (header : Header) (body : List UInt8) (count : Nat) :
    slice (header.bytes ++ body) Header.length (Header.length + count) = body.take count := by
  rw [slice, ← header.length_bytes, List.take_length_add_append, List.drop_left]

end

/-! A question is read from its own bytes alone. -/

/-- A question needs no byte behind its own. -/
theorem Question.read_take_length {body : List UInt8} {question : Question}
    (hRead : Question.read body = .ok question) :
    Question.read (body.take question.length) = .ok question := by
  obtain ⟨name, rest, rfl, hLength, hShort⟩ := read_eq_ok_iff.mp hRead
  rw [hLength, ← Name.length_ask name question.kind question.family, List.take_left]
  exact read_eq_ok_iff.mpr ⟨name, [], (List.append_nil _).symm, hLength, hShort⟩

/-- Two packets, with what is read of them, that say the same wherever a reply repeats them:
the number, the wish for recursion, and the question if it is read. -/
structure AskAlike (packet other : List UInt8) (query wanted : Query) : Prop where
  stops : query.stop? = wanted.stop?
  id : packet.take 2 = other.take 2
  recursion : recursionBit packet = recursionBit other
  asked : ∀ stop, query.stop? = some stop → slice packet 12 stop = slice other 12 stop

section

variable {header other : Header} {body others : List UInt8} {query wanted : Query}

/-- Where the questions have the same bytes, the same is asked. -/
theorem AskAlike.query_eq
    (alike : AskAlike (header.bytes ++ body) (other.bytes ++ others) query wanted)
    (hQuery : header.query body = .ok query) (hWanted : other.query others = .ok wanted) :
    wanted = query ∧ ∀ question, query = .standard question →
      body.take question.length = others.take question.length := by
  have hStops := alike.stops
  cases query with
  | unsupported =>
      cases wanted with
      | unsupported => exact ⟨rfl, nofun⟩
      | standard question => cases hStops
  | standard question =>
      cases wanted with
      | unsupported => cases hStops
      | standard asked =>
          have hLength : question.length = asked.length := by
            simpa [Query.stop?, Question.stop] using hStops
          have hBytes : body.take question.length = others.take question.length := by
            rw [← slice_body header, ← slice_body other]
            exact alike.asked _ rfl
          have hRead := Question.read_take_length (Header.query_eq_standard_iff.mp hQuery).2
          have hAsked := Question.read_take_length (Header.query_eq_standard_iff.mp hWanted).2
          rw [hBytes, hLength, hAsked] at hRead
          cases hRead
          refine ⟨rfl, fun other hOther => ?_⟩
          cases hOther
          exact hBytes

/-- A reply takes three things over from the packet: its identifier, its wish for recursion and
the bytes of the question. -/
theorem replyBytes_congr (address : Address) (lifetime : UInt32) (hId : header.id = other.id)
    (hRecursion : header.flags &&& Flag.recursion = other.flags &&& Flag.recursion)
    (hAsked : ∀ question, query = .standard question →
      body.take question.length = others.take question.length) :
    replyBytes header body address lifetime query =
      replyBytes other others address lifetime query := by
  cases query with
  | unsupported => simp only [replyBytes, hId, hRecursion]
  | standard question => simp only [replyBytes, hId, hRecursion, hAsked question rfl]

end

section

variable {packet other : List UInt8} {query wanted : Query} (address : Address) (lifetime : UInt32)

/-- Packets that ask alike get the same reply, or the same refusal where there is no room. -/
theorem AskAlike.reply_eq (alike : AskAlike packet other query wanted)
    (hRead : Query.read packet = .ok query) (hOther : Query.read other = .ok wanted)
    (room : Nat) : reply packet address lifetime room = reply other address lifetime room := by
  obtain ⟨header, body, rfl, hQuery⟩ := (Query.read_eq_iff (by simp)).mp hRead
  obtain ⟨otherHeader, others, rfl, hWanted⟩ := (Query.read_eq_iff (by simp)).mp hOther
  obtain ⟨rfl, hAsked⟩ := alike.query_eq hQuery hWanted
  rw [reply_of_query address lifetime hQuery, reply_of_query address lifetime hWanted,
    replyBytes_congr address lifetime (Header.id_eq_of_take alike.id)
      (Header.recursion_eq_of_bit alike.recursion) hAsked]

/-- A packet that is cut behind its question asks the same. -/
theorem askAlike_take {count : Nat} (hRead : Query.read packet = .ok query)
    (hReach : 272 ≤ count) : AskAlike (packet.take count) packet query query := by
  refine ⟨rfl, ?_, ?_, ?_⟩
  · rw [List.take_take, Nat.min_eq_left (by omega)]
  · unfold recursionBit
    rw [List.getD_eq_getElem?_getD, List.getD_eq_getElem?_getD, List.getElem?_take_of_lt (by omega)]
  · intro stop hStop
    cases query with
    | unsupported => cases hStop
    | standard question =>
        cases hStop
        have hEnd := Query.stop_le hRead
        rw [slice, slice, List.take_take, Nat.min_eq_left (by omega)]

/-- The first 272 bytes of a packet decide its reply. -/
theorem reply_take (packet : List UInt8) {count : Nat} (hReach : 272 ≤ count) (room : Nat) :
    reply (packet.take count) address lifetime room = reply packet address lifetime room := by
  have hCut := Query.read_take_of_reach packet hReach
  cases hRead : Query.read packet with
  | error fault =>
      rw [reply_of_error address lifetime hRead, reply_of_error address lifetime (hCut.trans hRead)]
  | ok query =>
      exact (askAlike_take hRead hReach).reply_eq address lifetime (hCut.trans hRead) hRead room

/-- No reply needs more than 288 bytes. -/
theorem Query.room_le (hRead : Query.read packet = .ok query) : query.room ≤ 288 := by
  cases query with
  | unsupported => decide
  | standard question =>
      have hEnd := Query.stop_le hRead
      rw [Query.room]
      split <;> omega

/-- Every buffer of the size for a packet has room for the reply, and gets the same one. -/
theorem exists_replyInto_eq (hRead : Query.read packet = .ok query) :
    ∃ bytes : List UInt8, bytes.length ≤ 288 ∧ ∀ buffer : List UInt8, 512 ≤ buffer.length →
      replyInto buffer packet address lifetime =
        .ok (bytes.length, bytes ++ buffer.drop bytes.length) := by
  have hRoom := Query.room_le hRead
  obtain ⟨header, body, rfl, hQuery⟩ := (Query.read_eq_iff (by simp)).mp hRead
  have hLength := length_replyBytes address lifetime hQuery
  refine ⟨replyBytes header body address lifetime query, by rwa [hLength], fun buffer hWide => ?_⟩
  rw [replyInto_of_query buffer address lifetime hQuery, if_neg (by omega), hLength]

end

namespace Resolver

variable (resolver : Resolver) {first second : List UInt8}

/-- A datagram that was cut at its largest payload is answered as if it were whole. -/
theorem answer?_take (datagram : Datagram) :
    resolver.answer? { datagram with payload := datagram.payload.take 512 } =
      resolver.answer? datagram := by
  simp only [answer?, reply_take _ _ datagram.payload (show 272 ≤ 512 by decide)]

/-- What a buffer holds when a pass begins is in none of the replies. -/
theorem serve_eq_of_buffers {Network : Type} (socket : Socket Network) (count : Nat)
    (hFirst : first.length = maxPayload) (hSecond : second.length = maxPayload)
    (network : Network) :
    resolver.serve socket count first network = resolver.serve socket count second network := by
  induction count generalizing first second network with
  | zero => rfl
  | succ count ih =>
      rw [serve, serve]
      obtain ⟨received, network⟩ := socket.receive network
      cases received with
      | nothing => rfl
      | failed => rfl
      | datagram datagram =>
          obtain ⟨hReply, hLeft⟩ := resolver.draft_eq hFirst datagram
          obtain ⟨hSame, hOver⟩ := resolver.draft_eq hSecond datagram
          rw [← hSame] at hReply
          dsimp only
          generalize resolver.draft first datagram = drafted at hReply hLeft ⊢
          generalize resolver.draft second datagram = other at hReply hOver ⊢
          obtain ⟨reply, left⟩ := drafted
          obtain ⟨same, kept⟩ := other
          cases hReply
          cases reply with
          | none => exact ih hLeft hOver network
          | some reply => simp only [ih hLeft hOver]

end Resolver

/-- No byte behind the longest question is looked at. In a buffer of the size for a packet the
outcome is settled by the packet, cut to that size or not, and never is that there is no room.
Packets that ask alike get the same reply. A pass sends the answers to the datagrams as they
were before they were cut, whatever its buffer held. -/
theorem reply_settled_by_question (address : Address) (lifetime : UInt32) :
    (∀ (packet : List UInt8) (count : Nat), 272 ≤ count →
      Query.read (packet.take count) = Query.read packet) ∧
      (∀ packet : List UInt8,
        (∃ fault, fault ≠ .noRoom ∧ ∀ buffer : List UInt8,
          replyInto buffer packet address lifetime = .error fault ∧
            replyInto buffer (packet.take 512) address lifetime = .error fault) ∨
        ∃ bytes : List UInt8, bytes.length ≤ 288 ∧ ∀ buffer : List UInt8, 512 ≤ buffer.length →
          let outcome := .ok (bytes.length, bytes ++ buffer.drop bytes.length)
          replyInto buffer packet address lifetime = outcome ∧
            replyInto buffer (packet.take 512) address lifetime = outcome) ∧
      (∀ (packet other : List UInt8) (query wanted : Query), Query.read packet = .ok query →
        Query.read other = .ok wanted → AskAlike packet other query wanted →
        ∀ buffer : List UInt8,
          replyInto buffer packet address lifetime = replyInto buffer other address lifetime) ∧
      ∀ (resolver : Resolver) (buffer : List UInt8), buffer.length = 512 →
        (∀ datagram : Datagram,
          (resolver.draft buffer { datagram with payload := datagram.payload.take 512 }).1 =
            resolver.answer? datagram) ∧
          ∀ (Network : Type) (socket : Socket Network) (count : Nat) (network : Network)
            (other : List UInt8), other.length = 512 →
            resolver.serve socket count buffer network =
              resolver.serve socket count other network := by
  have hCut (packet buffer : List UInt8) :
      replyInto buffer (packet.take 512) address lifetime =
        replyInto buffer packet address lifetime := by
    rw [replyInto, replyInto, reply_take address lifetime packet (by decide)]
  refine ⟨fun packet _ hReach => Query.read_take_of_reach packet hReach, fun packet => ?_, ?_, ?_⟩
  · simp only [hCut, and_self]
    cases hRead : Query.read packet with
    | error fault =>
        refine Or.inl ⟨fault, ?_, fun buffer => replyInto_of_error buffer address lifetime hRead⟩
        rintro rfl
        exact Query.read_ne_noRoom packet hRead
    | ok query => exact Or.inr (exists_replyInto_eq address lifetime hRead)
  · intro packet other query wanted hRead hOther alike buffer
    rw [replyInto, replyInto, alike.reply_eq address lifetime hRead hOther]
  · intro resolver buffer hLength
    refine ⟨fun datagram => ?_, fun Network socket count network other hOther => ?_⟩
    · rw [(resolver.draft_eq hLength _).1, resolver.answer?_take]
    · exact resolver.serve_eq_of_buffers socket count hLength hOther network

/-- Two queries for the address of `ab.c`, one of them with two more flags and a record behind
the question. Where the buffer is full of other things, the reply is still the same. -/
theorem same_reply_despite_record :
    let home : Address := ⟨4, 3, 2, 1⟩
    let name : Name := [⟨[97, 98], by decide, by decide⟩, ⟨[99], by decide, by decide⟩]
    let plain := Header.bytes ⟨0x1234, 0x0100, 1, 0, 0, 0⟩ ++ name.ask 1 1
    let laden := Header.bytes ⟨0x1234, 0x0130, 1, 0, 0, 1⟩ ++ name.ask 1 1 ++ [0, 0, 41]
    let query : Query := .standard ⟨10, 1, 1⟩
    let buffer : List UInt8 := .replicate 512 255
    let resolver : Resolver := { address := home, lifetime := 3600, interval := 30 }
    (Query.read plain = .ok query ∧ Query.read laden = .ok query ∧
        AskAlike plain laden query query ∧
        replyInto buffer plain home 3600 = replyInto buffer laden home 3600) ∧
      Query.read (laden.take 272) = Query.read laden ∧
      (resolver.draft buffer ⟨7, laden.take 512⟩).1 = resolver.answer? ⟨7, laden⟩ := by
  intro home name plain laden query buffer resolver
  have hPlain : Query.read plain = .ok query := rfl
  have hLaden : Query.read laden = .ok query := rfl
  have alike : AskAlike plain laden query query := by
    refine ⟨rfl, rfl, rfl, fun stop hStop => ?_⟩
    cases hStop
    rfl
  obtain ⟨hTake, -, hAlike, hPass⟩ := reply_settled_by_question home 3600
  exact ⟨⟨hPlain, hLaden, alike, hAlike plain laden query query hPlain hLaden alike buffer⟩,
    hTake laden 272 (by decide), (hPass resolver buffer List.length_replicate).1 ⟨7, laden⟩⟩

end TapeCutter.Dns
