import TapeCutter.Dns.Message
import TapeCutter.Proofs.Dns.Questions

/-! Replies, read as messages. A reply says what it was asked and what the answer is, and
nothing else; taken for a query again it asks the same. -/
namespace TapeCutter.Dns

/-- The room that the reply to a query takes. -/
def Query.room : Query → Nat
  | .unsupported => 12
  | .standard question => question.stop + if question.asksAddress then 16 else 0

/-- A message with its response bit cleared. -/
def asQuery (message : List UInt8) : List UInt8 := message.modify 2 (· &&& 0x7F)

/-- The part of a reply that does not depend on what was asked. -/
structure Message.RepliesTo (message : Message) (asked : Header) : Prop where
  id : message.header.id = asked.id
  response : message.header.flags &&& Flag.response ≠ 0
  operation : message.header.flags &&& Flag.operation = 0
  recursion : message.header.flags &&& Flag.recursion = asked.flags &&& Flag.recursion
  authorities : message.header.authorities = 0
  extras : message.header.extras = 0

/-- The name does not exist, and nobody speaks for it. -/
structure Message.Refuses (message : Message) : Prop where
  authoritative : message.header.flags &&& Flag.authoritative = 0
  result : message.header.flags &&& Flag.result = Flag.noSuchName
  questions : message.header.questions = 0
  answers : message.header.answers = 0

/-- The question is repeated, and these records are all that is known. -/
structure Message.Answers (message : Message) (question : List UInt8) (records : List Record) :
    Prop where
  authoritative : message.header.flags &&& Flag.authoritative ≠ 0
  result : message.header.flags &&& Flag.result = 0
  questions : message.header.questions = 1 ∧ message.questions = [question]
  answers : message.header.answers.toNat = records.length ∧ message.answers = records

/-- The records that answer a question. -/
def Question.records (question : Question) (address : Address) (lifetime : UInt32) : List Record :=
  if question.asksAddress then [⟨12, addressKind, internetFamily, lifetime, address.bytes⟩] else []

/-- What the reply to a query in this packet says. -/
def Message.Says (message : Message) (packet : List UInt8) (address : Address)
    (lifetime : UInt32) : Query → Prop
  | .unsupported => message.Refuses
  | .standard question =>
      message.Answers (slice packet 12 question.stop) (question.records address lifetime)

/-- These bytes are the reply to a query in a packet: read as a message they say what they
should, taken for a query again they ask the same, and as they are they ask nothing. -/
structure IsReply (packet : List UInt8) (query : Query) (address : Address) (lifetime : UInt32)
    (bytes : List UInt8) : Prop where
  reads : ∃ (asked : Header) (message : Message), packet.take 12 = asked.bytes ∧
    Message.read? bytes = some message ∧ message.RepliesTo asked ∧
    message.Says packet address lifetime query
  asks_again : Query.read (asQuery bytes) = .ok query
  asks_nothing : Query.read bytes = .error .notAQuery

/-- A reply gives an address exactly if it was asked for one, and always the same. -/
theorem IsReply.answers {packet bytes : List UInt8} {query : Query} {address : Address}
    {lifetime : UInt32} (hReply : IsReply packet query address lifetime bytes) :
    ∃ message, Message.read? bytes = some message ∧
      (message.answers ≠ [] ↔ ∃ question, query = .standard question ∧ question.asksAddress) ∧
      ∀ record ∈ message.answers, record.kind = addressKind ∧ record.data = address.bytes := by
  obtain ⟨asked, message, -, hRead, -, hSays⟩ := hReply.reads
  refine ⟨message, hRead, ?_⟩
  cases query with
  | unsupported =>
      have hNone : message.answers = [] := by
        have hCount : message.header.answers = 0 := Message.Refuses.answers hSays
        rw [← List.length_eq_zero_iff, Message.length_answers hRead, hCount]
        rfl
      simp [hNone]
  | standard question =>
      have hRecords : message.answers = question.records address lifetime :=
        (Message.Answers.answers hSays).2
      rw [hRecords, Question.records]
      split <;> simp_all

/-- The wish for recursion is one bit. -/
theorem recursion_cases (flags : UInt16) :
    flags &&& Flag.recursion = 0 ∨ flags &&& Flag.recursion = Flag.recursion := by
  have hBit : (flags &&& Flag.recursion).toBitVec =
      if flags.toBitVec.getLsbD 8 then Flag.recursion.toBitVec else 0 :=
    BitVec.and_twoPow flags.toBitVec 8
  split at hBit
  · exact Or.inr (UInt16.toBitVec_inj.mp hBit)
  · exact Or.inl (UInt16.toBitVec_inj.mp hBit)

/-- The flags of a refusal, bit by bit, and those of the query it is the reply to. -/
theorem flags_refusal (flags : UInt16) :
    let said := Flag.response ||| (flags &&& Flag.recursion) ||| Flag.noSuchName
    (said &&& Flag.response ≠ 0 ∧ said &&& Flag.operation = 0 ∧
        said &&& Flag.recursion = flags &&& Flag.recursion) ∧
      (said &&& Flag.authoritative = 0 ∧ said &&& Flag.result = Flag.noSuchName) ∧
      said &&& 0x7FFF &&& Flag.response = 0 := by
  rcases recursion_cases flags with hFlag | hFlag <;> rw [hFlag] <;> decide

/-- The flags of an answer say that it is one and that it speaks with authority. They repeat the
wish for recursion, and read as a query they are a standard one. -/
theorem flags_answer (flags : UInt16) :
    let said := Flag.response ||| Flag.authoritative ||| (flags &&& Flag.recursion)
    (said &&& Flag.response ≠ 0 ∧ said &&& Flag.operation = 0 ∧
        said &&& Flag.recursion = flags &&& Flag.recursion) ∧
      (said &&& Flag.authoritative ≠ 0 ∧ said &&& Flag.result = 0) ∧
      said &&& 0x7FFF &&& Flag.response = 0 ∧ said &&& 0x7FFF &&& Flag.operation = 0 := by
  rcases recursion_cases flags with hFlag | hFlag <;> rw [hFlag] <;> decide

/-- A message is made a query by its flags alone. -/
theorem asQuery_bytes_append (header : Header) (body : List UInt8) :
    asQuery (header.bytes ++ body) =
      { header with flags := header.flags &&& 0x7FFF }.bytes ++ body := by
  have hFlags : wordBytes (header.flags &&& 0x7FFF) =
      [(header.flags >>> 8).toUInt8 &&& 0x7F, header.flags.toUInt8] := by
    simp only [wordBytes, List.cons.injEq, and_true, ← UInt8.toNat_inj, UInt8.toNat_and,
      UInt16.toNat_toUInt8, UInt16.toNat_shiftRight, UInt16.toNat_and]
    rw [show (0x7FFF : UInt16).toNat = 2 ^ 15 - 1 from rfl,
      show (0x7F : UInt8).toNat = 2 ^ 7 - 1 from rfl, Nat.and_two_pow_sub_one_eq_mod,
      Nat.and_two_pow_sub_one_eq_mod, show (8 : UInt16).toNat % 16 = 8 from rfl,
      Nat.shiftRight_eq_div_pow, Nat.shiftRight_eq_div_pow]
    omega
  simp only [Header.bytes, hFlags]
  rfl

/-- The record that is written is read back: a pointer to the name in the question, and the
address. -/
theorem read?_answerRecord (address : Address) (lifetime : UInt32) (rest : List UInt8) :
    Record.read? (answerRecord address lifetime ++ rest) =
      some (⟨12, addressKind, internetFamily, lifetime, address.bytes⟩, rest) := by
  have hPointer : word 0xC0 0x0C = 0xC00C := by decide
  have hOwner : pointerMark ≤ 0xC00C ∧ (0xC00C - pointerMark).toNat = 12 := by decide
  have hLength : (word ((4 : UInt16) >>> 8).toUInt8 4).toNat = 4 := by decide
  simp [answerRecord, wordBytes, doubleBytes, Record.read?, Address.bytes, hPointer, hOwner,
    hLength]

theorem Question.bytes?_ask {name : Name} (hShort : name.encode.length ≤ maxName + 1)
    (kind family : UInt16) (rest : List UInt8) :
    Question.bytes? (name.ask kind family ++ rest) = some (name.ask kind family, rest) := by
  rw [Question.bytes?, Question.read_ask hShort, ← Name.length_ask name kind family]
  simp

/-- Nothing but a header. -/
theorem Message.read?_header {header : Header} (hQuestions : header.questions = 0)
    (hAnswers : header.answers = 0) (hAuthorities : header.authorities = 0)
    (hExtras : header.extras = 0) :
    Message.read? header.bytes = some ⟨header, [], [], [], []⟩ := by
  have hRead := header.read?_bytes_append []
  rw [List.append_nil] at hRead
  simp [Message.read?, readTimes, hRead, hQuestions, hAnswers, hAuthorities, hExtras]

/-- One question, then the answers, and no more. -/
theorem Message.read?_reply {header : Header} (hQuestions : header.questions = 1)
    (hAuthorities : header.authorities = 0) (hExtras : header.extras = 0) {name : Name}
    (hShort : name.encode.length ≤ maxName + 1) (kind family : UInt16) {answers : List UInt8}
    {records : List Record}
    (hAnswers : readTimes Record.read? header.answers.toNat answers = some (records, [])) :
    Message.read? (header.bytes ++ (name.ask kind family ++ answers)) =
      some ⟨header, [name.ask kind family], records, [], []⟩ := by
  simp [Message.read?, readTimes, hQuestions, hAuthorities, hExtras, hAnswers,
    Question.bytes?_ask hShort]

section

variable {header : Header} {body : List UInt8} (address : Address) (lifetime : UInt32)

/-- A query that is not understood gets a header and nothing else. -/
theorem isReply_refusal :
    IsReply (header.bytes ++ body) .unsupported address lifetime
      (replyBytes header body address lifetime .unsupported) := by
  obtain ⟨⟨hResponse, hOperation, hRecursion⟩, ⟨hAuthoritative, hResult⟩, hQuery⟩ :=
    flags_refusal header.flags
  let said : Header := ⟨header.id,
    Flag.response ||| (header.flags &&& Flag.recursion) ||| Flag.noSuchName, 0, 0, 0, 0⟩
  change IsReply _ .unsupported address lifetime said.bytes
  constructor
  · exact ⟨header, ⟨said, [], [], [], []⟩, List.take_left' header.length_bytes,
      Message.read?_header rfl rfl rfl rfl, ⟨rfl, hResponse, hOperation, hRecursion, rfl, rfl⟩,
      hAuthoritative, hResult, rfl, rfl⟩
  · rw [← List.append_nil said.bytes, asQuery_bytes_append, Query.read_bytes_append,
      Header.query_eq_unsupported_iff]
    exact ⟨hQuery, Or.inr (show (0 : UInt16) ≠ 1 by decide)⟩
  · rw [← List.append_nil said.bytes, Query.read_bytes_append, Header.query_eq_notAQuery_iff]
    exact hResponse

/-- What stands behind the question in a reply to it. -/
def Question.answerBytes (question : Question) : List UInt8 :=
  if question.asksAddress then answerRecord address lifetime else []

theorem Question.length_answerBytes (question : Question) :
    (question.answerBytes address lifetime).length = if question.asksAddress then 16 else 0 := by
  unfold Question.answerBytes
  split <;> rfl

theorem Question.readTimes_answerBytes (question : Question) :
    readTimes Record.read? (question.records address lifetime).length
      (question.answerBytes address lifetime) = some (question.records address lifetime, []) := by
  unfold Question.records Question.answerBytes
  split
  · have hRecord := read?_answerRecord address lifetime []
    rw [List.append_nil] at hRecord
    simp [readTimes, hRecord]
  · rfl

/-- An answer is a header, the question as it was asked, and the record if the question is for an
address. -/
theorem replyBytes_ask {question : Question} {name : Name}
    (hLength : question.length = name.encode.length + 4) (rest : List UInt8) :
    replyBytes header (name.ask question.kind question.family ++ rest) address lifetime
        (.standard question) =
      Header.bytes ⟨header.id,
          Flag.response ||| Flag.authoritative ||| (header.flags &&& Flag.recursion), 1,
          if question.asksAddress then 1 else 0, 0, 0⟩ ++
        (name.ask question.kind question.family ++ question.answerBytes address lifetime) := by
  have hAsked : (name.ask question.kind question.family ++ rest).take question.length =
      name.ask question.kind question.family := by
    rw [hLength]
    exact List.take_left' (name.length_ask question.kind question.family)
  rw [replyBytes, hAsked, Question.answerBytes]
  split <;> simp

/-- A question is repeated, and answered if it is for an address. -/
theorem isReply_answer {question : Question} (hRead : Question.read body = .ok question) :
    IsReply (header.bytes ++ body) (.standard question) address lifetime
      (replyBytes header body address lifetime (.standard question)) := by
  obtain ⟨name, rest, rfl, hLength, hShort⟩ := Question.read_eq_ok_iff.mp hRead
  obtain ⟨⟨hResponse, hOperation, hRecursion⟩, ⟨hAuthoritative, hResult⟩, hQuery, hStandard⟩ :=
    flags_answer header.flags
  let said : Header := ⟨header.id,
    Flag.response ||| Flag.authoritative ||| (header.flags &&& Flag.recursion), 1,
    if question.asksAddress then 1 else 0, 0, 0⟩
  let asked := name.ask question.kind question.family
  let records := question.records address lifetime
  have hBytes : replyBytes header (asked ++ rest) address lifetime (.standard question) =
      said.bytes ++ (asked ++ question.answerBytes address lifetime) :=
    replyBytes_ask address lifetime hLength rest
  have hCount : said.answers.toNat = records.length := by
    simp only [said, records, Question.records]
    split <;> rfl
  have hRecords : readTimes Record.read? said.answers.toNat
      (question.answerBytes address lifetime) = some (records, []) := by
    rw [hCount]
    exact question.readTimes_answerBytes address lifetime
  have hSlice : slice (header.bytes ++ (asked ++ rest)) 12 question.stop = asked := by
    have hStop : question.stop = header.bytes.length + asked.length := by
      rw [Question.stop, hLength, Header.length_bytes, Name.length_ask]
    rw [hStop]
    exact slice_append header.bytes asked rest
  rw [hBytes]
  constructor
  · refine ⟨header, ⟨said, [asked], records, [], []⟩, List.take_left' header.length_bytes,
      Message.read?_reply rfl rfl rfl hShort _ _ hRecords,
      ⟨rfl, hResponse, hOperation, hRecursion, rfl, rfl⟩, ?_⟩
    exact ⟨hAuthoritative, hResult, ⟨rfl, by rw [hSlice]⟩, hCount, rfl⟩
  · rw [asQuery_bytes_append, Query.read_bytes_append, Header.query_eq_standard_iff]
    refine ⟨⟨hQuery, hStandard, rfl⟩, ?_⟩
    rw [Question.read_ask hShort, ← hLength]
  · rw [Query.read_bytes_append, Header.query_eq_notAQuery_iff]
    exact hResponse

/-- Whatever is asked, the bytes that are written are a reply to it. -/
theorem isReply {query : Query} (hQuery : header.query body = .ok query) :
    IsReply (header.bytes ++ body) query address lifetime
      (replyBytes header body address lifetime query) := by
  cases query with
  | unsupported => exact isReply_refusal address lifetime
  | standard question =>
      exact isReply_answer address lifetime (Header.query_eq_standard_iff.mp hQuery).2

/-- What is written takes up the room that was asked for. -/
theorem length_replyBytes {query : Query} (hQuery : header.query body = .ok query) :
    (replyBytes header body address lifetime query).length = query.room := by
  cases query with
  | unsupported => rfl
  | standard question =>
      obtain ⟨-, hRead⟩ := Header.query_eq_standard_iff.mp hQuery
      obtain ⟨name, rest, rfl, hLength, -⟩ := Question.read_eq_ok_iff.mp hRead
      rw [replyBytes_ask address lifetime hLength, Query.room, Question.stop, hLength,
        List.length_append, List.length_append, Header.length_bytes, Name.length_ask,
        Question.length_answerBytes]
      simp only [Nat.add_assoc]

end

section

variable {packet : List UInt8} (address : Address) (lifetime : UInt32)

/-- What cannot be read is not replied to, whatever room there is. -/
theorem reply_of_error {fault : DnsFault} (hRead : Query.read packet = .error fault) (room : Nat) :
    reply packet address lifetime room = .error fault := by
  rw [Query.read] at hRead
  rw [reply]
  cases hHeader : Header.read? packet with
  | none =>
      rw [hHeader] at hRead
      cases hRead
      rfl
  | some read =>
      rw [hHeader] at hRead
      simp only [hRead]
      rfl

/-- A query is replied to if there is room, and refused for want of room if not. -/
theorem reply_of_query {header : Header} {body : List UInt8} {query : Query}
    (hQuery : header.query body = .ok query) (room : Nat) :
    reply (header.bytes ++ body) address lifetime room =
      if room < query.room then .error .noRoom
      else .ok (replyBytes header body address lifetime query) := by
  rw [reply, Header.read?_bytes_append]
  simp only [hQuery, ← length_replyBytes address lifetime hQuery]
  by_cases hRoom : room < (replyBytes header body address lifetime query).length
  · simp [hRoom, bind, Except.bind, throw, throwThe, MonadExceptOf.throw]
  · simp [hRoom, bind, Except.bind, pure, Except.pure]

end

section

variable {packet : List UInt8} (buffer : List UInt8) (address : Address) (lifetime : UInt32)

theorem replyInto_of_error {fault : DnsFault} (hRead : Query.read packet = .error fault) :
    replyInto buffer packet address lifetime = .error fault := by
  rw [replyInto, reply_of_error address lifetime hRead]
  rfl

/-- In a buffer the reply stands in front, and the rest of the buffer is left alone. -/
theorem replyInto_of_query {header : Header} {body : List UInt8} {query : Query}
    (hQuery : header.query body = .ok query) :
    replyInto buffer (header.bytes ++ body) address lifetime =
      if buffer.length < query.room then .error .noRoom
      else
        .ok (query.room,
          replyBytes header body address lifetime query ++ buffer.drop query.room) := by
  rw [replyInto, reply_of_query address lifetime hQuery]
  split
  · rfl
  · simp only [← length_replyBytes address lifetime hQuery]
    rfl

/-- Whatever is written over the front of a buffer is the reply to a query. -/
theorem isReply_of_replyInto {length : Nat} {written : List UInt8}
    (hInto : replyInto buffer packet address lifetime = .ok (length, written)) :
    ∃ query, Query.read packet = .ok query ∧
      IsReply packet query address lifetime (written.take length) := by
  cases hRead : Query.read packet with
  | error fault =>
      rw [replyInto_of_error buffer address lifetime hRead] at hInto
      cases hInto
  | ok query =>
      obtain ⟨header, body, rfl, hQuery⟩ := (Query.read_eq_iff (by simp)).mp hRead
      rw [replyInto_of_query buffer address lifetime hQuery] at hInto
      split at hInto
      · cases hInto
      · cases hInto
        refine ⟨query, rfl, ?_⟩
        rw [List.take_left' (length_replyBytes address lifetime hQuery)]
        exact isReply address lifetime hQuery

/-- What becomes of a packet. If it is not read, the reply fails for the same reason, which
is never that there is no room. If it is read but the buffer has not the room that its reply
takes, that is the reason. Otherwise the reply takes just that room at the front of the
buffer, and the rest of the buffer stays as it is; and what is written there is the reply to
what was read, and is never replied to itself. -/
theorem replyInto_outcome (packet : List UInt8) :
    match Query.read packet with
    | .error fault =>
        fault ≠ .noRoom ∧ replyInto buffer packet address lifetime = .error fault
    | .ok query =>
        if buffer.length < query.room then
          replyInto buffer packet address lifetime = .error .noRoom
        else
          ∃ written : List UInt8,
            replyInto buffer packet address lifetime = .ok (query.room, written) ∧
              written.length = buffer.length ∧
              written.drop query.room = buffer.drop query.room ∧
              IsReply packet query address lifetime (written.take query.room) ∧
              ∀ (other : List UInt8) (home : Address) (term : UInt32),
                replyInto other (written.take query.room) home term = .error .notAQuery := by
  cases hRead : Query.read packet with
  | error fault =>
      refine ⟨?_, replyInto_of_error buffer address lifetime hRead⟩
      rintro rfl
      exact Query.read_ne_noRoom packet hRead
  | ok query =>
      obtain ⟨header, body, rfl, hQuery⟩ := (Query.read_eq_iff (by simp)).mp hRead
      have hLength := length_replyBytes address lifetime hQuery
      have hReply := isReply address lifetime hQuery
      have hInto := replyInto_of_query buffer address lifetime hQuery
      by_cases hRoom : buffer.length < query.room
      · simp only [if_pos hRoom] at hInto ⊢
        exact hInto
      · simp only [if_neg hRoom] at hInto ⊢
        refine ⟨_, hInto, ?_, ?_, ?_⟩
        · rw [List.length_append, List.length_drop, hLength]
          omega
        · exact List.drop_left' hLength
        · rw [List.take_left' hLength]
          exact ⟨hReply, fun other home term =>
            replyInto_of_error other home term hReply.asks_nothing⟩

end

end TapeCutter.Dns
