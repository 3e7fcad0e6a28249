import Mathlib.Logic.Basic
import Mathlib.Logic.ExistsUnique
import TapeCutter.Dns.Name

/-! Which packets ask a question. A walk over a name ends where the form of exactly one
name ends, and stops for one of two reasons: it meets a length that no label may have
there, or it runs out of bytes. -/
namespace TapeCutter.Dns

/-- No label looks like the end of its name. -/
theorem Label.ofNat_length_ne_zero (label : Label) : UInt8.ofNat label.bytes.length ≠ 0 := by
  intro hZero
  have hLength := label.toNat_length
  have hNonempty := label.nonempty
  rw [hZero, UInt8.toNat_zero] at hLength
  omega

/-- No form of a name is the beginning of another one. -/
theorem Name.encode_append_inj {first second : Name} {rest others : List UInt8}
    (hSame : first.encode ++ rest = second.encode ++ others) : first = second ∧ rest = others := by
  induction first generalizing second with
  | nil =>
      cases second with
      | nil => simpa [encode] using hSame
      | cons label second =>
          rw [encode_cons] at hSame
          exact absurd (List.cons.inj hSame).1.symm label.ofNat_length_ne_zero
  | cons label first ih =>
      cases second with
      | nil =>
          rw [encode_cons] at hSame
          exact absurd (List.cons.inj hSame).1 label.ofNat_length_ne_zero
      | cons other second =>
          rw [encode_cons, encode_cons, List.cons_append, List.cons_append, List.cons.injEq,
            List.append_assoc, List.append_assoc] at hSame
          have hLength : label.bytes.length = other.bytes.length := by
            rw [← label.toNat_length, hSame.1, other.toNat_length]
          obtain ⟨hBytes, hRest⟩ := List.append_inj hSame.2 hLength
          obtain ⟨rfl, rfl⟩ := ih hRest
          cases label
          cases other
          cases hBytes
          exact ⟨rfl, rfl⟩

/-- Behind some labels comes a length that no label may have there: it is too great for a
label, or it makes the name too long. It does not matter whether the label is there. -/
def Misnamed (taken : Nat) (bytes : List UInt8) : Prop :=
  ∃ (labels : Name) (byte : UInt8) (rest : List UInt8),
    let reached := taken + (labels.flatMap Label.encode).length
    bytes = labels.flatMap Label.encode ++ byte :: rest ∧ reached ≤ maxName ∧ byte ≠ 0 ∧
      (maxLabel < byte.toNat ∨ maxName < reached + 1 + byte.toNat)

theorem Misnamed.walkName {taken : Nat} {bytes : List UInt8} (misnamed : Misnamed taken bytes) :
    walkName 0 taken bytes = .error .badName := by
  obtain ⟨labels, byte, rest, rfl, hShort, hNonzero, hMisfit⟩ := misnamed
  have hLength : byte.toNat ≠ 0 := fun hZero => hNonzero (UInt8.toNat_inj.mp hZero)
  rw [walkName_labels labels taken _ hShort, Dns.walkName]
  simp only [if_neg hLength]
  rcases hMisfit with hLong | hLong
  · rw [if_pos hLong]
  · rw [if_pos hLong, ite_self]

/-- A name that is bad from behind a label on is bad from that label on. -/
theorem Misnamed.cons {taken : Nat} {bytes : List UInt8} (label : Label)
    (misnamed : Misnamed (taken + 1 + label.bytes.length) bytes) :
    Misnamed taken (.ofNat label.bytes.length :: (label.bytes ++ bytes)) := by
  obtain ⟨labels, byte, rest, rfl, hShort, hNonzero, hMisfit⟩ := misnamed
  have hLength : taken + ((label :: labels).flatMap Label.encode).length =
      taken + 1 + label.bytes.length + (labels.flatMap Label.encode).length := by
    simp only [List.flatMap_cons, Label.encode, List.length_append, List.length_cons]
    omega
  refine ⟨label :: labels, byte, rest, ?_, ?_, hNonzero, ?_⟩
  · simp [Label.encode]
  · rwa [hLength]
  · rwa [hLength]

/-- How a walk can end that first has to pass the rest of a label: behind a name, before a
length that no label may have, or for want of bytes. -/
theorem walkName_cases {inLabel taken : Nat} (hTaken : taken ≤ maxName) (bytes : List UInt8) :
    (∃ (passed : List UInt8) (name : Name) (rest : List UInt8), passed.length = inLabel ∧
        bytes = passed ++ (name.encode ++ rest) ∧ taken + name.encode.length ≤ maxName + 1) ∨
      (∃ passed rest : List UInt8, passed.length = inLabel ∧ bytes = passed ++ rest ∧
        Misnamed taken rest) ∨
      walkName inLabel taken bytes = .error .truncated := by
  induction bytes generalizing inLabel taken with
  | nil => exact Or.inr (Or.inr rfl)
  | cons byte bytes ih =>
      cases inLabel with
      | succ left =>
          rcases @ih left taken hTaken with
            ⟨passed, name, rest, rfl, rfl, hShort⟩ | ⟨passed, rest, rfl, rfl, misnamed⟩ | hCut
          · exact Or.inl ⟨byte :: passed, name, rest, rfl, rfl, hShort⟩
          · exact Or.inr (Or.inl ⟨byte :: passed, rest, rfl, rfl, misnamed⟩)
          · exact Or.inr (Or.inr hCut)
      | zero =>
          by_cases hZero : byte = 0
          · subst hZero
            exact Or.inl ⟨[], [], bytes, rfl, rfl, Nat.succ_le_succ hTaken⟩
          have hLength : byte.toNat ≠ 0 := fun hLength => hZero (UInt8.toNat_inj.mp hLength)
          by_cases hMisfit : maxLabel < byte.toNat ∨ maxName < taken + 1 + byte.toNat
          · exact Or.inr (Or.inl ⟨[], byte :: bytes, rfl, rfl, [], byte, bytes, rfl, hTaken, hZero,
              hMisfit⟩)
          obtain ⟨hLabel, hRoom⟩ := not_or.mp hMisfit
          rcases @ih byte.toNat _ (Nat.not_lt.mp hRoom) with
            ⟨passed, name, rest, hPassed, rfl, hShort⟩ | ⟨passed, rest, hPassed, rfl, misnamed⟩ |
              hCut
          · let label : Label := ⟨passed, by omega, by omega⟩
            have hByte : byte = .ofNat label.bytes.length := by simp [label, hPassed]
            refine Or.inl ⟨[], label :: name, rest, rfl, ?_, ?_⟩
            · simp [Name.encode_cons, hByte, label]
            · rw [Name.length_encode_cons]
              simp only [label, hPassed]
              omega
          · let label : Label := ⟨passed, by omega, by omega⟩
            have hByte : byte = .ofNat label.bytes.length := by simp [label, hPassed]
            rw [← hPassed] at misnamed
            refine Or.inr (Or.inl ⟨[], byte :: (passed ++ rest), rfl, rfl, ?_⟩)
            rw [hByte]
            exact misnamed.cons label
          · refine Or.inr (Or.inr ?_)
            simp only [walkName]
            rw [if_neg hLength, if_neg hLabel, if_neg hRoom, hCut]

/-- How a walk from the start ends, with what it finds. -/
theorem walk_cases (bytes : List UInt8) :
    (∃ (name : Name) (rest : List UInt8), bytes = name.encode ++ rest ∧
        name.encode.length ≤ maxName + 1 ∧
        walkName 0 0 bytes = .ok (name.encode.length, rest)) ∨
      (Misnamed 0 bytes ∧ walkName 0 0 bytes = .error .badName) ∨
      walkName 0 0 bytes = .error .truncated := by
  rcases walkName_cases (Nat.zero_le maxName) bytes with
    ⟨passed, name, rest, hPassed, rfl, hShort⟩ | ⟨passed, rest, hPassed, rfl, misnamed⟩ | hCut
  · obtain rfl := List.length_eq_zero_iff.mp hPassed
    have hWalk := walkName_encode name 0 rest hShort
    rw [Nat.zero_add] at hShort hWalk
    exact Or.inl ⟨name, rest, rfl, hShort, hWalk⟩
  · obtain rfl := List.length_eq_zero_iff.mp hPassed
    exact Or.inr (Or.inl ⟨misnamed, misnamed.walkName⟩)
  · exact Or.inr (Or.inr hCut)

/-- A walk from the start ends exactly behind a name that is not too long. -/
theorem walkName_eq_ok_iff {bytes rest : List UInt8} {length : Nat} :
    walkName 0 0 bytes = .ok (length, rest) ↔
      ∃ name : Name, bytes = name.encode ++ rest ∧ length = name.encode.length ∧
        name.encode.length ≤ maxName + 1 := by
  constructor
  · intro hWalk
    rcases walk_cases bytes with ⟨name, others, rfl, hShort, hFound⟩ | ⟨-, hBad⟩ | hCut
    · rw [hFound] at hWalk
      cases hWalk
      exact ⟨name, rfl, rfl, hShort⟩
    · rw [hBad] at hWalk
      cases hWalk
    · rw [hCut] at hWalk
      cases hWalk
  · rintro ⟨name, rfl, rfl, hShort⟩
    rw [walkName_encode name 0 rest (by omega), Nat.zero_add]

/-- A walk that has only part of what it passes runs out of bytes. -/
theorem walkName_take {inLabel taken length count : Nat} {passed rest : List UInt8}
    (hWalk : walkName inLabel taken (passed ++ rest) = .ok (length, rest))
    (hCut : count < passed.length) :
    walkName inLabel taken (passed.take count) = .error .truncated := by
  induction passed generalizing inLabel taken count with
  | nil => simp at hCut
  | cons byte passed ih =>
      cases count with
      | zero => rfl
      | succ count =>
          have hLess : count < passed.length := by simpa using hCut
          cases inLabel with
          | succ left => exact ih hWalk hLess
          | zero =>
              simp only [List.cons_append, List.take_succ_cons, walkName] at hWalk ⊢
              split at hWalk
              · -- The walk has ended here, so nothing more was passed.
                simp only [Except.ok.injEq, Prod.mk.injEq, List.append_left_eq_self] at hWalk
                simp [hWalk.2] at hLess
              split at hWalk
              · cases hWalk
              split at hWalk
              · cases hWalk
              · rename_i hNonempty hShort hRoom
                rw [if_neg hNonempty, if_neg hShort, if_neg hRoom]
                exact ih hWalk hLess

/-- The bytes of a packet from one place up to another one. -/
def slice (packet : List UInt8) (start stop : Nat) : List UInt8 := (packet.take stop).drop start

theorem slice_append (before between after : List UInt8) :
    slice (before ++ (between ++ after)) before.length (before.length + between.length) =
      between := by
  rw [slice, ← List.append_assoc, ← List.length_append, List.take_left, List.drop_left]

/-- Four bytes are two words. -/
theorem exists_two_words {bytes : List UInt8} (hLong : 4 ≤ bytes.length) :
    ∃ (kind family : UInt16) (rest : List UInt8),
      bytes = wordBytes kind ++ (wordBytes family ++ rest) := by
  match bytes, hLong with
  | k₁ :: k₀ :: f₁ :: f₀ :: rest, _ => exact ⟨word k₁ k₀, word f₁ f₀, rest, by simp⟩

namespace Question

section

variable {body rest : List UInt8} {length : Nat}

theorem read_of_words {kind family : UInt16}
    (hWalk : walkName 0 0 body = .ok (length, wordBytes kind ++ (wordBytes family ++ rest))) :
    Question.read body = .ok ⟨length + 4, kind, family⟩ := by
  rw [Question.read, hWalk]
  simp [wordBytes, bind, Except.bind, pure, Except.pure]

/-- Behind the name a question needs two more words. -/
theorem read_of_short (hWalk : walkName 0 0 body = .ok (length, rest)) (hShort : rest.length < 4) :
    Question.read body = .error .truncated := by
  rw [Question.read, hWalk]
  match rest, hShort with
  | [], _ => rfl
  | [_], _ => rfl
  | [_, _], _ => rfl
  | [_, _, _], _ => rfl

theorem read_of_walkName_error {fault : DnsFault} (hWalk : walkName 0 0 body = .error fault) :
    Question.read body = .error fault := by
  rw [Question.read, hWalk]
  rfl

end

/-- A question for a name that fits is read as it was put, up to what follows it. -/
theorem read_ask {name : Name} (hShort : name.encode.length ≤ maxName + 1) (kind family : UInt16)
    (rest : List UInt8) :
    Question.read (name.ask kind family ++ rest) = .ok ⟨name.encode.length + 4, kind, family⟩ := by
  rw [Name.ask, List.append_assoc, List.append_assoc]
  exact read_of_words (walkName_eq_ok_iff.mpr ⟨name, rfl, rfl, hShort⟩)

/-- How reading a question can end: with the question that is asked there, with a bad name,
or for want of bytes. -/
theorem read_cases (body : List UInt8) :
    (∃ (name : Name) (kind family : UInt16) (rest : List UInt8),
        body = name.ask kind family ++ rest ∧ name.encode.length ≤ maxName + 1) ∨
      (Misnamed 0 body ∧ Question.read body = .error .badName) ∨
      Question.read body = .error .truncated := by
  rcases walk_cases body with ⟨name, rest, rfl, hShort, hWalk⟩ | ⟨misnamed, hWalk⟩ | hWalk
  · by_cases hLong : 4 ≤ rest.length
    · obtain ⟨kind, family, rest, rfl⟩ := exists_two_words hLong
      exact Or.inl ⟨name, kind, family, rest, by simp [Name.ask], hShort⟩
    · exact Or.inr (Or.inr (read_of_short hWalk (Nat.not_le.mp hLong)))
  · exact Or.inr (Or.inl ⟨misnamed, read_of_walkName_error hWalk⟩)
  · exact Or.inr (Or.inr (read_of_walkName_error hWalk))

/-- A question is read exactly where one is asked about a name that is not too long. -/
theorem read_eq_ok_iff {body : List UInt8} {question : Question} :
    Question.read body = .ok question ↔
      ∃ (name : Name) (rest : List UInt8), body = name.ask question.kind question.family ++ rest ∧
        question.length = name.encode.length + 4 ∧ name.encode.length ≤ maxName + 1 := by
  constructor
  · intro hRead
    rcases read_cases body with ⟨name, kind, family, rest, rfl, hShort⟩ | ⟨-, hBad⟩ | hCut
    · rw [read_ask hShort] at hRead
      cases hRead
      exact ⟨name, rest, rfl, rfl, hShort⟩
    · rw [hBad] at hRead
      cases hRead
    · rw [hCut] at hRead
      cases hRead
  · rintro ⟨name, rest, rfl, hLength, hShort⟩
    rw [read_ask hShort, ← hLength]

/-- A question is refused for its name just if the name is bad. -/
theorem read_eq_badName_iff {body : List UInt8} :
    Question.read body = .error .badName ↔ Misnamed 0 body := by
  constructor
  · intro hRead
    rcases read_cases body with ⟨name, kind, family, rest, rfl, hShort⟩ | ⟨misnamed, -⟩ | hCut
    · rw [read_ask hShort] at hRead
      cases hRead
    · exact misnamed
    · rw [hCut] at hRead
      cases hRead
  · intro misnamed
    exact read_of_walkName_error misnamed.walkName

/-- There are two things that can be wrong with a question: its name, or that it stops short. -/
theorem read_error {body : List UInt8} {fault : DnsFault}
    (hRead : Question.read body = .error fault) : fault = .badName ∨ fault = .truncated := by
  rcases read_cases body with ⟨name, kind, family, rest, rfl, hShort⟩ | ⟨-, hBad⟩ | hCut
  · rw [read_ask hShort] at hRead
    cases hRead
  · rw [hBad] at hRead
    cases hRead
    exact Or.inl rfl
  · rw [hCut] at hRead
    cases hRead
    exact Or.inr rfl

/-- A question of which something is missing is cut off, and never taken for anything else. -/
theorem read_take {name : Name} (hShort : name.encode.length ≤ maxName + 1) (kind family : UInt16)
    {count : Nat} (hCut : count < (name.ask kind family).length) :
    Question.read ((name.ask kind family).take count) = .error .truncated := by
  rw [Name.length_ask] at hCut
  rw [Name.ask, List.append_assoc]
  by_cases hName : count < name.encode.length
  · have hWalk : walkName 0 0 (name.encode ++ []) = .ok (name.encode.length, []) :=
      walkName_eq_ok_iff.mpr ⟨name, rfl, rfl, hShort⟩
    rw [List.take_append_of_le_length (Nat.le_of_lt hName)]
    exact read_of_walkName_error (walkName_take hWalk hName)
  · -- The name is there, and fewer than four bytes behind it.
    rw [List.take_append, List.take_of_length_le (Nat.not_lt.mp hName)]
    refine read_of_short (walkName_eq_ok_iff.mpr ⟨name, rfl, rfl, hShort⟩) ?_
    rw [List.length_take]
    omega

end Question

/-- The packet is a query, in the standard operation, and asks exactly one question. -/
structure Header.AsksOne (header : Header) : Prop where
  query : header.flags &&& Flag.response = 0
  standard : header.flags &&& Flag.operation = 0
  single : header.questions = 1

/-- It is a query, but not one of these. -/
def Header.AsksOtherwise (header : Header) : Prop :=
  header.flags &&& Flag.response = 0 ∧
    (header.flags &&& Flag.operation ≠ 0 ∨ header.questions ≠ 1)

namespace Header

variable {header : Header} {body : List UInt8}

/-- What the header alone decides, and when the question has to be read. -/
theorem query_eq_iff {result : Except DnsFault Query} :
    header.query body = result ↔
      (header.flags &&& Flag.response ≠ 0 ∧ result = .error .notAQuery) ∨
        (header.AsksOtherwise ∧ result = .ok .unsupported) ∨
        (header.AsksOne ∧ result = (Question.read body).map .standard) := by
  have hResponse (h : header.flags &&& Flag.response ≠ 0) :
      header.query body = .error .notAQuery := if_pos h
  have hOther (other : header.AsksOtherwise) : header.query body = .ok .unsupported := by
    rw [query, if_neg (not_not.mpr other.1), if_pos other.2]
  have hOne (asks : header.AsksOne) :
      header.query body = (Question.read body).map .standard := by
    rw [query, if_neg (not_not.mpr asks.query), if_neg]
    rintro (hOperation | hQuestions)
    · exact hOperation asks.standard
    · exact hQuestions asks.single
  constructor
  · rintro rfl
    by_cases hQuery : header.flags &&& Flag.response = 0
    · by_cases other : header.flags &&& Flag.operation ≠ 0 ∨ header.questions ≠ 1
      · exact Or.inr (Or.inl ⟨⟨hQuery, other⟩, hOther ⟨hQuery, other⟩⟩)
      · rw [not_or, ne_eq, ne_eq, not_not, not_not] at other
        have asks : header.AsksOne := ⟨hQuery, other.1, other.2⟩
        exact Or.inr (Or.inr ⟨asks, hOne asks⟩)
    · exact Or.inl ⟨hQuery, hResponse hQuery⟩
  · rintro (⟨h, rfl⟩ | ⟨other, rfl⟩ | ⟨asks, rfl⟩)
    · exact hResponse h
    · exact hOther other
    · exact hOne asks

/-- A message that says that it is a response is no query, whatever else it holds. -/
theorem query_eq_notAQuery_iff :
    header.query body = .error .notAQuery ↔ header.flags &&& Flag.response ≠ 0 := by
  rw [query_eq_iff]
  cases hRead : Question.read body with
  | ok question => simp [Except.map]
  | error fault => rcases Question.read_error hRead with rfl | rfl <;> simp [Except.map]

/-- What asks for other things than one question, or in another way, is a query that is not
supported. -/
theorem query_eq_unsupported_iff :
    header.query body = .ok .unsupported ↔ header.AsksOtherwise := by
  rw [query_eq_iff]
  cases Question.read body <;> simp [Except.map]

/-- A standard query asks one question in the standard way, and the question can be read. -/
theorem query_eq_standard_iff {question : Question} :
    header.query body = .ok (.standard question) ↔
      header.AsksOne ∧ Question.read body = .ok question := by
  rw [query_eq_iff]
  cases Question.read body <;> simp [Except.map, eq_comm]

/-- Only a query that asks one question can be refused for its name. -/
theorem query_eq_badName_iff :
    header.query body = .error .badName ↔ header.AsksOne ∧ Misnamed 0 body := by
  rw [query_eq_iff, ← Question.read_eq_badName_iff]
  cases Question.read body <;> simp [Except.map, eq_comm]

theorem query_ne_noRoom : header.query body ≠ .error .noRoom := by
  rw [ne_eq, query_eq_iff]
  cases hRead : Question.read body with
  | ok question => simp [Except.map]
  | error fault => rcases Question.read_error hRead with rfl | rfl <;> simp [Except.map]

end Header

namespace Query

@[simp] theorem read_bytes_append (header : Header) (body : List UInt8) :
    Query.read (header.bytes ++ body) = header.query body := by
  simp [Query.read]

theorem read_of_short {packet : List UInt8} (hShort : packet.length < Header.length) :
    Query.read packet = .error .truncated := by
  rw [Query.read, Header.read?_of_short hShort]

/-- Whatever else is said of a packet is said of a header and what follows it. -/
theorem read_eq_iff {packet : List UInt8} {result : Except DnsFault Query}
    (hResult : result ≠ .error .truncated) :
    Query.read packet = result ↔
      ∃ (header : Header) (body : List UInt8), packet = header.bytes ++ body ∧
        header.query body = result := by
  constructor
  · intro hRead
    cases hHeader : Header.read? packet with
    | none =>
        rw [Query.read, hHeader] at hRead
        exact absurd hRead.symm hResult
    | some read =>
        obtain ⟨header, body⟩ := read
        obtain rfl := Header.read?_eq_some_iff.mp hHeader
        rw [read_bytes_append] at hRead
        exact ⟨header, body, rfl, hRead⟩
  · rintro ⟨header, body, rfl, hQuery⟩
    rw [read_bytes_append, hQuery]

theorem read_ne_noRoom (packet : List UInt8) : Query.read packet ≠ .error .noRoom := by
  intro hRead
  obtain ⟨header, body, -, hQuery⟩ := (read_eq_iff (by simp)).mp hRead
  exact Header.query_ne_noRoom hQuery

/-- A standard query of which something is missing is cut off, in the header or behind it. -/
theorem read_take_ask {header : Header} (asks : header.AsksOne) {name : Name}
    (hShort : name.encode.length ≤ maxName + 1) (kind family : UInt16) {count : Nat}
    (hCut : count < Header.length + (name.ask kind family).length) :
    Query.read ((header.bytes ++ name.ask kind family).take count) = .error .truncated := by
  by_cases hHeader : count < Header.length
  · refine read_of_short ?_
    rw [List.length_take]
    omega
  · rw [List.take_append, Header.length_bytes, List.take_of_length_le (Nat.not_lt.mp hHeader),
      read_bytes_append]
    refine Header.query_eq_iff.mpr (Or.inr (Or.inr ⟨asks, ?_⟩))
    rw [Question.read_take hShort kind family (by omega)]
    rfl

/-- Where name, kind and family stand in a standard query. -/
theorem slice_ask (header : Header) (name : Name) (kind family : UInt16) (rest : List UInt8) :
    let packet := header.bytes ++ (name.ask kind family ++ rest)
    let stop := Header.length + name.encode.length
    slice packet Header.length stop = name.encode ∧
      slice packet stop (stop + 2) = wordBytes kind ∧
      slice packet (stop + 2) (stop + 4) = wordBytes family := by
  intro packet stop
  have hName := slice_append header.bytes name.encode
    (wordBytes kind ++ (wordBytes family ++ rest))
  have hKind := slice_append (header.bytes ++ name.encode) (wordBytes kind)
    (wordBytes family ++ rest)
  have hFamily := slice_append (header.bytes ++ name.encode ++ wordBytes kind)
    (wordBytes family) rest
  simp only [List.append_assoc, List.length_append, Header.length_bytes, length_wordBytes]
    at hName hKind hFamily
  simp only [packet, Name.ask, List.append_assoc]
  exact ⟨hName, hKind, hFamily⟩

/-- What is read as a standard query stands in the packet, behind a header that asks one
question and with the form of exactly one name. -/
theorem asked_of_read {packet : List UInt8} {question : Question}
    (hRead : Query.read packet = .ok (.standard question)) :
    (∃ header : Header, packet.take 12 = header.bytes ∧ header.AsksOne) ∧
      question.stop ≤ packet.length ∧
      (∃! name : Name, slice packet 12 (question.stop - 4) = name.encode) ∧
      slice packet (question.stop - 4) (question.stop - 2) = wordBytes question.kind ∧
      slice packet (question.stop - 2) question.stop = wordBytes question.family := by
  obtain ⟨header, body, rfl, hQuery⟩ := (read_eq_iff (by simp)).mp hRead
  obtain ⟨asks, hBody⟩ := Header.query_eq_standard_iff.mp hQuery
  obtain ⟨name, rest, rfl, hLength, -⟩ := Question.read_eq_ok_iff.mp hBody
  have hStop : question.stop = Header.length + name.encode.length + 4 := by
    rw [Question.stop, hLength, Nat.add_assoc]
  have hNameEnd : question.stop - 4 = Header.length + name.encode.length := by omega
  have hKindEnd : question.stop - 2 = Header.length + name.encode.length + 2 := by omega
  obtain ⟨hName, hKind, hFamily⟩ := slice_ask header name question.kind question.family rest
  rw [← hNameEnd] at hName
  rw [← hKindEnd, ← hNameEnd] at hKind
  rw [← hKindEnd, ← hStop] at hFamily
  refine ⟨⟨header, ?_, asks⟩, ?_, ⟨name, hName, ?_⟩, hKind, hFamily⟩
  · exact List.take_left' header.length_bytes
  · rw [hStop, List.length_append, List.length_append, Header.length_bytes, Name.length_ask]
    omega
  · intro other hOther
    have hSame : other.encode ++ [] = name.encode ++ [] := by
      rw [List.append_nil, List.append_nil, ← hOther]
      exact hName
    exact (Name.encode_append_inj hSame).1

/-- A packet is taken for a standard query exactly if it is one. A header that asks one
question, a name, a kind and a family are read as what they are, whatever follows, and are cut
off if anything of them is missing. Conversely, what is read stands in the packet, behind such
a header and with the form of exactly one name. A response, a query that asks otherwise and a
name that goes wrong are told apart; any other packet was cut off. -/
theorem standard_iff_asked :
    (∀ (header : Header) (name : Name) (kind family : UInt16) (trailing : List UInt8),
      header.AsksOne → name.encode.length ≤ 255 →
        let packet := header.bytes ++ name.encode ++ wordBytes kind ++ wordBytes family ++ trailing
        let question : Question := ⟨name.encode.length + 4, kind, family⟩
        question.stop = 12 + name.encode.length + 4 ∧
          Query.read packet = .ok (.standard question) ∧
          ∀ count < question.stop, Query.read (packet.take count) = .error .truncated) ∧
      (∀ packet question, Query.read packet = .ok (.standard question) →
        (∃ header : Header, packet.take 12 = header.bytes ∧ header.AsksOne) ∧
          question.stop ≤ packet.length ∧
          (∃! name : Name, slice packet 12 (question.stop - 4) = name.encode) ∧
          slice packet (question.stop - 4) (question.stop - 2) = wordBytes question.kind ∧
          slice packet (question.stop - 2) question.stop = wordBytes question.family) ∧
      ∀ packet,
        (Query.read packet = .error .notAQuery ↔
            ∃ (header : Header) (body : List UInt8), packet = header.bytes ++ body ∧
              header.flags &&& Flag.response ≠ 0) ∧
          (Query.read packet = .ok .unsupported ↔
            ∃ (header : Header) (body : List UInt8), packet = header.bytes ++ body ∧
              header.flags &&& Flag.response = 0 ∧
              (header.flags &&& Flag.operation ≠ 0 ∨ header.questions ≠ 1)) ∧
          (Query.read packet = .error .badName ↔
            ∃ (header : Header) (body : List UInt8), packet = header.bytes ++ body ∧
              header.AsksOne ∧ Misnamed 0 body) ∧
          Query.read packet ≠ .error .noRoom := by
  refine ⟨?_, fun _ _ => asked_of_read, ?_⟩
  · intro header name kind family trailing asks hName packet question
    have hStop : question.stop = 12 + name.encode.length + 4 := by
      simp [question, Question.stop, Header.length, Nat.add_assoc]
    have hPacket : packet = header.bytes ++ (name.ask kind family ++ trailing) := by
      simp [packet, Name.ask]
    have hShort : name.encode.length ≤ maxName + 1 := Nat.le_succ_of_le hName
    refine ⟨hStop, ?_, ?_⟩
    · rw [hPacket, read_bytes_append]
      exact Header.query_eq_standard_iff.mpr ⟨asks, Question.read_ask hShort kind family trailing⟩
    · intro count hCut
      have hLength : count < Header.length + (name.ask kind family).length := by
        rw [Name.length_ask]
        exact hCut
      rw [hPacket, ← List.append_assoc, List.take_append_of_le_length]
      · exact read_take_ask asks hShort kind family hLength
      · rw [List.length_append, Header.length_bytes]
        exact Nat.le_of_lt hLength
  · intro packet
    refine ⟨?_, ?_, ?_, read_ne_noRoom packet⟩
    · simp only [@read_eq_iff packet (.error .notAQuery) (by simp), Header.query_eq_notAQuery_iff]
    · simp only [@read_eq_iff packet (.ok .unsupported) (by simp), Header.query_eq_unsupported_iff,
        Header.AsksOtherwise]
    · simp only [@read_eq_iff packet (.error .badName) (by simp), Header.query_eq_badName_iff]

/-- A query for the address of `ab.c`, with a record behind the question. It is read, it is
cut off one byte earlier, and its name is the one that was asked for. -/
theorem standard_with_record :
    let header : Header := ⟨0x1234, Flag.recursion, 1, 0, 0, 1⟩
    let name : Name := [⟨[97, 98], by decide, by decide⟩, ⟨[99], by decide, by decide⟩]
    let packet := header.bytes ++ name.encode ++ wordBytes 1 ++ wordBytes 1 ++ [0, 0, 41]
    header.AsksOne ∧ name.encode.length ≤ 255 ∧
      Query.read packet = .ok (.standard ⟨10, 1, 1⟩) ∧
      Query.read (packet.take 21) = .error .truncated ∧
      ∃! asked : Name, slice packet 12 18 = asked.encode := by
  intro header name packet
  have asks : header.AsksOne := ⟨by decide, by decide, rfl⟩
  have hName : name.encode.length ≤ 255 := by decide
  obtain ⟨-, hRead, hCut⟩ := standard_iff_asked.1 header name 1 1 [0, 0, 41] asks hName
  exact ⟨asks, hName, hRead, hCut 21 (by decide),
    (standard_iff_asked.2.1 packet ⟨10, 1, 1⟩ hRead).2.2.1⟩

end Query

end TapeCutter.Dns
