import TapeCutter.Proofs.Dns.Questions

/-! How long names may be, and how far a question can reach into its packet. A walk counts
the lengths and the labels of a name but not the byte that ends it, so a name of one byte
more than the limit gets through. A longer one is refused, and behind such a name nothing is
looked at but two words. -/
namespace TapeCutter.Dns

/-- Labels that take too many bytes together go wrong at one of their lengths. -/
theorem misnamed_encode {name : Name} {taken : Nat} (hTaken : taken ≤ maxName)
    (hLong : maxName + 1 < taken + name.encode.length) (rest : List UInt8) :
    Misnamed taken (name.encode ++ rest) := by
  induction name generalizing taken with
  | nil =>
      have hEnd : (Name.encode []).length = 1 := rfl
      omega
  | cons label name ih =>
      rw [Name.length_encode_cons] at hLong
      rw [Name.encode_cons, List.cons_append, List.append_assoc]
      by_cases hFits : taken + 1 + label.bytes.length ≤ maxName
      · exact (ih hFits (by omega)).cons label
      · refine ⟨[], _, _, rfl, hTaken, label.ofNat_length_ne_zero, Or.inr ?_⟩
        rw [label.toNat_length]
        exact Nat.not_le.mp hFits

/-- A name that is bad stays so, whatever follows. -/
theorem Misnamed.append {taken : Nat} {bytes : List UInt8} (misnamed : Misnamed taken bytes)
    (more : List UInt8) : Misnamed taken (bytes ++ more) := by
  obtain ⟨labels, byte, rest, rfl, hReached⟩ := misnamed
  exact ⟨labels, byte, rest ++ more, by simp, hReached⟩

/-- A name beyond the limit is bad, and so is any question for it. -/
theorem misnamed_ask {name : Name} (hLong : maxName + 1 < name.encode.length)
    (kind family : UInt16) (rest : List UInt8) : Misnamed 0 (name.ask kind family ++ rest) := by
  rw [Name.ask, List.append_assoc, List.append_assoc]
  exact misnamed_encode (Nat.zero_le _) (by omega) _

namespace Query

variable {header : Header} {name : Name}

/-- A question for a name within the limit, or just one byte over, is read. -/
theorem read_ask_of_short (asks : header.AsksOne) (hShort : name.encode.length ≤ maxName + 1)
    (kind family : UInt16) (trailing : List UInt8) :
    Query.read (header.bytes ++ (name.ask kind family ++ trailing)) =
      .ok (.standard ⟨name.encode.length + 4, kind, family⟩) := by
  rw [read_bytes_append, Header.query_eq_standard_iff]
  exact ⟨asks, Question.read_ask hShort kind family trailing⟩

/-- A question for a longer name is refused, whatever follows the name. -/
theorem read_ask_of_long (asks : header.AsksOne) (hLong : maxName + 1 < name.encode.length)
    (kind family : UInt16) (trailing : List UInt8) :
    Query.read (header.bytes ++ (name.ask kind family ++ trailing)) = .error .badName := by
  rw [read_bytes_append, Header.query_eq_badName_iff]
  exact ⟨asks, misnamed_ask hLong kind family trailing⟩

/-- Where a question ends, the two words apart, its name ends. -/
theorem exists_name_of_read {packet : List UInt8} {question : Question}
    (hRead : Query.read packet = .ok (.standard question)) :
    ∃ name : Name, slice packet 12 (question.stop - 4) = name.encode ∧
      name.encode.length ≤ maxName + 1 := by
  obtain ⟨header, body, rfl, hQuery⟩ := (read_eq_iff (by simp)).mp hRead
  obtain ⟨-, hBody⟩ := Header.query_eq_standard_iff.mp hQuery
  obtain ⟨name, rest, rfl, hLength, hShort⟩ := Question.read_eq_ok_iff.mp hBody
  have hStop : question.stop - 4 = Header.length + name.encode.length := by
    rw [Question.stop, hLength]
    omega
  rw [hStop]
  exact ⟨name, (slice_ask header name question.kind question.family rest).1, hShort⟩

/-- If a packet is read as a standard query, its name is within the limit or one byte beyond
it. If it is a standard query with a name beyond the limit, it is refused for its name, unless
the name is beyond by this one byte. -/
theorem refused_unless_one_over (packet : List UInt8) :
    (∀ question, Query.read packet = .ok (.standard question) →
      let encoded := slice packet 12 (question.stop - 4)
      encoded.length ≤ 255 ∨ encoded.length = 256) ∧
      ∀ (header : Header) (name : Name) (kind family : UInt16) (trailing : List UInt8),
        packet = header.bytes ++ name.encode ++ wordBytes kind ++ wordBytes family ++ trailing →
          header.AsksOne → 255 < name.encode.length →
            (name.encode.length = 256 → Query.read packet = .ok (.standard ⟨260, kind, family⟩)) ∧
              (name.encode.length ≠ 256 → Query.read packet = .error .badName) := by
  constructor
  · intro question hRead encoded
    obtain ⟨name, hName, hShort⟩ := exists_name_of_read hRead
    unfold maxName at hShort
    rw [show encoded = name.encode from hName]
    omega
  · intro header name kind family trailing hPacket asks hBeyond
    have hAsked : packet = header.bytes ++ (name.ask kind family ++ trailing) := by
      simp [hPacket, Name.ask]
    rw [hAsked]
    refine ⟨fun hOne => ?_, fun hMore => ?_⟩
    · rw [read_ask_of_short asks (Nat.le_of_eq hOne), hOne]
    · refine read_ask_of_long asks ?_ kind family trailing
      unfold maxName
      omega

/-- Four labels, the first three of full length, the last of so many letters. -/
def fourLabels (last : Nat) (hNonempty : 0 < last) (hShort : last ≤ maxLabel) : Name :=
  let letters (count : Nat) (hCount : 0 < count ∧ count ≤ maxLabel) : Label :=
    ⟨.replicate count 97, by simpa using hCount.1, by simpa using hCount.2⟩
  let full := letters maxLabel (by decide)
  [full, full, full, letters last ⟨hNonempty, hShort⟩]

/-- Three labels of the full length and a fourth one, each with its length in front, and the
end. -/
theorem length_fourLabels {last : Nat} (hNonempty : 0 < last) (hShort : last ≤ maxLabel) :
    (fourLabels last hNonempty hShort).encode.length = 194 + last := by
  simp only [fourLabels, Name.length_encode_cons, List.length_replicate]
  have hEnd : (Name.encode []).length = 1 := rfl
  unfold maxLabel
  omega

/-- Four labels of full length make a name that is two bytes beyond the limit. -/
theorem refused_at_four_full_labels :
    let header : Header := ⟨0x1234, Flag.recursion, 1, 0, 0, 0⟩
    let name := fourLabels 63 (by decide) (by decide)
    let packet := header.bytes ++ name.encode ++ wordBytes 1 ++ wordBytes 1 ++ []
    header.AsksOne ∧ name.encode.length = 257 ∧ Query.read packet = .error .badName := by
  intro header name packet
  have asks : header.AsksOne := ⟨by decide, by decide, rfl⟩
  have hLength : name.encode.length = 257 := length_fourLabels _ _
  exact ⟨asks, hLength,
    ((refused_unless_one_over packet).2 header name 1 1 [] rfl asks (by omega)).2 (by omega)⟩

/-- With one of them a byte shorter the name is still beyond the limit, and is taken. -/
theorem taken_at_one_over :
    let header : Header := ⟨0x1234, Flag.recursion, 1, 0, 0, 0⟩
    let name := fourLabels 62 (by decide) (by decide)
    let packet := header.bytes ++ (name.ask 1 1 ++ [])
    let question : Question := ⟨260, 1, 1⟩
    header.AsksOne ∧ Query.read packet = .ok (.standard question) ∧
      slice packet 12 (question.stop - 4) = name.encode ∧ name.encode.length = 256 := by
  intro header name packet question
  have asks : header.AsksOne := ⟨by decide, by decide, rfl⟩
  have hLength : name.encode.length = 256 := length_fourLabels _ _
  refine ⟨asks, ?_, ?_, hLength⟩
  · rw [read_ask_of_short asks (Nat.le_of_eq hLength), hLength]
  · have hSlice := (slice_ask header name 1 1 []).1
    rw [hLength] at hSlice
    exact hSlice

end Query

/-! How far a question reaches. -/

/-- A walk runs out of bytes only where there are no more of them than a name may take. The
bytes that still belong to the present label are accounted for already. -/
theorem length_of_walkName_truncated {inLabel taken : Nat} (hTaken : taken ≤ maxName)
    {bytes : List UInt8} (hWalk : walkName inLabel taken bytes = .error .truncated) :
    taken + bytes.length ≤ maxName + inLabel := by
  induction bytes generalizing inLabel taken with
  | nil => exact Nat.le_add_right_of_le hTaken
  | cons byte bytes ih =>
      rw [List.length_cons]
      cases inLabel with
      | succ left =>
          have hRest := ih hTaken hWalk
          omega
      | zero =>
          simp only [walkName] at hWalk
          split at hWalk
          · cases hWalk
          split at hWalk
          · cases hWalk
          split at hWalk
          · cases hWalk
          · rename_i hRoom
            have hRest := ih (Nat.not_lt.mp hRoom) hWalk
            omega

namespace Question

/-- The greatest number of bytes that a question takes: a name that is one byte too long, and
two words. -/
def longest : Nat := maxName + 1 + 4

/-- No question that is read is longer than one for the longest name. -/
theorem length_le_longest {body : List UInt8} {question : Question}
    (hRead : Question.read body = .ok question) : question.length ≤ longest := by
  obtain ⟨name, rest, -, hLength, hShort⟩ := read_eq_ok_iff.mp hRead
  rw [hLength]
  exact Nat.add_le_add_right hShort 4

/-- Only what is shorter than the longest question is found cut off. -/
theorem length_of_read_truncated {body : List UInt8}
    (hRead : Question.read body = .error .truncated) : body.length < longest := by
  unfold longest
  rcases walk_cases body with ⟨name, rest, rfl, hShort, -⟩ | ⟨misnamed, -⟩ | hWalk
  · rw [List.length_append]
    by_cases hLong : 4 ≤ rest.length
    · obtain ⟨kind, family, rest, rfl⟩ := exists_two_words hLong
      have hAsked := read_ask hShort kind family rest
      rw [Name.ask, List.append_assoc, List.append_assoc, hRead] at hAsked
      cases hAsked
    · omega
  · rw [read_eq_badName_iff.mpr misnamed] at hRead
    cases hRead
  · have hLength := length_of_walkName_truncated (Nat.zero_le _) hWalk
    omega

/-- Once the longest question would be there, nothing more is looked at. -/
theorem read_append_of_longest {body : List UInt8} (hLong : longest ≤ body.length)
    (more : List UInt8) : Question.read (body ++ more) = Question.read body := by
  rcases read_cases body with ⟨name, kind, family, rest, rfl, hShort⟩ | ⟨misnamed, hBad⟩ | hCut
  · rw [List.append_assoc, read_ask hShort, read_ask hShort]
  · rw [hBad, read_eq_badName_iff]
    exact misnamed.append more
  · exact absurd (length_of_read_truncated hCut) (Nat.not_lt.mpr hLong)

end Question

/-- Twelve bytes are always some header. -/
theorem Header.exists_bytes_append {packet : List UInt8} (hLong : length ≤ packet.length) :
    ∃ (header : Header) (body : List UInt8), packet = header.bytes ++ body := by
  cases hRead : read? packet with
  | some read => exact ⟨read.1, read.2, read?_eq_some_iff.mp hRead⟩
  | none =>
      exfalso
      match packet, hLong with
      | _ :: _ :: _ :: _ :: _ :: _ :: _ :: _ :: _ :: _ :: _ :: _ :: _, _ => cases hRead

namespace Query

/-- A question ends within the first 272 bytes of its packet. -/
theorem stop_le {packet : List UInt8} {question : Question}
    (hRead : Query.read packet = .ok (.standard question)) : question.stop ≤ 272 := by
  obtain ⟨header, body, -, hQuery⟩ := (read_eq_iff (by simp)).mp hRead
  have hLength := Question.length_le_longest (Header.query_eq_standard_iff.mp hQuery).2
  exact Nat.add_le_add_left hLength Header.length

/-- No byte of a packet counts that comes after the first two hundred and seventy-two. -/
theorem read_take_of_reach (packet : List UInt8) {count : Nat} (hReach : 272 ≤ count) :
    Query.read (packet.take count) = Query.read packet := by
  by_cases hAll : packet.length ≤ count
  · rw [List.take_of_length_le hAll]
  have hLength : (packet.take count).length = count := by
    rw [List.length_take]
    omega
  have hHeader : Header.length ≤ (packet.take count).length := by
    unfold Header.length
    omega
  obtain ⟨header, body, hTake⟩ := Header.exists_bytes_append hHeader
  have hBody : Question.longest ≤ body.length := by
    rw [hTake, List.length_append, Header.length_bytes] at hLength
    unfold Header.length at hLength
    unfold Question.longest maxName
    omega
  have hPacket : packet = header.bytes ++ (body ++ packet.drop count) := by
    rw [← List.append_assoc, ← hTake, List.take_append_drop]
  rw [hTake, hPacket, read_bytes_append, read_bytes_append, Header.query, Header.query,
    Question.read_append_of_longest hBody]

end Query

end TapeCutter.Dns
