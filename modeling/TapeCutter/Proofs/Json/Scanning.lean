import Mathlib.Data.List.Chain
import TapeCutter.Json.Text
import TapeCutter.Proofs.Json.Literals

/-! Written tokens scanned again. A number ends only where something follows that cannot
belong to it; no two scalars stand side by side in the tokens of a value, so every token is
found where it was written. -/
namespace TapeCutter.Json

/-- A number before this text is not continued by it. -/
def Stops (rest : List Char) : Prop :=
  ∀ c ∈ rest.head?, c.isDigit = false ∧ c ≠ '.' ∧ c ≠ 'e' ∧ c ≠ 'E'

theorem stops_nil : Stops [] := by simp [Stops]

section

variable {cs rest : List Char} (hStops : Stops rest)
include hStops

/-- A run of digits ends where they do, if what follows stops a number. -/
theorem digitRun_append (hDigits : ∀ c ∈ cs, c.isDigit = true) :
    digitRun (cs ++ rest) = cs.length := by
  have hRest : rest.takeWhile Char.isDigit = [] := by
    cases rest with
    | nil => rfl
    | cons c rest => exact List.takeWhile_cons_of_neg (by simp [(hStops c rfl).1])
  rw [digitRun, List.takeWhile_append_of_pos hDigits, hRest, List.append_nil]

theorem digitRun_digits (n : Nat) :
    digitRun (Text.digits n ++ rest) = (Text.digits n).length :=
  digitRun_append hStops fun _ => Text.isDigit_of_mem_digits

/-- A numeral has no zero in front, so its whole part is all of it. -/
theorem wholePart?_digits (n : Nat) :
    wholePart? (Text.digits n ++ rest) = some (Text.digits n).length := by
  have hRun := digitRun_digits hStops n
  have hSome : (Text.digits n).length ≠ 0 := by simpa using Text.digits_ne_nil n
  rw [wholePart?.eq_def]
  split
  · rename_i tail hZero
    obtain ⟨c, front, hDigits⟩ := List.exists_cons_of_ne_nil (Text.digits_ne_nil n)
    rw [hDigits, List.cons_append, List.cons.injEq] at hZero
    obtain rfl := Text.eq_zero_of_digits_eq_cons (hZero.1 ▸ hDigits)
    rfl
  · rw [hRun, if_neg hSome]

theorem fraction?_of_stops : fraction? rest = some 0 := by
  rw [fraction?.eq_def]
  split
  · exact absurd rfl (hStops _ rfl).2.1
  · rfl

/-- What stops a number begins no exponent. -/
theorem exponent?_of_stops : exponent? rest = some 0 := by
  rw [exponent?.eq_def]
  split
  case h_7 => rfl
  all_goals
    have hHead := (hStops _ rfl).2.2
    simp at hHead

/-- A numeral is the number it was written for, and all of its digits belong to it. -/
theorem unsigned?_digits (negative : Bool) (n : Nat) :
    unsigned? negative (Text.digits n ++ rest) =
      some (.whole negative n, (Text.digits n).length) := by
  simp [unsigned?, wholePart?_digits hStops, fraction?_of_stops hStops,
    exponent?_of_stops hStops, Text.number_digits]

end

theorem isBlank_of_isDigit {c : Char} (hDigit : c.isDigit = true) : isBlank c = false := by
  simp only [isBlank, Bool.or_eq_false_iff, beq_eq_false_iff_ne]
  refine ⟨⟨⟨?_, ?_⟩, ?_⟩, ?_⟩ <;>
    · rintro rfl
      exact absurd hDigit (by decide)

theorem first?_of_isDigit {c : Char} (hDigit : c.isDigit = true) (rest : List Char) :
    Token.first? (c :: rest) =
      (unsigned? false (c :: rest)).map fun (value, taken) => (.scalar value, taken) := by
  rw [Token.first?.eq_def]
  split
  case h_11 =>
    rw [number?.eq_def]
    split
    · simp_all
    · rfl
  all_goals simp_all

/-- A quoted text is scanned to its closing quote. -/
theorem first?_quote (s rest : List Char) :
    Token.first? (quote s ++ rest) =
      some (.scalar (.text (some (String.ofList s))), (quote s).length) := by
  obtain ⟨pieces, hJoined, hRead⟩ := pieces?_literal s rest
  have hText : quote s ++ rest = '"' :: (s.flatMap escapeChar ++ '"' :: rest) := by
    simp [quote]
  rw [hText, Token.first?, hRead]
  simp [hJoined, quote]

/-- A written scalar is found again where nothing goes on behind it. -/
theorem first?_scalar (value : Scalar) {rest : List Char} (hStops : Stops rest) :
    Token.first? (value.chars ++ rest) = some (.scalar value, value.chars.length) := by
  cases value with
  | null => rfl
  | bool value => cases value <;> rfl
  | whole negative n =>
      cases negative with
      | false =>
          have hRead := unsigned?_digits hStops false n
          obtain ⟨c, tail, hDigits⟩ := List.exists_cons_of_ne_nil (Text.digits_ne_nil n)
          have hDigit : c.isDigit = true :=
            Text.isDigit_of_mem_digits (hDigits ▸ List.mem_cons_self)
          rw [Scalar.chars]
          rw [hDigits, List.cons_append] at hRead ⊢
          rw [first?_of_isDigit hDigit, hRead]
          rfl
      | true =>
          have hRead := unsigned?_digits hStops true n
          have hFirst : Token.first? ('-' :: (Text.digits n ++ rest)) =
              (number? ('-' :: (Text.digits n ++ rest))).map
                fun (value, taken) => (.scalar value, taken) := rfl
          rw [Scalar.chars, List.cons_append, hFirst, number?, hRead]
          rfl
  | fractional =>
      have hRun : digitRun ('0' :: rest) = 1 := by
        have hDigit : ∀ c ∈ ['0'], c.isDigit = true := List.forall_mem_singleton.mpr rfl
        rw [← List.singleton_append, digitRun_append hStops hDigit, List.length_singleton]
      have hFraction : fraction? ('.' :: '0' :: rest) = some 2 := by
        rw [fraction?, hRun]
        rfl
      rw [Scalar.chars, List.cons_append, first?_of_isDigit rfl]
      simp [unsigned?, wholePart?, hFraction, exponent?_of_stops hStops]
  | text content =>
      cases content with
      | none => rfl
      | some s =>
          rw [Scalar.chars, first?_quote, String.ofList_toList]

namespace Token

def isMark : Token → Bool
  | mark _ => true
  | scalar _ => false

/-- Of two neighbours at least one is a mark. -/
def Apart (tokens : List Token) : Prop :=
  tokens.IsChain fun first second => first.isMark ∨ second.isMark

@[simp] theorem apart_nil : Apart [] := List.IsChain.nil

@[simp] theorem apart_singleton (token : Token) : Apart [token] := List.IsChain.singleton token

@[simp] theorem apart_mark_cons {sign : Mark} {rest : List Token} :
    Apart (.mark sign :: rest) ↔ Apart rest := by
  simp [Apart, List.isChain_cons, isMark]

@[simp] theorem apart_append_mark {first rest : List Token} {sign : Mark} :
    Apart (first ++ .mark sign :: rest) ↔ Apart first ∧ Apart rest := by
  simp [Apart, List.isChain_append, List.isChain_cons, isMark]

@[simp] theorem apart_cons_mark {token : Token} {rest : List Token} {sign : Mark} :
    Apart (token :: .mark sign :: rest) ↔ Apart rest := by
  rw [← List.singleton_append, apart_append_mark]
  simp

/-- What is written behind a scalar does not go on with it. -/
theorem stops_of_apart {value : Scalar} {rest : List Token}
    (hApart : Apart (.scalar value :: rest)) : Stops (rest.flatMap chars) := by
  cases rest with
  | nil => exact stops_nil
  | cons next rest =>
      cases next with
      | mark sign => cases sign <;> simp [Stops, chars]
      | scalar other => simp [Apart, isMark] at hApart

/-- A token is scanned in front of others if they are kept apart. -/
theorem first?_chars {token : Token} {rest : List Token} (hApart : Apart (token :: rest)) :
    first? (token.chars ++ rest.flatMap chars) = some (token, token.chars.length) := by
  cases token with
  | mark sign => cases sign <;> rfl
  | scalar value => exact first?_scalar value (stops_of_apart hApart)

/-- A token is written with at least one character, and the first is no blank. -/
theorem exists_chars_eq_cons (token : Token) :
    ∃ c tail, token.chars = c :: tail ∧ isBlank c = false := by
  rcases token with sign | value
  · cases sign <;> exact ⟨_, _, rfl, rfl⟩
  · rcases value with _ | value | ⟨_ | _, n⟩ | _ | content
    · exact ⟨_, _, rfl, rfl⟩
    · cases value <;> exact ⟨_, _, rfl, rfl⟩
    · obtain ⟨c, tail, hDigits⟩ := List.exists_cons_of_ne_nil (Text.digits_ne_nil n)
      have hDigit : c.isDigit = true :=
        Text.isDigit_of_mem_digits (hDigits ▸ List.mem_cons_self)
      exact ⟨c, tail, hDigits, isBlank_of_isDigit hDigit⟩
    · exact ⟨_, _, rfl, rfl⟩
    · exact ⟨_, _, rfl, rfl⟩
    · cases content <;> exact ⟨_, _, rfl, rfl⟩

end Token

/-- A token that was scanned is passed over, character by character. -/
theorem scan?_length (done rest : List Char) : scan? done.length (done ++ rest) = scan? 0 rest := by
  induction done with
  | nil => rfl
  | cons c done ih => exact ih

/-- Tokens that stand apart are scanned as they were written. -/
theorem scan?_flatMap_chars {tokens : List Token} (hApart : Token.Apart tokens) :
    scan? 0 (tokens.flatMap Token.chars) = some tokens := by
  induction tokens with
  | nil => rfl
  | cons token rest ih =>
      obtain ⟨c, tail, hChars, hBlank⟩ := token.exists_chars_eq_cons
      have hFirst := Token.first?_chars hApart
      rw [List.flatMap_cons]
      rw [hChars, List.cons_append] at hFirst ⊢
      rw [scan?, hBlank, hFirst]
      -- The other characters of the token are passed over before the next one is looked for.
      simp [scan?_length, ih hApart.tail]

mutual

/-- The tokens of a value stand apart. -/
theorem apart_tokens : ∀ value : Json, Token.Apart value.tokens
  | .scalar value => by simp [tokens]
  | .array items => by simpa [tokens] using apart_itemTokens items
  | .object members => by simpa [tokens] using apart_memberTokens members

theorem apart_itemTokens : ∀ items : List Json, Token.Apart (itemTokens items)
  | [] => Token.apart_nil
  | [item] => apart_tokens item
  | item :: next :: rest => by
      simpa [itemTokens] using ⟨apart_tokens item, apart_itemTokens (next :: rest)⟩

theorem apart_memberTokens : ∀ members : List (Content × Json), Token.Apart (memberTokens members)
  | [] => Token.apart_nil
  | [(_, value)] => by simpa [memberTokens] using apart_tokens value
  | (_, value) :: next :: rest => by
      simpa [memberTokens] using ⟨apart_tokens value, apart_memberTokens (next :: rest)⟩

end

end TapeCutter.Json
