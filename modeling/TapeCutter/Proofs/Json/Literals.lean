import TapeCutter.Json.Literal

/-! String literals read back. Every character is written as one piece, escaped or not, and
the pieces say the text again, whatever characters it has. -/
namespace TapeCutter.Json

/-- The piece stands for this character, whatever pieces follow. -/
def Piece.Says (piece : Piece) (c : Char) : Prop :=
  ∀ rest, joinPieces none (piece :: rest) = (joinPieces none rest).map (c :: ·)

theorem says_char (c : Char) : (Piece.char c).Says c := fun _ => rfl

/-- A unit below the halves of pairs stands for the character with its number. -/
theorem says_unit {c : Char} (hLow : c.toNat < 0xD800) : (Piece.unit c.toNat).Says c := by
  intro rest
  have hHigh : ¬ highHalf c.toNat := by
    simp only [highHalf, Bool.and_eq_true, decide_eq_true_eq]
    omega
  have hHalf : ¬ lowHalf c.toNat := by
    simp only [lowHalf, Bool.and_eq_true, decide_eq_true_eq]
    omega
  rw [joinPieces, if_neg hHigh, if_neg hHalf, Char.ofNat_toNat]

theorem hexDigit?_hexDigit {n : Nat} (hDigit : n < 16) : hexDigit? (hexDigit n) = some n := by
  revert n
  decide

/-- The four digits of a control character give its number. -/
theorem unit?_control {c : Char} (hControl : c < ' ') :
    unit? '0' '0' (hexDigit (c.toNat / 16)) (hexDigit (c.toNat % 16)) = some (.unit c.toNat) := by
  have hSmall : c.toNat < 32 := hControl
  have hFirst : hexDigit? (hexDigit (c.toNat / 16)) = some (c.toNat / 16) :=
    hexDigit?_hexDigit (by omega)
  have hSecond : hexDigit? (hexDigit (c.toNat % 16)) = some (c.toNat % 16) :=
    hexDigit?_hexDigit (by omega)
  have hZero : hexDigit? '0' = some 0 := rfl
  simp only [unit?, hFirst, hSecond, hZero, Option.some.injEq, Piece.unit.injEq]
  omega

/-- One piece in front of those that follow. -/
def pushPiece (piece : Piece) (length : Nat) (rest : Option (List Piece × Nat)) :
    Option (List Piece × Nat) :=
  rest.map fun (pieces, taken) => (piece :: pieces, taken + length)

theorem pieces?_shortEscape {e c : Char} (hShort : shortEscape? e = some c) (rest : List Char) :
    pieces? ('\\' :: e :: rest) = pushPiece (.char c) 2 (pieces? rest) := by
  have hLong : e ≠ 'u' := by
    rintro rfl
    cases hShort
  rw [pieces?, hShort, pushPiece]
  · cases pieces? rest <;> rfl
  · exact fun _ _ _ _ _ hUnit _ => hLong hUnit

/-- Four hexadecimal digits behind a backslash are one unit. -/
theorem pieces?_unit {a b c d : Char} {piece : Piece} (hUnit : unit? a b c d = some piece)
    (rest : List Char) :
    pieces? ('\\' :: 'u' :: a :: b :: c :: d :: rest) = pushPiece piece 6 (pieces? rest) := by
  rw [pieces?, hUnit, pushPiece]
  cases pieces? rest <;> rfl

/-- Any other character in a literal stands for itself. -/
theorem pieces?_plain {c : Char} (hQuote : c ≠ '"') (hSlash : c ≠ '\\') (hPlain : ¬ c < ' ')
    (rest : List Char) : pieces? (c :: rest) = pushPiece (.char c) 1 (pieces? rest) := by
  rw [pieces?, if_neg hPlain, pushPiece]
  · cases pieces? rest <;> rfl
  · exact hQuote
  · exact fun _ _ _ _ _ hUnit _ => hSlash hUnit
  · exact fun _ _ hEscape _ => hSlash hEscape

/-- A character is written as one piece that stands for it. -/
theorem pieces?_escapeChar (c : Char) (rest : List Char) :
    ∃ piece : Piece, piece.Says c ∧
      pieces? (escapeChar c ++ rest) = pushPiece piece (escapeChar c).length (pieces? rest) := by
  unfold escapeChar
  split
  case h_8 hQuote hSlash _ _ _ _ _ =>
    split
    · rename_i hControl
      have hSmall : c.toNat < 32 := hControl
      exact ⟨_, says_unit (by omega), pieces?_unit (unit?_control hControl) rest⟩
    · rename_i hPlain
      exact ⟨_, says_char c, pieces?_plain hQuote hSlash hPlain rest⟩
  all_goals exact ⟨_, says_char _, pieces?_shortEscape rfl rest⟩

/-- The literal of a text is read to its closing quote, and its pieces say the text. -/
theorem pieces?_literal (s rest : List Char) :
    ∃ pieces : List Piece, joinPieces none pieces = some s ∧
      pieces? (s.flatMap escapeChar ++ '"' :: rest) =
        some (pieces, (s.flatMap escapeChar).length + 1) := by
  induction s with
  | nil => exact ⟨[], rfl, rfl⟩
  | cons c s ih =>
      obtain ⟨pieces, hJoined, hRead⟩ := ih
      obtain ⟨piece, hSays, hFirst⟩ := pieces?_escapeChar c (s.flatMap escapeChar ++ '"' :: rest)
      refine ⟨piece :: pieces, by rw [hSays, hJoined]; rfl, ?_⟩
      rw [List.flatMap_cons, List.append_assoc, hFirst, hRead, pushPiece, List.length_append]
      simp only [Option.map_some, Option.some.injEq, Prod.mk.injEq, true_and]
      omega

end TapeCutter.Json
