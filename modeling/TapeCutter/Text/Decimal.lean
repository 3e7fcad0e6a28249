/-! Decimal numerals: no sign, no leading zero, one digit for zero. -/
namespace TapeCutter.Text

/-- The digits, most significant first. -/
def digits (n : Nat) : List Char := Nat.toDigits 10 n

def decimal (n : Nat) : String := String.ofList (digits n)

/-- The number a row of digits stands for. -/
def number (digits : List Char) : Nat := Nat.ofDigitChars 10 digits 0

theorem number_digits (n : Nat) : number (digits n) = n :=
  Nat.ofDigitChars_toDigits (by decide) (by decide)

theorem digits_injective {n m : Nat} (hDigits : digits n = digits m) : n = m := by
  rw [← number_digits n, hDigits, number_digits]

theorem decimal_injective {n m : Nat} (hText : decimal n = decimal m) : n = m :=
  digits_injective (String.ofList_inj.mp hText)

theorem isDigit_of_mem_digits {n : Nat} {c : Char} (hMem : c ∈ digits n) : c.isDigit = true :=
  Nat.isDigit_of_mem_toDigits (by decide) (by decide) hMem

/-- A numeral has no other characters than digits, neither points nor quotes. -/
theorem not_mem_digits {c : Char} (hOther : c.isDigit = false) (n : Nat) : c ∉ digits n := by
  intro hMem
  rw [isDigit_of_mem_digits hMem] at hOther
  exact nomatch hOther

theorem digits_ne_nil (n : Nat) : digits n ≠ [] := Nat.toDigits_ne_nil

/-- Only the numeral of zero starts with a zero. -/
theorem eq_zero_of_digits_eq_cons {n : Nat} {rest : List Char}
    (hDigits : digits n = '0' :: rest) : n = 0 := by
  induction n using Nat.strongRecOn generalizing rest with
  | ind n ih =>
      rw [digits, Nat.toDigits_eq_if (by decide)] at hDigits
      split at hDigits
      · exact Nat.digitChar_eq_zero.mp (List.cons.inj hDigits).1
      · rename_i hLarge
        obtain ⟨c, front, hFront⟩ := List.exists_cons_of_ne_nil (digits_ne_nil (n / 10))
        have hHead : c = '0' := by
          rw [← digits, hFront] at hDigits
          exact (List.cons.inj hDigits).1
        have hZero : n / 10 = 0 := ih (n / 10) (by omega) (hHead ▸ hFront)
        omega

/-- A text that is the numeral of a number: digits and nothing else, with no zero in front of
others. -/
structure IsNumeral (text : String) (n : Nat) : Prop where
  nonempty : text ≠ ""
  only_digits : ∀ c ∈ text.toList, c.isDigit = true
  value : number text.toList = n
  no_leading_zero : text.toList.head? = some '0' → text = "0"

theorem toList_decimal (n : Nat) : (decimal n).toList = digits n := String.toList_ofList

theorem not_mem_decimal {c : Char} (hOther : c.isDigit = false) (n : Nat) :
    c ∉ (decimal n).toList :=
  toList_decimal n ▸ not_mem_digits hOther n

/-- A number is written as the numeral that reads as it, without zeros in front. -/
theorem isNumeral_decimal (n : Nat) : IsNumeral (decimal n) n where
  nonempty hEmpty := digits_ne_nil n (by rw [← toList_decimal, hEmpty]; rfl)
  only_digits c hMem := isDigit_of_mem_digits (toList_decimal n ▸ hMem)
  value := by rw [toList_decimal, number_digits]
  no_leading_zero hHead := by
    rw [toList_decimal] at hHead
    obtain ⟨rest, hDigits⟩ := List.head?_eq_some_iff.mp hHead
    obtain rfl := eq_zero_of_digits_eq_cons hDigits
    rfl

/-- Every digit takes one byte. -/
theorem utf8ByteSize_ofList_of_isDigit {cs : List Char} (hDigits : ∀ c ∈ cs, c.isDigit = true) :
    (String.ofList cs).utf8ByteSize = cs.length := by
  induction cs with
  | nil => rfl
  | cons c rest ih =>
      obtain ⟨hDigit, hRest⟩ := List.forall_mem_cons.mp hDigits
      have hOne : c.utf8Size = 1 :=
        Char.utf8Size_eq_one_iff.mpr
          (Nat.le_trans (Char.isDigit_iff_toNat.mp hDigit).2 (by decide))
      rw [String.ofList_cons, String.utf8ByteSize_append, String.utf8ByteSize_singleton,
        ih hRest, hOne, List.length_cons, Nat.add_comm]

/-- The numeral of a byte takes three bytes at most. -/
theorem utf8ByteSize_decimal_byte (byte : UInt8) : (decimal byte.toNat).utf8ByteSize ≤ 3 := by
  rw [decimal, utf8ByteSize_ofList_of_isDigit fun _ => isDigit_of_mem_digits]
  have hByte : byte.toNat < 2 ^ 8 := byte.toNat_lt
  exact (Nat.length_toDigits_le_iff (by decide) (by decide)).mpr (by omega)

/-- A minus sign in front of a negative number, nothing in front of the others. -/
def signedDecimal : Int → String
  | .ofNat n => decimal n
  | .negSucc n => "-" ++ decimal (n + 1)

end TapeCutter.Text
