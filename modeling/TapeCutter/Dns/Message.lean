import TapeCutter.Dns.Reply

/-! Whole messages, as somebody reads them who knows nothing of how they were written: as
many questions and records as the header announces, and nothing behind them. -/
namespace TapeCutter.Dns

/-- The four bits of the result code. -/
def Flag.result : UInt16 := 0x000F

def double (b₃ b₂ b₁ b₀ : UInt8) : UInt32 :=
  (word b₃ b₂).toUInt32 <<< 16 ||| (word b₁ b₀).toUInt32

structure Record where
  /-- The place in the message where the name of the record stands. -/
  owner : Nat
  kind : UInt16
  family : UInt16
  lifetime : UInt32
  data : List UInt8
deriving DecidableEq

/-- A pointer has its two highest bits set. -/
def pointerMark : UInt16 := 0xC000

/-- The record at the front, and what follows it. A record that writes out its name, and
does not point to it, is not read. -/
def Record.read? : List UInt8 → Option (Record × List UInt8)
  | p₁ :: p₀ :: k₁ :: k₀ :: f₁ :: f₀ :: t₃ :: t₂ :: t₁ :: t₀ :: l₁ :: l₀ :: rest =>
      let pointer := word p₁ p₀
      let length := (word l₁ l₀).toNat
      if pointerMark ≤ pointer ∧ length ≤ rest.length then
        some (⟨(pointer - pointerMark).toNat, word k₁ k₀, word f₁ f₀, double t₃ t₂ t₁ t₀,
          rest.take length⟩, rest.drop length)
      else none
  | _ => none

/-- The bytes of the question at the front, and what follows it. -/
def Question.bytes? (bytes : List UInt8) : Option (List UInt8 × List UInt8) :=
  match Question.read bytes with
  | .ok question => some (bytes.take question.length, bytes.drop question.length)
  | .error _ => none

/-- Read a number of things one after another. -/
def readTimes {Item : Type} (read : List UInt8 → Option (Item × List UInt8)) :
    Nat → List UInt8 → Option (List Item × List UInt8)
  | 0, bytes => some ([], bytes)
  | count + 1, bytes => do
      let (first, rest) ← read bytes
      let (others, rest) ← readTimes read count rest
      return (first :: others, rest)

/-- A reader that is run a number of times gives this many items, or nothing at all. -/
theorem length_of_readTimes {Item : Type} {read : List UInt8 → Option (Item × List UInt8)}
    {count : Nat} {bytes rest : List UInt8} {items : List Item}
    (hRead : readTimes read count bytes = some (items, rest)) : items.length = count := by
  induction count generalizing bytes items with
  | zero =>
      cases hRead
      rfl
  | succ count ih =>
      simp only [readTimes, Option.bind_eq_bind, Option.bind_eq_some_iff, Option.pure_def,
        Option.some.injEq, Prod.mk.injEq] at hRead
      obtain ⟨_, _, ⟨_, _⟩, hOthers, rfl, rfl⟩ := hRead
      rw [List.length_cons, ih hOthers]

structure Message where
  header : Header
  questions : List (List UInt8)
  answers : List Record
  authorities : List Record
  extras : List Record
deriving DecidableEq

/-- The message that these bytes are, if they are one to the last byte. -/
def Message.read? (bytes : List UInt8) : Option Message := do
  let (header, rest) ← Header.read? bytes
  let (questions, rest) ← readTimes Question.bytes? header.questions.toNat rest
  let (answers, rest) ← readTimes Record.read? header.answers.toNat rest
  let (authorities, rest) ← readTimes Record.read? header.authorities.toNat rest
  let (extras, rest) ← readTimes Record.read? header.extras.toNat rest
  if rest.isEmpty then some ⟨header, questions, answers, authorities, extras⟩ else none

/-- There are as many answers as the header announces. -/
theorem Message.length_answers {bytes : List UInt8} {message : Message}
    (hRead : Message.read? bytes = some message) :
    message.answers.length = message.header.answers.toNat := by
  simp only [Message.read?, Option.bind_eq_bind, Option.bind_eq_some_iff] at hRead
  obtain ⟨⟨header, _⟩, _, _, _, ⟨answers, _⟩, hAnswers, _, _, _, _, hMessage⟩ := hRead
  split at hMessage
  · cases hMessage
    exact length_of_readTimes hAnswers
  · cases hMessage

theorem toNat_double (b₃ b₂ b₁ b₀ : UInt8) :
    (double b₃ b₂ b₁ b₀).toNat = 65536 * (word b₃ b₂).toNat + (word b₁ b₀).toNat := by
  have hHigh : (word b₃ b₂).toNat < 2 ^ 16 := (word b₃ b₂).toNat_lt
  have hLow : (word b₁ b₀).toNat < 2 ^ 16 := (word b₁ b₀).toNat_lt
  simp only [double, UInt32.toNat_or, UInt32.toNat_shiftLeft, UInt16.toNat_toUInt32]
  change ((word b₃ b₂).toNat <<< 16) % 2 ^ 32 ||| (word b₁ b₀).toNat = _
  have hShift : ((word b₃ b₂).toNat <<< 16) % 2 ^ 32 = (word b₃ b₂).toNat <<< 16 := by
    rw [Nat.shiftLeft_eq]
    omega
  rw [hShift, ← Nat.shiftLeft_add_eq_or_of_lt hLow, Nat.shiftLeft_eq, Nat.mul_comm]

@[simp] theorem double_doubleBytes (w : UInt32) :
    double (w >>> 24).toUInt8 (w >>> 16).toUInt8 (w >>> 8).toUInt8 w.toUInt8 = w := by
  have hWord : w.toNat < 2 ^ 32 := w.toNat_lt
  rw [← UInt32.toNat_inj, toNat_double, toNat_word, toNat_word]
  simp only [UInt32.toNat_toUInt8, UInt32.toNat_shiftRight]
  change 65536 * (256 * (w.toNat >>> 24 % 256) + w.toNat >>> 16 % 256) +
    (256 * (w.toNat >>> 8 % 256) + w.toNat % 256) = _
  simp only [Nat.shiftRight_eq_div_pow]
  omega

end TapeCutter.Dns
