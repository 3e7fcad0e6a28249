/-! The first twelve bytes of a name service message: six words, high byte
first. -/
namespace TapeCutter.Dns

def word (high low : UInt8) : UInt16 := high.toUInt16 <<< 8 ||| low.toUInt16

/-- A word as two bytes. -/
def wordBytes (w : UInt16) : List UInt8 := [(w >>> 8).toUInt8, w.toUInt8]

/-- A double word as four bytes. -/
def doubleBytes (w : UInt32) : List UInt8 :=
  [(w >>> 24).toUInt8, (w >>> 16).toUInt8, (w >>> 8).toUInt8, w.toUInt8]

/-- The byte in front counts for 256 of the one behind it. -/
theorem toNat_word (high low : UInt8) :
    (word high low).toNat = 256 * high.toNat + low.toNat := by
  have hHigh : high.toNat < 2 ^ 8 := high.toNat_lt
  have hLow : low.toNat < 2 ^ 8 := low.toNat_lt
  simp only [word, UInt16.toNat_or, UInt16.toNat_shiftLeft, UInt8.toNat_toUInt16]
  change (high.toNat <<< 8) % 2 ^ 16 ||| low.toNat = _
  have hShift : (high.toNat <<< 8) % 2 ^ 16 = high.toNat <<< 8 := by
    rw [Nat.shiftLeft_eq]
    omega
  rw [hShift, ← Nat.shiftLeft_add_eq_or_of_lt hLow, Nat.shiftLeft_eq, Nat.mul_comm]

@[simp] theorem wordBytes_word (high low : UInt8) : wordBytes (word high low) = [high, low] := by
  have hHigh : high.toNat < 2 ^ 8 := high.toNat_lt
  have hLow : low.toNat < 2 ^ 8 := low.toNat_lt
  simp only [wordBytes, List.cons.injEq, and_true, ← UInt8.toNat_inj, UInt16.toNat_toUInt8,
    UInt16.toNat_shiftRight, toNat_word]
  constructor
  · change (256 * high.toNat + low.toNat) >>> 8 % 256 = _
    rw [Nat.shiftRight_eq_div_pow]
    omega
  · omega

/-- A word is read back from its two bytes. -/
@[simp] theorem word_wordBytes (w : UInt16) : word (w >>> 8).toUInt8 w.toUInt8 = w := by
  have hWord : w.toNat < 2 ^ 16 := w.toNat_lt
  rw [← UInt16.toNat_inj, toNat_word, UInt16.toNat_toUInt8, UInt16.toNat_toUInt8,
    UInt16.toNat_shiftRight]
  change 256 * (w.toNat >>> 8 % 256) + _ = _
  rw [Nat.shiftRight_eq_div_pow]
  omega

@[simp] theorem length_wordBytes (w : UInt16) : (wordBytes w).length = 2 := rfl

/-- The four counts say how many entries each section of the message has. -/
structure Header where
  id : UInt16
  flags : UInt16
  questions : UInt16
  answers : UInt16
  authorities : UInt16
  extras : UInt16
deriving DecidableEq

namespace Header

def length : Nat := 12

def bytes (header : Header) : List UInt8 :=
  wordBytes header.id ++ wordBytes header.flags ++ wordBytes header.questions ++
    wordBytes header.answers ++ wordBytes header.authorities ++ wordBytes header.extras

/-- The header of a message and what follows it. -/
def read? : List UInt8 → Option (Header × List UInt8)
  | i₁ :: i₀ :: f₁ :: f₀ :: q₁ :: q₀ :: a₁ :: a₀ :: n₁ :: n₀ :: e₁ :: e₀ :: rest =>
      some (⟨word i₁ i₀, word f₁ f₀, word q₁ q₀, word a₁ a₀, word n₁ n₀, word e₁ e₀⟩, rest)
  | _ => none

@[simp] theorem length_bytes (header : Header) : header.bytes.length = length := rfl

@[simp] theorem read?_bytes_append (header : Header) (body : List UInt8) :
    read? (header.bytes ++ body) = some (header, body) := by
  simp [bytes, wordBytes, read?]

/-- A header is read from exactly the packets that begin with it as it is written, so no two
headers are written alike. -/
theorem read?_eq_some_iff {packet body : List UInt8} {header : Header} :
    read? packet = some (header, body) ↔ packet = header.bytes ++ body := by
  constructor
  · intro hRead
    unfold read? at hRead
    split at hRead
    · cases hRead
      simp [bytes]
    · cases hRead
  · rintro rfl
    exact read?_bytes_append header body

/-- Of fewer than twelve bytes no header is read. -/
theorem read?_of_short {packet : List UInt8} (hShort : packet.length < length) :
    read? packet = none := by
  cases hRead : read? packet with
  | none => rfl
  | some read =>
      obtain ⟨header, body⟩ := read
      rw [read?_eq_some_iff.mp hRead, List.length_append, length_bytes] at hShort
      omega

end Header

namespace Flag

/-- Set in responses. -/
def response : UInt16 := 0x8000

/-- The four bits of the operation code. -/
def operation : UInt16 := 0x7800

/-- The answer comes from whoever owns the name. -/
def authoritative : UInt16 := 0x0400

/-- The client asks the server to find out for itself. -/
def recursion : UInt16 := 0x0100

/-- The result code for a name that does not exist. -/
def noSuchName : UInt16 := 0x0003

end Flag

end TapeCutter.Dns
