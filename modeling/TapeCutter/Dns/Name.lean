import TapeCutter.Dns.Query

/-! Names as lists of labels, and their form in a message. A walk over the form
of a name ends exactly behind it, provided the name is not too long. -/
namespace TapeCutter.Dns

/-- A part of a name: at least one byte, at most sixty-three. -/
structure Label where
  bytes : List UInt8
  nonempty : 0 < bytes.length
  short : bytes.length ≤ maxLabel
deriving DecidableEq

abbrev Name := List Label

/-- The length and the bytes. -/
def Label.encode (label : Label) : List UInt8 := .ofNat label.bytes.length :: label.bytes

/-- The length of a label goes into one byte without a loss. -/
theorem Label.toNat_length (label : Label) :
    (UInt8.ofNat label.bytes.length).toNat = label.bytes.length := by
  have hShort : label.bytes.length ≤ 63 := label.short
  simp only [UInt8.toNat_ofNat']
  omega

namespace Name

/-- All labels, and a zero that ends the name. -/
def encode (name : Name) : List UInt8 := name.flatMap Label.encode ++ [0]

theorem encode_cons (label : Label) (name : Name) :
    encode (label :: name) =
      .ofNat label.bytes.length :: (label.bytes ++ encode name) := by
  simp [encode, Label.encode]

theorem length_encode_cons (label : Label) (name : Name) :
    (encode (label :: name)).length = label.bytes.length + 1 + (encode name).length := by
  rw [encode_cons, List.length_cons, List.length_append]
  omega

/-- A question about the name, as it stands in a message. -/
def ask (name : Name) (kind family : UInt16) : List UInt8 :=
  name.encode ++ wordBytes kind ++ wordBytes family

@[simp] theorem length_ask (name : Name) (kind family : UInt16) :
    (name.ask kind family).length = name.encode.length + 4 := by
  simp [ask]

end Name

/-- The bytes of the present label are passed over unread. -/
theorem walkName_skip (passed rest : List UInt8) (taken : Nat) :
    walkName passed.length taken (passed ++ rest) = walkName 0 taken rest := by
  induction passed with
  | nil => rfl
  | cons byte passed ih => simpa only [List.length_cons, List.cons_append, walkName] using ih

/-- Labels that leave the name short enough are passed over one after another. -/
theorem walkName_labels (labels : Name) (taken : Nat) (rest : List UInt8)
    (hShort : taken + (labels.flatMap Label.encode).length ≤ maxName) :
    walkName 0 taken (labels.flatMap Label.encode ++ rest) =
      walkName 0 (taken + (labels.flatMap Label.encode).length) rest := by
  induction labels generalizing taken with
  | nil => rfl
  | cons label labels ih =>
      have hNonempty := label.nonempty
      have hLabel := label.short
      simp only [List.flatMap_cons, Label.encode, List.length_append, List.length_cons] at hShort ⊢
      rw [List.append_assoc, List.cons_append, walkName]
      simp only [Label.toNat_length]
      rw [if_neg (by omega), if_neg (by omega), if_neg (by omega), walkName_skip,
        ih (taken + 1 + label.bytes.length) (by omega)]
      congr 1
      omega

/-- A name is walked to its end if it fits the limit, which does not count its last byte. -/
theorem walkName_encode (name : Name) (taken : Nat) (rest : List UInt8)
    (hShort : taken + name.encode.length ≤ maxName + 1) :
    walkName 0 taken (name.encode ++ rest) = .ok (taken + name.encode.length, rest) := by
  simp only [Name.encode, List.length_append, List.length_singleton] at hShort ⊢
  rw [List.append_assoc, walkName_labels name taken _ (by omega)]
  rfl

end TapeCutter.Dns
