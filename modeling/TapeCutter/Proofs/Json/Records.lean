import Mathlib.Data.List.Nodup
import TapeCutter.Json.Fields

/-! Records taken apart again. A record that was put together from keys and values gives back
the values in the order of the keys, and each is taken for what it was written from. -/
namespace TapeCutter.Json

/-- Words of any type are read back from their numbers, if the type has as many words as the
reader takes numbers. -/
theorem word?_nat {Word : Type} {size : Nat} {ofNat : Nat → Word} {toNat : Word → Nat}
    (hFits : ∀ word, toNat word < size) (hInverse : ∀ word, ofNat (toNat word) = word)
    (word : Word) : (nat (toNat word)).word? size ofNat = some word := by
  simp [word?, nat, nat?, hFits, hInverse]

@[simp] theorem uint8?_nat (n : UInt8) : (nat n.toNat).uint8? = some n :=
  word?_nat UInt8.toNat_lt_size (fun _ => UInt8.ofNat_toNat) n

@[simp] theorem uint16?_nat (n : UInt16) : (nat n.toNat).uint16? = some n :=
  word?_nat UInt16.toNat_lt_size (fun _ => UInt16.ofNat_toNat) n

@[simp] theorem uint32?_nat (n : UInt32) : (nat n.toNat).uint32? = some n :=
  word?_nat UInt32.toNat_lt_size (fun _ => UInt32.ofNat_toNat) n

@[simp] theorem isNull_nat (n : Nat) : (nat n).isNull = false := rfl

@[simp] theorem bounded?_text {capacity : Nat} (s : Text.Bounded capacity) :
    (text s.text).bounded? = some s := Text.Bounded.ofString?_of_fits s.fits

/-- What stands under a name, in the first place where it does. -/
def member? (members : List (Content × Json)) (name : String) : Option Json :=
  (members.find? fun (key, _) => key = some name).map (·.2)

section

variable {names : List String} {members : List (Content × Json)}

/-- Passing over the members with other keys changes nothing that is looked up. -/
theorem member?_filter {name : String} (hName : name ∈ names) :
    member? (members.filter fun (key, _) => names.any fun name => key = some name) name =
      member? members name := by
  rw [member?, member?, List.find?_filter]
  congr 2
  funext member
  by_cases hKey : member.1 = some name
  · simp [hKey, hName]
  · simp [hKey]

/-- Of an object without repeated keys every name gets what stands under it. Members under
other keys are of no account. -/
theorem fields?_object (hText : none ∉ members.map Prod.fst)
    (hOnce : (members.map Prod.fst).Nodup) :
    (object members).fields? names = some (names.map (member? members)) := by
  have hNoText : ¬ members.any fun (key, _) => key.isNone := by
    rw [List.any_eq_true]
    rintro ⟨⟨key, value⟩, hMember, hNone⟩
    exact hText (List.mem_map.mpr ⟨_, hMember, Option.isNone_iff_eq_none.mp hNone⟩)
  have hRepeated : ∀ name : String,
      (members.filter fun (key, _) => names.any fun name => key = some name).countP
        (fun (key, _) => key = some name) ≤ 1 := by
    intro name
    calc
      _ ≤ members.countP fun (key, _) => key = some name := List.filter_sublist.countP_le
      _ = (members.map Prod.fst).count (some name) := by
          rw [List.count_eq_countP, List.countP_map]
          exact List.countP_congr fun member _ => by simp
      _ ≤ 1 := List.nodup_iff_count_le_one.mp hOnce (some name)
  rw [fields?]
  simp only [if_neg hNoText]
  rw [if_neg]
  · exact congrArg some (List.map_congr_left fun name hName => member?_filter hName)
  · rw [List.any_eq_true]
    rintro ⟨name, -, hTwice⟩
    exact absurd (hRepeated name) (by simpa using hTwice)

end

section

variable {names : List String} {values : List Json} (hNames : names.Nodup)
  (hLength : values.length ≤ names.length)
include hNames hLength

/-- The values stand under their keys, and nothing stands under a key without a value. -/
theorem map_member?_zip :
    names.map (member? ((names.zip values).map fun (key, value) => (some key, value))) =
      values.map some ++ List.replicate (names.length - values.length) none := by
  induction names generalizing values with
  | nil =>
      obtain rfl := List.eq_nil_of_length_eq_zero (Nat.le_zero.mp hLength)
      rfl
  | cons first names ih =>
      obtain ⟨hFirst, hNames⟩ := List.nodup_cons.mp hNames
      cases values with
      | nil => exact List.map_const'
      | cons value values =>
          have hRest := ih hNames (Nat.le_of_succ_le_succ hLength)
          rw [List.map_cons, List.map_cons, List.cons_append, List.length_cons,
            List.length_cons, Nat.add_sub_add_right, ← hRest]
          congr 1
          · simp [member?]
          · refine List.map_congr_left fun name hName => ?_
            have hOther : first ≠ name := fun hSame => hFirst (hSame ▸ hName)
            simp [member?, hOther]

/-- A record is taken apart into the values it was put together from. -/
theorem fields?_record :
    (record (names.zip values)).fields? names =
      some (values.map some ++ List.replicate (names.length - values.length) none) := by
  have hKeys : ((names.zip values).map fun (key, value) =>
      ((some key, value) : Content × Json)).map Prod.fst =
        (names.take values.length).map some := by
    have hZip : (names.zip values).map Prod.fst = names.take values.length := by
      rw [List.zip_eq_zip_take_min, Nat.min_eq_right hLength, List.map_fst_zip]
      rw [List.length_take, List.length_take, Nat.min_self]
      exact Nat.min_le_left _ _
    rw [← hZip, List.map_map, List.map_map]
    rfl
  rw [record, fields?_object, map_member?_zip hNames hLength]
  · rw [hKeys, List.mem_map]
    rintro ⟨name, -, hNone⟩
    cases hNone
  · rw [hKeys]
    exact ((List.take_sublist _ _).nodup hNames).map fun _ _ => Option.some.inj

end

/-- With a value for every key nothing is left out. -/
theorem fields?_full {names : List String} {values : List Json} (hNames : names.Nodup)
    (hLength : values.length = names.length) :
    (record (names.zip values)).fields? names = some (values.map some) := by
  rw [fields?_record hNames (Nat.le_of_eq hLength), hLength, Nat.sub_self, List.replicate_zero,
    List.append_nil]

end TapeCutter.Json
