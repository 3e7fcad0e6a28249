import TapeCutter.Portal.Page
import TapeCutter.Portal.Request
import Mathlib.Data.List.Chain

/-! Places of a page filled in one after another, and all at once. Each replacement runs over the
whole text, the values that earlier ones have put in among it. Unless a value holds two braces
in a row this cannot be seen: replaced in any order, the fields end up as in one pass, and
nothing but their places changes. -/
namespace TapeCutter.Portal

/-- Two opening braces in a row, as every placeholder has them. -/
def Opens (text : String) : Prop := "\x7b\x7b".toList <:+: text.toList

/-- The placeholders of some fields replaced at once, in one pass from left to right. A value
that was put in is not looked at again. The first argument counts the characters that still
belong to the placeholder before. -/
def fillIn (fields : List Field) (value : Field → List Char) : Nat → List Char → List Char
  | _, [] => []
  | skip + 1, _ :: rest => fillIn fields value skip rest
  | 0, c :: rest =>
      match fields.find? fun field => field.placeholder.isPrefixOf (c :: rest) with
      | some field => value field ++ fillIn fields value (field.placeholder.length - 1) rest
      | none => c :: fillIn fields value 0 rest

/-- The fields replaced one after another, each over the whole text. -/
def replaceEach (value : Field → List Char) (order : List Field) (text : List Char) : List Char :=
  order.foldl (fun page field => replaceAll field.placeholder (value field) 0 page) text

/-! Characters with no two opening braces among them, one behind the other. -/

def Calm (cs : List Char) : Prop := cs.IsChain fun c next => c = '\x7b' → next ≠ '\x7b'

instance (cs : List Char) : Decidable (Calm cs) := inferInstanceAs (Decidable (cs.IsChain _))

/-- A text is calm just if it has no opening pair of braces. -/
theorem calm_toList_iff {text : String} : Calm text.toList ↔ ¬ Opens text := by
  rw [Calm, List.isChain_iff_forall_rel_of_append_cons_cons, Opens]
  constructor
  · rintro hCalm ⟨before, behind, hText⟩
    have hBraces : text.toList = before ++ '\x7b' :: '\x7b' :: behind := by
      rw [← hText, List.append_assoc]
      rfl
    exact hCalm hBraces rfl rfl
  · rintro hNone c next before behind hText rfl rfl
    exact hNone ⟨before, behind, by rw [hText, List.append_assoc]; rfl⟩

theorem calm_of_not_mem {cs : List Char} (hNone : '\x7b' ∉ cs) : Calm cs := by
  rw [Calm, List.isChain_iff_forall_rel_of_append_cons_cons]
  rintro c next before behind rfl rfl
  simp at hNone

theorem calm_cons {c : Char} {rest : List Char} (hOther : c ≠ '\x7b') :
    Calm (c :: rest) ↔ Calm rest := by
  rw [Calm, List.isChain_cons]
  exact and_iff_right fun _ _ hBrace => absurd hBrace hOther

/-- Another character between two texts keeps them apart. -/
theorem calm_append_cons {front rest : List Char} {c : Char} (hOther : c ≠ '\x7b') :
    Calm (front ++ c :: rest) ↔ Calm front ∧ Calm (c :: rest) := by
  rw [Calm, List.isChain_append]
  refine and_congr_right fun _ => and_iff_left fun last _ next hNext _ => ?_
  obtain rfl : c = next := Option.some.inj hNext
  exact hOther

/-- Calm, also with a placeholder behind it. -/
def Sealed (cs : List Char) : Prop := Calm (cs ++ ['\x7b'])

instance (cs : List Char) : Decidable (Sealed cs) := inferInstanceAs (Decidable (Calm _))

/-- The characters of a text that is written out are at hand without decoding it. -/
theorem sealed_ofList {cs : List Char} (hSealed : Sealed cs) :
    Sealed (String.ofList cs).toList := by
  rwa [String.toList_ofList]

/-- A text that does not end in a brace can be followed by a calm one. -/
theorem Sealed.append {cs rest : List Char} (hSealed : Sealed cs) (hRest : Calm rest) :
    Calm (cs ++ rest) := by
  obtain ⟨hCalm, -, hLast⟩ := List.isChain_append.mp hSealed
  refine List.isChain_append.mpr ⟨hCalm, hRest, fun last hMem next _ hBrace => ?_⟩
  exact absurd rfl (hLast last hMem '\x7b' rfl hBrace)

theorem calm_take_one (cs : List Char) : Calm (cs.take 1) := by
  cases cs with
  | nil => exact List.isChain_nil
  | cons c rest => exact List.isChain_singleton c

theorem head?_append_take_one (cs rest : List Char) :
    (cs ++ rest.take 1).head? = (cs ++ rest).head? := by
  cases cs <;> cases rest <;> rfl

/-- Lines that are sealed make up a page that is. -/
theorem sealed_pageText {lines : List String} (hLines : ∀ line ∈ lines, Sealed line.toList) :
    Sealed (pageText lines).toList := by
  have hBreak : '\n' ≠ '\x7b' := by decide
  induction lines with
  | nil => decide
  | cons line rest ih =>
      obtain ⟨hLine, hRest⟩ := List.forall_mem_cons.mp hLines
      have hText : (pageText (line :: rest)).toList =
          line.toList ++ '\n' :: (pageText rest).toList := by
        simp [pageText]
      rw [Sealed, hText, List.append_assoc, List.cons_append, calm_append_cons hBreak]
      exact ⟨(List.isChain_append.mp hLine).1, (calm_cons hBreak).mpr (ih hRest)⟩

/-! One pass over a text. -/

section

variable {fields : List Field} {value : Field → List Char}

/-- The characters of a placeholder that has been filled in are passed over. -/
theorem fillIn_skip (cs rest : List Char) :
    fillIn fields value cs.length (cs ++ rest) = fillIn fields value 0 rest := by
  induction cs with
  | nil => rfl
  | cons c cs ih => exact ih

/-- No placeholder starts in calm text, not even if it would end behind it. -/
theorem fillIn_append_of_calm {cs rest : List Char} (hCalm : Calm (cs ++ rest.take 1)) :
    fillIn fields value 0 (cs ++ rest) = cs ++ fillIn fields value 0 rest := by
  induction cs with
  | nil => rfl
  | cons c cs ih =>
      rw [List.cons_append] at hCalm
      obtain ⟨hFirst, hRest⟩ := List.isChain_cons.mp hCalm
      have hNone : (fields.find? fun field => field.placeholder.isPrefixOf (c :: (cs ++ rest))) =
          none := by
        rw [List.find?_eq_none]
        intro field _ hPrefix
        obtain ⟨behind, hBehind⟩ := List.isPrefixOf_iff_prefix.mp hPrefix
        obtain ⟨rfl, hSecond⟩ := List.cons.inj hBehind
        -- The second brace of the placeholder would stand right behind this one.
        refine hFirst '\x7b' ?_ rfl rfl
        rw [head?_append_take_one, ← hSecond]
        rfl
      rw [List.cons_append, fillIn, hNone]
      exact congrArg (c :: ·) (ih hRest)

theorem exists_placeholder_eq (field : Field) :
    ∃ behind, field.placeholder = '\x7b' :: behind ∧ Sealed behind := by
  cases field <;> exact ⟨_, rfl, by decide⟩

/-- Of two placeholders neither starts with the other. -/
theorem isPrefixOf_placeholder_append {field other : Field} {rest : List Char} :
    field.placeholder.isPrefixOf (other.placeholder ++ rest) = true ↔ field = other := by
  rw [List.isPrefixOf_iff_prefix]
  constructor
  · intro hPrefix
    have hEither := List.prefix_or_prefix_of_prefix hPrefix (List.prefix_append _ rest)
    revert hEither
    cases field <;> cases other <;> decide
  · rintro rfl
    exact List.prefix_append _ rest

/-- What stands in a place after some of the fields have been replaced. -/
def filled (value : Field → List Char) (done : List Field) (field : Field) : List Char :=
  if field ∈ done then value field else field.placeholder

/-- The placeholder that a text begins with is the one that is found, since none is a prefix of
another. -/
theorem find?_placeholder_append (fields : List Field) (field : Field) (rest : List Char) :
    (fields.find? fun other => other.placeholder.isPrefixOf (field.placeholder ++ rest)) =
      if field ∈ fields then some field else none := by
  cases hFind : fields.find? fun other =>
      other.placeholder.isPrefixOf (field.placeholder ++ rest) with
  | some found =>
      have hPrefix := List.find?_some hFind
      obtain rfl : found = field := isPrefixOf_placeholder_append.mp hPrefix
      rw [if_pos (List.mem_of_find?_eq_some hFind)]
  | none =>
      rw [if_neg]
      intro hMem
      exact List.find?_eq_none.mp hFind field hMem (isPrefixOf_placeholder_append.mpr rfl)

/-- A place is filled in or kept, and the pass goes on behind it. -/
theorem fillIn_placeholder_append (field : Field) (rest : List Char) :
    fillIn fields value 0 (field.placeholder ++ rest) =
      filled value fields field ++ fillIn fields value 0 rest := by
  obtain ⟨behind, hBehind, hSealed⟩ := exists_placeholder_eq field
  have hFind := find?_placeholder_append fields field rest
  rw [filled, hBehind]
  rw [hBehind] at hFind
  rw [List.cons_append, fillIn, ← List.cons_append, hFind]
  by_cases hMem : field ∈ fields
  · rw [if_pos hMem, if_pos hMem]
    dsimp only
    rw [hBehind]
    exact congrArg (value field ++ ·) (fillIn_skip behind rest)
  · rw [if_neg hMem, if_neg hMem]
    exact congrArg ('\x7b' :: ·) (fillIn_append_of_calm (hSealed.append (calm_take_one rest)))

/-- To replace one placeholder is to fill in one field. -/
theorem replaceAll_eq_fillIn (field : Field) (skip : Nat) (text : List Char) :
    replaceAll field.placeholder (value field) skip text = fillIn [field] value skip text := by
  fun_induction replaceAll field.placeholder (value field) skip text with
  | case1 => rfl
  | case2 skip c rest ih => exact ih
  | case3 c rest hPrefix ih => simp [fillIn, hPrefix, ih]
  | case4 c rest hPrefix ih => simp [fillIn, hPrefix, ih]

end

/-! One pass over the parts of a page. -/

/-- The first character behind a place, if there is a text behind it. -/
def firstOf : List Part → Option Char
  | .text text :: _ => text.toList.head?
  | _ => none

/-- The part is a place, or a text that leaves its braces apart from what stands around it. -/
def Part.IsSealed : Part → Prop
  | .text content => Sealed content.toList
  | .field _ => True

/-- Behind every place stands a text, with a first character that may end its field. -/
def Delimited (ends : Field → Char → Prop) : List Part → Prop
  | [] => True
  | .text _ :: rest => Delimited ends rest
  | .field field :: rest => (∃ c, firstOf rest = some c ∧ ends field c) ∧ Delimited ends rest

theorem fillParts_text (value : Field → List Char) (text : String) (rest : List Part) :
    fillParts value (.text text :: rest) = text.toList ++ fillParts value rest :=
  List.flatMap_cons

theorem fillParts_field (value : Field → List Char) (field : Field) (rest : List Part) :
    fillParts value (.field field :: rest) = value field ++ fillParts value rest :=
  List.flatMap_cons

/-- What the parts begin with does not depend on the values, if it is text. -/
theorem exists_fillParts_eq_cons {parts : List Part} {c : Char} (hFirst : firstOf parts = some c)
    (value : Field → List Char) : ∃ rest, fillParts value parts = c :: rest := by
  cases parts with
  | nil => exact nomatch hFirst
  | cons part parts =>
      cases part with
      | field field => exact nomatch hFirst
      | text text =>
          obtain ⟨rest, hText⟩ := List.head?_eq_some_iff.mp hFirst
          rw [fillParts_text, hText]
          exact ⟨_, rfl⟩

section

variable {parts : List Part} {value : Field → List Char}

/-- A pass fills in its own fields and keeps the others, whatever was filled in before. -/
theorem fillIn_fillParts (fields : List Field) {done : List Field}
    (hParts : ∀ part ∈ parts, part.IsSealed)
    (hEnds : Delimited (fun _ c => c ≠ '\x7b') parts)
    (hValues : ∀ field ∈ done, Calm (value field)) :
    fillIn fields value 0 (fillParts (filled value done) parts) =
      fillParts (filled value (fields ++ done)) parts := by
  induction parts with
  | nil => rfl
  | cons part rest ih =>
      obtain ⟨hPart, hLater⟩ := List.forall_mem_cons.mp hParts
      cases part with
      | text text =>
          have hSealed : Sealed text.toList := hPart
          have hCalm := hSealed.append (calm_take_one (fillParts (filled value done) rest))
          rw [fillParts_text, fillParts_text, fillIn_append_of_calm hCalm, ih hLater hEnds]
      | field field =>
          obtain ⟨⟨c, hFirst, hOther⟩, hRest⟩ := hEnds
          rw [fillParts_field, fillParts_field, ← ih hLater hRest]
          by_cases hDone : field ∈ done
          · -- The value is text like any other, and what stands behind it is no brace.
            obtain ⟨behind, hBehind⟩ := exists_fillParts_eq_cons hFirst (filled value done)
            have hCalm : Calm (value field ++ (fillParts (filled value done) rest).take 1) := by
              rw [hBehind, List.take_succ_cons, List.take_zero, calm_append_cons hOther]
              exact ⟨hValues field hDone, List.isChain_singleton c⟩
            simp only [filled, hDone, List.mem_append, or_true, if_true]
            exact fillIn_append_of_calm hCalm
          · have hAgain : filled value (fields ++ done) field = filled value fields field := by
              simp only [filled, List.mem_append, hDone, or_false]
            rw [hAgain, filled, if_neg hDone]
            exact fillIn_placeholder_append field _

/-- So do replacements one after another, in the order they come. -/
theorem replaceEach_fillParts (order done : List Field)
    (hParts : ∀ part ∈ parts, part.IsSealed)
    (hEnds : Delimited (fun _ c => c ≠ '\x7b') parts) (hValues : ∀ field, Calm (value field)) :
    replaceEach value order (fillParts (filled value done) parts) =
      fillParts (filled value (order.reverse ++ done)) parts := by
  induction order generalizing done with
  | nil => rfl
  | cons field order ih =>
      have hStep : fillIn [field] value 0 (fillParts (filled value done) parts) =
          fillParts (filled value ([field] ++ done)) parts :=
        fillIn_fillParts [field] hParts hEnds fun other _ => hValues other
      rw [replaceEach, List.foldl_cons, replaceAll_eq_fillIn, hStep]
      refine (ih ([field] ++ done)).trans ?_
      rw [List.reverse_cons, List.append_assoc]

/-- A value that is a placeholder is filled in by a later replacement, and not by the one pass. -/
example :
    let value : Field → List Char
      | .runningClass => Field.runningText.placeholder
      | _ => ['x']
    replaceEach value Field.all Field.runningClass.placeholder = ['x'] ∧
      fillIn Field.all value 0 Field.runningClass.placeholder = Field.runningText.placeholder := by
  decide

/-- A page of sealed text and calm values has no opening braces left. -/
theorem calm_fillParts (hParts : ∀ part ∈ parts, part.IsSealed)
    (hEnds : Delimited (fun _ c => c ≠ '\x7b') parts) (hValues : ∀ field, Calm (value field)) :
    Calm (fillParts value parts) := by
  induction parts with
  | nil => exact List.isChain_nil
  | cons part rest ih =>
      obtain ⟨hPart, hLater⟩ := List.forall_mem_cons.mp hParts
      cases part with
      | text text =>
          rw [fillParts_text]
          exact Sealed.append hPart (ih hLater hEnds)
      | field field =>
          obtain ⟨⟨c, hFirst, hOther⟩, hRest⟩ := hEnds
          have hCalm := ih hLater hRest
          obtain ⟨behind, hBehind⟩ := exists_fillParts_eq_cons hFirst value
          rw [fillParts_field, hBehind, calm_append_cons hOther]
          rw [hBehind] at hCalm
          exact ⟨hValues field, hCalm⟩

/-- Parts whose values end where the text behind them starts show these values. -/
theorem eq_of_fillParts_append_eq {other : Field → List Char}
    (hEnds : Delimited (fun field c => c ∉ value field ∧ c ∉ other field) parts)
    {behind otherBehind : List Char}
    (hPages : fillParts value parts ++ behind = fillParts other parts ++ otherBehind) :
    (∀ field, .field field ∈ parts → value field = other field) ∧ behind = otherBehind := by
  induction parts with
  | nil => exact ⟨fun _ hMem => absurd hMem List.not_mem_nil, hPages⟩
  | cons part rest ih =>
      cases part with
      | text text =>
          rw [fillParts_text, fillParts_text, List.append_assoc, List.append_assoc] at hPages
          obtain ⟨hFields, hBehind⟩ := ih hEnds (List.append_cancel_left hPages)
          refine ⟨fun field hMem => ?_, hBehind⟩
          exact hFields field ((List.mem_cons.mp hMem).resolve_left nofun)
      | field field =>
          obtain ⟨⟨c, hFirst, hNone, hOtherNone⟩, hRest⟩ := hEnds
          obtain ⟨page, hPage⟩ := exists_fillParts_eq_cons hFirst value
          obtain ⟨otherPage, hOtherPage⟩ := exists_fillParts_eq_cons hFirst other
          rw [hPage, hOtherPage] at ih
          rw [fillParts_field, fillParts_field, hPage, hOtherPage, List.append_assoc,
            List.append_assoc, List.cons_append, List.cons_append] at hPages
          have hValue : value field = other field := by
            rw [← upTo_append_cons hNone, hPages, upTo_append_cons hOtherNone]
          rw [hValue] at hPages
          obtain ⟨hFields, hBehind⟩ := ih hRest (List.append_cancel_left hPages)
          refine ⟨fun found hMem => ?_, hBehind⟩
          rcases List.mem_cons.mp hMem with hSame | hLaterMem
          · obtain rfl : found = field := Part.field.inj hSame
            exact hValue
          · exact hFields found hLaterMem

end

end TapeCutter.Portal
