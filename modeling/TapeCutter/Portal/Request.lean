/-! A request to the portal, as far as routing looks at it. -/
namespace TapeCutter.Portal

structure Request where
  host : String
  path : String
  query : String
deriving DecidableEq

/-- What stands before the first separator, or all of it. -/
def upTo (separator : Char) (cs : List Char) : List Char := cs.takeWhile (· != separator)

/-- What stands behind the first separator, or nothing. -/
def after (separator : Char) (cs : List Char) : List Char :=
  (cs.dropWhile (· != separator)).drop 1

@[simp] theorem upTo_nil (separator : Char) : upTo separator [] = [] := rfl

theorem upTo_cons (separator c : Char) (rest : List Char) :
    upTo separator (c :: rest) = if c = separator then [] else c :: upTo separator rest := by
  by_cases hSame : c = separator <;> simp [upTo, hSame]

theorem after_cons_of_ne {separator c : Char} (hOther : c ≠ separator) (rest : List Char) :
    after separator (c :: rest) = after separator rest := by
  simp [after, hOther]

/-- A text is what stands before its first separator, that separator and what stands behind, or it
has none and nothing stands behind. -/
theorem upTo_append_after (separator : Char) (cs : List Char) :
    separator ∉ upTo separator cs ∧
      (cs = upTo separator cs ∧ after separator cs = [] ∨
        cs = upTo separator cs ++ separator :: after separator cs) := by
  induction cs with
  | nil => simp [after]
  | cons c rest ih =>
      rw [upTo_cons]
      split
      · rename_i hSame
        simp [hSame, after]
      · rename_i hOther
        simp only [after_cons_of_ne hOther, List.mem_cons, List.cons_append, List.cons.injEq,
          true_and, not_or]
        exact ⟨⟨Ne.symm hOther, ih.1⟩, ih.2⟩

/-- What a text is split into at the separators begins with what stands before the first. -/
theorem splitOn_eq_cons (separator : Char) (cs : List Char) :
    cs.splitOn separator = upTo separator cs :: (cs.splitOn separator).tail := by
  induction cs with
  | nil => rfl
  | cons c rest ih =>
      simp only [List.splitOn_cons_eq_if_modifyHead, upTo_cons, beq_iff_eq]
      split
      · rfl
      · rw [ih]
        rfl

/-- A separator in front begins another part, and any other character goes on with the first. -/
theorem tail_splitOn_cons (separator c : Char) (rest : List Char) :
    ((c :: rest).splitOn separator).tail =
      if c = separator then rest.splitOn separator else (rest.splitOn separator).tail := by
  simp only [List.splitOn_cons_eq_if_modifyHead, beq_iff_eq]
  split
  · rfl
  · rw [List.tail_modifyHead]

section

variable {separator : Char} {cs : List Char} (hNone : separator ∉ cs)
include hNone

/-- Only the first separator counts. -/
theorem upTo_append_cons (rest : List Char) : upTo separator (cs ++ separator :: rest) = cs := by
  have hFront : ∀ c ∈ cs, (c != separator) = true := fun c hMem => by
    simpa using ne_of_mem_of_not_mem hMem hNone
  simp [upTo, List.takeWhile_append_of_pos hFront]

theorem after_append_cons (rest : List Char) :
    after separator (cs ++ separator :: rest) = rest := by
  induction cs with
  | nil => simp [after]
  | cons c front ih =>
      obtain ⟨hOther, hNone⟩ := List.ne_and_not_mem_of_not_mem_cons hNone
      exact (after_cons_of_ne (Ne.symm hOther) _).trans (ih hNone)

end

section

variable {name : List Char} (hAnd : '&' ∉ name) (hEquals : '=' ∉ name)
include hAnd hEquals

/-- A part has this name if it starts with it and the name ends there, or at an equals sign. -/
theorem upTo_upTo_eq_iff (cs : List Char) :
    upTo '=' (upTo '&' cs) = name ↔
      name ++ ['&'] <+: cs ++ ['&'] ∨ name ++ ['='] <+: cs ++ ['&'] := by
  induction name generalizing cs with
  | nil =>
      cases cs with
      | nil => simp
      | cons d rest =>
        by_cases hPart : d = '&'
        · simp [upTo_cons, hPart]
        · by_cases hValue : d = '=' <;> simp [upTo_cons, hPart, hValue, Ne.symm]
  | cons c name ih =>
      obtain ⟨hPart, hAnd⟩ := List.ne_and_not_mem_of_not_mem_cons hAnd
      obtain ⟨hValue, hEquals⟩ := List.ne_and_not_mem_of_not_mem_cons hEquals
      cases cs with
      | nil => simp [hPart.symm]
      | cons d rest =>
          simp only [upTo_cons, List.cons_append, List.cons_prefix_cons, ← and_or_left,
            ← ih hAnd hEquals]
          split
          · simp_all [eq_comm]
          · rw [upTo_cons]
            split
            · simp_all [eq_comm]
            · rw [List.cons.injEq, eq_comm (a := d)]

/-- A later part has this name. -/
theorem exists_tail_splitOn_iff (cs : List Char) :
    (∃ part ∈ (cs.splitOn '&').tail, upTo '=' part = name) ↔
      '&' :: (name ++ ['&']) <:+: cs ++ ['&'] ∨ '&' :: (name ++ ['=']) <:+: cs ++ ['&'] := by
  induction cs with
  | nil => simp [List.infix_cons_iff]
  | cons c rest ih =>
      rw [tail_splitOn_cons, List.cons_append, List.infix_cons_iff, List.infix_cons_iff,
        List.cons_prefix_cons, List.cons_prefix_cons]
      split
      · subst c
        rw [splitOn_eq_cons]
        simp only [List.mem_cons, or_and_right, exists_or, exists_eq_left,
          upTo_upTo_eq_iff hAnd hEquals, ih, true_and]
        exact or_or_or_comm
      · rename_i hNext
        simp [ih, Ne.symm hNext]

end

namespace Request

/-- The target is split at the first question mark. -/
def ofTarget (host target : String) : Request where
  host := host
  path := String.ofList (upTo '?' target.toList)
  query := String.ofList (after '?' target.toList)

/-- The target is the path, or the path and the query with a question mark between them; the
path has none. -/
def HasTarget (request : Request) (target : String) : Prop :=
  '?' ∉ request.path.toList ∧
    (target = request.path ∧ request.query = "" ∨ target = request.path ++ "?" ++ request.query)

/-- A target is read without a loss. -/
theorem hasTarget_ofTarget (host target : String) : (ofTarget host target).HasTarget target := by
  obtain ⟨hPath, hSplit⟩ := upTo_append_after '?' target.toList
  refine ⟨by simpa [ofTarget] using hPath, ?_⟩
  rcases hSplit with ⟨hAll, hNone⟩ | hBoth
  · refine Or.inl ⟨?_, ?_⟩
    · rw [ofTarget, ← hAll, String.ofList_toList]
    · rw [ofTarget, hNone]
  · refine Or.inr (String.toList_inj.mp ?_)
    simpa [ofTarget] using hBoth

/-- A parameter with this name is given, with or without a value. -/
def hasParam (request : Request) (name : String) : Bool :=
  (request.query.toList.splitOn '&').any fun part => upTo '=' part == name.toList

/-- The name stands in the query: an ampersand or the start of the query is in front of it, and
an ampersand, an equals sign or the end of the query is behind it. -/
def Gives (request : Request) (name : String) : Prop :=
  let query := '&' :: (request.query.toList ++ ['&'])
  '&' :: (name.toList ++ ['&']) <:+: query ∨ '&' :: (name.toList ++ ['=']) <:+: query

/-- To give a parameter is to have its name in the query as a whole key. -/
theorem hasParam_iff (request : Request) {name : String} (hAnd : '&' ∉ name.toList)
    (hEquals : '=' ∉ name.toList) : request.hasParam name ↔ request.Gives name := by
  rw [hasParam, splitOn_eq_cons]
  simp only [List.any_eq_true, beq_iff_eq, List.mem_cons, or_and_right, exists_or,
    exists_eq_left, upTo_upTo_eq_iff hAnd hEquals, exists_tail_splitOn_iff hAnd hEquals, Gives,
    List.infix_cons_iff, List.cons_prefix_cons, true_and]
  exact or_or_or_comm

end Request

end TapeCutter.Portal
