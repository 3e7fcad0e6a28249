import TapeCutter.Portal.Request

/-! Which parameters a query gives. The parts of a query between its ampersands each give one
key, what they have in front of their first equals sign. Told by place: a key stands between
the start of the query or an ampersand, and an ampersand, an equals sign or the end. -/
namespace TapeCutter.Portal

theorem upTo_of_not_mem {separator : Char} {cs : List Char} (hNone : separator ∉ cs) :
    upTo separator cs = cs := by
  rcases (upTo_append_after separator cs).2 with ⟨hAll, -⟩ | hSplit
  · exact hAll.symm
  · refine absurd ?_ hNone
    rw [hSplit]
    exact List.mem_append_right _ List.mem_cons_self

/-- Nothing, or something that ends with the separator. -/
def Closed (separator : Char) (cs : List Char) : Prop :=
  cs = [] ∨ ∃ front, cs = front ++ [separator]

/-- What stands between separators, or at an end, is a part. -/
theorem mem_splitOn_of_closed {separator : Char} {part : List Char} (hNone : separator ∉ part)
    {before behind : List Char} (hBefore : Closed separator before)
    (hBehind : behind = [] ∨ ∃ rest, behind = separator :: rest) :
    part ∈ (before ++ (part ++ behind)).splitOn separator := by
  have hFirst : part ∈ (part ++ behind).splitOn separator := by
    rcases hBehind with rfl | ⟨rest, rfl⟩
    · rw [List.append_nil, List.splitOn_eq_singleton hNone]
      exact List.mem_singleton_self part
    · rw [List.splitOn_append_cons_self_of_not_mem hNone]
      exact List.mem_cons_self
  rcases hBefore with rfl | ⟨front, rfl⟩
  · exact hFirst
  · rw [List.append_assoc, List.singleton_append, List.splitOn_append_cons_self]
    exact List.mem_append_right _ hFirst

/-- The parts of a text, told by where they stand. -/
theorem mem_splitOn_iff {separator : Char} {part cs : List Char} :
    part ∈ cs.splitOn separator ↔
      separator ∉ part ∧ ∃ before behind, cs = before ++ (part ++ behind) ∧
        Closed separator before ∧ (behind = [] ∨ ∃ rest, behind = separator :: rest) := by
  constructor
  · intro hMem
    -- The text is cut at its first separator, and shorter behind it.
    induction hLength : cs.length using Nat.strongRecOn generalizing cs with
    | ind length ih =>
        obtain ⟨hNone, ⟨hAll, -⟩ | hSplit⟩ := upTo_append_after separator cs
        · rw [← hAll] at hNone
          rw [List.splitOn_eq_singleton hNone, List.mem_singleton] at hMem
          subst hMem
          exact ⟨hNone, [], [], (List.append_nil _).symm, Or.inl rfl, Or.inl rfl⟩
        · generalize upTo separator cs = first at hNone hSplit
          generalize after separator cs = rest at hSplit
          subst hSplit
          rw [List.splitOn_append_cons_self_of_not_mem hNone, List.mem_cons] at hMem
          rcases hMem with rfl | hLater
          · exact ⟨hNone, [], separator :: rest, rfl, Or.inl rfl, Or.inr ⟨rest, rfl⟩⟩
          · have hShorter : rest.length < length := by
              rw [← hLength, List.length_append, List.length_cons]
              omega
            obtain ⟨hPart, before, behind, rfl, hBefore, hBehind⟩ := ih _ hShorter hLater rfl
            refine ⟨hPart, first ++ separator :: before, behind, by simp, Or.inr ?_, hBehind⟩
            rcases hBefore with rfl | ⟨front, rfl⟩
            · exact ⟨first, rfl⟩
            · exact ⟨first ++ separator :: front, by simp⟩
  · rintro ⟨hNone, before, behind, rfl, hBefore, hBehind⟩
    exact mem_splitOn_of_closed hNone hBefore hBehind

/-- The keys of a query, one for each part. -/
def keys (query : List Char) : List (List Char) := (query.splitOn '&').map (upTo '=')

/-- The keys of two queries with an ampersand between them are those of the one and those of the
other. -/
theorem keys_append (front rest : List Char) :
    keys (front ++ '&' :: rest) = keys front ++ keys rest := by
  rw [keys, List.splitOn_append_cons_self, List.map_append]
  rfl

theorem keys_eq_cons (query : List Char) :
    keys query = upTo '=' (upTo '&' query) :: (keys query).tail := by
  rw [keys, splitOn_eq_cons '&' query]
  rfl

theorem keys_cons_of_ne {c : Char} (hOther : c ≠ '&') (rest : List Char) :
    keys (c :: rest) =
      (if c = '=' then [] else c :: upTo '=' (upTo '&' rest)) :: (keys rest).tail := by
  rw [keys_eq_cons, upTo_cons, if_neg hOther, upTo_cons, keys, keys, ← List.map_tail,
    tail_splitOn_cons, if_neg hOther, List.map_tail]

/-- The value of the last parameter adds nothing to the keys. -/
theorem keys_append_value (query : List Char) {value : List Char} (hNone : '&' ∉ value) :
    keys (query ++ '=' :: value) = keys query := by
  induction query with
  | nil =>
      have hPart : '&' ∉ '=' :: value := by simpa using hNone
      rw [List.nil_append, keys, List.splitOn_eq_singleton hPart]
      rfl
  | cons c query ih =>
      by_cases hNext : c = '&'
      · subst hNext
        exact (keys_append [] (query ++ '=' :: value)).trans
          ((congrArg (keys [] ++ ·) ih).trans (keys_append [] query).symm)
      · have hHeads := congrArg List.head? ih
        rw [keys_eq_cons (query ++ '=' :: value), keys_eq_cons query] at hHeads
        rw [List.cons_append, keys_cons_of_ne hNext, keys_cons_of_ne hNext, ih,
          Option.some.inj hHeads]

/-- The keys of a query, told by where they stand. -/
theorem mem_keys_iff {name query : List Char} :
    name ∈ keys query ↔
      ('&' ∉ name ∧ '=' ∉ name) ∧ ∃ before behind, query = before ++ (name ++ behind) ∧
        Closed '&' before ∧
        (behind = [] ∨ ∃ rest, behind = '&' :: rest ∨ behind = '=' :: rest) := by
  rw [keys, List.mem_map]
  constructor
  · rintro ⟨part, hPart, rfl⟩
    obtain ⟨hNext, before, behind, rfl, hBefore, hBehind⟩ := mem_splitOn_iff.mp hPart
    obtain ⟨hEquals, ⟨hAll, -⟩ | hSplit⟩ := upTo_append_after '=' part
    · rw [← hAll] at hEquals ⊢
      refine ⟨⟨hNext, hEquals⟩, before, behind, rfl, hBefore, ?_⟩
      exact hBehind.imp_right fun ⟨rest, hRest⟩ => ⟨rest, Or.inl hRest⟩
    · generalize upTo '=' part = name at hEquals hSplit ⊢
      generalize after '=' part = value at hSplit
      subst hSplit
      refine ⟨⟨?_, hEquals⟩, before, '=' :: (value ++ behind), ?_, hBefore,
        Or.inr ⟨_, Or.inr rfl⟩⟩
      · exact fun hMem => hNext (List.mem_append_left _ hMem)
      · rw [List.append_assoc, List.cons_append]
  · rintro ⟨⟨hNext, hEquals⟩, before, behind, rfl, hBefore, hBehind⟩
    rcases hBehind with rfl | ⟨rest, rfl | rfl⟩
    · refine ⟨name, mem_splitOn_of_closed hNext hBefore (Or.inl rfl), ?_⟩
      exact upTo_of_not_mem hEquals
    · refine ⟨name, mem_splitOn_of_closed hNext hBefore (Or.inr ⟨rest, rfl⟩), ?_⟩
      exact upTo_of_not_mem hEquals
    · -- The part goes on behind the name, up to the next ampersand.
      obtain ⟨hValue, hRest⟩ := upTo_append_after '&' rest
      generalize upTo '&' rest = value at hValue hRest
      have hPart : '&' ∉ name ++ '=' :: value := by simp [hNext, hValue]
      refine ⟨name ++ '=' :: value, ?_, upTo_append_cons hEquals value⟩
      rcases hRest with ⟨rfl, -⟩ | hSplit
      · have hMem := mem_splitOn_of_closed hPart hBefore (Or.inl rfl)
        rwa [List.append_nil] at hMem
      · have hMem := mem_splitOn_of_closed hPart hBefore (Or.inr ⟨after '&' rest, rfl⟩)
        rwa [List.append_assoc, List.cons_append, ← hSplit] at hMem

theorem exists_toList_iff {holds : List Char → Prop} :
    (∃ cs, holds cs) ↔ ∃ text : String, holds text.toList := by
  refine ⟨fun ⟨cs, hHolds⟩ => ⟨.ofList cs, ?_⟩, fun ⟨text, hHolds⟩ => ⟨text.toList, hHolds⟩⟩
  rwa [String.toList_ofList]

/-- The keys of a query, told by where they stand in its text. -/
theorem mem_keys_toList_iff {name query : String} :
    name.toList ∈ keys query.toList ↔
      ('&' ∉ name.toList ∧ '=' ∉ name.toList) ∧ ∃ before behind : String,
        query = before ++ name ++ behind ∧
          (before = "" ∨ ∃ front, before = front ++ "&") ∧
          (behind = "" ∨ ∃ rest, behind = "&" ++ rest ∨ behind = "=" ++ rest) := by
  simp only [mem_keys_iff, Closed, exists_toList_iff, ← String.toList_inj, String.toList_append,
    List.append_assoc, show "".toList = [] from rfl, show "&".toList = ['&'] from rfl,
    show "=".toList = ['='] from rfl, List.singleton_append]

namespace Request

theorem hasParam_iff_mem_keys (request : Request) (name : String) :
    request.hasParam name ↔ name.toList ∈ keys request.query.toList := by
  simp [hasParam, keys]

/-- The target is the path, a question mark and the query, or the path alone if it has no
question mark. -/
theorem split_ofTarget (host target : String) :
    let request := ofTarget host target
    if '?' ∈ target.toList then request.path ++ "?" ++ request.query = target
    else request.path = target ∧ request.query = "" := by
  intro request
  obtain ⟨hPath, ⟨hAll, hNone⟩ | hSplit⟩ := hasTarget_ofTarget host target
  · rw [if_neg]
    · exact ⟨hAll.symm, hNone⟩
    · rwa [hAll]
  · rw [if_pos]
    · exact hSplit.symm
    · rw [hSplit]
      simp

/-- A target is split at its first question mark, whatever comes later. A parameter is given
exactly if its name stands in the query as a whole key, between the start or an ampersand, and
an ampersand, an equals sign or the end. So of queries with an ampersand between them either
one may give it, and a value behind an equals sign neither gives it nor takes it away. -/
theorem read_by_position :
    (∀ host target : String,
      let request := ofTarget host target
      request.host = host ∧ '?' ∉ request.path.toList ∧
        if '?' ∈ target.toList then request.path ++ "?" ++ request.query = target
        else request.path = target ∧ request.query = "") ∧
      (∀ (request : Request) (name : String),
        request.hasParam name ↔
          ('&' ∉ name.toList ∧ '=' ∉ name.toList) ∧ ∃ before behind : String,
            request.query = before ++ name ++ behind ∧
              (before = "" ∨ ∃ front, before = front ++ "&") ∧
              (behind = "" ∨ ∃ rest, behind = "&" ++ rest ∨ behind = "=" ++ rest)) ∧
      ∀ host path query rest value name : String,
        let gives (query : String) : Bool := (Request.mk host path query).hasParam name
        gives (query ++ "&" ++ rest) = (gives query || gives rest) ∧
          ('&' ∉ value.toList → gives (query ++ "=" ++ value) = gives query) := by
  refine ⟨fun host target => ?_, fun request name => ?_, ?_⟩
  · exact ⟨rfl, (hasTarget_ofTarget host target).1, split_ofTarget host target⟩
  · rw [hasParam_iff_mem_keys]
    exact mem_keys_toList_iff
  · intro host path query rest value name gives
    have hGives (query : String) : gives query ↔ name.toList ∈ keys query.toList :=
      hasParam_iff_mem_keys _ name
    refine ⟨?_, fun hNone => ?_⟩
    · rw [Bool.eq_iff_iff, Bool.or_eq_true, hGives, hGives, hGives]
      simp [keys_append]
    · rw [Bool.eq_iff_iff, hGives, hGives]
      simp [keys_append_value query.toList hNone]

/-- A parameter with a value is given as it is without one. -/
theorem given_with_value :
    let gives (query : String) : Bool := (Request.mk "4.3.2.1" "/" query).hasParam "redirect"
    '&' ∉ "true".toList ∧ gives ("redirect" ++ "=" ++ "true") = gives "redirect" ∧
      gives "redirect" = true := by
  intro gives
  have hNone : '&' ∉ "true".toList := by decide
  refine ⟨hNone, ?_, by decide⟩
  exact (read_by_position.2.2 "4.3.2.1" "/" "redirect" "" "true" "redirect").2 hNone

/-- A value that reads like a key, a key that goes on and a later question mark give nothing. -/
example :
    let request := ofTarget "4.3.2.1" "/?a=redirect&redir&redirected?redirect=&x&x=1"
    request.hasParam "redirect" = false ∧ request.hasParam "x" = true := by
  decide

end Request

end TapeCutter.Portal
