import TapeCutter.Proofs.Json.Scanning

/-! Written values read back. Whatever value is rendered, its text is read as this value: the
reader takes the tokens of a value one after the other and comes out with the value whole. -/
namespace TapeCutter.Json

namespace Reader

@[simp] theorem run?_nil (reader : Reader) : reader.run? [] = some reader := rfl

theorem run?_cons {reader next : Reader} {token : Token} (hStep : reader.step? token = some next)
    (rest : List Token) : reader.run? (token :: rest) = next.run? rest := by
  rw [run?, hStep]

mutual

/-- A value takes its own tokens and no others, whatever is open around it. -/
theorem run?_tokens : ∀ (value : Json) (stack : List Frame) (opened : Bool) (rest : List Token),
    (needValue stack opened).run? (value.tokens ++ rest) = (needEnd stack value).run? rest
  | .scalar _, _, _, rest => run?_cons rfl rest
  | .array [], _, _, _ => rfl
  | .array (item :: items), stack, _, rest => by
      rw [tokens, List.append_assoc]
      exact (run?_cons rfl _).trans
        (run?_itemTokens (item :: items) (List.cons_ne_nil item items) [] stack true rest)
  | .object [], _, _, _ => rfl
  | .object (member :: members), stack, _, rest => by
      rw [tokens, List.append_assoc]
      exact (run?_cons rfl _).trans
        (run?_memberTokens (member :: members) (List.cons_ne_nil member members) [] stack true rest)

/-- Items go on top of those that are done, so these stand in reverse until the end. -/
theorem run?_itemTokens : ∀ items : List Json, items ≠ [] → ∀ (done : List Json)
    (stack : List Frame) (opened : Bool) (rest : List Token),
    (needValue (.array done :: stack) opened).run?
        (itemTokens items ++ ([.mark .closeBracket] ++ rest)) =
      (needEnd stack (.array (done.reverse ++ items))).run? rest
  | [], hSome => absurd rfl hSome
  | [item], _ => fun done stack opened rest => by
      rw [itemTokens, run?_tokens item]
      refine (run?_cons rfl rest).trans ?_
      rw [List.reverse_cons]
  | item :: next :: items, _ => fun done stack opened rest => by
      rw [itemTokens, List.append_assoc, List.cons_append, run?_tokens item]
      refine (run?_cons rfl _).trans ?_
      rw [run?_itemTokens (next :: items) (List.cons_ne_nil next items) (item :: done),
        List.reverse_cons, List.append_assoc]
      rfl

/-- The members of an object are read to their end, behind those that are done. -/
theorem run?_memberTokens : ∀ members : List (Content × Json), members ≠ [] →
    ∀ (done : List (Content × Json)) (stack : List Frame) (opened : Bool) (rest : List Token),
    (needKey stack done opened).run?
        (memberTokens members ++ ([.mark .closeBrace] ++ rest)) =
      (needEnd stack (.object (done.reverse ++ members))).run? rest
  | [], hSome => absurd rfl hSome
  | [(key, value)], _ => fun done stack opened rest => by
      rw [memberTokens, List.cons_append, List.cons_append]
      refine (run?_cons rfl _).trans ((run?_cons rfl _).trans ?_)
      rw [run?_tokens value]
      refine (run?_cons rfl rest).trans ?_
      rw [List.reverse_cons]
  | (key, value) :: next :: members, _ => fun done stack opened rest => by
      rw [memberTokens, List.append_assoc, List.cons_append, List.cons_append, List.cons_append]
      refine (run?_cons rfl _).trans ((run?_cons rfl _).trans ?_)
      rw [run?_tokens value]
      refine (run?_cons rfl _).trans ?_
      rw [run?_memberTokens (next :: members) (List.cons_ne_nil next members)
        ((key, value) :: done), List.reverse_cons, List.append_assoc]
      rfl

end

end Reader

/-- Every value is read back from its text. -/
theorem ofText?_render (value : Json) : ofText? value.render = some value := by
  have hTokens : scan? 0 value.chars = some value.tokens := scan?_flatMap_chars (apart_tokens value)
  have hRun : (Reader.needValue [] false).run? value.tokens = some (.needEnd [] value) := by
    simpa using Reader.run?_tokens value [] false []
  rw [ofText?, render, String.toList_ofList, ofChars?, hTokens]
  simp [hRun, Reader.result?]

end TapeCutter.Json
