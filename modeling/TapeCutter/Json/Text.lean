import TapeCutter.Json.Token

/-! JSON text, strict in reading and compact in writing. The reader walks the
tokens once and keeps the open containers on a stack, so nesting is unlimited. -/
namespace TapeCutter.Json

/-- A container that waits for its next value: an array with the items read so
far, or an object with the members read so far and the key of the next. Both
lists run backwards. -/
inductive Frame where
  | array (items : List Json)
  | object (members : List (Content × Json)) (key : Content)

/-- What the reader waits for. -/
inductive Reader where
  /-- A value. An array that was just opened may close instead. -/
  | needValue (stack : List Frame) (opened : Bool)
  /-- A key. An object that was just opened may close instead. -/
  | needKey (stack : List Frame) (members : List (Content × Json)) (opened : Bool)
  | needColon (stack : List Frame) (members : List (Content × Json)) (key : Content)
  /-- The comma or the end behind a finished value. -/
  | needEnd (stack : List Frame) (value : Json)

def Reader.step? : Reader → Token → Option Reader
  | .needValue stack _, .scalar value => some (.needEnd stack (.scalar value))
  | .needValue stack _, .mark .openBracket => some (.needValue (.array [] :: stack) true)
  | .needValue stack _, .mark .openBrace => some (.needKey stack [] true)
  | .needValue (.array items :: stack) true, .mark .closeBracket =>
      some (.needEnd stack (.array items.reverse))
  | .needKey stack members _, .scalar (.text key) => some (.needColon stack members key)
  | .needKey stack members true, .mark .closeBrace =>
      some (.needEnd stack (.object members.reverse))
  | .needColon stack members key, .mark .colon =>
      some (.needValue (.object members key :: stack) false)
  | .needEnd (.array items :: stack) value, .mark .comma =>
      some (.needValue (.array (value :: items) :: stack) false)
  | .needEnd (.array items :: stack) value, .mark .closeBracket =>
      some (.needEnd stack (.array (value :: items).reverse))
  | .needEnd (.object members key :: stack) value, .mark .comma =>
      some (.needKey stack ((key, value) :: members) false)
  | .needEnd (.object members key :: stack) value, .mark .closeBrace =>
      some (.needEnd stack (.object ((key, value) :: members).reverse))
  | _, _ => none

/-- The state after all the tokens, unless one of them does not fit. -/
def Reader.run? : Reader → List Token → Option Reader
  | reader, [] => some reader
  | reader, token :: rest =>
      match reader.step? token with
      | some next => next.run? rest
      | none => none

/-- The value, once nothing is open. -/
def Reader.result? : Reader → Option Json
  | .needEnd [] value => some value
  | _ => none

/-- The one value a text holds. Nothing but blanks may stand around it. -/
def ofChars? (cs : List Char) : Option Json := do
  let tokens ← scan? 0 cs
  let reader ← (Reader.needValue [] false).run? tokens
  reader.result?

def ofText? (s : String) : Option Json := ofChars? s.toList

mutual

/-- The tokens of a value, in order. -/
def tokens : Json → List Token
  | .scalar value => [.scalar value]
  | .array items => .mark .openBracket :: itemTokens items ++ [.mark .closeBracket]
  | .object members => .mark .openBrace :: memberTokens members ++ [.mark .closeBrace]

def itemTokens : List Json → List Token
  | [] => []
  | [item] => item.tokens
  | item :: next :: rest => item.tokens ++ .mark .comma :: itemTokens (next :: rest)

def memberTokens : List (Content × Json) → List Token
  | [] => []
  | [(key, value)] => .scalar (.text key) :: .mark .colon :: value.tokens
  | (key, value) :: next :: rest =>
      .scalar (.text key) :: .mark .colon :: value.tokens ++
        .mark .comma :: memberTokens (next :: rest)

end

/-- The compact written form, without blanks. -/
def chars (value : Json) : List Char := value.tokens.flatMap Token.chars

def render (value : Json) : String := String.ofList value.chars

end TapeCutter.Json
