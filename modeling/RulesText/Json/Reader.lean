import RulesText.Json.Lexeme

/-!
# Reading JSON

A JSON text is one value with nothing but blanks around it.
-/

namespace RulesText.Json

mutual

/-- The value at the start of `lexemes`, and what follows it. -/
def readValue? : (fuel : Nat) → (lexemes : List Lexeme) → Option (Json × List Lexeme)
  | 0, _ => none
  | fuel + 1, lexemes =>
    match lexemes with
    | .null :: rest => some (null, rest)
    | .bool value :: rest => some (bool value, rest)
    | .number written :: rest => some (number written, rest)
    | .string written :: rest => some (string written, rest)
    | .openArray :: .closeArray :: rest => some (array [], rest)
    | .openArray :: rest => (readItems? fuel rest).map fun (items, rest) => (array items, rest)
    | .openObject :: .closeObject :: rest => some (object [], rest)
    | .openObject :: rest =>
      (readMembers? fuel rest).map fun (members, rest) => (object members, rest)
    | _ => none

/-- One item or more, up to the end of their array. -/
def readItems? : (fuel : Nat) → (lexemes : List Lexeme) → Option (List Json × List Lexeme)
  | 0, _ => none
  | fuel + 1, lexemes =>
    match readValue? fuel lexemes with
    | some (item, .closeArray :: rest) => some ([item], rest)
    | some (item, .comma :: rest) =>
      (readItems? fuel rest).map fun (items, rest) => (item :: items, rest)
    | _ => none

/-- One member or more, up to the end of their object. -/
def readMembers? : (fuel : Nat) → (lexemes : List Lexeme) →
    Option (List (Text × Json) × List Lexeme)
  | 0, _ => none
  | fuel + 1, lexemes =>
    match lexemes with
    | .string key :: .colon :: rest =>
      match readValue? fuel rest with
      | some (value, .closeObject :: rest) => some ([(key, value)], rest)
      | some (value, .comma :: rest) =>
        (readMembers? fuel rest).map fun (members, rest) => ((key, value) :: members, rest)
      | _ => none
    | _ => none

end

/-- The value of a JSON text. Every call of a reader but the first takes place after a lexeme
has been taken or directly inside the call for a value, so twice as many calls as there are
lexemes are enough. -/
def parse? (t : Text) : Option Json := do
  let lexemes ← lexemes? t
  match readValue? (2 * lexemes.length + 1) lexemes with
  | some (value, []) => some value
  | _ => none

end RulesText.Json
