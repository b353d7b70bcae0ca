import Switchboard.Json.Token

namespace Switchboard.Json

mutual

def value : Nat → List Token → Option (Json × List Token)
  | 0, _ => none
  | fuel + 1, tokens =>
    match tokens with
    | .null :: rest => some (.null, rest)
    | .bool b :: rest => some (.bool b, rest)
    | .integer z :: rest => some (.integer z, rest)
    | .decimal :: rest => some (.decimal, rest)
    | .text s :: rest => some (.text s, rest)
    | .openArray :: .closeArray :: rest => some (.array [], rest)
    | .openArray :: rest => (items fuel rest).map fun (xs, after) => (.array xs, after)
    | .openObject :: .closeObject :: rest => some (.object [], rest)
    | .openObject :: rest => (members fuel rest).map fun (ms, after) => (.object ms, after)
    | _ => none

def items : Nat → List Token → Option (List Json × List Token)
  | 0, _ => none
  | fuel + 1, tokens =>
    match value fuel tokens with
    | some (x, .comma :: rest) => (items fuel rest).map fun (xs, after) => (x :: xs, after)
    | some (x, .closeArray :: rest) => some ([x], rest)
    | _ => none

def members : Nat → List Token → Option (List (Option String × Json) × List Token)
  | 0, _ => none
  | fuel + 1, tokens =>
    match tokens with
    | .text name :: .colon :: rest =>
      match value fuel rest with
      | some (x, .comma :: rest) =>
          (members fuel rest).map fun (ms, after) => ((name, x) :: ms, after)
      | some (x, .closeObject :: rest) => some ([(name, x)], rest)
      | _ => none
    | _ => none

end

def ofTokens (tokens : List Token) : Option Json :=
  match value (2 * tokens.length) tokens with
  | some (j, []) => some j
  | _ => none

def read (s : String) : Option Json := (Token.ofText s.toList).bind ofTokens

end Switchboard.Json
