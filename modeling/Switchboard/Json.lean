namespace Switchboard

inductive Json
  | null
  | bool (b : Bool)
  | integer (z : Int)
  | decimal
  | text (s : Option String)
  | array (items : List Json)
  | object (members : List (Option String × Json))
deriving Inhabited

namespace Json

def str (s : String) : Json := .text (some s)

def nat (n : Nat) : Json := .integer n

def optional : Option String → Json
  | some s => str s
  | none => null

def record (members : List (String × Json)) : Json :=
  .object (members.map fun (name, j) => (some name, j))

def bool? : Json → Option Bool
  | .bool b => some b
  | _ => none

def integer? : Json → Option Int
  | .integer z => some z
  | _ => none

def text? : Json → Option String
  | .text s => s
  | _ => none

/-- The values that an object holds under the given names. Other names are passed over; a name
given twice, or one that is no text, spoils the object. -/
def membersNamed (names : List String) (members : List (Option String × Json)) :
    Option (List (Option Json)) :=
  if members.all (·.1.isSome) then
    names.mapM fun name =>
      match members.filter (·.1 = some name) with
      | [] => some none
      | [(_, j)] => some (some j)
      | _ => none
  else none

/-- A record is an object with the fields by name or an array with the fields in order; an array
may stop early. -/
def fields (names : List String) : Json → Option (List (Option Json))
  | .object members => membersNamed names members
  | .array items =>
    if items.length ≤ names.length then
      some (items.map some ++ List.replicate (names.length - items.length) none)
    else none
  | _ => none

end Json
end Switchboard
