import Switchboard.Json

namespace Switchboard.Json

inductive Token
  | openArray
  | closeArray
  | openObject
  | closeObject
  | comma
  | colon
  | null
  | bool (b : Bool)
  | integer (z : Int)
  | decimal
  | text (s : Option String)
deriving DecidableEq, Inhabited

/-- A piece of a text literal: a character, or half of a surrogate pair. -/
inductive Piece
  | char (c : Char)
  | high (n : Nat)
  | low (n : Nat)
deriving DecidableEq, Inhabited

namespace Piece

def ofCode (n : Nat) : Piece :=
  if 0xD800 ≤ n ∧ n < 0xDC00 then .high (n - 0xD800)
  else if 0xDC00 ≤ n ∧ n < 0xE000 then .low (n - 0xDC00)
  else .char (Char.ofNat n)

def join : List Piece → Option (List Char)
  | [] => some []
  | .char c :: rest => (join rest).map (c :: ·)
  | .high h :: .low l :: rest => (join rest).map (Char.ofNat (0x10000 + h * 0x400 + l) :: ·)
  | _ => none

end Piece

namespace Token

def hexDigit? (c : Char) : Option Nat :=
  if '0' ≤ c ∧ c ≤ '9' then some (c.toNat - '0'.toNat)
  else if 'a' ≤ c ∧ c ≤ 'f' then some (c.toNat - 'a'.toNat + 10)
  else if 'A' ≤ c ∧ c ≤ 'F' then some (c.toNat - 'A'.toNat + 10)
  else none

def hexWord? (a b c d : Char) : Option Nat := do
  let a ← hexDigit? a
  let b ← hexDigit? b
  let c ← hexDigit? c
  let d ← hexDigit? d
  some (((a * 16 + b) * 16 + c) * 16 + d)

def escape? : Char → Option Char
  | '"' => some '"'
  | '\\' => some '\\'
  | '/' => some '/'
  | 'b' => some '\x08'
  | 'f' => some '\x0c'
  | 'n' => some '\n'
  | 'r' => some '\r'
  | 't' => some '\t'
  | _ => none

/-- A literal after its opening quote: its pieces, and the text after the closing quote. Control
characters must be escaped. -/
def literal : List Char → Option (List Piece × List Char)
  | [] => none
  | '"' :: rest => some ([], rest)
  | '\\' :: 'u' :: a :: b :: c :: d :: rest =>
    match hexWord? a b c d with
    | some n => (literal rest).map fun (pieces, after) => (Piece.ofCode n :: pieces, after)
    | none => none
  | '\\' :: e :: rest =>
    match escape? e with
    | some c => (literal rest).map fun (pieces, after) => (.char c :: pieces, after)
    | none => none
  | c :: rest =>
    if c < ' ' then none
    else (literal rest).map fun (pieces, after) => (.char c :: pieces, after)

def natOfDigits (digits : List Char) : Nat :=
  digits.foldl (fun n c => n * 10 + (c.toNat - '0'.toNat)) 0

def digits? (cs : List Char) : Option (List Char × List Char) :=
  match cs.span Char.isDigit with
  | ([], _) => none
  | (ds, rest) => some (ds, rest)

def fraction? : List Char → Option (Bool × List Char)
  | '.' :: cs => (digits? cs).map fun (_, rest) => (true, rest)
  | cs => some (false, cs)

def afterSign : List Char → List Char
  | '+' :: cs | '-' :: cs => cs
  | cs => cs

def exponent? : List Char → Option (Bool × List Char)
  | 'e' :: cs | 'E' :: cs => (digits? (afterSign cs)).map fun (_, rest) => (true, rest)
  | cs => some (false, cs)

/-- A number without its sign. No digit follows a zero at its start, and minus zero is no integer.
-/
def unsigned (negative : Bool) (cs : List Char) : Option (Token × List Char) := do
  let (whole, rest) ← digits? cs
  if whole.head? = some '0' ∧ whole.length ≠ 1 then none
  let (hasFraction, rest) ← fraction? rest
  let (hasExponent, rest) ← exponent? rest
  let n := natOfDigits whole
  if hasFraction || hasExponent || (negative && n = 0) then some (.decimal, rest)
  else some (.integer (if negative then -(n : Int) else n), rest)

def number : List Char → Option (Token × List Char)
  | '-' :: cs => unsigned true cs
  | cs => unsigned false cs

def first? : List Char → Option (Token × List Char)
  | '[' :: rest => some (.openArray, rest)
  | ']' :: rest => some (.closeArray, rest)
  | '\x7b' :: rest => some (.openObject, rest)
  | '\x7d' :: rest => some (.closeObject, rest)
  | ',' :: rest => some (.comma, rest)
  | ':' :: rest => some (.colon, rest)
  | 'n' :: 'u' :: 'l' :: 'l' :: rest => some (.null, rest)
  | 't' :: 'r' :: 'u' :: 'e' :: rest => some (.bool true, rest)
  | 'f' :: 'a' :: 'l' :: 's' :: 'e' :: rest => some (.bool false, rest)
  | '"' :: rest =>
    (literal rest).map fun (pieces, after) => (.text ((Piece.join pieces).map String.ofList), after)
  | cs => number cs

def isBlank (c : Char) : Bool := c = ' ' || c = '\t' || c = '\n' || c = '\r'

def scan : Nat → List Char → Option (List Token)
  | _, [] => some []
  | 0, _ => none
  | fuel + 1, c :: cs =>
    if isBlank c then scan fuel cs
    else
      match first? (c :: cs) with
      | some (t, rest) => (scan fuel rest).map (t :: ·)
      | none => none

def ofText (cs : List Char) : Option (List Token) := scan cs.length cs

end Token
end Switchboard.Json
