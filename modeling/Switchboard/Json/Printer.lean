import Switchboard.Json
import Switchboard.Text

namespace Switchboard.Json

def literalChar : Char → List Char
  | '"' => ['\\', '"']
  | '\\' => ['\\', '\\']
  | '\x08' => ['\\', 'b']
  | '\x0c' => ['\\', 'f']
  | '\n' => ['\\', 'n']
  | '\r' => ['\\', 'r']
  | '\t' => ['\\', 't']
  | c => if c < ' ' then ['\\', 'u'] ++ (Text.hexPadded 4 c.toNat).toList else [c]

def literalOf (s : String) : List Char := '"' :: s.toList.flatMap literalChar ++ ['"']

def textLiteral : Option String → List Char
  | some s => literalOf s
  | none => "\"\\ud800\"".toList

def integerDigits : Int → List Char
  | .ofNat n => Nat.toDigits 10 n
  | .negSucc n => '-' :: Nat.toDigits 10 (n + 1)

def line (depth : Nat) : List Char := '\n' :: List.replicate (2 * depth) ' '

mutual

def pretty (depth : Nat) : Json → List Char
  | .null => "null".toList
  | .bool b => (if b then "true" else "false").toList
  | .integer z => integerDigits z
  | .decimal => "0.0".toList
  | .text s => textLiteral s
  | .array [] => "[]".toList
  | .array (x :: xs) =>
    '[' :: line (depth + 1) ++ pretty (depth + 1) x ++ prettyItems (depth + 1) xs ++
      line depth ++ [']']
  | .object [] => "\x7b\x7d".toList
  | .object (m :: ms) =>
    '\x7b' :: line (depth + 1) ++ prettyMember (depth + 1) m ++ prettyMembers (depth + 1) ms ++
      line depth ++ ['\x7d']

def prettyItems (depth : Nat) : List Json → List Char
  | [] => []
  | x :: xs => ',' :: line depth ++ pretty depth x ++ prettyItems depth xs

def prettyMember (depth : Nat) : Option String × Json → List Char
  | (name, x) => textLiteral name ++ [':', ' '] ++ pretty depth x

def prettyMembers (depth : Nat) : List (Option String × Json) → List Char
  | [] => []
  | m :: ms => ',' :: line depth ++ prettyMember depth m ++ prettyMembers depth ms

end

def write (j : Json) : String := String.ofList (pretty 0 j)

end Switchboard.Json
