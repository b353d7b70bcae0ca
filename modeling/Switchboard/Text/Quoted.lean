import Switchboard.Text
import Switchboard.Text.Escaped

namespace Switchboard.Text

/-- One character of a quoted text. Marks, line ends and tabs have a short escape; what is not
printable, or joins with the character before it, is written by its number. -/
def quotedChar : Char → List Char
  | '\x00' => ['\\', '0']
  | '\t' => ['\\', 't']
  | '\r' => ['\\', 'r']
  | '\n' => ['\\', 'n']
  | '\\' => ['\\', '\\']
  | '"' => ['\\', '"']
  | c =>
    if isEscaped c then ['\\', 'u', '\x7b'] ++ Nat.toDigits 16 c.toNat ++ ['\x7d'] else [c]

def quoted (s : String) : String := String.ofList ('"' :: s.toList.flatMap quotedChar ++ ['"'])

end Switchboard.Text
