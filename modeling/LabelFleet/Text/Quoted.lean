import LabelFleet.Number.Hex
import LabelFleet.Text.Hidden

/-! Quoting a text for a message: in double quotes, with a backslash before a quote or a backslash,
letters for the common control characters, and the number of any other character that does not
show. -/
namespace LabelFleet.Text

def quoteChar (c : Char) : List Char :=
  match c with
  | '"' => ['\\', '"']
  | '\\' => ['\\', '\\']
  | '\t' => ['\\', 't']
  | '\r' => ['\\', 'r']
  | '\n' => ['\\', 'n']
  | '\x00' => ['\\', '0']
  | c => if isHidden c then "\\u\x7b".toList ++ Hex.ofNat c.toNat ++ ['\x7d'] else [c]

def quoted (s : List Char) : String := String.ofList ('"' :: s.flatMap quoteChar ++ ['"'])

end LabelFleet.Text
