import XPathQuery.Character.Printable

/-!
Quoted text for messages. The text stands in double quotes; quotes, backslashes
and the usual control characters are escaped with a backslash, and every other
character that would not show is written by its code point.
-/
namespace XPathQuery.Text

open Character

def codePointEscape (c : Char) : List Char :=
  '\\' :: 'u' :: '\x7b' :: Nat.toDigits 16 c.toNat ++ ['\x7d']

def quotedChar (c : Char) : List Char :=
  match c with
  | '"' => ['\\', '"']
  | '\\' => ['\\', '\\']
  | '\n' => ['\\', 'n']
  | '\r' => ['\\', 'r']
  | '\t' => ['\\', 't']
  | '\x00' => ['\\', '0']
  | _ => if isPrintable c && !extendsGrapheme c then [c] else codePointEscape c

def quoted (cs : List Char) : List Char := '"' :: cs.flatMap quotedChar ++ ['"']

end XPathQuery.Text
