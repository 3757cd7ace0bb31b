/-!
Texts in double quotes, as listings show them.

A backslash and a double quote are written behind a backslash, and a line feed, a carriage return
and a tab as `\n`, `\r` and `\t`. Every other character stands for itself.
-/

namespace XuleLang

/-- The character inside a quoted text. -/
def quotedChar (c : Char) : List Char :=
  match c with
  | '\\' => ['\\', '\\']
  | '"' => ['\\', '"']
  | '\n' => ['\\', 'n']
  | '\r' => ['\\', 'r']
  | '\t' => ['\\', 't']
  | c => [c]

/-- The text between double quotes. -/
def quoted (text : String) : String :=
  String.ofList ('"' :: (text.toList.flatMap quotedChar ++ ['"']))

end XuleLang
