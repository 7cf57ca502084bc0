/-
Text between quotation marks.

`encode` writes a text so that it reads as one token on one line: a quotation mark and a
backslash get a backslash in front, the usual control characters their letter, and every
other control character its code in hexadecimal.  An apostrophe stays as it is.  The form
is meant for text in ASCII; characters beyond it are passed through.
-/

namespace PageArena

namespace Text

/-- One character as it stands between quotation marks. -/
def escape (c : Char) : List Char :=
  match c with
  | '"' => ['\\', '"']
  | '\\' => ['\\', '\\']
  | '\n' => ['\\', 'n']
  | '\r' => ['\\', 'r']
  | '\t' => ['\\', 't']
  | c =>
    if c.toNat = 0 then ['\\', '0']
    else if c.toNat < 32 ∨ c.toNat = 127 then
      ['\\', 'u', '\x7b'] ++ Nat.toDigits 16 c.toNat ++ ['\x7d']
    else [c]

/-- The text between quotation marks, with the characters that would break it escaped. -/
def quoted (text : String) : String :=
  String.ofList ('"' :: text.toList.flatMap escape ++ ['"'])

end Text

end PageArena
