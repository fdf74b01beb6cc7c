/- Text between double quotes: as a JSON string, and as shown in messages. -/
import Stencil.Text.Basic
import Stencil.Unicode.Display

namespace Stencil.Text

def hex (n : Nat) : Text := Nat.toDigits 16 n

/-- JSON escapes quotes, backslashes and the controls below the space, and nothing else. -/
def jsonChar (c : Char) : Text :=
  match c with
  | '"' => ['\\', '"']
  | '\\' => ['\\', '\\']
  | '\n' => ['\\', 'n']
  | '\r' => ['\\', 'r']
  | '\t' => ['\\', 't']
  | '\x08' => ['\\', 'b']
  | '\x0c' => ['\\', 'f']
  | c => if c.toNat < 0x20 then ['\\', 'u'] ++ padLeft 4 '0' (hex c.toNat) else [c]

def json (t : Text) : Text := '"' :: t.flatMap jsonChar ++ ['"']

/-- In messages every character that does not show on its own is written as its code point. -/
def shownChar (c : Char) : Text :=
  match c with
  | '"' => ['\\', '"']
  | '\\' => ['\\', '\\']
  | '\x00' => ['\\', '0']
  | '\n' => ['\\', 'n']
  | '\r' => ['\\', 'r']
  | '\t' => ['\\', 't']
  | c => if Unicode.isVisible c then [c] else ['\\', 'u', '\x7b'] ++ hex c.toNat ++ ['\x7d']

def shown (t : Text) : Text := '"' :: t.flatMap shownChar ++ ['"']

end Stencil.Text
