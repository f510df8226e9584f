import BuildPanel.Text.Visible

/-!
A text in quotes as messages show it: quotes, backslashes and the usual controls are escaped, and a
character without a glyph of its own is shown by its number in braces.
-/

namespace BuildPanel.Text

def numbered (c : Char) : List Char :=
  ['\\', 'u', '\x7b'] ++ Nat.toDigits 16 c.toNat ++ ['\x7d']

def quotedChar (c : Char) : List Char :=
  if c = '\x00' then ['\\', '0']
  else if c = '\t' then ['\\', 't']
  else if c = '\r' then ['\\', 'r']
  else if c = '\n' then ['\\', 'n']
  else if c = '\\' ∨ c = '"' then ['\\', c]
  else if isVisible c then [c]
  else numbered c

def quoted (text : List Char) : List Char :=
  '"' :: text.flatMap quotedChar ++ ['"']

end BuildPanel.Text
