import ImportTrail.Text.CharClass

/-!
Texts in quotes, for messages and for the listing of settings. A quote and a backslash are
escaped, the usual control characters have their letter, and what has no shape is written by its
code point in small hexadecimal digits between braces.
-/

namespace ImportTrail.Text

/-- The code point of a character without leading zeros, as `\u` and braces. -/
def byNumber (c : Char) : Text :=
  "\\u\x7b".toList ++ Nat.toDigits 16 c.toNat ++ "\x7d".toList

/-- A character inside quotes of the kind `quote`. -/
def escape (quote c : Char) : Text :=
  if c = quote ∨ c = '\\' then ['\\', c]
  else if c = '\n' then ['\\', 'n']
  else if c = '\r' then ['\\', 'r']
  else if c = '\t' then ['\\', 't']
  else if c = '\x00' then ['\\', '0']
  else if isShapeless c then byNumber c
  else [c]

/-- A text in double quotes. -/
def quoted (s : Text) : Text := ['"'] ++ s.flatMap (escape '"') ++ ['"']

/-- A character in single quotes. -/
def quotedChar (c : Char) : Text := ['\''] ++ escape '\'' c ++ ['\'']

/-- A list of quoted texts between brackets. -/
def quotedList (l : List Text) : Text :=
  ['['] ++ joinWith [',', ' '] (l.map quoted) ++ [']']

end ImportTrail.Text
