import OpcSession.Json.Basic
import OpcSession.Text.Digits

/-!
# Writing JSON

A value is written without any white space.  In a quoted text the quote,
the backslash and the characters below the space are escaped, the latter
by a letter where there is one and by four lower-case hexadecimal digits
otherwise; everything else stands for itself.
-/

namespace OpcSession.Json

/-- The escape of one character.  A quote, a backslash and control characters
need one; the other characters stand for themselves. -/
def escaped (c : Char) : List Char :=
  if c = '"' then ['\\', '"']
  else if c = '\\' then ['\\', '\\']
  else if c.toNat = 8 then ['\\', 'b']
  else if c.toNat = 12 then ['\\', 'f']
  else if c.toNat = 10 then ['\\', 'n']
  else if c.toNat = 13 then ['\\', 'r']
  else if c.toNat = 9 then ['\\', 't']
  else if c.toNat < 32 then
    ['\\', 'u', '0', '0', Text.hexDigit (c.toNat / 16), Text.hexDigit (c.toNat % 16)]
  else [c]

/-- A quoted text, up to and with the closing quote, one escape after the
other. -/
def escapedText : List Char → List Char
  | [] => ['"']
  | c :: rest => escaped c ++ escapedText rest

/-- A text in quotes.  Texts that could not be read are never written; here
they count as empty. -/
def quoted (s : Quoted) : List Char := '"' :: escapedText (s.getD "").toList

mutual

/-- The characters of a value, without white space anywhere. -/
def chars : Json → List Char
  | .null => ['n', 'u', 'l', 'l']
  | .bool true => ['t', 'r', 'u', 'e']
  | .bool false => ['f', 'a', 'l', 's', 'e']
  | .num literal => literal.toList
  | .str s => quoted s
  | .arr [] => ['[', ']']
  | .arr (x :: xs) => '[' :: chars x ++ charsItems xs
  | .obj [] => ['{', '}']
  | .obj ((name, x) :: xs) => '{' :: quoted name ++ ':' :: chars x ++ charsMembers xs

/-- The items after the first one, and the closing bracket, with a comma in
front of each. -/
def charsItems : List Json → List Char
  | [] => [']']
  | x :: xs => ',' :: chars x ++ charsItems xs

/-- The members after the first one, and the closing brace, with a comma in
front of each. -/
def charsMembers : List (Quoted × Json) → List Char
  | [] => ['}']
  | (name, x) :: xs => ',' :: quoted name ++ ':' :: chars x ++ charsMembers xs

end

/-- The text of a value, as it goes over the wire. -/
def render (j : Json) : String := String.ofList j.chars

end OpcSession.Json
