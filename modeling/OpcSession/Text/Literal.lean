import OpcSession.Text.Digits
import OpcSession.Text.Standalone

/-!
# Quoted literals

A text is shown in double quotes.  The quote and the backslash are
escaped, tab, line feed, carriage return and the null character have
letters, and other characters that cannot be shown alone are given by
their number in braces.
-/

namespace OpcSession.Text

/-- The hexadecimal digits of a number, without leading zeros, as a character
is named by its number. -/
def hexNumber (n : Nat) : List Char :=
  if n < 16 then [hexDigit n] else hexNumber (n / 16) ++ [hexDigit (n % 16)]

/-- A character given by its number, between braces. -/
def byNumber (c : Char) : List Char :=
  ['\\', 'u', '\x7b'] ++ hexNumber c.toNat ++ ['\x7d']

/-- How a character stands in a quoted literal: by itself, by a letter, or by
its number where it cannot be seen. -/
def literalChar (c : Char) : List Char :=
  if c = '"' then ['\\', '"']
  else if c = '\\' then ['\\', '\\']
  else if c = '\t' then ['\\', 't']
  else if c = '\n' then ['\\', 'n']
  else if c = '\r' then ['\\', 'r']
  else if c.toNat = 0 then ['\\', '0']
  else if standsAlone c then [c]
  else byNumber c

/-- A text in quotes, as it is shown in logs. -/
def literal (s : String) : String :=
  "\"" ++ String.ofList (s.toList.flatMap literalChar) ++ "\""

end OpcSession.Text
