/-!
# Digits: numbers as text

Decimal text is written without leading zeros and read with them.  A
reader of *unsigned* text takes one optional plus sign and then nothing
but decimal digits; it answers `none` for the empty text and for a lone
sign.  Bytes are written as pairs of lower-case hexadecimal digits.

* `unsigned?` reads what `decimal` writes;
* `hexValue?` reads what `hexDigit` writes, and upper case too.
-/

namespace OpcSession.Text

/-- The decimal digit for a number below ten; of larger numbers nothing is
said. -/
def digitChar (d : Nat) : Char := Char.ofNat (48 + d)

/-- The value of a decimal digit, of which there are ten: digits of other
scripts are none. -/
def digit? (c : Char) : Option Nat :=
  if '0' ≤ c ∧ c ≤ '9' then some (c.toNat - 48) else none

/-- The decimal text of a number, without leading zeros; zero is written with
one digit. -/
def decimal (n : Nat) : List Char :=
  if n < 10 then [digitChar n] else decimal (n / 10) ++ [digitChar (n % 10)]

/-- The decimal text of an integer: a minus sign where it is negative. -/
def decimalInt : Int → List Char
  | .ofNat n => decimal n
  | .negSucc n => '-' :: decimal (n + 1)

/-- Continues reading digits after those that made `acc`, to the end of the
text. -/
def digitsFrom (acc : Nat) : List Char → Option Nat
  | [] => some acc
  | c :: rest => (digit? c).bind fun d => digitsFrom (10 * acc + d) rest

/-- Reads one or more decimal digits and nothing else; leading zeros are
allowed. -/
def natural? : List Char → Option Nat
  | [] => none
  | c :: rest => digitsFrom 0 (c :: rest)

/-- Reads a number with one optional plus sign in front, as numbers without a
sign are read everywhere. -/
def unsigned? : List Char → Option Nat
  | '+' :: rest => natural? rest
  | cs => natural? cs

/-- Reads an unsigned number of at most `limit`, which is the largest of its
type. -/
def bounded? (limit : Nat) (cs : List Char) : Option Nat :=
  (unsigned? cs).filter (· ≤ limit)

/-- The lower-case hexadecimal digit for a number below sixteen; of larger
numbers nothing is said. -/
def hexDigit (d : Nat) : Char :=
  if d < 10 then Char.ofNat (48 + d) else Char.ofNat (87 + d)

/-- The value of a hexadecimal digit of either case, if the character is
one. -/
def hexValue? (c : Char) : Option Nat :=
  if '0' ≤ c ∧ c ≤ '9' then some (c.toNat - 48)
  else if 'a' ≤ c ∧ c ≤ 'f' then some (c.toNat - 87)
  else if 'A' ≤ c ∧ c ≤ 'F' then some (c.toNat - 55)
  else none

/-- One byte as two hexadecimal digits, the high one first. -/
def hexByte (b : UInt8) : List Char :=
  [hexDigit (b.toNat / 16), hexDigit (b.toNat % 16)]

/-- Bytes as hexadecimal text, two digits each, without anything between
them. -/
def hex (bytes : List UInt8) : List Char := bytes.flatMap hexByte

/-- Reads pairs of hexadecimal digits, without a sign in front of any, to the
end of the text. -/
def unhex? : List Char → Option (List UInt8)
  | [] => some []
  | [_] => none
  | a :: b :: rest => do
      let high ← hexValue? a
      let low ← hexValue? b
      return UInt8.ofNat (16 * high + low) :: (← unhex? rest)

/-- The upper-case hexadecimal text of a number in exactly `width` digits;
what does not fit is dropped. -/
def hexUpper : (width : Nat) → Nat → List Char
  | 0, _ => []
  | width + 1, n => hexUpper width (n / 16) ++ [(hexDigit (n % 16)).toUpper]

end OpcSession.Text
