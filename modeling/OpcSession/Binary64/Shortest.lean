import OpcSession.Binary64.Basic
import OpcSession.Text.Digits

/-!
# The shortest decimal that reads back

Among all decimals that round to a given double, the text of the double
uses one with the fewest digits, and of those the nearest.  If a grid of
decimals has a point that reads back, then one of the two neighbours of
the value on that grid does; so it is enough to try, for one digit, two
digits and so on, the neighbour below and the neighbour above.

The digits are then laid out in one of two ways: *plain* text never has
an exponent, *scientific* text has one where the number is very large or
very small.
-/

namespace OpcSession.Binary64

/-- A positive decimal `coefficient * 10 ^ exponent`; one number has many such
forms. -/
structure Decimal where
  coefficient : Nat
  /-- The power of ten that they are multiplied by. -/
  exponent : Int
deriving DecidableEq, Repr, Inhabited

/-- Which of two equally near decimals is taken: printers differ in this, and
a double has a text by each of them. -/
inductive Tie
  | toEven
  | up
deriving DecidableEq, Repr

/-- The decimal exponent of the first digit of `num / den`, which says where
the digits of a number begin. -/
def leadingExponent (num den : Nat) : Int :=
  if den ≤ num then (decimalLength (num / den) : Int) - 1
  else -(decimalLength ((den + num - 1) / num - 1) : Int)

/-- The quotient `num / den` in units of `10 ^ exponent`, as a quotient again,
so that nothing is rounded yet. -/
def inUnits (num den : Nat) : Int → Nat × Nat
  | .ofNat e => (num, den * Nat.pow 10 e)
  | .negSucc e => (num * Nat.pow 10 (e + 1), den)

/-- Whether a decimal rounds to the magnitude `word`, so that whoever reads it
gets the number back. -/
def readsBack (word : Nat) (d : Decimal) : Bool :=
  match d.exponent with
  | .ofNat e => roundWord (d.coefficient * Nat.pow 10 e) 1 = word
  | .negSucc e => roundWord d.coefficient (Nat.pow 10 (e + 1)) = word

/-- The better neighbour of a magnitude on the grid of `digits` digits, if one
of the two reads back. -/
def onGrid (tie : Tie) (word digits : Nat) : Option Decimal :=
  let (num, den) := quotient word
  let unit := leadingExponent num den - (digits : Int) + 1
  let (n, d) := inUnits num den unit
  let below : Decimal := ⟨n / d, unit⟩
  let above : Decimal := ⟨n / d + 1, unit⟩
  let twice := 2 * (n % d)
  let takeAbove : Bool := match tie with
    | .toEven => d < twice ∨ (d = twice ∧ (n / d) % 2 = 1)
    | .up => d ≤ twice
  match readsBack word below, readsBack word above with
  | true, true => some (if takeAbove then above else below)
  | true, false => some below
  | false, true => some above
  | false, false => none

/-- The exact decimal of a magnitude: every binary fraction is a decimal one,
if with many digits. -/
def exact (word : Nat) : Decimal :=
  match parts word with
  | (m, .ofNat q) => ⟨m * Nat.pow 2 q, 0⟩
  | (m, .negSucc q) => ⟨m * Nat.pow 5 (q + 1), .negSucc q⟩

/-- Drops the zeros at the end of a coefficient and raises the exponent for
each, which keeps the number. -/
def strip (fuel : Nat) (d : Decimal) : Decimal :=
  match fuel with
  | 0 => d
  | fuel + 1 =>
    if d.coefficient % 10 = 0 ∧ d.coefficient ≠ 0 then
      strip fuel ⟨d.coefficient / 10, d.exponent + 1⟩
    else d

/-- The shortest decimal that reads back as the magnitude `word`.  Seventeen
digits are always enough; the exact decimal stands in so that there is an
answer in every case. -/
def shortest (tie : Tie) (word : Nat) : Decimal :=
  let found := ((List.range 17).map (· + 1)).findSome? (onGrid tie word)
  strip 20 (found.getD (exact word))

/-- Digits before and after the point, for a decimal point that stands after
the first `point` digits. -/
def positional (digits : List Char) (point : Int) : List Char × List Char :=
  match point with
  | .ofNat p =>
    (digits.take p ++ List.replicate (p - digits.length) '0', digits.drop p)
  | .negSucc p => ([], List.replicate (p + 1) '0' ++ digits)

def sign (x : Binary64) : List Char := if x.isNegative then ['-'] else []

/-- Puts the point between whole part and fraction; `whole` tells whether a
missing fraction is written as `.0`. -/
def pointed (pointZero : Bool) (whole fraction : List Char) : List Char :=
  let left := if whole.isEmpty then ['0'] else whole
  if fraction.isEmpty then (if pointZero then left ++ ['.', '0'] else left)
  else left ++ '.' :: fraction

/-- The text of a finite double in a message: positional while the first digit
stands at `10 ^ -5` to `10 ^ 15`, and always with a decimal there; otherwise
one digit, its decimals, and a signed exponent. -/
def scientificText (x : Binary64) : List Char :=
  if x.magnitude = 0 then sign x ++ ['0', '.', '0']
  else
    let d := shortest .toEven x.magnitude
    let digits := Text.decimal d.coefficient
    let e : Int := d.exponent + (digits.length : Int) - 1
    if -5 ≤ e ∧ e ≤ 15 then
      let (whole, fraction) := positional digits (e + 1)
      sign x ++ pointed true whole fraction
    else
      let mantissa := pointed false (digits.take 1) (digits.drop 1)
      let exponent := if e < 0 then Text.decimalInt e else '+' :: Text.decimalInt e
      sign x ++ mantissa ++ 'e' :: exponent

/-- The text of a double for a reader: never an exponent, and a decimal point
only where decimals follow. -/
def plainText (x : Binary64) : List Char :=
  if x.isInfinite then sign x ++ ['i', 'n', 'f']
  else if ¬ x.isFinite then ['N', 'a', 'N']
  else if x.magnitude = 0 then sign x ++ ['0']
  else
    let d := shortest .up x.magnitude
    let digits := Text.decimal d.coefficient
    let (whole, fraction) := positional digits (d.exponent + (digits.length : Int))
    sign x ++ pointed false whole fraction

end OpcSession.Binary64
