/-!
# Binary64: double precision numbers as words

A double is kept as its 64-bit word, so that everything said about it is
arithmetic on natural numbers.  A finite magnitude is `m * 2 ^ q` with
`q` at least `-1074`; the word of it is `(q + 1074) * 2 ^ 52 + m`, for
subnormal and normal numbers alike, and a mantissa that rounds up to
`2 ^ 53` carries into the exponent by the same formula.

* `ofRatio?` rounds a quotient of naturals to the nearest double, a tie
  to the even one, and refuses what lies beyond the largest;
* `ofDecimal?` does so for decimal numbers;
* `truncated` is the whole part, cut off at a limit.

Arithmetic rounds to the nearest double by the standard for such numbers.  That
reading a decimal does so too is taken of the library that reads it.
-/

namespace OpcSession

/-- A double precision number, by its word.  Words are compared, so a number
that is none is the same as itself, and the two zeros differ. -/
structure Binary64 where
  bits : UInt64
deriving DecidableEq, Repr, Inhabited

namespace Binary64

/-- The word of infinity: the first magnitude that is no number.  All words
above it are no numbers either. -/
def infinityWord : Nat := 0x7FF0000000000000

/-- The word without its sign, which orders the numbers that are not
negative. -/
def magnitude (x : Binary64) : Nat := x.bits.toNat % Nat.pow 2 63

def isNegative (x : Binary64) : Bool := Nat.pow 2 63 ≤ x.bits.toNat

/-- Whether the number is one at all: neither infinite nor undefined. -/
def isFinite (x : Binary64) : Bool := x.magnitude < infinityWord

def isInfinite (x : Binary64) : Bool := x.magnitude = infinityWord

/-- The number with the given sign and magnitude word, which has to leave the
bit of the sign free. -/
def ofMagnitude (negative : Bool) (word : Nat) : Binary64 :=
  ⟨UInt64.ofNat (if negative then Nat.pow 2 63 + word else word)⟩

/-- Mantissa and binary exponent of a magnitude word: its value is `m * 2 ^
q`. -/
def parts (word : Nat) : Nat × Int :=
  let field : Nat := word / Nat.pow 2 52
  if field = 0 then (word, -1074)
  else (word % Nat.pow 2 52 + Nat.pow 2 52, (field : Int) - 1075)

/-- A magnitude as a quotient of naturals, exactly: the denominator is a power
of two. -/
def quotient (word : Nat) : Nat × Nat :=
  match parts word with
  | (m, .ofNat q) => (m * Nat.pow 2 q, 1)
  | (m, .negSucc q) => (m, Nat.pow 2 (q + 1))

/-- The nearest natural to `num / den`, a tie going to the even one. -/
def nearestEven (num den : Nat) : Nat :=
  let whole := num / den
  let twice := 2 * (num % den)
  if twice < den then whole
  else if den < twice then whole + 1
  else whole + whole % 2

/-- The quotient `num / den` scaled by `2 ^ -q`, as a quotient again, so that
nothing is rounded yet. -/
def scaled (num den : Nat) : Int → Nat × Nat
  | .ofNat q => (num, den * Nat.pow 2 q)
  | .negSucc q => (num * Nat.pow 2 (q + 1), den)

/-- The binary exponent at which the mantissa of `num / den` has 53 bits, or
the least exponent there is. -/
def exponentOf (num den : Nat) : Int :=
  let guess : Int := (Nat.log2 num : Int) - (Nat.log2 den : Int) - 52
  let (n, d) := scaled num den guess
  let exact := if n < d * Nat.pow 2 52 then guess - 1 else guess
  max exact (-1074)

/-- The magnitude word nearest to `num / den`; it may be that of infinity or
beyond. -/
def roundWord (num den : Nat) : Nat :=
  if num = 0 then 0
  else
    let q := exponentOf num den
    let (n, d) := scaled num den q
    (q + 1074).toNat * Nat.pow 2 52 + nearestEven n d

/-- The double nearest to `num / den`, if it is not too large. -/
def ofRatio? (negative : Bool) (num den : Nat) : Option Binary64 :=
  let word := roundWord num den
  if word < infinityWord then some (ofMagnitude negative word) else none

/-- The double nearest to a natural number, infinity beyond the range.  Counts
of up to 53 bits are exact. -/
def ofNat (n : Nat) : Binary64 :=
  ofMagnitude false (min (roundWord n 1) infinityWord)

/-- The double nearest to the quotient of two naturals, which is how one
number is divided by another. -/
def ofQuotient (num den : Nat) : Binary64 :=
  ofMagnitude false (min (roundWord num den) infinityWord)

/-- How many decimal digits a number has; zero has one. -/
def decimalLength (n : Nat) : Nat :=
  if n < 10 then 1 else decimalLength (n / 10) + 1

/-- The double nearest to `coefficient * 10 ^ exponent`, which is what a
reader of decimals is taken to give; one that only does its best may be off by
one where the coefficient or the power of ten is no double itself.  Exponents
far outside the range are settled without computing the power. -/
def ofDecimal? (negative : Bool) (coefficient : Nat) (exponent : Int) :
    Option Binary64 :=
  if coefficient = 0 then some (ofMagnitude negative 0)
  else
    let top := (decimalLength coefficient : Int) + exponent
    if 400 < top then none
    else if top < -400 then some (ofMagnitude negative 0)
    else match exponent with
      | .ofNat e => ofRatio? negative (coefficient * Nat.pow 10 e) 1
      | .negSucc e => ofRatio? negative coefficient (Nat.pow 10 (e + 1))

/-- The whole part of a number, where negative numbers and those that are no
number count as zero and nothing counts for more than `limit`. -/
def truncated (limit : Nat) (x : Binary64) : Nat :=
  if x.isInfinite ∧ ¬ x.isNegative then limit
  else if x.isNegative ∨ ¬ x.isFinite then 0
  else
    let (n, d) := quotient x.magnitude
    min (n / d) limit

end Binary64

end OpcSession
