import OpcSession.Text.Digits

/-!
# Durations

A duration is a whole number of nanoseconds.  Configuration gives it in
seconds or milliseconds; a message gives it as seconds and nanoseconds.
Its text names the largest unit of which it holds a whole one and then
the decimals of that unit, without trailing zeros: `0ns`, `250ms`,
`1.5s`.
-/

namespace OpcSession

/-- A span of time, counted in nanoseconds.  There is no longest one: where
the counts of a program end, its settings say so. -/
structure Duration where
  nanos : Nat
deriving DecidableEq, Repr, Inhabited

namespace Duration

def ofSecs (s : Nat) : Duration := ⟨s * 1000000000⟩

def ofMillis (ms : Nat) : Duration := ⟨ms * 1000000⟩

def zero : Duration := ⟨0⟩

/-- The whole seconds; what is beyond them is dropped, not rounded. -/
def secs (d : Duration) : Nat := d.nanos / 1000000000

/-- The nanoseconds beyond the whole seconds, fewer than a thousand
million. -/
def subsecNanos (d : Duration) : Nat := d.nanos % 1000000000

/-- The whole milliseconds; what is beyond them is dropped, not rounded. -/
def millis (d : Duration) : Nat := d.nanos / 1000000

def add (a b : Duration) : Duration := ⟨a.nanos + b.nanos⟩

instance : Add Duration := ⟨add⟩

instance : LE Duration := ⟨fun a b => a.nanos ≤ b.nanos⟩

instance (a b : Duration) : Decidable (a ≤ b) :=
  inferInstanceAs (Decidable (a.nanos ≤ b.nanos))

/-- The time that passed from `start` to `now`, none if `now` is earlier. -/
def since (now start : Duration) : Duration := ⟨now.nanos - start.nanos⟩

/-- A message carries whole seconds in 64 bits: longer durations have no place
in it. -/
def fits (d : Duration) : Bool := d.secs < Nat.pow 2 64

/-- The duration taken `count` times, unless the product is too long to
write. -/
def times? (d : Duration) (count : Nat) : Option Duration :=
  let product : Duration := ⟨d.nanos * count⟩
  if product.fits then some product else none

/-- Takes the zeros at the end away, which say nothing behind a point. -/
private def trimZeros (cs : List Char) : List Char :=
  (cs.reverse.dropWhile (· == '0')).reverse

/-- A number below `10 ^ width` in exactly `width` digits, with zeros in
front, as it stands behind a point. -/
private def padded (width n : Nat) : List Char :=
  let digits := Text.decimal n
  List.replicate (width - digits.length) '0' ++ digits

/-- The whole units and the decimals of a part of `10 ^ width` to the unit. -/
private def withUnit (whole part width : Nat) (unit : String) : String :=
  let decimals := if part = 0 then [] else '.' :: trimZeros (padded width part)
  String.ofList (Text.decimal whole ++ decimals) ++ unit

/-- The duration in its largest unit: seconds, milliseconds, microseconds or
nanoseconds, with what is left of it behind a point. -/
def text (d : Duration) : String :=
  if 0 < d.secs then withUnit d.secs d.subsecNanos 9 "s"
  else if 1000000 ≤ d.nanos then
    withUnit (d.nanos / 1000000) (d.nanos % 1000000) 6 "ms"
  else if 1000 ≤ d.nanos then
    withUnit (d.nanos / 1000) (d.nanos % 1000) 3 "µs"
  else withUnit d.nanos 0 0 "ns"

end Duration

end OpcSession
