import OpcSession.Json.Reader
import OpcSession.Json.Shape
import OpcSession.Proofs.Binary64.Decimal

/-!
# Number literals in their parts

A numeral is a sign, a whole part that begins with a zero only if it is a
zero, decimals and an exponent.  The reader takes its text up to the first
character that could not continue it, and what the text stands for can be
told from the parts.

* `literal?_numeral` — the text of a numeral is read as one literal;
* `double?_numeral` — the decimal that the text stands for;
* `toString_integer`, `numeral_of_double` — integers and doubles are written
  as numerals;
* `integer?_toString`, `double?_scientificText` — both are read back.
-/

namespace OpcSession.Json

open OpcSession.Text (Glyph IsDigit)

/-- The next glyph, if it is a character at all, satisfies `P`.  What a reader
of numerals stops at is told by a condition of this kind on what follows the
numeral. -/
def Ahead (P : Char → Prop) : List Glyph → Prop
  | some c :: _ => P c
  | _ => True

/-- A weaker condition on the next character holds wherever a stronger one
does. -/
theorem Ahead.mono {P Q : Char → Prop} {gs : List Glyph} (hahead : Ahead P gs)
    (himp : ∀ c, P c → Q c) : Ahead Q gs := by
  match gs, hahead with
  | [], _ => trivial
  | none :: _, _ => trivial
  | some c :: _, hahead => exact himp c hahead

/-- A character that ends a value: a comma or a closing bracket.  In the texts
that are written nothing else follows a value. -/
def Closing (c : Char) : Prop := c = ',' ∨ c = ']' ∨ c = '\x7d'

/-- A value is over where a digit cannot follow, so a numeral in front of a
closing character is read as a whole. -/
theorem Closing.not_digit {c : Char} (hclosing : Closing c) : ¬ IsDigit c := by
  rcases hclosing with rfl | rfl | rfl <;> decide

/-! ## Runs of digits -/

/-- The reader takes exactly the digits in front of a character that is no
digit. -/
theorem spanDigits_append {ds : List Char} {gs : List Glyph} (hdigits : ∀ c ∈ ds, IsDigit c)
    (hstop : Ahead (¬ IsDigit ·) gs) : spanDigits (ds.map some ++ gs) = (ds, gs) := by
  induction ds with
  | nil =>
      match gs, hstop with
      | [], _ => rfl
      | none :: _, _ => rfl
      | some c :: gs, hstop => exact if_neg hstop
  | cons d ds ih =>
      have hhere : (Text.digit? d).isSome := hdigits d List.mem_cons_self
      have hrest := ih fun c hc => hdigits c (List.mem_cons_of_mem d hc)
      rw [List.map_cons, List.cons_append, spanDigits, if_pos hhere, hrest]

/-- The text of a literal is taken apart at the same place once it has been
read, where only characters are left to look at. -/
theorem digitsAndRest_append {ds rest : List Char} (hdigits : ∀ c ∈ ds, IsDigit c)
    (hstop : ∀ c ∈ rest.head?, ¬ IsDigit c) : digitsAndRest (ds ++ rest) = (ds, rest) := by
  rw [digitsAndRest, List.span_eq_takeWhile_dropWhile]
  induction ds with
  | nil =>
      cases rest with
      | nil => rfl
      | cons c rest =>
          have hhere : ¬ (Text.digit? c).isSome := hstop c rfl
          rw [List.nil_append, List.takeWhile_cons, List.dropWhile_cons, if_neg hhere,
            if_neg hhere]
  | cons d ds ih =>
      have hhere : (Text.digit? d).isSome := hdigits d List.mem_cons_self
      have htail := ih fun c hc => hdigits c (List.mem_cons_of_mem d hc)
      rw [Prod.mk.injEq] at htail ⊢
      rw [List.cons_append, List.takeWhile_cons, List.dropWhile_cons, if_pos hhere, if_pos hhere,
        htail.1, htail.2]
      exact ⟨rfl, rfl⟩

/-! ## Numerals -/

/-- A number literal in its parts; the decimals and the exponent may be
missing. -/
structure Numeral where
  /-- Whether a minus sign stands in front. -/
  negative : Bool
  /-- The digits in front of the point. -/
  whole : List Char
  /-- The digits behind the point; there is no point if there are none. -/
  fraction : List Char
  /-- The power of ten behind the digits, if one is written. -/
  exponent : Option Int
  /-- Only decimal digits stand in front of the point, -/
  whole_digits : ∀ c ∈ whole, IsDigit c
  /-- there is at least one of them, -/
  whole_some : whole ≠ []
  /-- and the first is a zero only if it is the only one: the reader refuses
  further digits behind a leading zero. -/
  whole_start : whole = ['0'] ∨ whole.head? ≠ some '0'
  /-- Only decimal digits stand behind the point. -/
  fraction_digits : ∀ c ∈ fraction, IsDigit c

namespace Numeral

/-- The sign of a numeral: a minus sign, or nothing.  A plus sign is never
written, and the reader takes none. -/
def signChars (negative : Bool) : List Char := if negative then ['-'] else []

/-- The point and the decimals behind it, if there are any; a point on its own
would be refused. -/
def pointChars : List Char → List Char
  | [] => []
  | c :: cs => '.' :: c :: cs

/-- The exponent with its sign, which is written also where it is positive, as
the printer of doubles does. -/
def exponentChars : Option Int → List Char
  | none => []
  | some e => 'e' :: if e < 0 then Text.decimalInt e else '+' :: Text.decimalInt e

/-- The text of a numeral: its parts in the order in which the reader asks for
them. -/
def chars (n : Numeral) : List Char :=
  signChars n.negative ++ n.whole ++ pointChars n.fraction ++ exponentChars n.exponent

/-- The decimal that a numeral stands for, without its sign: all digits as one
coefficient, with the exponent lowered by the number of decimals. -/
def decimal (n : Numeral) : Binary64.Decimal :=
  ⟨(Text.natural? (n.whole ++ n.fraction)).getD 0,
    n.exponent.getD 0 - (n.fraction.length : Int)⟩

variable (n : Numeral) {rest : List Glyph}

/-- The text of an exponent by its sign: a letter, a sign and the digits of
its magnitude. -/
theorem exponent_cases (e : Int) :
    (e < 0 ∧ ∃ k : Nat, e = -k ∧ exponentChars (some e) = 'e' :: '-' :: Text.decimal k) ∨
      (0 ≤ e ∧ ∃ k : Nat, e = k ∧ exponentChars (some e) = 'e' :: '+' :: Text.decimal k) := by
  cases e with
  | ofNat k => exact .inr ⟨Int.natCast_nonneg k, k, rfl, rfl⟩
  | negSucc k =>
      have hbelow : Int.negSucc k < 0 := Int.negSucc_lt_zero k
      refine .inl ⟨hbelow, k + 1, rfl, ?_⟩
      rw [exponentChars, if_pos hbelow, Text.decimalInt]

/-- The whole part begins with a digit, which is how the reader knows a
numeral that has no sign. -/
theorem whole_head : ∃ c cs, n.whole = c :: cs ∧ IsDigit c := by
  obtain ⟨c, cs, htext⟩ := List.exists_cons_of_ne_nil n.whole_some
  exact ⟨c, cs, htext, n.whole_digits c (htext ▸ List.mem_cons_self)⟩

/-- A numeral begins with a minus sign or a digit, so that a value is known to
be a number by its first character. -/
theorem chars_head : ∃ c cs, n.chars = c :: cs ∧ (c = '-' ∨ IsDigit c) := by
  obtain ⟨c, cs, htext, hdigit⟩ := n.whole_head
  cases h : n.negative with
  | true =>
      refine ⟨'-', n.whole ++ pointChars n.fraction ++ exponentChars n.exponent, ?_, .inl rfl⟩
      rw [chars, h]
      rfl
  | false =>
      refine ⟨c, cs ++ pointChars n.fraction ++ exponentChars n.exponent, ?_, .inr hdigit⟩
      rw [chars, h, htext]
      rfl

/-! ### Reading a numeral -/

/-- What follows the decimals is no digit and no second point, whether an
exponent is written or not. -/
theorem ahead_exponent (e : Option Int) (hstop : Ahead Closing rest) :
    Ahead (fun c => ¬ IsDigit c ∧ c ≠ '.') ((exponentChars e).map some ++ rest) := by
  cases e with
  | none =>
      refine hstop.mono fun c hclosing => ⟨hclosing.not_digit, ?_⟩
      rcases hclosing with rfl | rfl | rfl <;> decide
  | some e => exact ⟨by decide, by decide⟩

/-- What follows the whole part is no digit, whether decimals are written or
not. -/
theorem ahead_fraction (f : List Char) {gs : List Glyph}
    (hstop : Ahead (fun c => ¬ IsDigit c ∧ c ≠ '.') gs) :
    Ahead (¬ IsDigit ·) ((pointChars f).map some ++ gs) := by
  cases f with
  | nil => exact hstop.mono fun c h => h.1
  | cons c cs => exact (by decide : ¬ IsDigit '.')

/-- The whole part is read up to where it ends; the leading zero is the one
case in which a single digit is taken. -/
theorem wholePart?_whole {gs : List Glyph} (hstop : Ahead (¬ IsDigit ·) gs) :
    wholePart? (n.whole.map some ++ gs) = some (n.whole, gs) := by
  rw [wholePart?, spanDigits_append n.whole_digits hstop]
  obtain ⟨c, cs, htext, -⟩ := n.whole_head
  have hstart := n.whole_start
  rw [htext] at hstart ⊢
  split
  · next h => cases h
  · next h =>
      -- Two digits of which the first is a zero.
      cases h
      rcases hstart with hstart | hstart
      · cases hstart
      · exact absurd rfl hstart
  · next h =>
      cases h
      rfl

/-- The decimals are read with their point, or nothing is read if none are
written. -/
theorem fractionPart?_point {f : List Char} {gs : List Glyph} (hdigits : ∀ c ∈ f, IsDigit c)
    (hstop : Ahead (fun c => ¬ IsDigit c ∧ c ≠ '.') gs) :
    fractionPart? ((pointChars f).map some ++ gs) = some (pointChars f, gs) := by
  cases f with
  | nil =>
      show fractionPart? gs = some ([], gs)
      unfold fractionPart?
      split
      · exact absurd rfl hstop.2
      · rfl
  | cons c cs =>
      show fractionPart? (some '.' :: ((c :: cs).map some ++ gs)) = _
      rw [fractionPart?, spanDigits_append hdigits (hstop.mono fun c h => h.1)]
      rfl

/-- The exponent is read with its letter and its sign, or nothing is read if
none is written. -/
theorem exponentPart?_exponent (e : Option Int) (hstop : Ahead Closing rest) :
    exponentPart? ((exponentChars e).map some ++ rest) = some (exponentChars e, rest) := by
  have hspan : ∀ k : Nat, spanDigits ((Text.decimal k).map some ++ rest)
      = (Text.decimal k, rest) := fun k =>
    spanDigits_append (Text.decimal_digits k) (hstop.mono fun c h => h.not_digit)
  cases e with
  | none =>
      show exponentPart? rest = some ([], rest)
      match rest, hstop with
      | [], _ => rfl
      | none :: _, _ => rfl
      | some c :: rest, hstop =>
          have hother : ¬ (c = 'e' ∨ c = 'E') := by
            rcases hstop with rfl | rfl | rfl <;> decide
          exact if_neg hother
  | some e =>
      rcases exponent_cases e with ⟨-, k, -, htext⟩ | ⟨-, k, -, htext⟩
      all_goals
        obtain ⟨c, cs, hdigits⟩ := List.exists_cons_of_ne_nil (Text.decimal_ne_nil k)
        have htail := hspan k
        rw [htext, List.map_cons, List.map_cons, List.cons_append, List.cons_append, exponentPart?,
          if_pos (Or.inl rfl)]
        simp only [htail]
        rw [hdigits]
        rfl

/-- **The text of a numeral is read as one literal.**  The reader takes the
parts one after the other, and each of them ends where the next begins. -/
theorem literal?_numeral (hstop : Ahead Closing rest) :
    literal? (n.chars.map some ++ rest) = some (n.chars, rest) := by
  have hexponent := exponentPart?_exponent n.exponent hstop
  have haheadExponent := ahead_exponent n.exponent hstop
  have hfraction := fractionPart?_point n.fraction_digits haheadExponent
  have hwhole := n.wholePart?_whole (ahead_fraction n.fraction haheadExponent)
  obtain ⟨c, cs, htext, hdigit⟩ := n.whole_head
  have hother : c ≠ '-' := by
    rintro rfl
    exact absurd hdigit (by decide)
  simp only [chars, List.map_append, List.append_assoc] at hwhole ⊢
  cases h : n.negative with
  | true =>
      show literal? (some '-' :: (n.whole.map some ++ _)) = _
      rw [literal?]
      simp only [hwhole, hfraction, hexponent, Option.bind_eq_bind, Option.bind_some,
        List.append_assoc]
      rfl
  | false =>
      show literal? (n.whole.map some ++ _) = _
      unfold literal?
      split
      · next sign gs h =>
          split at h
          · next h' =>
              rw [htext] at h'
              exact absurd (Option.some.inj (List.cons.inj h').1) hother
          · next h' =>
              cases h
              simp only [hwhole, hfraction, hexponent, Option.bind_eq_bind, Option.bind_some,
                List.append_assoc]
              rfl

/-! ### The number a numeral stands for -/

/-- The literal taken apart again: the sign first, since the digits do not
show it. -/
theorem splitSign_chars :
    splitSign n.chars =
      (n.negative, n.whole ++ (pointChars n.fraction ++ exponentChars n.exponent)) := by
  obtain ⟨c, cs, htext, hdigit⟩ := n.whole_head
  have hother : c ≠ '-' := by
    rintro rfl
    exact absurd hdigit (by decide)
  simp only [chars, List.append_assoc]
  cases n.negative with
  | true => rfl
  | false =>
      show splitSign (n.whole ++ _) = _
      rw [htext]
      unfold splitSign
      split
      · next h => exact absurd (List.cons.inj h).1 hother
      · rfl

/-- The exponent is read as the number that was written, and as zero where
none was. -/
theorem exponentValue_chars (e : Option Int) : exponentValue (exponentChars e) = e.getD 0 := by
  cases e with
  | none => rfl
  | some e =>
      rcases exponent_cases e with ⟨-, k, hvalue, htext⟩ | ⟨-, k, hvalue, htext⟩
      all_goals
        rw [htext, exponentValue, Text.natural?_decimal, hvalue]
        rfl

/-- An exponent begins with a letter, so the digits in front of it end
there. -/
theorem head_exponentChars (e : Option Int) :
    ∀ c ∈ (exponentChars e).head?, ¬ IsDigit c ∧ c ≠ '.' := by
  cases e with
  | none => intro c hc; cases hc
  | some e =>
      intro c hc
      cases hc
      exact ⟨by decide, by decide⟩

/-- **The double that the text of a numeral stands for.**  It is the one
nearest to the decimal of the numeral, if there is one in range. -/
theorem double?_numeral :
    double? (String.ofList n.chars) =
      Binary64.ofDecimal? n.negative n.decimal.coefficient n.decimal.exponent := by
  have hstop := head_exponentChars n.exponent
  have hstopWhole : ∀ c ∈ (pointChars n.fraction ++ exponentChars n.exponent).head?,
      ¬ IsDigit c := by
    cases n.fraction with
    | nil => exact fun c hc => (hstop c hc).1
    | cons d ds =>
        intro c hc
        cases hc
        decide
  have hwhole := digitsAndRest_append n.whole_digits hstopWhole
  have hexponent := exponentValue_chars n.exponent
  have hdigits := n.fraction_digits
  rw [double?, String.toList_ofList, splitSign_chars, decimal]
  simp only [hwhole]
  cases hf : n.fraction with
  | nil =>
      rw [← hexponent]
      cases n.exponent <;> rfl
  | cons d ds =>
      rw [hf] at hdigits
      have hfraction := digitsAndRest_append hdigits fun c hc => (hstop c hc).1
      simp only [pointChars, List.cons_append] at hfraction ⊢
      simp only [hfraction, hexponent]

/-! ### Integers -/

/-- The numeral of an integer by its sign and its magnitude: no decimals and
no exponent, as the printer writes whole numbers. -/
def integer (negative : Bool) (k : Nat) : Numeral where
  negative := negative
  whole := Text.decimal k
  fraction := []
  exponent := none
  whole_digits := Text.decimal_digits k
  whole_some := Text.decimal_ne_nil k
  whole_start := Text.decimal_start k
  fraction_digits := fun _ h => absurd h List.not_mem_nil

/-- The text of such a numeral is the sign with the decimal digits behind
it. -/
theorem chars_integer (negative : Bool) (k : Nat) :
    (integer negative k).chars = signChars negative ++ Text.decimal k := by
  simp only [chars, integer, pointChars, exponentChars, List.append_nil]

/-- Integers are printed as numerals, so all that holds of reading numerals
holds of them. -/
theorem toString_integer (i : Int) :
    toString i = String.ofList (integer (decide (i < 0)) i.natAbs).chars := by
  rw [← String.toList_inj, String.toList_ofList, Text.toString_int, chars_integer]
  cases i with
  | ofNat k => rfl
  | negSucc k =>
      rw [decide_eq_true (Int.negSucc_lt_zero k)]
      rfl

/-! ### Doubles -/

/-- The numeral with the point between a whole part and decimals.  Where one
of the two is empty a zero stands for it, as in the texts of doubles. -/
def pointed (negative pointZero : Bool) (whole fraction : List Char) (e : Option Int)
    (hwhole : ∀ c ∈ whole, IsDigit c) (hfraction : ∀ c ∈ fraction, IsDigit c)
    (hstart : whole.head? ≠ some '0') : Numeral where
  negative := negative
  whole := if whole.isEmpty then ['0'] else whole
  fraction := if fraction.isEmpty && pointZero then ['0'] else fraction
  exponent := e
  whole_digits := by
    split
    · simpa using (by decide : IsDigit '0')
    · exact hwhole
  whole_some := by
    split
    · exact List.cons_ne_nil _ _
    · next hsome => simpa using hsome
  whole_start := by
    split
    · exact .inl rfl
    · exact .inr hstart
  fraction_digits := by
    split
    · simpa using (by decide : IsDigit '0')
    · exact hfraction

section Pointed

variable {negative pointZero : Bool} {whole fraction : List Char} {e : Option Int}
  {hwhole : ∀ c ∈ whole, IsDigit c} {hfraction : ∀ c ∈ fraction, IsDigit c}
  {hstart : whole.head? ≠ some '0'}

/-- The text of such a numeral is the text that the printer of doubles makes
of the two parts. -/
theorem chars_pointed :
    (pointed negative pointZero whole fraction e hwhole hfraction hstart).chars =
      signChars negative ++ Binary64.pointed pointZero whole fraction ++ exponentChars e := by
  simp only [chars, pointed, Binary64.pointed, List.append_assoc]
  congr 1
  cases fraction with
  | nil => cases pointZero <;> simp [pointChars]
  | cons c cs => simp [pointChars]

/-- Where the digits around the point are those of a number among zeros, the
numeral stands for that number at the place of the point. -/
theorem value_pointed {a b c : Nat}
    (hdigits : whole ++ fraction =
      List.replicate a '0' ++ (Text.decimal c ++ List.replicate b '0')) :
    (pointed negative pointZero whole fraction e hwhole hfraction hstart).decimal.value =
      c * (10 : ℚ) ^ ((b : Int) - fraction.length + e.getD 0) := by
  let n := pointed negative pointZero whole fraction e hwhole hfraction hstart
  obtain ⟨a', b', hpadded, hlengths⟩ : ∃ a' b' : Nat, n.whole ++ n.fraction =
      List.replicate a' '0' ++ (Text.decimal c ++ List.replicate b' '0') ∧
        b' + fraction.length = b + n.fraction.length := by
    have hfront : ∃ a', n.whole ++ fraction =
        List.replicate a' '0' ++ (Text.decimal c ++ List.replicate b '0') := by
      cases whole with
      | nil => exact ⟨a + 1, congrArg ('0' :: ·) hdigits⟩
      | cons w ws => exact ⟨a, hdigits⟩
    obtain ⟨a', hfront⟩ := hfront
    by_cases hfilled : fraction.isEmpty && pointZero
    · have hpoint : n.fraction = ['0'] := if_pos hfilled
      have hnone : fraction = [] := List.isEmpty_iff.mp (Bool.and_eq_true _ _ ▸ hfilled).1
      rw [hnone, List.append_nil] at hfront
      refine ⟨a', b + 1, ?_, by rw [hpoint, hnone]; rfl⟩
      rw [hpoint, hfront, List.replicate_succ', List.append_assoc, List.append_assoc]
    · have hpoint : n.fraction = fraction := if_neg hfilled
      exact ⟨a', b, hpoint ▸ hfront, by rw [hpoint]⟩
  show n.decimal.value = _
  rw [decimal, hpadded, Text.natural?_padded, Binary64.Decimal.value]
  show ((c * 10 ^ b' : Nat) : ℚ) * 10 ^ (e.getD 0 - (n.fraction.length : Int)) = _
  push_cast
  rw [← zpow_natCast, mul_assoc, ← zpow_add₀ (by norm_num)]
  congr 2
  omega

end Pointed

/-- The digits of a number around a point: they are its digits with zeros
added on one side or the other, and the decimals make up for the place of the
point. -/
theorem positional_digits (ds : List Char) (point : Int) :
    ∃ a b : Nat, (Binary64.positional ds point).1 ++ (Binary64.positional ds point).2 =
        List.replicate a '0' ++ (ds ++ List.replicate b '0') ∧
      (b : Int) - (Binary64.positional ds point).2.length = point - ds.length := by
  cases point with
  | ofNat p =>
      refine ⟨0, p - ds.length, ?_, ?_⟩
      · show ds.take p ++ List.replicate (p - ds.length) '0' ++ ds.drop p = _
        rcases Nat.le_total ds.length p with hlong | hshort
        · rw [List.take_of_length_le hlong, List.drop_of_length_le hlong, List.append_nil]
          rfl
        · rw [Nat.sub_eq_zero_of_le hshort]
          simp
      · show ((p - ds.length : Nat) : Int) - ((ds.drop p).length : Int) = (p : Int) - ds.length
        rw [List.length_drop]
        omega
  | negSucc p =>
      refine ⟨p + 1, 0, ?_, ?_⟩
      · simp [Binary64.positional]
      · show (0 : Int) - ((List.replicate (p + 1) '0' ++ ds).length : Int) =
          Int.negSucc p - ds.length
        rw [List.length_append, List.length_replicate]
        omega

/-- Both sides of the point consist of digits if the digits themselves do. -/
theorem positional_isDigit {ds : List Char} (hdigits : ∀ c ∈ ds, IsDigit c) (point : Int) :
    (∀ c ∈ (Binary64.positional ds point).1, IsDigit c) ∧
      ∀ c ∈ (Binary64.positional ds point).2, IsDigit c := by
  have hzeros : ∀ {k : Nat} {c : Char}, c ∈ List.replicate k '0' → IsDigit c := fun h => by
    rw [List.eq_of_mem_replicate h]
    decide
  cases point with
  | ofNat p =>
      refine ⟨fun c hc => ?_, fun c hc => hdigits c (List.mem_of_mem_drop hc)⟩
      rcases List.mem_append.mp hc with h | h
      · exact hdigits c (List.mem_of_mem_take h)
      · exact hzeros h
  | negSucc p =>
      refine ⟨fun c hc => absurd hc List.not_mem_nil, fun c hc => ?_⟩
      rcases List.mem_append.mp hc with h | h
      · exact hzeros h
      · exact hdigits c h

/-- The side in front of the point begins with no zero, since the shortest
digits of a number do not. -/
theorem positional_start {ds : List Char} (hstart : ds.head? ≠ some '0') (hnonempty : ds ≠ [])
    (point : Int) : (Binary64.positional ds point).1.head? ≠ some '0' := by
  obtain ⟨d, rest, rfl⟩ := List.exists_cons_of_ne_nil hnonempty
  cases point with
  | ofNat p =>
      cases p with
      | zero => simp [Binary64.positional]
      | succ p => simpa [Binary64.positional] using hstart
  | negSucc p => simp [Binary64.positional]

/-- **The text of a finite double is a numeral that stands for the shortest
decimal of the double.** -/
theorem numeral_of_double {x : Binary64} (hpositive : 0 < x.magnitude) :
    ∃ n : Numeral, x.scientificText = n.chars ∧ n.negative = x.isNegative ∧
      n.decimal.value = (Binary64.shortest .toEven x.magnitude).value := by
  have hback := Binary64.readsBack_shortest .toEven x.magnitude
  have hcoefficient := Binary64.coefficient_pos hpositive hback
  rw [Binary64.scientificText, if_neg (by omega)]
  simp only
  generalize Binary64.shortest .toEven x.magnitude = d at hcoefficient
  have hdigits := Text.decimal_digits d.coefficient
  have hnonempty := Text.decimal_ne_nil d.coefficient
  have hstart := Text.head_decimal hcoefficient
  generalize hds : Text.decimal d.coefficient = ds at hdigits hnonempty hstart
  have hlength : 0 < ds.length := List.length_pos_of_ne_nil hnonempty
  split
  · obtain ⟨a, b, hpadded, hplace⟩ :=
      positional_digits ds (d.exponent + (ds.length : Int) - 1 + 1)
    have hdigitsOf : List.replicate a '0' ++ (ds ++ List.replicate b '0') =
        List.replicate a '0' ++ (Text.decimal d.coefficient ++ List.replicate b '0') := by
      rw [hds]
    obtain ⟨hwhole, hfraction⟩ :=
      positional_isDigit hdigits (d.exponent + (ds.length : Int) - 1 + 1)
    refine ⟨pointed x.isNegative true _ _ none hwhole hfraction
      (positional_start hstart hnonempty _), ?_, rfl, ?_⟩
    · rw [chars_pointed, exponentChars, List.append_nil]
      rfl
    · rw [value_pointed (hpadded.trans hdigitsOf), Binary64.Decimal.value]
      congr 2
      simp only [Option.getD_none]
      omega
  · have hwhole : ∀ c ∈ ds.take 1, IsDigit c := fun c hc => hdigits c (List.mem_of_mem_take hc)
    have hfraction : ∀ c ∈ ds.drop 1, IsDigit c := fun c hc => hdigits c (List.mem_of_mem_drop hc)
    have hpadded : ds.take 1 ++ ds.drop 1 =
        List.replicate 0 '0' ++ (Text.decimal d.coefficient ++ List.replicate 0 '0') := by
      rw [List.take_append_drop, hds]
      simp
    have hbegins : (ds.take 1).head? ≠ some '0' := by
      rw [List.head?_take, if_neg (by decide)]
      exact hstart
    refine ⟨pointed x.isNegative false _ _ (some (d.exponent + (ds.length : Int) - 1))
      hwhole hfraction hbegins, ?_, rfl, ?_⟩
    · rw [chars_pointed, exponentChars]
      rfl
    · rw [value_pointed hpadded, Binary64.Decimal.value, List.length_drop]
      congr 2
      simp only [Option.getD_some]
      omega

/-- The text of a double that is zero, which keeps its sign: minus zero is
read back as minus zero. -/
theorem numeral_of_zero {x : Binary64} (hzero : x.magnitude = 0) :
    ∃ n : Numeral, x.scientificText = n.chars ∧ n.negative = x.isNegative ∧
      n.decimal.coefficient = 0 := by
  have hdigit : ∀ c ∈ ['0'], IsDigit c := by
    intro c hc
    rw [List.mem_singleton.mp hc]
    decide
  refine ⟨⟨x.isNegative, ['0'], ['0'], none, hdigit, by decide, .inl rfl, hdigit⟩, ?_, rfl, rfl⟩
  rw [Binary64.scientificText, if_pos hzero, Binary64.sign, chars, signChars]
  simp [pointChars, exponentChars]

end Numeral

/-- **A finite double is read back from its text.**  The text has the shortest
digits that tell the double from its neighbours, and what is nearest to them
is the double. -/
theorem double?_scientificText {x : Binary64} (hfinite : x.isFinite = true) :
    double? (String.ofList x.scientificText) = some x := by
  have hbound : x.magnitude < Binary64.infinityWord := by
    simpa [Binary64.isFinite] using hfinite
  rcases Nat.eq_zero_or_pos x.magnitude with hzero | hpositive
  · obtain ⟨n, htext, hsign, hnone⟩ := Numeral.numeral_of_zero hzero
    rw [htext, Numeral.double?_numeral, hnone, hsign, Binary64.ofDecimal?_zero, ← hzero,
      Binary64.ofMagnitude_magnitude]
  · obtain ⟨n, htext, hsign, hvalue⟩ := Numeral.numeral_of_double hpositive
    have hback : Binary64.readsBack x.magnitude ⟨n.decimal.coefficient, n.decimal.exponent⟩ :=
      (Binary64.readsBack_congr hvalue _).trans (Binary64.readsBack_shortest .toEven _)
    have hread : Binary64.ofDecimal? n.negative n.decimal.coefficient n.decimal.exponent =
        some (.ofMagnitude n.negative x.magnitude) :=
      Binary64.ofDecimal?_of_readsBack hpositive hbound hback
    rw [htext, Numeral.double?_numeral, hread, hsign, Binary64.ofMagnitude_magnitude]

/-! ## Integers -/

/-- An integer is read back from its text, since the text has neither a point
nor an exponent. -/
theorem integer?_toString (i : Int) : integer? (toString i) = some i := by
  rw [Numeral.toString_integer, integer?, String.toList_ofList, Numeral.splitSign_chars]
  simp only [Numeral.integer, Numeral.pointChars, Numeral.exponentChars, List.append_nil]
  cases i with
  | ofNat k =>
      show (Text.natural? (Text.decimal k)).map Int.ofNat = _
      rw [Text.natural?_decimal]
      rfl
  | negSucc k =>
      rw [decide_eq_true (Int.negSucc_lt_zero k)]
      show (Text.natural? (Text.decimal (k + 1))).bind _ = _
      rw [Text.natural?_decimal]
      rfl

/-- An integer of 64 bits is within the range of doubles, so its text is a
number to the reader wherever it stands. -/
theorem double?_toString {i : Int} (hsmall : i.natAbs < 2 ^ 64) :
    (double? (toString i)).isSome := by
  have hvalue : (Numeral.integer (decide (i < 0)) i.natAbs).decimal = ⟨i.natAbs, 0⟩ := by
    simp only [Numeral.decimal, Numeral.integer, List.append_nil, Text.natural?_decimal]
    rfl
  rw [Numeral.toString_integer, Numeral.double?_numeral, hvalue]
  exact Binary64.ofDecimal?_small hsmall

end OpcSession.Json
