import Mathlib.Data.List.Induction
import Mathlib.Tactic.Ring
import OpcSession.Text.Digits

/-!
# Numbers read back from their text

The decimal text of a number consists of digits, does not begin with a zero
unless it is a zero alone, and reads back as the number.  So does a pair of
hexadecimal digits.

* `decimal_digits`, `natural?_decimal` — the text and its value;
* `Digits`, `Numeral`, `HexDigit` — what can be read as a number;
* `natural?_eq_some`, `bounded?_eq_some`, `hexValue?_eq_some` — nothing else is;
* `toString_nat` — the library writes numbers the same way.
-/

namespace OpcSession.Text

/-- A decimal digit, which is what the reader of digits takes for one. -/
def IsDigit (c : Char) : Prop := (digit? c).isSome

/-- Of a character it can be decided whether it is a digit. -/
instance (c : Char) : Decidable (IsDigit c) := inferInstanceAs (Decidable (_ = _))

/-- The character of a digit is read as the digit. -/
theorem digit?_digitChar {d : Nat} (h : d < 10) : digit? (digitChar d) = some d := by
  have hall : ∀ d : Fin 10, digit? (digitChar d) = some d.val := by decide
  exact hall ⟨d, h⟩

/-- The character of a hexadecimal digit is read as the digit. -/
theorem hexValue?_hexDigit {d : Nat} (h : d < 16) : hexValue? (hexDigit d) = some d := by
  have hall : ∀ d : Fin 16, hexValue? (hexDigit d) = some d.val := by decide
  exact hall ⟨d, h⟩

theorem isDigit_digitChar {d : Nat} (h : d < 10) : IsDigit (digitChar d) := by
  rw [IsDigit, digit?_digitChar h]
  rfl

/-- The text of a number is one digit, or the text of its tenth and one
more. -/
theorem decimal_cases (n : Nat) :
    (n < 10 ∧ decimal n = [digitChar n]) ∨
      (10 ≤ n ∧ decimal n = decimal (n / 10) ++ [digitChar (n % 10)]) := by
  rw [decimal]
  by_cases h : n < 10
  · exact .inl ⟨h, if_pos h⟩
  · exact .inr ⟨Nat.le_of_not_lt h, if_neg h⟩

theorem decimal_ne_nil (n : Nat) : decimal n ≠ [] := by
  rcases decimal_cases n with ⟨-, htext⟩ | ⟨-, htext⟩ <;> simp [htext]

/-- A number is written with digits only, so whatever else follows ends it. -/
theorem decimal_digits (n : Nat) : ∀ c ∈ decimal n, IsDigit c := by
  induction n using decimal.induct with
  | case1 n hsmall =>
      rw [decimal, if_pos hsmall]
      intro c hc
      rw [List.mem_singleton.mp hc]
      exact isDigit_digitChar hsmall
  | case2 n hlarge ih =>
      rw [decimal, if_neg hlarge]
      intro c hc
      rcases List.mem_append.mp hc with hc | hc
      · exact ih c hc
      · rw [List.mem_singleton.mp hc]
        exact isDigit_digitChar (Nat.mod_lt _ (by omega))

/-- Only zero begins with a zero, so a number has one text. -/
theorem head_decimal {n : Nat} (hpositive : 0 < n) : (decimal n).head? ≠ some '0' := by
  induction n using decimal.induct with
  | case1 n hsmall =>
      have hall : ∀ d : Fin 10, 0 < d.val → digitChar d ≠ '0' := by decide
      rw [decimal, if_pos hsmall]
      simpa using hall ⟨n, hsmall⟩ hpositive
  | case2 n hlarge ih =>
      have hfirst := ih (by omega)
      obtain ⟨c, cs, htext⟩ := List.exists_cons_of_ne_nil (decimal_ne_nil (n / 10))
      rw [htext] at hfirst
      rw [decimal, if_neg hlarge, htext]
      exact hfirst

/-- A number is a single zero, or does not begin with one; that is what the
grammar of JSON asks for. -/
theorem decimal_start (n : Nat) : decimal n = ['0'] ∨ (decimal n).head? ≠ some '0' := by
  by_cases hzero : n = 0
  · left
    rw [hzero, decimal, if_pos (by decide)]
    rfl
  · exact .inr (head_decimal (Nat.pos_of_ne_zero hzero))

theorem digitsFrom_append (acc : Nat) (cs ds : List Char) :
    digitsFrom acc (cs ++ ds) = (digitsFrom acc cs).bind (digitsFrom · ds) := by
  induction cs generalizing acc with
  | nil => rfl
  | cons c cs ih =>
      rw [List.cons_append, digitsFrom, digitsFrom]
      cases digit? c with
      | none => rfl
      | some d => exact ih _

/-- The digits of a number are read as the number. -/
theorem digitsFrom_decimal (n : Nat) : digitsFrom 0 (decimal n) = some n := by
  induction n using decimal.induct with
  | case1 n hsmall =>
      rw [decimal, if_pos hsmall, digitsFrom, digit?_digitChar hsmall]
      simp [digitsFrom]
  | case2 n hlarge ih =>
      have hlast : n % 10 < 10 := Nat.mod_lt _ (by omega)
      have hwhole : 10 * (n / 10) + n % 10 = n := Nat.div_add_mod n 10
      rw [decimal, if_neg hlarge, digitsFrom_append, ih, Option.bind_some, digitsFrom,
        digit?_digitChar hlast, Option.bind_some, digitsFrom, hwhole]

/-- Each zero behind multiplies by ten what was read before. -/
theorem digitsFrom_zeros (acc k : Nat) :
    digitsFrom acc (List.replicate k '0') = some (acc * 10 ^ k) := by
  induction k generalizing acc with
  | zero => rw [Nat.pow_zero, Nat.mul_one]; rfl
  | succ k ih =>
      have hzero : digit? '0' = some 0 := rfl
      rw [List.replicate_succ, digitsFrom, hzero, Option.bind_some, ih, Nat.pow_succ]
      exact congrArg some (by ring)

/-- Digits are read as they would be after nothing, if there are any. -/
theorem natural?_eq_digitsFrom {cs : List Char} (hsome : cs ≠ []) :
    natural? cs = digitsFrom 0 cs := by
  cases cs with
  | nil => exact absurd rfl hsome
  | cons c cs => rfl

/-- **A number is read back from its text**, whatever its size. -/
theorem natural?_decimal (n : Nat) : natural? (decimal n) = some n := by
  rw [natural?_eq_digitsFrom (decimal_ne_nil n), digitsFrom_decimal]

/-- What is no digit is not in the text of a number, so a separator behind it
is found where it stands. -/
theorem not_mem_decimal {n : Nat} {c : Char} (hother : ¬ IsDigit c) : c ∉ decimal n :=
  fun hmem => hother (decimal_digits n c hmem)

/-- A number that is not too large is read back, with no sign in front of
it. -/
theorem bounded?_decimal {limit n : Nat} (hsmall : n ≤ limit) :
    bounded? limit (decimal n) = some n := by
  have hunsigned : unsigned? (decimal n) = natural? (decimal n) := by
    unfold unsigned?
    split
    · rename_i rest hsigned
      exact absurd (hsigned ▸ List.mem_cons_self) (not_mem_decimal (n := n) (c := '+') (by decide))
    · rfl
  rw [bounded?, hunsigned, natural?_decimal, Option.filter_some, if_pos (by simpa using hsmall)]

/-- Zeros in front say nothing, zeros behind multiply by ten; so the digits of
a double may be moved about its point. -/
theorem natural?_padded (a n b : Nat) :
    natural? (List.replicate a '0' ++ (decimal n ++ List.replicate b '0'))
      = some (n * 10 ^ b) := by
  have hsome : List.replicate a '0' ++ (decimal n ++ List.replicate b '0') ≠ [] := by
    simp [decimal_ne_nil n]
  rw [natural?_eq_digitsFrom hsome, digitsFrom_append, digitsFrom_zeros, Option.bind_some,
    Nat.zero_mul, digitsFrom_append, digitsFrom_decimal, Option.bind_some, digitsFrom_zeros]

theorem digitChar_eq {d : Nat} (h : d < 10) : Nat.digitChar d = digitChar d := by
  have hall : ∀ d : Fin 10, Nat.digitChar d = digitChar d := by decide
  exact hall ⟨d, h⟩

theorem toString_nat (n : Nat) : (toString n).toList = decimal n := by
  rw [Nat.toString_eq_repr, Nat.repr_eq_ofList_toDigits, String.toList_ofList]
  induction n using decimal.induct with
  | case1 n hsmall =>
      rw [Nat.toDigits_of_lt_base hsmall, decimal, if_pos hsmall, digitChar_eq hsmall]
  | case2 n hlarge ih =>
      have hlast : n % 10 < 10 := Nat.mod_lt _ (by omega)
      rw [Nat.toDigits_eq_if (by decide), if_neg hlarge, ih, digitChar_eq hlast,
        decimal.eq_def n, if_neg hlarge]

/-- An integer is written as a number with a sign where it is negative. -/
theorem toString_int (i : Int) : (toString i).toList = decimalInt i := by
  cases i with
  | ofNat n => exact toString_nat n
  | negSucc n =>
      show ("-" ++ Nat.repr (n + 1)).toList = '-' :: decimal (n + 1)
      rw [String.toList_append, ← toString_nat (n + 1)]
      rfl

/-! ## What is read as a number -/

/-- A decimal digit and its value, by its place in the list of all. -/
def DecimalDigit (c : Char) (d : Nat) : Prop := "0123456789".toList[d]? = some c

/-- A hexadecimal digit of either case and its value, by its place in the list
of its case. -/
def HexDigit (c : Char) (d : Nat) : Prop :=
  "0123456789abcdef".toList[d]? = some c ∨ "0123456789ABCDEF".toList[d]? = some c

/-- Of a character and a value it can be decided whether they belong
together. -/
instance (c : Char) (d : Nat) : Decidable (DecimalDigit c d) := inferInstanceAs (Decidable (_ = _))

instance (c : Char) (d : Nat) : Decidable (HexDigit c d) := inferInstanceAs (Decidable (_ ∨ _))

/-- One or more decimal digits and their value, as the grammar has them. -/
inductive Digits : List Char → Nat → Prop
  /-- One digit has its own value. -/
  | one {c : Char} {d : Nat} (hdigit : DecimalDigit c d) : Digits [c] d
  /-- One more digit counts in place of the ones, and the rest ten times. -/
  | snoc {cs : List Char} {n : Nat} {c : Char} {d : Nat} (hbefore : Digits cs n)
      (hdigit : DecimalDigit c d) : Digits (cs ++ [c]) (10 * n + d)

/-- Digits with no sign in front of them, or with a plus sign. -/
inductive Numeral : List Char → Nat → Prop
  | plain {cs : List Char} {n : Nat} (hdigits : Digits cs n) : Numeral cs n
  /-- Digits behind a plus sign have the same value. -/
  | signed {cs : List Char} {n : Nat} (hdigits : Digits cs n) : Numeral ('+' :: cs) n

variable {c : Char} {cs : List Char} {d n limit : Nat}

/-- What is so of the first 128 characters is so of each of them. -/
theorem forall_ascii {P : Char → Prop} (hall : ∀ k : Fin 128, P (Char.ofNat k))
    (hascii : c.toNat < 128) : P c :=
  Char.ofNat_toNat c ▸ hall ⟨c.toNat, hascii⟩

/-- What is read as a digit is one, with its value. -/
theorem digit?_eq_some : digit? c = some d ↔ DecimalDigit c d := by
  constructor
  · intro hread
    have hascii : c.toNat < 128 := by
      unfold digit? at hread
      split at hread
      · rename_i hrange
        exact Nat.lt_of_le_of_lt (show c.toNat ≤ 57 from hrange.2) (by decide)
      · cases hread
    exact forall_ascii (P := fun c => ∀ d ∈ digit? c, DecimalDigit c d) (by decide) hascii d hread
  · intro hdigit
    have hall : ∀ p ∈ "0123456789".toList.zipIdx, digit? p.1 = some p.2 := by decide
    exact hall (c, d) (List.mk_mem_zipIdx_iff_getElem?.mpr hdigit)

/-- There are few hexadecimal digits, so what is to be so of all can be
checked of each. -/
theorem HexDigit.mem (h : HexDigit c d) :
    (c, d) ∈ "0123456789abcdef".toList.zipIdx ++ "0123456789ABCDEF".toList.zipIdx := by
  rw [List.mem_append, List.mk_mem_zipIdx_iff_getElem?, List.mk_mem_zipIdx_iff_getElem?]
  exact h

/-- What is read as a hexadecimal digit is one, with its value. -/
theorem hexValue?_eq_some : hexValue? c = some d ↔ HexDigit c d := by
  constructor
  · intro hread
    have hascii : c.toNat < 128 := by
      unfold hexValue? at hread
      split at hread
      · rename_i hrange
        exact Nat.lt_of_le_of_lt (show c.toNat ≤ 57 from hrange.2) (by decide)
      · split at hread
        · rename_i hrange
          exact Nat.lt_of_le_of_lt (show c.toNat ≤ 102 from hrange.2) (by decide)
        · split at hread
          · rename_i hrange
            exact Nat.lt_of_le_of_lt (show c.toNat ≤ 70 from hrange.2) (by decide)
          · cases hread
    exact forall_ascii (P := fun c => ∀ d ∈ hexValue? c, HexDigit c d) (by decide) hascii d hread
  · intro hdigit
    have hall : ∀ p ∈ "0123456789abcdef".toList.zipIdx ++ "0123456789ABCDEF".toList.zipIdx,
        hexValue? p.1 = some p.2 := by
      decide
    exact hall (c, d) hdigit.mem

/-- A hexadecimal digit takes one byte, and is no sign. -/
theorem HexDigit.plain (h : HexDigit c d) : c.utf8Size = 1 ∧ c ≠ '+' := by
  have hall : ∀ p ∈ "0123456789abcdef".toList.zipIdx ++ "0123456789ABCDEF".toList.zipIdx,
      p.1.utf8Size = 1 ∧ p.1 ≠ '+' := by
    decide
  exact hall (c, d) h.mem

/-- Digits are read for their value, whether or not they begin with zeros. -/
theorem Digits.read (h : Digits cs n) : natural? cs = some n := by
  induction h with
  | one hdigit => 
      rw [natural?, digitsFrom, digit?_eq_some.mpr hdigit]
      simp [digitsFrom]
  | @snoc cs n c d hbefore hdigit ih =>
      have hsome : cs ≠ [] := by
        rintro rfl
        cases ih
      rw [natural?_eq_digitsFrom hsome] at ih
      rw [natural?_eq_digitsFrom (by simp), digitsFrom_append, ih, Option.bind_some, digitsFrom,
        digit?_eq_some.mpr hdigit, Option.bind_some, digitsFrom]

/-- What is no digit is not among digits, so digits end where something else
begins. -/
theorem Digits.not_mem (h : Digits cs n) (hother : ¬ IsDigit c) : c ∉ cs := by
  have habsent : ∀ {c' : Char} {d : Nat}, DecimalDigit c' d → c ≠ c' := by
    rintro c' d hdigit rfl
    exact hother (Option.isSome_iff_exists.mpr ⟨d, digit?_eq_some.mpr hdigit⟩)
  induction h with
  | one hdigit => exact fun hmem => habsent hdigit (List.mem_singleton.mp hmem)
  | snoc _ hdigit ih =>
      exact fun hmem => (List.mem_append.mp hmem).elim ih
        fun hlast => habsent hdigit (List.mem_singleton.mp hlast)

/-- **A natural number is read where there are digits, and nothing else**, and
it is their value. -/
theorem natural?_eq_some : natural? cs = some n ↔ Digits cs n := by
  refine ⟨fun hread => ?_, Digits.read⟩
  induction cs using List.reverseRecOn generalizing n with
  | nil => cases hread
  | append_singleton cs c ih =>
      rw [natural?_eq_digitsFrom (by simp), digitsFrom_append, Option.bind_eq_some_iff] at hread
      obtain ⟨m, hbefore, hlast⟩ := hread
      obtain ⟨d, hdigit, hsame⟩ := Option.bind_eq_some_iff.mp hlast
      cases hsame
      by_cases hfirst : cs = []
      · subst hfirst
        cases hbefore
        rw [Nat.mul_zero, Nat.zero_add]
        exact .one (digit?_eq_some.mp hdigit)
      · rw [← natural?_eq_digitsFrom hfirst] at hbefore
        exact .snoc (ih hbefore) (digit?_eq_some.mp hdigit)

/-- What is neither a digit nor the sign is not in a numeral. -/
theorem Numeral.not_mem (h : Numeral cs n) (hother : ¬ IsDigit c) (hunsigned : c ≠ '+') :
    c ∉ cs := by
  cases h with
  | plain hdigits => exact hdigits.not_mem hother
  | signed hdigits => exact List.not_mem_cons_of_ne_of_not_mem hunsigned (hdigits.not_mem hother)

/-- A number that is not too large is read where there is a numeral. -/
theorem bounded?_eq_some : bounded? limit cs = some n ↔ Numeral cs n ∧ n ≤ limit := by
  have hunsigned : unsigned? cs = some n ↔ Numeral cs n := by
    fun_cases unsigned? cs with
    | case1 rest =>
        rw [natural?_eq_some]
        constructor
        · exact .signed
        · intro hnumeral
          cases hnumeral with
          | signed hdigits => exact hdigits
          | plain hdigits => cases hdigits.read
    | case2 _ hunsigned =>
        rw [natural?_eq_some]
        constructor
        · exact .plain
        · intro hnumeral
          cases hnumeral with
          | plain hdigits => exact hdigits
          | signed hdigits => exact absurd rfl (hunsigned _)
  rw [bounded?, Option.filter_eq_some_iff, hunsigned, decide_eq_true_eq]

end OpcSession.Text
