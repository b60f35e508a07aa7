import Mathlib.Algebra.Order.Field.Power
import Mathlib.Data.Int.Log
import Mathlib.Data.Rat.Floor
import Mathlib.Tactic.GCongr
import Mathlib.Tactic.Linarith
import Mathlib.Tactic.NormNum
import Mathlib.Tactic.Positivity
import Mathlib.Tactic.Ring
import OpcSession.Binary64.Basic

/-!
# Rounding: a quotient as the word of a double

Rounding works on naturals, but its result depends on nothing but the
rational number that the two naturals stand for: the exponent is the binary
logarithm of the number, kept above the least exponent there is, and a
quotient and its multiples have the same nearest natural.

* `roundWord_congr` — equal quotients are rounded to the same word;
* `roundWord_valueOf` — a number that is a double is rounded to itself;
* `le_roundWord`, `roundWord_lt` and `roundWord_tiny` — where rounding
  leaves the range, where it stays in it, and where it reaches zero.
-/

namespace OpcSession.Binary64

/-! ## Nearest naturals -/

theorem nearestEven_mul {k : Nat} (hpositive : 0 < k) (n d : Nat) :
    nearestEven (n * k) (d * k) = nearestEven n d := by
  have hwhole : n * k / (d * k) = n / d := Nat.mul_div_mul_right n d hpositive
  have hrest : n * k % (d * k) = n % d * k := Nat.mul_mod_mul_right k n d
  have hbelow : 2 * (n % d * k) < d * k ↔ 2 * (n % d) < d := by
    rw [← Nat.mul_assoc]
    exact Nat.mul_lt_mul_right hpositive
  have habove : d * k < 2 * (n % d * k) ↔ d < 2 * (n % d) := by
    rw [← Nat.mul_assoc]
    exact Nat.mul_lt_mul_right hpositive
  simp only [nearestEven, hwhole, hrest, hbelow, habove]

/-- The nearest natural depends only on the quotient, and not on how it is
written. -/
theorem nearestEven_congr {n d n' d' : Nat} (hd : 0 < d) (hd' : 0 < d')
    (hsame : n * d' = n' * d) : nearestEven n d = nearestEven n' d' := by
  calc nearestEven n d = nearestEven (n * d') (d * d') := (nearestEven_mul hd' n d).symm
    _ = nearestEven (n' * d) (d' * d) := by rw [hsame, Nat.mul_comm d d']
    _ = nearestEven n' d' := nearestEven_mul hd n' d'

theorem nearestEven_whole {m d : Nat} (hd : 0 < d) : nearestEven (m * d) d = m := by
  have hrest : m * d % d = 0 := Nat.mul_mod_left m d
  rw [nearestEven, Nat.mul_div_cancel m hd, hrest, if_pos (by simpa using hd)]

/-- What is at least a whole number is rounded to no less. -/
theorem le_nearestEven {m n d : Nat} (hd : 0 < d) (h : m * d ≤ n) : m ≤ nearestEven n d := by
  have hwhole : m ≤ n / d := (Nat.le_div_iff_mul_le hd).mpr h
  unfold nearestEven
  simp only
  split_ifs <;> omega

/-- What is less than a whole number is rounded to no more. -/
theorem nearestEven_le {m n d : Nat} (hd : 0 < d) (h : n < m * d) : nearestEven n d ≤ m := by
  have hwhole : n / d < m := (Nat.div_lt_iff_lt_mul hd).mpr h
  unfold nearestEven
  simp only
  split_ifs <;> omega

theorem nearestEven_zero {n d : Nat} (h : 2 * n < d) : nearestEven n d = 0 := by
  have hsmall : n < d := by omega
  rw [nearestEven, Nat.div_eq_of_lt hsmall, Nat.mod_eq_of_lt hsmall, if_pos h]

/-! ## Powers of two -/

theorem two_zpow_pos (q : Int) : (0 : ℚ) < 2 ^ q := zpow_pos (by norm_num) q

theorem two_zpow_add (p q : Int) : (2 : ℚ) ^ (p + q) = 2 ^ p * 2 ^ q :=
  zpow_add₀ (by norm_num) p q

/-- The binary logarithm is less than an exponent if the number is less than
that power. -/
theorem log_lt {v : ℚ} (hpositive : 0 < v) {q : Int} : Int.log 2 v < q ↔ v < 2 ^ q := by
  have hlaw := Int.lt_zpow_iff_log_lt (b := 2) (by decide) hpositive (x := q)
  exact_mod_cast hlaw.symm

/-- The binary exponent of a number is no less than an exponent if the number
is no less than that power of two. -/
theorem le_log {v : ℚ} (hpositive : 0 < v) {q : Int} : q ≤ Int.log 2 v ↔ 2 ^ q ≤ v := by
  rw [← not_lt, log_lt hpositive, not_lt]

/-! ## Scaling -/

theorem scaled_pos {den : Nat} (num : Nat) (hden : 0 < den) (q : Int) :
    0 < (scaled num den q).2 := by
  cases q with
  | ofNat q => exact Nat.mul_pos hden (Nat.pow_pos (by decide))
  | negSucc q => exact hden

/-- Scaling divides the quotient by a power of two, without leaving the
naturals. -/
theorem scaled_ratio (num den : Nat) (q : Int) :
    ((scaled num den q).1 : ℚ) / (scaled num den q).2 = num / den / 2 ^ q := by
  cases q with
  | ofNat q =>
      show (num : ℚ) / ((den * 2 ^ q : Nat) : ℚ) = _
      push_cast
      rw [div_div]
      rfl
  | negSucc q =>
      show ((num * 2 ^ (q + 1) : Nat) : ℚ) / den = _
      push_cast
      rw [zpow_negSucc, div_inv_eq_mul]
      ring

section Scaled

variable {num den m : Nat} {q : Int}

/-- To compare a scaled quotient with a natural is to compare the quotient
with a multiple of the power. -/
theorem le_scaled (hden : 0 < den) :
    m * (scaled num den q).2 ≤ (scaled num den q).1 ↔ (m : ℚ) * 2 ^ q ≤ num / den := by
  have hpos : (0 : ℚ) < (scaled num den q).2 := by exact_mod_cast scaled_pos num hden q
  rw [← le_div_iff₀ (two_zpow_pos q), ← scaled_ratio, le_div_iff₀ hpos]
  exact_mod_cast Iff.rfl

theorem scaled_lt (hden : 0 < den) :
    (scaled num den q).1 < m * (scaled num den q).2 ↔ (num : ℚ) / den < m * 2 ^ q := by
  rw [← not_le, le_scaled hden, not_le]

/-- A quotient that is a multiple of the power is scaled to that natural. -/
theorem scaled_eq (hden : 0 < den) (hvalue : (num : ℚ) / den = m * 2 ^ q) :
    (scaled num den q).1 = m * (scaled num den q).2 := by
  have hpos : ((scaled num den q).2 : ℚ) ≠ 0 := by
    exact_mod_cast (scaled_pos num hden q).ne'
  have hratio := scaled_ratio num den q
  rw [hvalue, mul_div_cancel_right₀ _ (two_zpow_pos q).ne', div_eq_iff hpos] at hratio
  exact_mod_cast hratio

end Scaled

/-! ## The exponent -/

section Exponent

variable {num den : Nat}

theorem ratio_pos (hnum : 0 < num) (hden : 0 < den) : (0 : ℚ) < num / den := by
  have hn : (0 : ℚ) < num := by exact_mod_cast hnum
  have hd : (0 : ℚ) < den := by exact_mod_cast hden
  exact div_pos hn hd

/-- The difference of two logarithms is the logarithm of the quotient or one
more. -/
theorem log_ratio (hnum : 0 < num) (hden : 0 < den) :
    (Nat.log2 num : Int) - Nat.log2 den - 1 ≤ Int.log 2 ((num : ℚ) / den) ∧
      Int.log 2 ((num : ℚ) / den) ≤ (Nat.log2 num : Int) - Nat.log2 den := by
  have hnumLow : (2 : ℚ) ^ (Nat.log2 num : Int) ≤ num := by
    exact_mod_cast Nat.log2_self_le (by omega : num ≠ 0)
  have hnumHigh : (num : ℚ) < 2 ^ ((Nat.log2 num : Int) + 1) := by
    exact_mod_cast Nat.lt_log2_self (n := num)
  have hdenLow : (2 : ℚ) ^ (Nat.log2 den : Int) ≤ den := by
    exact_mod_cast Nat.log2_self_le (by omega : den ≠ 0)
  have hdenHigh : (den : ℚ) < 2 ^ ((Nat.log2 den : Int) + 1) := by
    exact_mod_cast Nat.lt_log2_self (n := den)
  have hd : (0 : ℚ) < den := by exact_mod_cast hden
  have hpositive := ratio_pos hnum hden
  generalize (Nat.log2 num : Int) = a at *
  generalize (Nat.log2 den : Int) = b at *
  constructor
  · rw [le_log hpositive, le_div_iff₀ hd]
    calc (2 : ℚ) ^ (a - b - 1) * den
        ≤ 2 ^ (a - b - 1) * 2 ^ (b + 1) :=
          mul_le_mul_of_nonneg_left hdenHigh.le (two_zpow_pos _).le
      _ = 2 ^ a := by
          rw [← two_zpow_add]
          congr 1
          omega
      _ ≤ num := hnumLow
  · have hhigh : (num : ℚ) / den < 2 ^ (a - b + 1) := by
      rw [div_lt_iff₀ hd]
      calc (num : ℚ) < 2 ^ (a + 1) := hnumHigh
        _ = 2 ^ (a - b + 1) * 2 ^ b := by
            rw [← two_zpow_add]
            congr 1
            omega
        _ ≤ 2 ^ (a - b + 1) * den :=
            mul_le_mul_of_nonneg_left hdenLow (two_zpow_pos _).le
    have := (log_lt hpositive).mpr hhigh
    omega

/-- The exponent is the logarithm of the number, less the bits of a mantissa
behind the first. -/
theorem exponentOf_eq (hnum : 0 < num) (hden : 0 < den) :
    exponentOf num den = max (Int.log 2 ((num : ℚ) / den) - 52) (-1074) := by
  obtain ⟨hlow, hhigh⟩ := log_ratio hnum hden
  have hpositive := ratio_pos hnum hden
  let guess : Int := (Nat.log2 num : Int) - (Nat.log2 den : Int) - 52
  let n := (scaled num den guess).1
  let d := (scaled num den guess).2
  -- The guess is one too large exactly if the mantissa has too few bits.
  have hshort : n < d * Nat.pow 2 52 ↔ Int.log 2 ((num : ℚ) / den) < guess + 52 := by
    have hbits : ((2 ^ 52 : Nat) : ℚ) * 2 ^ guess = 2 ^ (guess + 52) := by
      rw [two_zpow_add, mul_comm]
      norm_num
    rw [log_lt hpositive, ← hbits, ← scaled_lt hden, Nat.mul_comm]
    exact Iff.rfl
  show max (if n < d * Nat.pow 2 52 then guess - 1 else guess) (-1074) = _
  by_cases h : n < d * Nat.pow 2 52
  · have hexact := hshort.mp h
    rw [if_pos h]
    congr 1
    omega
  · have hexact := mt hshort.mpr h
    rw [if_neg h]
    congr 1
    omega

/-- Rounding by the exponent of the number: the logarithm less 52, but not
below the least that there is. -/
theorem roundWord_eq (hnum : 0 < num) (hden : 0 < den) {q : Int}
    (hexponent : max (Int.log 2 ((num : ℚ) / den) - 52) (-1074) = q) :
    roundWord num den = (q + 1074).toNat * 2 ^ 52
      + nearestEven (scaled num den q).1 (scaled num den q).2 := by
  rw [roundWord, if_neg (by omega), exponentOf_eq hnum hden, hexponent]
  rfl

theorem roundWord_zero (den : Nat) : roundWord 0 den = 0 := if_pos rfl

end Exponent

theorem ratio_eq_zero {num den : Nat} (hden : 0 < den) : (num : ℚ) / den = 0 ↔ num = 0 := by
  have hd : (den : ℚ) ≠ 0 := by exact_mod_cast hden.ne'
  rw [div_eq_zero_iff, or_iff_left hd, Nat.cast_eq_zero]

/-- **Equal quotients are rounded to the same word**, so rounding is a
function of rational numbers. -/
theorem roundWord_congr {num den num' den' : Nat} (hden : 0 < den) (hden' : 0 < den')
    (hsame : (num : ℚ) / den = num' / den') : roundWord num den = roundWord num' den' := by
  by_cases hzero : num = 0
  · have hzero' : num' = 0 :=
      (ratio_eq_zero hden').mp (hsame.symm.trans ((ratio_eq_zero hden).mpr hzero))
    rw [hzero, hzero', roundWord_zero, roundWord_zero]
  · have hzero' : num' ≠ 0 := fun h =>
      hzero ((ratio_eq_zero hden).mp (hsame.trans ((ratio_eq_zero hden').mpr h)))
    rw [roundWord_eq (Nat.pos_of_ne_zero hzero) hden rfl,
      roundWord_eq (Nat.pos_of_ne_zero hzero') hden' rfl, hsame]
    generalize max (Int.log 2 ((num' : ℚ) / den') - 52) (-1074) = q
    congr 1
    have hpos := scaled_pos num hden q
    have hpos' := scaled_pos num' hden' q
    have hratio : ((scaled num den q).1 : ℚ) / (scaled num den q).2 =
        (scaled num' den' q).1 / (scaled num' den' q).2 := by
      rw [scaled_ratio, scaled_ratio, hsame]
    rw [div_eq_div_iff (by exact_mod_cast hpos.ne') (by exact_mod_cast hpos'.ne')] at hratio
    exact nearestEven_congr hpos hpos' (by exact_mod_cast hratio)

/-! ## Doubles are rounded to themselves -/

/-- The number that a magnitude word stands for, also where that is
subnormal. -/
def valueOf (word : Nat) : ℚ := (parts word).1 * (2 : ℚ) ^ (parts word).2

/-- A mantissa and its exponent: a subnormal number, or a mantissa of 53
bits. -/
theorem parts_cases (word : Nat) :
    (word < 2 ^ 52 ∧ parts word = (word, -1074)) ∨
      ∃ m : Nat, ∃ q : Int, parts word = (m, q) ∧ 2 ^ 52 ≤ m ∧ m < 2 ^ 53 ∧ -1074 ≤ q ∧
        (q + 1074).toNat * 2 ^ 52 + m = word := by
  by_cases hfield : word / 2 ^ 52 = 0
  · have hsmall : word < 2 ^ 52 := by omega
    exact .inl ⟨hsmall, if_pos hfield⟩
  · have hnormal : parts word = (word % 2 ^ 52 + 2 ^ 52, ((word / 2 ^ 52 : Nat) : Int) - 1075) :=
      (if_neg hfield : ite (word / 2 ^ 52 = 0) _ _ = _)
    refine .inr ⟨_, _, hnormal, ?_⟩
    omega

theorem valueOf_eq_zero {word : Nat} : valueOf word = 0 ↔ word = 0 := by
  have hmantissa : valueOf word = 0 ↔ (parts word).1 = 0 := by
    rw [valueOf, mul_eq_zero, or_iff_left (two_zpow_pos _).ne', Nat.cast_eq_zero]
  rcases parts_cases word with ⟨-, hparts⟩ | ⟨m, q, hparts, hlow, -, -, hsum⟩
  · rw [hmantissa, hparts]
  · rw [hmantissa, hparts]
    simp only
    omega

/-- **A number that is a double is rounded to itself**, be it normal or
subnormal. -/
theorem roundWord_valueOf {num den word : Nat} (hden : 0 < den)
    (hexact : (num : ℚ) / den = valueOf word) : roundWord num den = word := by
  by_cases hzero : num = 0
  · have hnone : word = 0 :=
      valueOf_eq_zero.mp (hexact.symm.trans ((ratio_eq_zero hden).mpr hzero))
    rw [hzero, hnone, roundWord_zero]
  have hpositive := ratio_pos (Nat.pos_of_ne_zero hzero) hden
  -- The scaled quotient is the mantissa, once the exponent is the right one.
  have hmantissa : ∀ {m : Nat} {q : Int}, (num : ℚ) / den = m * 2 ^ q →
      nearestEven (scaled num den q).1 (scaled num den q).2 = m := fun hvalue => by
    rw [scaled_eq hden hvalue, nearestEven_whole (scaled_pos num hden _)]
  rcases parts_cases word with ⟨hsmall, hparts⟩ | ⟨m, q, hparts, hlow, hhigh, hleast, hsum⟩
  · have hvalue : (num : ℚ) / den = word * 2 ^ (-1074 : Int) := by rw [hexact, valueOf, hparts]
    have hbelow : (num : ℚ) / den < 2 ^ ((52 : Int) + -1074) := by
      have hcast : (word : ℚ) < 2 ^ (52 : Int) := by exact_mod_cast hsmall
      rw [hvalue, two_zpow_add]
      exact mul_lt_mul_of_pos_right hcast (two_zpow_pos _)
    have hlog := (log_lt hpositive).mpr hbelow
    rw [roundWord_eq (Nat.pos_of_ne_zero hzero) hden (q := -1074) (by omega), hmantissa hvalue]
    exact Nat.zero_add word
  · have hvalue : (num : ℚ) / den = m * 2 ^ q := by rw [hexact, valueOf, hparts]
    have hlog : Int.log 2 ((num : ℚ) / den) = q + 52 := by
      have hlowQ : (2 : ℚ) ^ (52 : Int) ≤ m := by exact_mod_cast hlow
      have hhighQ : (m : ℚ) < 2 ^ (53 : Int) := by exact_mod_cast hhigh
      have habove : (2 : ℚ) ^ (52 + q) ≤ num / den := by
        rw [hvalue, two_zpow_add]
        exact mul_le_mul_of_nonneg_right hlowQ (two_zpow_pos q).le
      have hbelow : (num : ℚ) / den < 2 ^ (53 + q) := by
        rw [hvalue, two_zpow_add]
        exact mul_lt_mul_of_pos_right hhighQ (two_zpow_pos q)
      have hatLeast := (le_log hpositive).mpr habove
      have hatMost := (log_lt hpositive).mpr hbelow
      omega
    rw [roundWord_eq (Nat.pos_of_ne_zero hzero) hden (q := q) (by omega), hmantissa hvalue]
    exact hsum

/-! ## The range -/

section Range

variable {num den : Nat}

/-- What is too large is rounded to infinity or beyond, and so is refused. -/
theorem le_roundWord (hden : 0 < den) (hlarge : (2 : ℚ) ^ (1024 : Int) ≤ num / den) :
    infinityWord ≤ roundWord num den := by
  have hpositive : (0 : ℚ) < num / den := lt_of_lt_of_le (two_zpow_pos 1024) hlarge
  have hnum : 0 < num := by
    rcases Nat.eq_zero_or_pos num with h | h
    · exact absurd ((ratio_eq_zero hden).mpr h) hpositive.ne'
    · exact h
  have hlog := (le_log hpositive).mpr hlarge
  have hlower := (le_log hpositive).mp (Int.le_refl _)
  generalize hq : Int.log 2 ((num : ℚ) / den) = top at hlog hlower
  have hbits : ((2 ^ 52 : Nat) : ℚ) * 2 ^ (top - 52) ≤ num / den := by
    calc ((2 ^ 52 : Nat) : ℚ) * 2 ^ (top - 52) = 2 ^ (52 + (top - 52)) := by
          rw [two_zpow_add]
          norm_num
      _ ≤ num / den := by rwa [show 52 + (top - 52) = top by omega]
  have hmantissa := le_nearestEven (scaled_pos num hden (top - 52)) ((le_scaled hden).mpr hbits)
  have hwords : infinityWord = 2046 * 2 ^ 52 + 2 ^ 52 := by decide
  rw [roundWord_eq hnum hden (q := top - 52) (by omega), hwords]
  have hfield : 2046 ≤ (top - 52 + 1074).toNat := by omega
  have := Nat.mul_le_mul_right (2 ^ 52) hfield
  omega

/-- What is below the last power of two is rounded to a finite double. -/
theorem roundWord_lt (hden : 0 < den) (hsmall : (num : ℚ) / den < 2 ^ (1023 : Int)) :
    roundWord num den < infinityWord := by
  by_cases hzero : num = 0
  · rw [hzero, roundWord_zero]
    decide
  have hnum := Nat.pos_of_ne_zero hzero
  have hpositive := ratio_pos hnum hden
  have hlog := (log_lt hpositive).mpr hsmall
  have hupper := (log_lt hpositive).mp (Int.lt_succ _)
  generalize hq : Int.log 2 ((num : ℚ) / den) = top at hlog hupper
  generalize hmax : max (top - 52) (-1074) = q
  have hbits : (num : ℚ) / den < ((2 ^ 53 : Nat) : ℚ) * 2 ^ q := by
    calc (num : ℚ) / den < 2 ^ (top + 1) := hupper
      _ ≤ 2 ^ (53 + q) := zpow_le_zpow_right₀ (by norm_num) (by omega)
      _ = ((2 ^ 53 : Nat) : ℚ) * 2 ^ q := by
          rw [two_zpow_add]
          norm_num
  have hmantissa := nearestEven_le (scaled_pos num hden q) ((scaled_lt hden).mpr hbits)
  have hwords : infinityWord = 2045 * 2 ^ 52 + 2 * 2 ^ 52 := by decide
  rw [roundWord_eq hnum hden (q := q) (by rw [hq]; exact hmax), hwords]
  have hfield : (q + 1074).toNat ≤ 2044 := by omega
  have := Nat.mul_le_mul_right (2 ^ 52) hfield
  omega

/-- What is less than half the least double is rounded to zero. -/
theorem roundWord_tiny (hden : 0 < den) (htiny : (num : ℚ) / den < 2 ^ (-1075 : Int)) :
    roundWord num den = 0 := by
  by_cases hzero : num = 0
  · rw [hzero, roundWord_zero]
  have hnum := Nat.pos_of_ne_zero hzero
  have hpositive := ratio_pos hnum hden
  have hlog := (log_lt hpositive).mpr htiny
  -- Twice the number is below the least double.
  have hhalf : 2 * (scaled num den (-1074)).1 < (scaled num den (-1074)).2 := by
    have hpos : (0 : ℚ) < (scaled num den (-1074)).2 := by
      exact_mod_cast scaled_pos num hden (-1074)
    have hratio := scaled_ratio num den (-1074)
    have hquotient : (num : ℚ) / den / 2 ^ (-1074 : Int) < 1 / 2 := by
      rw [div_lt_iff₀ (two_zpow_pos _)]
      calc (num : ℚ) / den < 2 ^ (-1 + -1074 : Int) := htiny
        _ = 1 / 2 * 2 ^ (-1074 : Int) := by rw [two_zpow_add, zpow_neg_one, one_div]
    rw [← hratio, div_lt_iff₀ hpos] at hquotient
    have hdoubled : (2 : ℚ) * (scaled num den (-1074)).1 < (scaled num den (-1074)).2 := by
      linarith
    exact_mod_cast hdoubled
  rw [roundWord_eq hnum hden (q := -1074) (by omega), nearestEven_zero hhalf]
  rfl

end Range

end OpcSession.Binary64
