import OpcSession.Binary64.Shortest
import OpcSession.Proofs.Binary64.Rounding
import OpcSession.Proofs.Text.Digits

/-!
# The decimal of a double reads back

The text of a double is made of the shortest decimal that rounds to the
double.  Whether a decimal does so depends on its value alone, so zeros may
be moved from the coefficient to the exponent and back; and where no short
decimal does, the exact one is left.

* `readsBack_shortest` — the shortest decimal rounds to its double;
* `ofDecimal?_of_readsBack` — a decimal that rounds to a finite double is
  read as the double, whatever its exponent;
* `ofDecimal?_small` — a natural below the last power of two is in range.

Readers are taken to round correctly: `ofDecimal?` gives the nearest double, of
however many digits the decimal is.
-/

namespace OpcSession.Binary64

/-! ## The value of a decimal -/

/-- The number that a decimal stands for; many decimals stand for the same. -/
def Decimal.value (d : Decimal) : ℚ := d.coefficient * (10 : ℚ) ^ d.exponent

/-- A decimal as a quotient of naturals, which is how it is rounded. -/
def Decimal.fraction (d : Decimal) : Nat × Nat :=
  match d.exponent with
  | .ofNat e => (d.coefficient * Nat.pow 10 e, 1)
  | .negSucc e => (d.coefficient, Nat.pow 10 (e + 1))

theorem Decimal.fraction_pos (d : Decimal) : 0 < d.fraction.2 := by
  unfold fraction
  split
  · exact Nat.one_pos
  · exact Nat.pow_pos (by decide)

theorem Decimal.fraction_value (d : Decimal) :
    (d.fraction.1 : ℚ) / d.fraction.2 = d.value := by
  obtain ⟨c, e⟩ := d
  cases e with
  | ofNat e =>
      show ((c * 10 ^ e : Nat) : ℚ) / (1 : Nat) = c * 10 ^ (e : Int)
      push_cast
      rw [div_one, zpow_natCast]
  | negSucc e =>
      show (c : ℚ) / ((10 ^ (e + 1) : Nat) : ℚ) = c * 10 ^ (Int.negSucc e)
      push_cast
      rw [zpow_negSucc, div_eq_mul_inv]

/-- Whether a decimal reads back is whether its quotient is rounded to the
word. -/
theorem readsBack_eq (word : Nat) (d : Decimal) :
    readsBack word d = decide (roundWord d.fraction.1 d.fraction.2 = word) := by
  obtain ⟨c, e⟩ := d
  cases e <;> rfl

/-- **Whether a decimal reads back depends on its value alone**, since
rounding does. -/
theorem readsBack_congr {d d' : Decimal} (hsame : d.value = d'.value) (word : Nat) :
    readsBack word d = readsBack word d' := by
  rw [← d.fraction_value, ← d'.fraction_value] at hsame
  rw [readsBack_eq, readsBack_eq, roundWord_congr d.fraction_pos d'.fraction_pos hsame]

/-- Only a decimal with no digits but zeros is zero. -/
theorem Decimal.coefficient_eq_zero {d : Decimal} : d.value = 0 ↔ d.coefficient = 0 := by
  have hpower : (10 : ℚ) ^ d.exponent ≠ 0 := zpow_ne_zero _ (by norm_num)
  rw [value, mul_eq_zero, or_iff_left hpower, Nat.cast_eq_zero]

/-- What reads back as more than zero is more than zero, so a double that is
not zero has digits to write. -/
theorem coefficient_pos {word : Nat} {d : Decimal} (hpositive : 0 < word)
    (hback : readsBack word d = true) : 0 < d.coefficient := by
  by_contra hnone
  have hzero : d.fraction.1 = 0 := by
    have hvalue := Decimal.coefficient_eq_zero.mpr (Nat.eq_zero_of_not_pos hnone)
    rw [← d.fraction_value, ratio_eq_zero d.fraction_pos] at hvalue
    exact hvalue
  rw [readsBack_eq, hzero, roundWord_zero, decide_eq_true_eq] at hback
  omega

/-! ## The shortest decimal -/

/-- The exact decimal of a double has its value: a power of two below the
point is one of ten with enough digits. -/
theorem value_exact (word : Nat) : (exact word).value = valueOf word := by
  unfold exact valueOf
  generalize parts word = p
  obtain ⟨m, q⟩ := p
  cases q with
  | ofNat q =>
      show ((m * 2 ^ q : Nat) : ℚ) * 10 ^ (0 : Int) = m * 2 ^ (q : Int)
      push_cast
      rw [mul_one, zpow_natCast]
  | negSucc q =>
      show ((m * 5 ^ (q + 1) : Nat) : ℚ) * 10 ^ (Int.negSucc q) = m * 2 ^ (Int.negSucc q)
      have hten : (10 : ℚ) ^ (q + 1) = 2 ^ (q + 1) * 5 ^ (q + 1) := by
        rw [← mul_pow]
        norm_num
      have hfive : (5 : ℚ) ^ (q + 1) ≠ 0 := pow_ne_zero _ (by norm_num)
      push_cast
      rw [zpow_negSucc, zpow_negSucc, hten, mul_inv, mul_assoc, mul_comm (5 ^ (q + 1)),
        mul_assoc, inv_mul_cancel₀ hfive, mul_one]

/-- The exact decimal of a double reads back as the double, however many
digits it takes. -/
theorem readsBack_exact (word : Nat) : readsBack word (exact word) = true := by
  rw [readsBack_eq, decide_eq_true_eq]
  have hvalue := (exact word).fraction_value.trans (value_exact word)
  exact roundWord_valueOf (exact word).fraction_pos hvalue

/-- To strip zeros off the end moves them to the exponent, and changes no
value. -/
theorem value_strip (fuel : Nat) (d : Decimal) : (strip fuel d).value = d.value := by
  induction fuel generalizing d with
  | zero => rfl
  | succ fuel ih =>
      rw [strip]
      split
      · next hzero =>
          have htenth : d.coefficient = d.coefficient / 10 * 10 := by omega
          have hcast : (d.coefficient : ℚ) = (d.coefficient / 10 : Nat) * 10 := by
            exact_mod_cast htenth
          rw [ih, Decimal.value, Decimal.value, hcast, zpow_add₀ (by norm_num), zpow_one]
          ring
      · rfl

/-- A decimal that was found among those of so many digits was found because
it reads back. -/
theorem readsBack_onGrid {tie : Tie} {word digits : Nat} {d : Decimal}
    (hfound : onGrid tie word digits = some d) : readsBack word d = true := by
  have heither : ∀ {below above : Decimal} {up : Bool}, readsBack word below = true →
      readsBack word above = true → readsBack word (if up then above else below) = true := by
    intro below above up hbelow habove
    cases up
    · exact hbelow
    · exact habove
  unfold onGrid at hfound
  simp only at hfound
  split at hfound
  · next hbelow habove =>
      rw [← Option.some.inj hfound]
      exact heither hbelow habove
  · next hbelow _ => exact Option.some.inj hfound ▸ hbelow
  · next _ habove => exact Option.some.inj hfound ▸ habove
  · cases hfound

/-- **The shortest decimal rounds to its double.**  It is one that was found,
or else the exact one. -/
theorem readsBack_shortest (tie : Tie) (word : Nat) :
    readsBack word (shortest tie word) = true := by
  rw [shortest, readsBack_congr (value_strip 20 _)]
  cases hfound : ((List.range 17).map (· + 1)).findSome? (onGrid tie word) with
  | none => exact readsBack_exact word
  | some d =>
      obtain ⟨digits, -, hgrid⟩ := List.exists_of_findSome?_eq_some hfound
      exact readsBack_onGrid hgrid

/-! ## Reading decimals -/

/-- A number of `k` digits lies between two powers of ten, which bounds the
value of a decimal by its exponent. -/
theorem decimalLength_bounds {n : Nat} (hpositive : 0 < n) :
    10 ^ (decimalLength n - 1) ≤ n ∧ n < 10 ^ decimalLength n := by
  induction n using Text.decimal.induct with
  | case1 n hsmall =>
      rw [decimalLength, if_pos hsmall]
      omega
  | case2 n hlarge ih =>
      obtain ⟨hlow, hhigh⟩ := ih (by omega)
      have hsome : 0 < decimalLength (n / 10) := by
        rw [decimalLength]
        split <;> omega
      have hstep : 10 ^ decimalLength (n / 10) = 10 ^ (decimalLength (n / 10) - 1) * 10 := by
        rw [← Nat.pow_succ]
        congr 1
        omega
      rw [decimalLength, if_neg hlarge, Nat.add_sub_cancel, Nat.pow_succ]
      omega

section Reading

variable {negative : Bool} {c word : Nat} {e : Int}

/-- Zero is read as zero under whatever exponent, with its sign. -/
theorem ofDecimal?_zero : ofDecimal? negative 0 e = some (ofMagnitude negative 0) := if_pos rfl

/-- Within the bounds on the exponent the quotient is rounded; beyond them it
would come to the same, without being computed. -/
theorem ofDecimal?_eq (hpositive : 0 < c) (hlow : -400 ≤ (decimalLength c : Int) + e)
    (hhigh : (decimalLength c : Int) + e ≤ 400) :
    ofDecimal? negative c e =
      ofRatio? negative (Decimal.mk c e).fraction.1 (Decimal.mk c e).fraction.2 := by
  unfold ofDecimal?
  rw [if_neg (by omega)]
  simp only
  rw [if_neg (by omega), if_neg (by omega)]
  cases e <;> rfl

/-- The bounds on the exponent leave out only what is rounded to infinity or
to zero. -/
theorem top_bounds (hpositive : 0 < word) (hfinite : word < infinityWord)
    (hback : readsBack word ⟨c, e⟩ = true) :
    -400 ≤ (decimalLength c : Int) + e ∧ (decimalLength c : Int) + e ≤ 400 := by
  have hsome : 0 < c := coefficient_pos hpositive hback
  have hrounded : roundWord (Decimal.mk c e).fraction.1 (Decimal.mk c e).fraction.2 = word := by
    rw [readsBack_eq, decide_eq_true_eq] at hback
    exact hback
  have hvalue := (Decimal.mk c e).fraction_value
  have hpos := (Decimal.mk c e).fraction_pos
  obtain ⟨hlow, hhigh⟩ := decimalLength_bounds hsome
  have hdigits : 0 < decimalLength c := by
    rw [decimalLength]
    split <;> omega
  have htenPos : (0 : ℚ) < 10 ^ e := zpow_pos (by norm_num) e
  constructor
  · by_contra houtside
    have htiny : (Decimal.mk c e).value < 2 ^ (-1075 : Int) := by
      have hcast : (c : ℚ) ≤ 10 ^ (decimalLength c : Int) := by exact_mod_cast hhigh.le
      calc (Decimal.mk c e).value ≤ 10 ^ (decimalLength c : Int) * 10 ^ e :=
            mul_le_mul_of_nonneg_right hcast htenPos.le
        _ = 10 ^ ((decimalLength c : Int) + e) := (zpow_add₀ (by norm_num) _ _).symm
        _ ≤ 10 ^ (-400 : Int) := zpow_le_zpow_right₀ (by norm_num) (by omega)
        _ = (10 ^ 4) ^ (-100 : Int) := by rw [← zpow_natCast, ← zpow_mul]; rfl
        _ < (2 ^ 11) ^ (-100 : Int) := by
            rw [zpow_neg, zpow_neg]
            gcongr
            norm_num
        _ = 2 ^ (-1100 : Int) := by rw [← zpow_natCast, ← zpow_mul]; rfl
        _ ≤ 2 ^ (-1075 : Int) := zpow_le_zpow_right₀ (by norm_num) (by omega)
    rw [roundWord_tiny hpos (hvalue ▸ htiny)] at hrounded
    omega
  · by_contra houtside
    have hlarge : (2 : ℚ) ^ (1024 : Int) ≤ (Decimal.mk c e).value := by
      have hcast : (10 : ℚ) ^ ((decimalLength c : Int) - 1) ≤ c := by
        have hpower : ((decimalLength c : Int) - 1) = ((decimalLength c - 1 : Nat) : Int) := by
          omega
        rw [hpower]
        exact_mod_cast hlow
      calc (2 : ℚ) ^ (1024 : Int) ≤ 2 ^ (1200 : Int) :=
            zpow_le_zpow_right₀ (by norm_num) (by omega)
        _ = (2 ^ 3) ^ (400 : Int) := by rw [← zpow_natCast, ← zpow_mul]; rfl
        _ ≤ 10 ^ (400 : Int) := zpow_le_zpow_left₀ (by decide) (by norm_num) (by norm_num)
        _ ≤ 10 ^ ((decimalLength c : Int) - 1 + e) :=
            zpow_le_zpow_right₀ (by norm_num) (by omega)
        _ = 10 ^ ((decimalLength c : Int) - 1) * 10 ^ e := zpow_add₀ (by norm_num) _ _
        _ ≤ (Decimal.mk c e).value := mul_le_mul_of_nonneg_right hcast htenPos.le
    have := le_roundWord hpos (hvalue ▸ hlarge)
    omega

/-- **A decimal that rounds to a finite double is read as the double.** -/
theorem ofDecimal?_of_readsBack (hpositive : 0 < word) (hfinite : word < infinityWord)
    (hback : readsBack word ⟨c, e⟩ = true) :
    ofDecimal? negative c e = some (ofMagnitude negative word) := by
  have hsome : 0 < c := coefficient_pos hpositive hback
  obtain ⟨hlow, hhigh⟩ := top_bounds hpositive hfinite hback
  rw [readsBack_eq, decide_eq_true_eq] at hback
  rw [ofDecimal?_eq hsome hlow hhigh, ofRatio?, hback, if_pos hfinite]

/-- A natural of 64 bits is in range, so integers are always read as
doubles. -/
theorem ofDecimal?_small (hsmall : c < 2 ^ 64) : (ofDecimal? negative c 0).isSome := by
  by_cases hzero : c = 0
  · rw [hzero, ofDecimal?_zero]
    rfl
  have hpositive := Nat.pos_of_ne_zero hzero
  have hshort : decimalLength c ≤ 20 := by
    have hlow := (decimalLength_bounds hpositive).1
    have hpower : 10 ^ (decimalLength c - 1) < 10 ^ 20 :=
      Nat.lt_of_le_of_lt hlow (Nat.lt_trans hsmall (by decide))
    have := (Nat.pow_lt_pow_iff_right (by decide)).mp hpower
    omega
  have hratio : ((c * Nat.pow 10 0 : Nat) : ℚ) / (1 : Nat) < 2 ^ (1023 : Int) := by
    have hcast : (c : ℚ) < 2 ^ (64 : Int) := by exact_mod_cast hsmall
    calc ((c * Nat.pow 10 0 : Nat) : ℚ) / (1 : Nat) = c := by simp
      _ < 2 ^ (64 : Int) := hcast
      _ ≤ 2 ^ (1023 : Int) := zpow_le_zpow_right₀ (by norm_num) (by omega)
  have hfinite := roundWord_lt Nat.one_pos hratio
  have hrounded : ofDecimal? negative c 0 = ofRatio? negative (c * Nat.pow 10 0) 1 :=
    ofDecimal?_eq hpositive (by omega) (by omega)
  rw [hrounded, ofRatio?, if_pos hfinite]
  rfl

end Reading

/-- A double is its sign and its magnitude, and is found again from both. -/
theorem ofMagnitude_magnitude (x : Binary64) : ofMagnitude x.isNegative x.magnitude = x := by
  obtain ⟨bits⟩ := x
  have hbound : bits.toNat < 2 ^ 64 := bits.toNat_lt
  have hword : (if Nat.pow 2 63 ≤ bits.toNat then Nat.pow 2 63 + bits.toNat % Nat.pow 2 63
      else bits.toNat % Nat.pow 2 63) = bits.toNat := by
    have hpower : Nat.pow 2 63 = 2 ^ 63 := rfl
    rw [hpower]
    split <;> omega
  simp only [ofMagnitude, isNegative, magnitude, decide_eq_true_eq, hword, UInt64.ofNat_toNat]

end OpcSession.Binary64
