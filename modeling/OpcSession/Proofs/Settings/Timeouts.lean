import Mathlib.Algebra.Group.Nat.Defs
import OpcSession.Settings

/-!
# Timeouts that are too long to keep

A timeout is set from a duration and kept in whole milliseconds, for which there are 64 bits.  For
half a billion years that is the duration itself, and the longer one is set the longer one waits.
A duration of more milliseconds loses the bits that are too many, and may come out as no time at
all.  The hint to the server has 32 bits for them and says the most it can where the timeout is
longer.

* `Duration.asTimeout` — what a timeout has of a duration; `Duration.capped` — as much of the
  duration as there could be in a timeout;
* `asTimeout_eq_capped_iff`, `asTimeout_in_order_iff` — for which durations these are the same,
  and for which a timeout is as long as those of all shorter durations;
* `timeouts_kept` — the timeouts that are set, and the hint.
-/

namespace OpcSession

namespace Duration

variable {d d' : Duration}

/-- What a timeout has of a duration: the low 64 bits of its milliseconds. -/
def asTimeout (d : Duration) : Duration := .ofMillis (d.millis % 2 ^ 64)

/-- The whole milliseconds of a duration, or the longest timeout, if it has
more of them. -/
def capped (d : Duration) : Duration := .ofMillis (min d.millis (2 ^ 64 - 1))

/-- No bit of the milliseconds is lost, or what is left is the longest timeout
by chance. -/
def Lossless (d : Duration) : Prop := d.millis < 2 ^ 64 ∨ d.millis % 2 ^ 64 = 2 ^ 64 - 1

/-- Durations of whole milliseconds compare as the numbers of them do. -/
theorem ofMillis_le_iff {m n : Nat} : ofMillis m ≤ ofMillis n ↔ m ≤ n := by
  show m * 1000000 ≤ n * 1000000 ↔ m ≤ n
  omega

theorem ofMillis_inj {m n : Nat} : ofMillis m = ofMillis n ↔ m = n := by
  rw [ofMillis, ofMillis, Duration.mk.injEq]
  omega

theorem millis_ofMillis (n : Nat) : (ofMillis n).millis = n :=
  Nat.mul_div_cancel n (by decide)

theorem millis_mono (hle : d ≤ d') : d.millis ≤ d'.millis := Nat.div_le_div_right hle

/-- A number of milliseconds that a duration has is no longer than the
duration. -/
theorem ofMillis_le {n : Nat} (hle : n ≤ d.millis) : ofMillis n ≤ d :=
  Nat.le_trans (Nat.mul_le_mul_right 1000000 hle) (Nat.div_mul_le_self d.nanos 1000000)

/-- **A timeout has as much of a duration as it could** exactly if nothing is
lost. -/
theorem asTimeout_eq_capped_iff (d : Duration) : d.asTimeout = d.capped ↔ d.Lossless := by
  rw [asTimeout, capped, ofMillis_inj, Lossless]
  omega

/-- **A timeout is as long as those of all shorter durations** exactly if
nothing is lost: where something is, the longest timeout belongs to a shorter
duration. -/
theorem asTimeout_in_order_iff (d : Duration) :
    (∀ d' ≤ d, d'.asTimeout ≤ d.asTimeout) ↔ d.Lossless := by
  constructor
  · intro hordered
    by_cases hfits : d.millis < 2 ^ 64
    · exact .inl hfits
    · have hlongest := hordered (.ofMillis (2 ^ 64 - 1)) (ofMillis_le (by omega))
      rw [asTimeout, asTimeout, millis_ofMillis, ofMillis_le_iff] at hlongest
      exact .inr (by omega)
  · intro hlossless d' hle
    have hshorter := millis_mono hle
    rw [asTimeout, asTimeout, ofMillis_le_iff]
    rcases hlossless with hfits | hlongest
    · omega
    · omega

end Duration

/-! ## Settings -/

namespace SessionSettings

/-- The hint has the milliseconds of the timeout, as many as it can tell. -/
theorem toNat_timeoutHint (s : SessionSettings) :
    s.timeoutHint.toNat = min s.requestTimeout.toNat (2 ^ 32 - 1) := by
  rw [timeoutHint, UInt32.toNat_ofNat']
  omega

/-- The hint that follows from a timeout that was set: what is left of its
milliseconds, capped at 32 bits. -/
theorem toNat_hint_withRequestTimeout (s : SessionSettings) (d : Duration) :
    (s.withRequestTimeout d).timeoutHint.toNat = min (d.millis % 2 ^ 64) (2 ^ 32 - 1) := by
  rw [toNat_timeoutHint, withRequestTimeout, UInt64.toNat_ofNat']

/-- **A hint is as great as those for all shorter durations** exactly if
nothing is lost, or what is left is more than it can tell. -/
theorem timeoutHint_in_order_iff (s : SessionSettings) (d : Duration) :
    (∀ d' ≤ d, (s.withRequestTimeout d').timeoutHint ≤ (s.withRequestTimeout d).timeoutHint) ↔
      d.millis < 2 ^ 64 ∨ 2 ^ 32 - 1 ≤ d.millis % 2 ^ 64 := by
  constructor
  · intro hordered
    by_cases hfits : d.millis < 2 ^ 64
    · exact .inl hfits
    · have hgreatest := hordered (.ofMillis (2 ^ 32 - 1)) (Duration.ofMillis_le (by omega))
      rw [UInt32.le_iff_toNat_le, toNat_hint_withRequestTimeout, toNat_hint_withRequestTimeout,
        Duration.millis_ofMillis] at hgreatest
      exact .inr (by omega)
  · intro htold d' hle
    have hshorter := Duration.millis_mono hle
    rw [UInt32.le_iff_toNat_le, toNat_hint_withRequestTimeout, toNat_hint_withRequestTimeout]
    rcases htold with hfits | hgreatest
    · omega
    · omega

end SessionSettings

/-- **Timeouts that are set.**  Whatever the other settings are and however
long a duration is: a timeout that is set to it has the low 64 bits of its
whole milliseconds, and the hint as many of those as it can tell.  That is the
duration as far as a timeout could have it, and as long as the timeouts of all
shorter durations, exactly if nothing is lost; and the hint is as great as
theirs exactly if that is so or what is left is more than it can tell. -/
theorem timeouts_kept (s : SessionSettings) (t : TransportSettings) (d : Duration) :
    (s.withRequestTimeout d).requestDuration = d.asTimeout ∧
      (t.withRequestTimeout d).requestDuration = d.asTimeout ∧
      (t.withConnectTimeout d).connectDuration = d.asTimeout ∧
      (s.withRequestTimeout d).timeoutHint.toNat = min d.asTimeout.millis (2 ^ 32 - 1) ∧
      (d.asTimeout = d.capped ↔ d.Lossless) ∧
      ((∀ d' ≤ d, d'.asTimeout ≤ d.asTimeout) ↔ d.Lossless) ∧
      ((∀ d' ≤ d, (s.withRequestTimeout d').timeoutHint ≤ (s.withRequestTimeout d).timeoutHint) ↔
        d.millis < 2 ^ 64 ∨ 2 ^ 32 - 1 ≤ d.millis % 2 ^ 64) := by
  have hkept : Duration.ofMillis (UInt64.ofNat d.millis).toNat = d.asTimeout := by
    rw [UInt64.toNat_ofNat', Duration.asTimeout]
  refine ⟨hkept, hkept, hkept, ?_, d.asTimeout_eq_capped_iff, d.asTimeout_in_order_iff,
    s.timeoutHint_in_order_iff d⟩
  rw [s.toNat_hint_withRequestTimeout, Duration.asTimeout, Duration.millis_ofMillis]

/-- The shortest duration that is too long: one millisecond more than the
longest timeout. -/
def tooLong : Duration := .ofMillis 18446744073709551616

/-- **Set to a duration that is too long, no timeout waits at all**, and the
hint is none, though the longest timeout could be told and one millisecond is
told. -/
theorem too_long_lost :
    let s : SessionSettings := { sessionName := "s1" }
    let t : TransportSettings := {}
    tooLong.fits = true ∧ tooLong.capped = .ofMillis 18446744073709551615 ∧
      (s.withRequestTimeout tooLong).requestDuration = .zero ∧
      (t.withRequestTimeout tooLong).requestDuration = .zero ∧
      (t.withConnectTimeout tooLong).connectDuration = .zero ∧
      (s.withRequestTimeout tooLong).timeoutHint = 0 ∧
      .ofMillis 1 ≤ tooLong ∧
      (t.withRequestTimeout (.ofMillis 1)).requestDuration = .ofMillis 1 ∧
      (s.withRequestTimeout (.ofMillis 1)).timeoutHint = 1 := by
  decide

end OpcSession
