import Mathlib.Algebra.Order.Group.Nat
import Mathlib.Order.Monotone.Basic
import SymbolPaths.Grammar.Retry

/-!
# Growing delays

The delays between calls double from one to the next. Two things end that: the number of times that
a delay is the base delay is one of 32 bits, and there is a longest delay. Since seconds and
nanoseconds are multiplied apart, what the nanoseconds carry has to arrive in the seconds.

* `RetryPolicy.backoff`: how long a delay should be;
* `Delay.secs_eq`, `Delay.nanos_eq`: a delay is known by its length;
* `RetryPolicy.backoff_mono`, `RetryPolicy.backoff_succ`: how lengths grow;
* `RetryPolicy.isBackoff`: the delays are as long as they should be.

The factor by which a delay is multiplied stops at the greatest number of 32 bits, so doubling
ends there also where the longest delay was not reached. Hence the law of doubling is for less
than 31 failed calls, and the order of the delays is for any numbers of them.
-/

namespace SymbolPaths

namespace Delay

/-- A delay has less than a second of nanoseconds, so its seconds are those of its length. -/
theorem secs_eq (d : Delay) : d.secs = d.nanoseconds / 1000000000 := by
  have := d.nanos_lt
  rw [nanoseconds]
  omega

/-- What is left of the length are its nanoseconds. -/
theorem nanos_eq (d : Delay) : d.nanos = d.nanoseconds % 1000000000 := by
  have := d.nanos_lt
  rw [nanoseconds]
  omega

end Delay

namespace RetryPolicy

variable {p : RetryPolicy} {n : Nat}

/-- How long the delay after the call that follows `n` failed ones should be, in nanoseconds: the
    base delay doubled `n` times, up to the two limits. -/
def backoff (p : RetryPolicy) (n : Nat) : Nat :=
  min (p.baseDelay.nanoseconds * min (2 ^ n) (2 ^ 32 - 1)) Delay.longest.nanoseconds

/-- Doubling by 32 bits or more has no meaning, so the factor stays at the largest number of 32 bits
    from there on. -/
theorem factor_eq (retry : UInt32) : factor retry = min (2 ^ retry.toNat) (2 ^ 32 - 1) := by
  rw [factor]
  split
  · next h =>
    have hlt : retry.toNat ≤ 31 := Nat.le_of_lt_succ (UInt32.lt_iff_toNat_lt.1 h)
    have hpow : 2 ^ retry.toNat ≤ 2 ^ 31 := Nat.pow_le_pow_right Nat.two_pos hlt
    rw [Nat.one_shiftLeft]
    omega
  · next h =>
    have hle : 32 ≤ retry.toNat := Nat.le_of_not_lt fun hlt => h (UInt32.lt_iff_toNat_lt.2 hlt)
    have hpow : 2 ^ 32 ≤ 2 ^ retry.toNat := Nat.pow_le_pow_right Nat.two_pos hle
    omega

/-- Seconds and nanoseconds are multiplied apart, and still the delay is as long as it should be. -/
theorem nanoseconds_delayFor (p : RetryPolicy) (retry : UInt32) :
    (p.delayFor retry).nanoseconds = p.backoff retry.toNat := by
  rw [delayFor, Delay.nanoseconds_scale, factor_eq, backoff]

/-- Lengths never decrease: both limits are kept once they are reached. -/
theorem backoff_mono (p : RetryPolicy) : Monotone p.backoff := by
  intro m n h
  have hpow : 2 ^ m ≤ 2 ^ n := Nat.pow_le_pow_right Nat.two_pos h
  exact min_le_min_right _ (Nat.mul_le_mul_left _ (min_le_min_right _ hpow))

/-- A length is twice the one before, up to the longest, as long as the factor can be doubled. -/
theorem backoff_succ (h : n < 31) :
    p.backoff (n + 1) = min (2 * p.backoff n) Delay.longest.nanoseconds := by
  have hpow : 2 ^ (n + 1) ≤ 2 ^ 31 := Nat.pow_le_pow_right Nat.two_pos h
  have hsucc : 2 ^ (n + 1) = 2 * 2 ^ n := Nat.pow_succ'
  have hfactor : min (2 ^ (n + 1)) (2 ^ 32 - 1) = 2 * min (2 ^ n) (2 ^ 32 - 1) := by omega
  rw [backoff, backoff, hfactor, Nat.mul_left_comm]
  omega

/-- What the delays between calls are like. -/
structure IsBackoff (p : RetryPolicy) : Prop where
  /-- A delay is as long as it should be. -/
  length : ∀ retry, (p.delayFor retry).nanoseconds = p.backoff retry.toNat
  /-- All whole seconds of a delay are counted as such. -/
  secs : ∀ retry, (p.delayFor retry).secs = p.backoff retry.toNat / 1000000000
  /-- The nanoseconds are what is left beside whole seconds. -/
  nanos : ∀ retry, (p.delayFor retry).nanos = p.backoff retry.toNat % 1000000000
  /-- After more failed calls the delay is no shorter. -/
  mono : ∀ m n, m ≤ n → (p.delayFor m).nanoseconds ≤ (p.delayFor n).nanoseconds
  /-- It doubles from one call to the next until it is the longest. -/
  succ : ∀ n < 31, (p.delayFor (n + 1)).nanoseconds =
    min (2 * (p.delayFor n).nanoseconds) Delay.longest.nanoseconds

/-- The delays of every policy are as long as they should be, in whole seconds and what is left;
    they never get shorter, and the first of them double. -/
theorem isBackoff (p : RetryPolicy) : p.IsBackoff where
  length := p.nanoseconds_delayFor
  secs retry := by rw [Delay.secs_eq, nanoseconds_delayFor]
  nanos retry := by rw [Delay.nanos_eq, nanoseconds_delayFor]
  mono m n h := by
    rw [nanoseconds_delayFor, nanoseconds_delayFor]
    exact p.backoff_mono (UInt32.le_iff_toNat_le.1 h)
  succ n h := by
    have hlt : n.toNat < 31 := UInt32.lt_iff_toNat_lt.1 h
    have hsucc : (n + 1).toNat = n.toNat + 1 := by
      rw [UInt32.toNat_add, UInt32.toNat_one]
      omega
    rw [nanoseconds_delayFor, nanoseconds_delayFor, hsucc, backoff_succ hlt]

-- A nanosecond doubled 32 times would be one more.
example : (RetryPolicy.mk 3 { secs := 0, nanos := 1 }).delayFor 32 =
    { secs := 4, nanos := 294967295 } := by decide

end RetryPolicy

end SymbolPaths
