/-!
# Delays

A length of time in whole seconds, of which there are as many as a number of 64
bits says, and nanoseconds. There is a longest delay, and what would be longer
is the longest.

* `nanoseconds_le_milliseconds`: how far its milliseconds are from a delay;
* `nanoseconds_scale`: a delay times a factor is that many times as long, up to
  the longest delay.
-/

namespace SymbolPaths

/-- A length of time. -/
structure Delay where
  secs : Nat
  nanos : Nat
  secs_lt : secs < 18446744073709551616 := by omega
  nanos_lt : nanos < 1000000000 := by omega
  deriving DecidableEq, Repr

namespace Delay

instance : Inhabited Delay := ⟨{ secs := 0, nanos := 0 }⟩

/-- No time at all. -/
def zero : Delay := { secs := 0, nanos := 0 }

/-- The longest delay. -/
def longest : Delay := { secs := 18446744073709551615, nanos := 999999999 }

/-- The length in nanoseconds. -/
def nanoseconds (d : Delay) : Nat := d.secs * 1000000000 + d.nanos

/-- The length in milliseconds, rounded up: who waits for a delay is woken at the
    first whole millisecond at which it is over. -/
def milliseconds (d : Delay) : Nat := d.secs * 1000 + (d.nanos + 999999) / 1000000

/-- A number of milliseconds, which has to be one of 64 bits. -/
def ofMilliseconds (n : UInt64) : Delay :=
  { secs := n.toNat / 1000
    nanos := n.toNat % 1000 * 1000000
    secs_lt := Nat.lt_of_le_of_lt (Nat.div_le_self ..) n.toNat_lt }

/-- The delay `factor` times as long, if there is one. The nanoseconds are
    multiplied by themselves and carry into the seconds. -/
def scale (d : Delay) (factor : Nat) : Delay :=
  let total := d.nanos * factor
  if h : d.secs * factor + total / 1000000000 < 18446744073709551616 then
    { secs := d.secs * factor + total / 1000000000
      nanos := total % 1000000000
      secs_lt := h }
  else longest

/-- A delay is over when its milliseconds are, and not a millisecond before. -/
theorem nanoseconds_le_milliseconds (d : Delay) :
    d.nanoseconds ≤ d.milliseconds * 1000000 ∧
      d.milliseconds * 1000000 < d.nanoseconds + 1000000 := by
  rw [nanoseconds, milliseconds]
  omega

/-- A delay times a factor is that many times as long, up to the longest delay. -/
theorem nanoseconds_scale (d : Delay) (factor : Nat) :
    (d.scale factor).nanoseconds = min (d.nanoseconds * factor) longest.nanoseconds := by
  have hmul : d.nanoseconds * factor = d.secs * factor * 1000000000 + d.nanos * factor := by
    rw [nanoseconds, Nat.add_mul, Nat.mul_right_comm]
  have hsplit := Nat.div_add_mod (d.nanos * factor) 1000000000
  have hlt := Nat.mod_lt (d.nanos * factor) (show 0 < 1000000000 by decide)
  rw [scale, hmul]
  split
  · next h => simp only [nanoseconds, longest]; omega
  · next h => simp only [nanoseconds, longest]; omega

end Delay

end SymbolPaths
