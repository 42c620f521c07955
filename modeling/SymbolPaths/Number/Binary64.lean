/-!
# Binary floating-point numbers

Non-negative numbers of the 64-bit binary format, in exact arithmetic: the
nearest one to a ratio, and the decimal text of one with a fixed number of
places. Both go to the even neighbour when two are equally near.

* `roundDiv_le`, `le_roundDiv`: rounding is off by at most a half.
-/

namespace SymbolPaths

/-- The whole number nearest to `num / den`; of two, the even one. -/
def roundDiv (num den : Nat) : Nat :=
  let q := num / den
  let r := num % den
  if 2 * r < den then q else if den < 2 * r then q + 1 else q + q % 2

/-- A non-negative number of the 64-bit binary format, by its bits. A larger
    number has larger bits. -/
structure Binary64 where
  bits : Nat
  deriving DecidableEq, Repr, Inhabited

namespace Binary64

/-- Zero. -/
def zero : Binary64 := ⟨0⟩

/-- The leading bit of the significand, which is in place 52 and is not written. -/
def leadingBit : Nat := 1 <<< 52

/-- The nearest number to `num / den`, for ratios of numbers below `2 ^ 512`, none
    of which is too large or too small for the format. Adding the significand to
    the shifted exponent raises that by one, because of the leading bit; rounding
    up to the next power of two does so again. -/
def ofRatio (num den : Nat) : Binary64 :=
  if num = 0 then zero
  else
    let k := num.log2
    let l := den.log2
    if den <<< k ≤ num <<< l then
      ⟨(1022 + k - l) * leadingBit + roundDiv (num <<< (52 + l)) (den <<< k)⟩
    else
      ⟨(1021 + k - l) * leadingBit + roundDiv (num <<< (53 + l)) (den <<< k)⟩

/-- Whether a number is at most another. -/
def le (a b : Binary64) : Bool := a.bits ≤ b.bits

/-- The number as a ratio. -/
def toRatio (x : Binary64) : Nat × Nat :=
  let exponent := x.bits / leadingBit
  let fraction := x.bits % leadingBit
  if exponent = 0 then (fraction, 1 <<< 1074)
  else if 1075 ≤ exponent then ((leadingBit + fraction) <<< (exponent - 1075), 1)
  else (leadingBit + fraction, 1 <<< (1075 - exponent))

/-- The digits of a number, with zeros in front up to a width. -/
def padded (width n : Nat) : String :=
  let digits := (Nat.toDigits 10 n)
  String.ofList (List.replicate (width - digits.length) '0' ++ digits)

/-- The decimal text with `places` places, of which there is at least one. -/
def toFixed (places : Nat) (x : Binary64) : String :=
  let (num, den) := x.toRatio
  let unit := Nat.pow 10 places
  let scaled := roundDiv (num * unit) den
  padded 1 (scaled / unit) ++ "." ++ padded places (scaled % unit)

end Binary64

theorem roundDiv_le (num den : Nat) : 2 * (roundDiv num den * den) ≤ 2 * num + den := by
  have h := Nat.div_add_mod num den
  rw [Nat.mul_comm] at h
  have hodd : num / den % 2 * den ≤ 1 * den := Nat.mul_le_mul_right den (by omega)
  simp only [roundDiv]
  split
  · omega
  · split
    · rw [Nat.add_mul]; omega
    · rw [Nat.add_mul]; omega

theorem le_roundDiv {num den : Nat} (hden : 0 < den) :
    2 * num ≤ 2 * (roundDiv num den * den) + den := by
  have h := Nat.div_add_mod num den
  have hlt := Nat.mod_lt num hden
  rw [Nat.mul_comm] at h
  simp only [roundDiv]
  split
  · omega
  · split
    · rw [Nat.add_mul]; omega
    · rw [Nat.add_mul]; omega

end SymbolPaths
