import RulesText.Text.Basic

/-!
# Decimal numbers

Numbers are printed with a fixed number of decimal places, or with as many as they need.

## Main definitions

* `roundDiv`: a quotient rounded to the nearest whole number.
* `Decimal.tenths`: a floating-point number with one decimal place.
* `Decimal.ofDuration`: a number of nanoseconds in its largest unit.
-/

namespace RulesText

/-- The whole number nearest to `num / den`; of two that are equally near, the even one. -/
def roundDiv (num den : Nat) : Nat :=
  let quotient := num / den
  let twice := 2 * (num % den)
  if twice < den || (twice == den && quotient % 2 == 0) then quotient else quotient + 1

theorem roundDiv_near (num : Nat) {den : Nat} (h : 0 < den) :
    2 * num ≤ den * (2 * roundDiv num den + 1) ∧
      den * (2 * roundDiv num den) ≤ 2 * num + den := by
  have := Nat.div_add_mod num den
  have := Nat.mod_lt num h
  unfold roundDiv
  simp only [Bool.or_eq_true, decide_eq_true_eq]
  split <;> grind

theorem roundDiv_even_of_tie {num den : Nat} (h : 2 * (num % den) = den) :
    roundDiv num den % 2 = 0 := by
  unfold roundDiv
  simp only [Bool.or_eq_true, decide_eq_true_eq]
  split <;> grind

namespace Decimal

/-- The magnitude of a finite floating-point number as a whole number times a power of two. -/
def decode (x : Float) : Nat × Int :=
  let implicit : Nat := 1 <<< 52
  let fraction := x.toBits.toNat % implicit
  let exponent := (x.toBits.toNat / implicit) % 2048
  if exponent = 0 then (fraction, -1074) else (implicit + fraction, (exponent : Int) - 1075)

/-- The number of tenths nearest to a magnitude. -/
def roundTenths (x : Float) : Nat :=
  match decode x with
  | (m, .ofNat q) => (10 * m) <<< q
  | (m, .negSucc q) => roundDiv (10 * m) (1 <<< (q + 1))

/-- A number that is not negative, with one decimal place. -/
def tenths (x : Float) : Text :=
  let n := roundTenths x
  Text.ofNat (n / 10) ++ ['.'] ++ Text.ofNat (n % 10)

/-! ## Durations -/

/-- A number with leading zeros up to a width. -/
def zeroPadded (width n : Nat) : Text :=
  let digits := Text.ofNat n
  List.replicate (width - digits.length) '0' ++ digits

/-- A number of which the last `places` digits are decimal places, without the zeros at its
end. -/
def exact (places n : Nat) : Text :=
  let digits := zeroPadded (places + 1) n
  let whole := digits.take (digits.length - places)
  let fraction := ((digits.drop whole.length).reverse.dropWhile (· == '0')).reverse
  if fraction.isEmpty then whole else whole ++ ['.'] ++ fraction

/-- Nanoseconds in a microsecond. -/
def microsecond : Nat := 1000

def millisecond : Nat := 1000 * microsecond

def second : Nat := 1000 * millisecond

/-- A number of nanoseconds in the largest unit of which it has at least one. -/
def ofDuration (nanos : Nat) : Text :=
  if second ≤ nanos then exact 9 nanos ++ "s"
  else if millisecond ≤ nanos then exact 6 nanos ++ "ms"
  else if microsecond ≤ nanos then exact 3 nanos ++ "µs"
  else exact 0 nanos ++ "ns"

end Decimal

end RulesText
