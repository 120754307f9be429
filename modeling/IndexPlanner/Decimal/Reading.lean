import IndexPlanner.Decimal.Digits

/-!
# Reading decimals as doubles

A decimal in a JSON text is read by its leading digits: as many of them as fit into 64
bits form the significand, the others only move the point.  The significand, taken as a
double, is then multiplied or divided by a power of ten.  This is exact for the decimals
that people write and within a unit of the last place for the others; the planner's
answers depend on it, so a better rounding would not do.

* `Significand.absorb` takes in one more digit of the fraction, `Significand.ofWhole`
  reads all digits before the point;
* `scale?` multiplies by a power of ten and refuses what is beyond the doubles.
-/

namespace IndexPlanner
namespace Decimal

/-- The decimal `value · 10 ^ exponent` made of the digits read so far. -/
structure Significand where
  value : Nat
  exponent : Int
  deriving DecidableEq, Repr

namespace Significand

/-- Whether one more digit keeps the value within 64 bits. -/
def fits (value : Nat) (c : Char) : Bool := value * 10 + digitValue c < UInt64.size

/-- Reads the digits before the point.  Once a digit does not fit, it and all that follow
only raise the exponent. -/
def ofWholeFrom (value : Nat) : List Char → Significand
  | [] => ⟨value, 0⟩
  | c :: cs =>
    if fits value c then ofWholeFrom (value * 10 + digitValue c) cs
    else ⟨value, (cs.length : Int) + 1⟩

/-- Reads the digits before the point. -/
def ofWhole (cs : List Char) : Significand := ofWholeFrom 0 cs

/-- Digits that fit into 64 bits are read exactly. -/
theorem ofWholeFrom_of_lt {n : Nat} {cs : List Char} (h : valueFrom n cs < UInt64.size) :
    ofWholeFrom n cs = ⟨valueFrom n cs, 0⟩ := by
  induction cs generalizing n with
  | nil => rfl
  | cons c cs ih =>
    have hfits : fits n c = true := by
      rw [fits, decide_eq_true_eq]
      exact Nat.lt_of_le_of_lt (le_valueFrom _ cs) h
    rw [ofWholeFrom, if_pos hfits, ih h]
    rfl

/-- Takes in the digits after the point.  Once a digit does not fit, it and all that
follow are left out. -/
def absorb (s : Significand) : List Char → Significand
  | [] => s
  | c :: cs =>
    if fits s.value c then absorb ⟨s.value * 10 + digitValue c, s.exponent - 1⟩ cs
    else s

end Significand

/-- The power `10 ^ n`, rounded to a double. -/
def powerOfTen (n : Nat) : Float := Float.ofScientific 1 false n

/-- The double `x · 10 ^ e`, by one multiplication or division for each 308 powers of
ten.  There is none if it would be infinite. -/
def scale? (x : Float) (e : Int) : Option Float :=
  if e.natAbs ≤ 308 then
    if 0 ≤ e then
      let y := x * powerOfTen e.natAbs
      if y.isInf then none else some y
    else some (x / powerOfTen e.natAbs)
  else if x == 0 then some x
  else if 0 ≤ e then none
  else scale? (x / powerOfTen 308) (e + 308)
termination_by e.natAbs
decreasing_by omega

/-- The double that a decimal is read as, if it is within the doubles. -/
def Significand.toFloat? (s : Significand) : Option Float :=
  scale? s.value.toUInt64.toFloat s.exponent

end Decimal
end IndexPlanner
