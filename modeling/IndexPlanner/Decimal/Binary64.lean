/-!
# Doubles as exact numbers

The planner computes with doubles but must say exactly what it computed: how many
documents a scan reads, and which decimal stands for a selectivity factor.  Both
questions are answered from the bits of a double, which give its magnitude as
`m · 2 ^ q` for natural `m` and integer `q`; from there on only natural numbers are
involved.

* `Binary64.magnitude` reads `m` and `q` off the bits;
* `Binary64.ceil` is the least 64-bit natural number that is not below a double, and the
  greatest one if there is none;
* `Binary64.power` raises a double to a natural power by repeated squaring.
-/

namespace IndexPlanner
namespace Binary64

/-- The magnitude `significand · 2 ^ exponent` of a finite double. -/
structure Magnitude where
  significand : Nat
  exponent : Int
  deriving DecidableEq, Repr

/-- The eleven bits of the exponent field. -/
def exponentField (x : Float) : Nat := x.toBits.toNat / Nat.pow 2 52 % Nat.pow 2 11

/-- The fifty-two bits of the fraction field. -/
def fractionField (x : Float) : Nat := x.toBits.toNat % Nat.pow 2 52

/-- Whether the sign bit is set, as it is for `-0.0`. -/
def isNegative (x : Float) : Bool := x.toBits.toNat / Nat.pow 2 63 = 1

/-- The magnitude of a finite double.  Below the least normal double the significand has
no leading one. -/
def magnitude (x : Float) : Magnitude :=
  if exponentField x = 0 then ⟨fractionField x, -1074⟩
  else ⟨Nat.pow 2 52 + fractionField x, (exponentField x : Int) - 1075⟩

/-- The least natural number that is not below a magnitude. -/
def Magnitude.ceil (v : Magnitude) : Nat :=
  let den := Nat.pow 2 (-v.exponent).toNat
  (v.significand * Nat.pow 2 v.exponent.toNat + (den - 1)) / den

/-- The 64-bit number nearest to a natural number. -/
def saturate (n : Nat) : UInt64 := UInt64.ofNat (min n (UInt64.size - 1))

theorem toNat_saturate (n : Nat) : (saturate n).toNat = min n (UInt64.size - 1) := by
  rw [saturate, UInt64.toNat_ofNat']
  have hlt : min n (UInt64.size - 1) < UInt64.size :=
    Nat.lt_of_le_of_lt (Nat.min_le_right _ _) (by decide)
  exact Nat.mod_eq_of_lt hlt

/-- The least 64-bit number that is not below a double: zero for doubles that are not
positive, the greatest number for doubles beyond it, and zero for NaN. -/
def ceil (x : Float) : UInt64 :=
  if x.isNaN || isNegative x then 0
  else if exponentField x = 2047 then saturate (UInt64.size - 1)
  else saturate (magnitude x).ceil

/-- Repeated squaring: multiplies `r` by the `n`-th power of `a`, from the lowest bit of
`n` upwards.  The last square is taken only if another bit follows. -/
def powerFrom (r a : Float) (n : Nat) : Float :=
  let r := if n % 2 = 1 then r * a else r
  if n / 2 = 0 then r else powerFrom r (a * a) (n / 2)
termination_by n
decreasing_by exact Nat.div_lt_self (by omega) (by decide)

/-- A double raised to a natural power by repeated squaring. -/
def power (a : Float) (n : Nat) : Float := powerFrom 1 a n

/-- The greater of a double and one; one for NaN. -/
def atLeastOne (x : Float) : Float := if 1 ≤ x then x else 1

end Binary64
end IndexPlanner
