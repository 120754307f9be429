import IndexPlanner.Decimal.Digits
import IndexPlanner.Decimal.Binary64

/-!
# The shortest decimal of a double

A double stands for every real number that rounds to it, so most doubles have many
decimals.  The one that is written has the fewest digits; among those it is the nearest
to the double; and of two that are equally near a *tie rule* picks one.

The search runs over grids of decimals, the coarsest first.  On each grid only the two
neighbours of the double can stand for it if any point can, because the numbers that
round to a double form an interval around it.  All comparisons are between natural
numbers, so nothing is rounded on the way.

How a decimal is then laid out is a separate decision, taken once for each place where a
double is written:

* `Layout.json` is the layout of numbers in JSON texts;
* `Layout.plain` is the layout of numbers in messages and log lines.
-/

namespace IndexPlanner
namespace Decimal

/-- Which of two equally near decimals is taken. -/
inductive Tie where
  | even
  | up
  deriving DecidableEq, Repr

/-- The decimal `digits · 10 ^ exponent`. -/
structure Scientific where
  digits : Nat
  exponent : Int
  deriving DecidableEq, Repr

/-- The numbers that round to a double, in quarters of its last place: the double itself
is at `4 · significand`, and the ends belong to it iff its significand is even.  Below a
power of two the doubles lie twice as close, so the lower end is nearer there. -/
structure Neighbourhood where
  centre : Nat
  lower : Nat
  upper : Nat
  closed : Bool
  /-- The binary exponent of a quarter of the last place. -/
  exponent : Int

/-- The neighbourhood of a positive double. -/
def Neighbourhood.of (x : Float) : Neighbourhood :=
  let v := Binary64.magnitude x
  let narrow := Binary64.fractionField x = 0 && 1 < Binary64.exponentField x
  { centre := 4 * v.significand
    lower := 4 * v.significand - (if narrow then 1 else 2)
    upper := 4 * v.significand + 2
    closed := v.significand % 2 = 0
    exponent := v.exponent - 2 }

namespace Neighbourhood

variable (h : Neighbourhood)

/-- A number of quarters, brought to the common scale of the grid `10 ^ k`. -/
def scaled (k : Int) (quarters : Nat) : Nat :=
  quarters * Nat.pow 2 h.exponent.toNat * Nat.pow 10 (-k).toNat

/-- The distance between two points of the grid `10 ^ k`, on the same scale. -/
def spacing (k : Int) : Nat :=
  Nat.pow 10 k.toNat * Nat.pow 2 (-h.exponent).toNat

/-- Whether the point `d` of the grid `10 ^ k` rounds to the double. -/
def contains (k : Int) (d : Nat) : Bool :=
  let p := d * h.spacing k
  let lo := h.scaled k h.lower
  let hi := h.scaled k h.upper
  (lo < p && p < hi) || (h.closed && (lo = p || p = hi))

/-- The point of the grid `10 ^ k` that stands for the double, if there is one. -/
def onGrid? (tie : Tie) (k : Int) : Option Nat :=
  let c := h.scaled k h.centre
  let below := c / h.spacing k
  let above := below + 1
  match h.contains k below, h.contains k above with
  | true, true =>
    let down := c - below * h.spacing k
    let up := above * h.spacing k - c
    if down < up then some below
    else if up < down then some above
    else match tie with
      | .up => some above
      | .even => some (if below % 2 = 0 then below else above)
  | true, false => some below
  | false, true => some above
  | false, false => none

/-- The first grid with a point that stands for the double, from `10 ^ k` to finer ones,
looking at no more than `n` of them. -/
def search (tie : Tie) : (n : Nat) → (k : Int) → Scientific
  | 0, k => ⟨h.scaled k h.centre / h.spacing k, k⟩
  | n + 1, k =>
    match h.onGrid? tie k with
    | some d => ⟨d, k⟩
    | none => search tie n (k - 1)

/-- The exponent of the leading decimal digit of the double. -/
def leadingExponent : Int :=
  let num := h.scaled 0 h.centre
  let den := h.spacing 0
  if den ≤ num then ((Decimal.digits (num / den)).length : Int) - 1
  else -((Decimal.digits ((den - 1) / num)).length : Int)

end Neighbourhood

/-- Moves trailing zeros from the digits into the exponent. -/
def Scientific.trim (s : Scientific) : Scientific :=
  if h : 0 < s.digits ∧ s.digits % 10 = 0 then
    Scientific.trim ⟨s.digits / 10, s.exponent + 1⟩
  else s
termination_by s.digits
decreasing_by exact Nat.div_lt_self h.1 (by decide)

/-- The shortest decimal of a positive finite double, nearest first.  Seventeen digits
always suffice. -/
def shortest (tie : Tie) (x : Float) : Scientific :=
  let h := Neighbourhood.of x
  (h.search tie 17 h.leadingExponent).trim

/-- How a place lays out its doubles. -/
structure Layout where
  /-- Whether a decimal whose leading digit has this exponent is written without one. -/
  positional : Int → Bool
  /-- What follows the digits of a whole number that is written without exponent. -/
  wholeSuffix : String
  tie : Tie
  infinite : String
  notANumber : String
  /-- Whether what is not a finite number loses its sign. -/
  unsigned : Bool

namespace Layout

/-- Writes a decimal without exponent. -/
def positionalText (l : Layout) (s : Scientific) : String :=
  let ds := Decimal.digits s.digits
  if 0 ≤ s.exponent then
    String.ofList (ds ++ List.replicate s.exponent.toNat '0') ++ l.wholeSuffix
  else
    let places := (-s.exponent).toNat
    if places < ds.length then
      String.ofList (ds.take (ds.length - places)) ++ "." ++
        String.ofList (ds.drop (ds.length - places))
    else
      "0." ++ String.ofList (List.replicate (places - ds.length) '0' ++ ds)

/-- Writes a decimal with one digit before the point and the exponent of that digit. -/
def exponentText (s : Scientific) : String :=
  let ds := Decimal.digits s.digits
  let e := s.exponent + (ds.length : Int) - 1
  let point := if ds.length ≤ 1 then "" else "."
  String.ofList (ds.take 1) ++ point ++ String.ofList (ds.drop 1) ++
    (if e < 0 then "e-" else "e+") ++ Decimal.text e.natAbs

/-- The text of a double. -/
def text (l : Layout) (x : Float) : String :=
  let sign := if Binary64.isNegative x then "-" else ""
  if x.isNaN then l.notANumber
  else if Binary64.exponentField x = 2047 then
    (if l.unsigned then "" else sign) ++ l.infinite
  else if (Binary64.magnitude x).significand = 0 then sign ++ "0" ++ l.wholeSuffix
  else
    let s := shortest l.tie x
    let e := s.exponent + ((Decimal.digits s.digits).length : Int) - 1
    sign ++ (if l.positional e then l.positionalText s else exponentText s)

/-- Numbers in JSON texts keep a fraction, so that they are read back as doubles, and
are written with an exponent outside of `10 ^ -5` to `10 ^ 16`.  JSON has no word for
what is not a finite number. -/
def json : Layout where
  positional e := -5 ≤ e && e < 16
  wholeSuffix := ".0"
  tie := .even
  infinite := "null"
  notANumber := "null"
  unsigned := true

/-- Numbers in messages are written out without exponent, and whole numbers without
fraction. -/
def plain : Layout where
  positional _ := true
  wholeSuffix := ""
  tie := .up
  infinite := "inf"
  notANumber := "NaN"
  unsigned := false

end Layout

end Decimal
end IndexPlanner
