import IndexPlanner.Decimal.Digits
import IndexPlanner.Text.Characters

/-!
# Points in time

A catalog file says when it was saved.  The time is kept in UTC, to the nanosecond, and
is written in the form of RFC 3339.  It is read from any offset and with some liberty:
blanks may stand between the parts, the offset may be the letters `UTC`, and more than
nine digits of a fraction are cut off.

A second may last longer than a second: the sixtieth of a minute is then followed by a
leap second, which is kept as nanoseconds beyond the first thousand million and written
as second 60.

* `Date.next?` and `Date.previous?` are the neighbouring days;
* `Timestamp.text` writes a time, with as many groups of three digits of the fraction as
  are needed;
* `Timestamp.parse?` reads one.
-/

namespace IndexPlanner

/-- Whether a year has a 29th of February. -/
def isLeapYear (year : Int) : Bool := year % 4 = 0 && (year % 100 ≠ 0 || year % 400 = 0)

/-- The number of days of a month; months are counted from one. -/
def daysIn (year : Int) (month : Nat) : Nat :=
  if month = 2 then (if isLeapYear year then 29 else 28)
  else if month = 4 ∨ month = 6 ∨ month = 9 ∨ month = 11 then 30
  else 31

/-- A day of the Gregorian calendar, within the years that catalog files may name. -/
structure Date where
  year : Int
  month : Nat
  day : Nat
  year_mem : -262143 ≤ year ∧ year ≤ 262142
  month_mem : 1 ≤ month ∧ month ≤ 12
  day_mem : 1 ≤ day ∧ day ≤ daysIn year month
  deriving DecidableEq

namespace Date

/-- The day with these numbers, if there is one. -/
def ofParts? (year : Int) (month day : Nat) : Option Date :=
  if h : (-262143 ≤ year ∧ year ≤ 262142) ∧ (1 ≤ month ∧ month ≤ 12) ∧
      (1 ≤ day ∧ day ≤ daysIn year month) then
    some ⟨year, month, day, h.1, h.2.1, h.2.2⟩
  else none

/-- The day after, unless the calendar ends. -/
def next? (d : Date) : Option Date :=
  ofParts? d.year d.month (d.day + 1) <|>
    ofParts? d.year (d.month + 1) 1 <|>
    ofParts? (d.year + 1) 1 1

/-- The day before, unless the calendar begins. -/
def previous? (d : Date) : Option Date :=
  ofParts? d.year d.month (d.day - 1) <|>
    ofParts? d.year (d.month - 1) (daysIn d.year (d.month - 1)) <|>
    ofParts? (d.year - 1) 12 31

/-- The text of a year: four digits if they are enough, and a sign and at least four
digits otherwise. -/
def yearText (year : Int) : String :=
  if 0 ≤ year ∧ year ≤ 9999 then Decimal.padded 4 year.toNat
  else (if year < 0 then "-" else "+") ++ Decimal.padded 4 year.natAbs

/-- The text of a day. -/
def text (d : Date) : String :=
  yearText d.year ++ "-" ++ Decimal.padded 2 d.month ++ "-" ++ Decimal.padded 2 d.day

end Date

/-- A point in time, in UTC. -/
structure Timestamp where
  date : Date
  /-- The minute of the day. -/
  minute : Nat
  second : Nat
  /-- Nanoseconds, which go beyond a thousand million in a leap second. -/
  nano : Nat
  minute_lt : minute < 1440
  second_lt : second < 60
  nano_lt : nano < 1000000000 ∨ second = 59 ∧ nano < 2000000000
  deriving DecidableEq

namespace Timestamp

/-- The first moment of 1970. -/
def epoch : Timestamp where
  date := ⟨1970, 1, 1, by decide, by decide, by decide⟩
  minute := 0
  second := 0
  nano := 0
  minute_lt := by decide
  second_lt := by decide
  nano_lt := by decide

instance : Inhabited Timestamp := ⟨epoch⟩

/-- A fraction of a second in nanoseconds, in none or as few groups of three digits as are
needed. -/
def fractionText (nano : Nat) : String :=
  if nano = 0 then ""
  else if nano % 1000000 = 0 then "." ++ Decimal.padded 3 (nano / 1000000)
  else if nano % 1000 = 0 then "." ++ Decimal.padded 6 (nano / 1000)
  else "." ++ Decimal.padded 9 nano

/-- The text of a time. -/
def text (t : Timestamp) : String :=
  let leap := 1000000000 ≤ t.nano
  t.date.text ++ "T" ++ Decimal.padded 2 (t.minute / 60) ++ ":" ++
    Decimal.padded 2 (t.minute % 60) ++ ":" ++
    Decimal.padded 2 (if leap then t.second + 1 else t.second) ++
    fractionText (if leap then t.nano - 1000000000 else t.nano) ++ "Z"

/-! ## Reading -/

/-- Cuts off a number of at least one and at most `n` digits. -/
def takeNumber? (n : Nat) (cs : List Char) : Option (Nat × List Char) :=
  match (cs.take n).takeWhile Decimal.isDigit with
  | [] => none
  | ds => some (Decimal.value ds, cs.drop ds.length)

/-- Cuts off blanks and a number of at most two digits. -/
def takePair? (cs : List Char) : Option (Nat × List Char) :=
  takeNumber? 2 (Text.dropBlanks cs)

/-- Cuts off blanks and one given character. -/
def takeMark? (mark : Char) (cs : List Char) : Option (List Char) :=
  match Text.dropBlanks cs with
  | [] => none
  | c :: rest => if c = mark then some rest else none

/-- Cuts off a year: up to four digits, or a sign and any number of digits. -/
def takeYear? (cs : List Char) : Option (Int × List Char) :=
  match Text.dropBlanks cs with
  | '-' :: rest => (takeNumber? rest.length rest).map fun r => (-(r.1 : Int), r.2)
  | '+' :: rest => (takeNumber? rest.length rest).map fun r => ((r.1 : Int), r.2)
  | rest => (takeNumber? 4 rest).map fun r => ((r.1 : Int), r.2)

/-- Cuts off a fraction of a second, in nanoseconds.  Digits after the ninth are left
out. -/
def takeFraction? (cs : List Char) : Option (Nat × List Char) :=
  match cs with
  | '.' :: rest =>
    match (rest.take 9).takeWhile Decimal.isDigit with
    | [] => none
    | ds =>
      some (Decimal.value ds * Nat.pow 10 (9 - ds.length), rest.dropWhile Decimal.isDigit)
  | cs => some (0, cs)

/-- Reads two digits of a pair. -/
def pairValue? (a b : Char) : Option Nat :=
  if Decimal.isDigit a && Decimal.isDigit b then
    some (Decimal.digitValue a * 10 + Decimal.digitValue b)
  else none

/-- Whether a character may stand between the hours and the minutes of an offset. -/
def isOffsetSeparator (c : Char) : Bool := c = ':' || Text.isBlank c

/-- Reads the hours and minutes of an offset, in minutes. -/
def takeOffsetValue? (cs : List Char) : Option (Nat × List Char) :=
  match cs with
  | a :: b :: rest =>
    match rest.dropWhile isOffsetSeparator with
    | c :: d :: rest => do
      let hours ← pairValue? a b
      let minutes ← pairValue? c d
      if minutes < 60 then some (hours * 60 + minutes, rest) else none
    | _ => none
  | _ => none

/-- Cuts off the offset from UTC, in minutes. -/
def takeOffset? (cs : List Char) : Option (Int × List Char) :=
  match cs with
  | 'Z' :: rest => some (0, rest)
  | 'z' :: rest => some (0, rest)
  | '+' :: rest => (takeOffsetValue? rest).map fun r => ((r.1 : Int), r.2)
  | '-' :: rest => (takeOffsetValue? rest).map fun r => (-(r.1 : Int), r.2)
  | '\u2212' :: rest => (takeOffsetValue? rest).map fun r => (-(r.1 : Int), r.2)
  | u :: t :: c :: rest =>
    if u.toUpper = 'U' ∧ t.toUpper = 'T' ∧ c.toUpper = 'C' then some (0, rest) else none
  | _ => none

/-- The time that is shown as `hour:minute:second` with an offset of `offset` minutes.
Second 60 is the leap second after second 59. -/
def ofLocal? (date : Date) (hour minute second nano : Nat) (offset : Int) :
    Option Timestamp :=
  if hrange : hour < 24 ∧ minute < 60 ∧ second ≤ 60 ∧ nano < 1000000000 ∧
      -1440 < offset ∧ offset < 1440 then
    let total : Int := hour * 60 + minute - offset
    let day := if total < 0 then date.previous? else if 1440 ≤ total then date.next? else some date
    day.map fun day =>
      { date := day
        minute := (total % 1440).toNat
        second := min second 59
        nano := if second = 60 then nano + 1000000000 else nano
        minute_lt := by omega
        second_lt := by omega
        nano_lt := by split <;> omega }
  else none

/-- Reads a time. -/
def parse? (text : String) : Option Timestamp := do
  let (year, cs) ← takeYear? text.toList
  let cs ← takeMark? '-' cs
  let (month, cs) ← takePair? cs
  let cs ← takeMark? '-' cs
  let (day, cs) ← takePair? cs
  let cs ← match cs with
    | c :: rest => if c = 'T' ∨ c = 't' ∨ c = ' ' then some rest else none
    | [] => none
  let (hour, cs) ← takePair? cs
  let cs ← takeMark? ':' cs
  let (minute, cs) ← takePair? cs
  let cs ← takeMark? ':' cs
  let (second, cs) ← takePair? cs
  let (nano, cs) ← takeFraction? cs
  let (offset, cs) ← takeOffset? (Text.dropBlanks cs)
  if Text.dropBlanks cs ≠ [] then none
  let date ← Date.ofParts? year month day
  ofLocal? date hour minute second nano offset

end Timestamp

end IndexPlanner
