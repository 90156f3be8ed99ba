import ReviewDesk.Decimal
import ReviewDesk.Pattern.Basic

/-!
# Points in time

A moment is a number of microseconds since the start of 1970, on a clock without a time zone. Dates
are those of the Gregorian calendar.
-/

namespace ReviewDesk

structure Moment where
  micros : Int
  deriving DecidableEq, Repr, Inhabited

instance : LT Moment := ⟨fun a b => a.micros < b.micros⟩

instance : LE Moment := ⟨fun a b => a.micros ≤ b.micros⟩

instance (a b : Moment) : Decidable (a < b) := inferInstanceAs (Decidable (a.micros < b.micros))

instance (a b : Moment) : Decidable (a ≤ b) := inferInstanceAs (Decidable (a.micros ≤ b.micros))

structure Date where
  year : Int
  month : Nat
  day : Nat
  deriving DecidableEq, Repr

namespace Date

/-- The number of days from the first of March of the year 0 to the first of March of `year`. -/
def daysToMarch (year : Int) : Int := 365 * year + year / 4 - year / 100 + year / 400

/-- The days since the start of 1970. The year is counted from March, so that a leap day is its
last. -/
def toDays (d : Date) : Int :=
  let year := if d.month ≤ 2 then d.year - 1 else d.year
  let month := (d.month + 9) % 12
  daysToMarch year + (153 * month + 2) / 5 + d.day - 1 - 719468

def ofDays (days : Int) : Date :=
  let z := days + 719468
  let era := z / 146097
  let inEra := (z % 146097).toNat
  let yearInEra := (inEra - inEra / 1460 + inEra / 36524 - inEra / 146096) / 365
  let inYear := inEra - (365 * yearInEra + yearInEra / 4 - yearInEra / 100)
  let march := (5 * inYear + 2) / 153
  let month := if march < 10 then march + 3 else march - 9
  let year := era * 400 + yearInEra
  { year := if month ≤ 2 then year + 1 else year
    month
    day := inYear - (153 * march + 2) / 5 + 1 }

def isLeap (year : Int) : Bool := year % 4 == 0 && (year % 100 != 0 || year % 400 == 0)

def daysIn (year : Int) (month : Nat) : Nat :=
  if month = 2 then (if isLeap year then 29 else 28)
  else if [4, 6, 9, 11].contains month then 30
  else 31

def valid (d : Date) : Bool :=
  1 ≤ d.year && d.year ≤ 9999 && 1 ≤ d.month && d.month ≤ 12 && 1 ≤ d.day && d.day ≤ daysIn d.year
  d.month

end Date

namespace Moment

def second : Int := 1000000

def day : Int := 86400 * second

def ofDate (d : Date) : Moment := ⟨d.toDays * day⟩

variable (m : Moment)

def addMicros (n : Int) : Moment := ⟨m.micros + n⟩

def addSeconds (n : Int) : Moment := ⟨m.micros + n * second⟩

def addDays (n : Int) : Moment := ⟨m.micros + n * day⟩

def seconds : Int := m.micros / second

def days : Int := m.micros / day

def date : Date := .ofDays m.days

def ofDay : Nat := (m.micros % day).toNat

def hour : Nat := m.ofDay / 3600000000

def minute : Nat := m.ofDay / 60000000 % 60

def secondOfMinute : Nat := m.ofDay / 1000000 % 60

def fraction : Nat := m.ofDay % 1000000

def secondsBetween (first last : Moment) : Float :=
  let n := last.micros - first.micros
  let x := Float.ofScientific n.natAbs true 6
  if n < 0 then -x else x

def midnight : Moment := ⟨m.days * day⟩

/-- The first and last moment of the calendar. -/
def earliest : Moment := ofDate ⟨1, 1, 1⟩

def latest : Moment := (ofDate ⟨10000, 1, 1⟩).addMicros (-1)

def inCalendar : Bool := earliest ≤ m && m ≤ latest

def padded (width n : Nat) : String :=
  let ds := Decimal.natDigits n
  .ofList (List.replicate (width - ds.length) '0' ++ ds)

def dateText : String :=
  let d := m.date
  "-".intercalate [padded 4 d.year.toNat, padded 2 d.month, padded 2 d.day]

def timeText : String :=
  ":".intercalate [padded 2 m.hour, padded 2 m.minute, padded 2 m.secondOfMinute] ++
    (if m.fraction = 0 then "" else "." ++ padded 6 m.fraction)

def iso : String := m.dateText ++ "T" ++ m.timeText

end Moment

/-- A moment with the distance of its time zone from the universal one in minutes, if it has a zone.
-/
structure ZonedMoment where
  moment : Moment
  offset : Option Int
  deriving DecidableEq, Repr

namespace ZonedMoment

def offsetText (minutes : Int) : String :=
  let n := minutes.natAbs
  (if minutes < 0 then "-" else "+") ++ Moment.padded 2 (n / 60) ++ ":" ++ Moment.padded 2 (n % 60)

def iso (z : ZonedMoment) : String := z.moment.iso ++ (z.offset.map offsetText).getD ""

/-- The same moment at the universal time; without a zone it is as it stands. -/
def instant (z : ZonedMoment) : Moment := z.moment.addSeconds (-(z.offset.getD 0 * 60))

/-- The microseconds from one moment to another. Between a moment with a zone and one without there
is no distance. -/
def micros? (first last : ZonedMoment) : Option Int :=
  if first.offset.isSome == last.offset.isSome then
    some (last.instant.micros - first.instant.micros)
  else none

end ZonedMoment

namespace ZonedMoment

/-! ## Reading points in time

A moment is given as a date and a time of day with a `T` or a blank between them, or as a number of
seconds since the start of 1970.
-/

open Pattern

def digitRun (least most : Nat) : Pattern :=
  match most with
  | 0 => empty
  | n + 1 =>
    if least = 0 then optional (one Text.isDecimal ++ digitRun 0 n)
    else one Text.isDecimal ++ digitRun (least - 1) n

/-- Year, month, day, hour, minute, second, fraction and zone are groups 1 to 8. -/
def form : Pattern :=
  capture 1 (digitRun 4 4) ++ char '-' ++ capture 2 (digitRun 1 2) ++ char '-' ++
    capture 3 (digitRun 1 2) ++
    one (among "T ") ++ capture 4 (digitRun 1 2) ++ char ':' ++ capture 5 (digitRun 1 2) ++
    optional (char ':' ++ capture 6 (digitRun 1 2) ++
      optional (char '.' ++ capture 7 (digitRun 1 6) ++ digitRun 0 6)) ++
    optional (capture 8 (either (char 'Z')
      (one (among "+-") ++ digitRun 2 2 ++ optional (optional (char ':') ++ digitRun 2 2))))

def digitsNumber (cs : Chars) : Nat := (Decimal.takeDigits 0 0 cs).2.1

/-- The distance of a zone in minutes: a sign, two digits of hours and maybe two of minutes. -/
def offsetOf (cs : Chars) : Int :=
  let minutes := if 3 < cs.length then digitsNumber (cs.drop (cs.length - 2)) else 0
  let n := 60 * digitsNumber ((cs.drop 1).take 2) + minutes
  if cs.head? = some '-' then -(n : Int) else n

/-- A zone less than a day away; none at all is a zone of its own. -/
def zone? : Option Chars → Option (Option Int)
  | none => some none
  | some ['Z'] => some (some 0)
  | some cs =>
    let n := offsetOf cs
    if n.natAbs < 1440 then some (some n) else none

/-- The moment of a text in the `form`; a line feed at the end is passed over. -/
def ofText? (cs : Chars) : Option ZonedMoment := do
  let m ← form.matchStart cs
  let rest := cs.drop m.text.length
  guard (rest = [] || rest = ['\n'])
  let number (n : Nat) : Nat := ((m.group? n).map digitsNumber).getD 0
  let offset ← zone? (m.group? 8)
  let date : Date := ⟨number 1, number 2, number 3⟩
  guard date.valid
  guard (number 4 < 24 && number 5 < 60 && number 6 < 60)
  let fraction := match m.group? 7 with
    | some ds => digitsNumber ds * Nat.pow 10 (6 - ds.length)
    | none => 0
  let micros := ((number 4 * 60 + number 5) * 60 + number 6) * 1000000 + fraction
  return ⟨(Moment.ofDate date).addMicros micros, offset⟩

/-- The microseconds of a number of units of `unit` microseconds, a half going to the even one. -/
def microsOf (unit : Nat) (x : Float) : Int :=
  let whole := Decimal.truncate x
  let part := (x - Decimal.floatOfInt whole) * unit.toFloat
  let b := Decimal.Binary.ofFloat part
  let (n, d) := b.quotient
  let rounded : Int := Decimal.roundDiv n d
  whole * unit + (if b.negative then -rounded else rounded)

/-- Beyond this number of seconds they are read as thousandths. -/
def watershed : Float := 2e10

/-- Divides by a thousand until the number is below the watershed. -/
def belowWatershed : Nat → Float → Float
  | 0, x => x
  | fuel + 1, x => if watershed < x.abs then belowWatershed fuel (x / 1000) else x

/-- The moment of a number of seconds since the start of 1970, in the universal zone; a number that
is far too large or small stands for the ends of the calendar. -/
def ofSeconds (x : Float) : ZonedMoment :=
  if 3e20 < x then ⟨.latest, none⟩
  else if x < -3e20 then ⟨.earliest, none⟩
  else ⟨⟨microsOf 1000000 (belowWatershed 8 x)⟩, some 0⟩

end ZonedMoment

end ReviewDesk
