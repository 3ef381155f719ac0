import Tollgate.Power

/-! # Points in time and spans of time

Both are whole numbers of nanoseconds.  A point in time counts from the beginning of 1970
(UTC) and has to lie within the years that a calendar date can name; a span is limited to
what a signed 64-bit number of milliseconds can say.

* `Instant`, `Span` — the two types, with the operations that stay inside the limits;
* `Instant.seconds` — the timestamp, rounded down;
* `Civil` — the date and time of day of a timestamp, and its texts.
-/

namespace Tollgate

def nanosPerSecond : Int := 1000000000

structure Span where
  nanos : Int
  deriving DecidableEq, Repr, Inhabited

/-- A point in time: nanoseconds since the beginning of 1970. -/
structure Instant where
  nanos : Int
  deriving DecidableEq, Repr, Inhabited

namespace Span

def longest : Int := (twoTo 63 - 1) * 1000000

def inRange (nanos : Int) : Bool := -longest ≤ nanos && nanos ≤ longest

def zero : Span := ⟨0⟩

def ofMillis (ms : Int) : Span := ⟨ms * 1000000⟩

def ofSeconds (s : Int) : Span := ⟨s * nanosPerSecond⟩

def ofHours (h : Int) : Span := ofSeconds (h * 3600)

def ofSeconds? (s : Int) : Option Span :=
  if inRange (s * nanosPerSecond) then some (ofSeconds s) else none

def ofHours? (h : Int) : Option Span := ofSeconds? (h * 3600)

def add (a b : Span) : Span := ⟨a.nanos + b.nanos⟩

def add? (a b : Span) : Option Span :=
  if inRange (a.nanos + b.nanos) then some (a.add b) else none

/-- Whole milliseconds, toward zero. -/
def millis (s : Span) : Int := Int.tdiv s.nanos 1000000

end Span

namespace Instant

/-- The first timestamp that a calendar date can name. -/
def firstSecond : Int := -8334601228800

/-- The last timestamp that a calendar date can name. -/
def lastSecond : Int := 8210266876799

/-- Whether a number of nanoseconds lies within the years that can be named. -/
def inRange (nanos : Int) : Bool :=
  firstSecond * nanosPerSecond ≤ nanos && nanos < (lastSecond + 1) * nanosPerSecond

theorem inRange_iff {nanos : Int} :
    inRange nanos = true ↔
      firstSecond * nanosPerSecond ≤ nanos ∧ nanos < (lastSecond + 1) * nanosPerSecond := by
  simp [inRange]

def ofSeconds (s : Int) : Instant := ⟨s * nanosPerSecond⟩

/-- The beginning of a second, if a date can name it. -/
def ofSeconds? (s : Int) : Option Instant :=
  if firstSecond ≤ s && s ≤ lastSecond then some (ofSeconds s) else none

/-- The timestamp: whole seconds, rounded down. -/
def seconds (t : Instant) : Int := t.nanos.fdiv nanosPerSecond

theorem seconds_eq (t : Instant) : t.seconds = t.nanos / 1000000000 :=
  Int.fdiv_eq_ediv_of_nonneg _ (by decide)

def add (t : Instant) (s : Span) : Instant := ⟨t.nanos + s.nanos⟩

/-- The point in time a span later, if a date can name it. -/
def add? (t : Instant) (s : Span) : Option Instant :=
  if inRange (t.nanos + s.nanos) then some (t.add s) else none

end Instant

/-! ## Calendar -/

structure Civil where
  year : Int
  month : Nat
  day : Nat
  hour : Nat
  minute : Nat
  second : Nat
  deriving DecidableEq, Repr

namespace Civil

/-- The date of a day counted from the beginning of 1970.  Days are counted from the first
    of March of the year zero, in eras of 400 years, which all have the same length. -/
def dateOf (days : Int) : Int × Nat × Nat :=
  let z := days + 719468
  let era := z.fdiv 146097
  let dayOfEra := (z - era * 146097).toNat
  let yearOfEra :=
    (dayOfEra - dayOfEra / 1460 + dayOfEra / 36524 - dayOfEra / 146096) / 365
  let dayOfYear := dayOfEra - (365 * yearOfEra + yearOfEra / 4 - yearOfEra / 100)
  let shifted := (5 * dayOfYear + 2) / 153
  let day := dayOfYear - (153 * shifted + 2) / 5 + 1
  let month := if shifted < 10 then shifted + 3 else shifted - 9
  let year : Int := yearOfEra + era * 400 + (if month ≤ 2 then 1 else 0)
  (year, month, day)

def ofSeconds (s : Int) : Civil :=
  let days := s.fdiv 86400
  let rest := (s - days * 86400).toNat
  let (year, month, day) := dateOf days
  ⟨year, month, day, rest / 3600, rest % 3600 / 60, rest % 60⟩

def padded (width n : Nat) : String :=
  let digits := n.repr
  String.ofList (List.replicate (width - digits.length) '0') ++ digits

/-- A year: four digits up to 9999, and a sign outside. -/
def yearText (y : Int) : String :=
  if 0 ≤ y ∧ y ≤ 9999 then padded 4 y.toNat
  else (if y < 0 then "-" else "+") ++ padded 4 y.natAbs

def dateText (c : Civil) : String :=
  yearText c.year ++ "-" ++ padded 2 c.month ++ "-" ++ padded 2 c.day

def timeText (c : Civil) : String :=
  padded 2 c.hour ++ ":" ++ padded 2 c.minute ++ ":" ++ padded 2 c.second

/-- Date and time with the offset from UTC in full. -/
def withOffset (c : Civil) : String := c.dateText ++ "T" ++ c.timeText ++ "+00:00"

/-- Date and time with the letter for UTC. -/
def withLetter (c : Civil) : String := c.dateText ++ "T" ++ c.timeText ++ "Z"

def spaced (c : Civil) : String := c.dateText ++ " " ++ c.timeText ++ " UTC"

end Civil

end Tollgate
