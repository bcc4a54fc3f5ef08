import CrewRoster.Fault
import CrewRoster.Number.Binary64

/-!
Lengths of time, counted in microseconds, and the whole minutes in them.
-/

namespace CrewRoster

/-- A length of time in microseconds, of either sign. -/
abbrev Span := Int

namespace Span

def second : Span := 1000000
def minute : Span := 60 * second
def hour : Span := 60 * minute
def day : Span := 24 * hour

def ofMinutes (n : Int) : Span := n * minute

/-- A length of time has at most nine digits of days. -/
def check (s : Span) : Result Span :=
  if -999999999 * day ≤ s ∧ s < 1000000000 * day then .ok s else .error .outOfRange

def ofHours (n : Int) : Result Span := check (n * hour)

/--
A number of hours with a fraction, to the nearest microsecond. The fraction of an hour is first rounded
to a double number of microseconds.
-/
def ofRealHours (x : Binary64) : Result Span :=
  if x.isNaN then .error .unreadable
  else if !x.isFinite then .error .outOfRange
  else
    -- whole hours are exact, so only the fraction of an hour goes through doubles
    let hours := truncate x.value
    check (roundEven ((hours * hour : Int) + nearest (hour * (x.value - hours))))

/-- The seconds in a span, as a double. -/
def seconds (s : Span) : Rat := nearest (s / second)

/-- The whole minutes in a span, counted toward zero, on doubles. -/
def minutes (s : Span) : Int := truncate (nearest (s.seconds / 60))

/-- The whole minutes in a span, counted downward, on doubles. -/
def minutesBelow (s : Span) : Int := (s.seconds / 60).floor

end Span
end CrewRoster
