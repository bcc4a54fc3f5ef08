import CrewRoster.Rules.Home

/-!
Work that reaches into days off.
-/

namespace CrewRoster.Employee

def fullDayMinutes : Int := 24 * 60

/-- The minutes from a departure to eight in the morning, if it is earlier and the day before is off. -/
def morningEncroachment (e : Employee) (departure : Instant) : Result (Option Int) := do
  -- the day before has to exist, whether it is off or not
  let dayBefore ← departure.date.previous
  let limit := departure.withClock (.oclock 8 (by decide))
  if !e.isAvailable dayBefore && departure.wall < limit.wall then
    return some (Span.minutes (limit.wall - departure.wall))
  else return none

/-- The minutes from 22:00 to an arrival, if it is later and the day after is off. -/
def eveningEncroachment (e : Employee) (arrival : Instant) : Result (Option Int) := do
  let dayAfter ← arrival.date.next
  let limit := arrival.withClock (.oclock 22 (by decide))
  if !e.isAvailable dayAfter && limit.wall < arrival.wall then
    return some (Span.minutes (arrival.wall - limit.wall))
  else return none

/--
The minutes by which a flight takes from a day off: those of the morning, by local time; where there are
none those of the evening; and where there are none either, a full day if the flight arrives, in UTC, on
a day off.
-/
def encroachment (e : Employee) (zone : Zone) (f : Flight) : Result Int := do
  match ← e.morningEncroachment (← f.departure.inZone zone) with
  | some minutes => return minutes
  | none =>
    match ← e.eveningEncroachment (← f.arrival.inZone zone) with
    | some minutes => return minutes
    | none => return if e.isAvailable f.arrivalDate then 0 else fullDayMinutes

def totalEncroachment (e : Employee) (zone : Zone) : Result Int := do
  return (← e.seats.mapM fun s => e.encroachment zone s.flight).foldr (· + ·) 0

end CrewRoster.Employee
