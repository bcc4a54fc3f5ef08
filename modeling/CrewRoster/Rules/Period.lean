import CrewRoster.Overlap

/-!
How long a duty lasts, measured against the limits, and when it starts and ends.
-/

namespace CrewRoster.Duty

/-- From sign-in to the last arrival. -/
def flightDutyPeriod (d : Duty) : Result (Option Span) :=
  match d.start, d.lastArrival with
  | some start, some arrival => (arrival.minus start).map some
  | _, _ => .ok none

/-- The whole minutes from the first departure to the last arrival. -/
def blockMinutes (d : Duty) : Result Int :=
  match d.first?, d.last? with
  | some first, some last => do return Span.minutes (← last.flight.arrival.minus first.flight.departure)
  | _, _ => .ok 0

/-- The time of day that clocks in `zone` show at `t`. -/
def localClock (zone : Zone) (t : Instant) : Result Clock := do return (← t.inZone zone).clock

/-- The limit on the flight duty period of a duty that starts at `start`. -/
def periodLimit (d : Duty) (limits : DutyLimits) (zone : Zone) (start : Instant) : Result Span := do
  limits.limitFor (← localClock zone start) d.legs

/-- A point for every ten whole minutes by which the flight duty period goes beyond its limit. -/
def pointsOverLimit (d : Duty) (limits : DutyLimits) (zone : Zone) : Result Int := do
  match d.isFlightDuty, d.start with
  | true, some start =>
    match ← d.flightDutyPeriod with
    | none => return 0
    | some period =>
      let limit ← d.periodLimit limits zone start
      if period ≤ limit then return 0
      else return Int.fdiv (Span.minutes (← Span.check (period - limit))) 10
  | _, _ => return 0

/-- The duty ends on a later date than its own. -/
def isLateArrival (d : Duty) : Bool := d.finish.any fun t => d.date < t.date

/-- The duty starts before five in the morning. -/
def isNightDuty (d : Duty) : Bool := d.start.any fun t => t.clock.micros < 5 * Span.hour

end CrewRoster.Duty
