import CrewRoster.Rules.Period

/-!
Rest between duties.
-/

namespace CrewRoster.Duty

def minRestAtHome : Span := 12 * Span.hour
def minRestAway : Span := 10 * Span.hour

/-- The least rest after a duty: as long as the duty, and no less than 12 hours at home, 10 away. -/
def minimumRest (d : Duty) (e : Employee) : Result (Option Span) :=
  match d.last?, d.start, d.finish with
  | some last, some start, some finish => do
    let length ← finish.minus start
    let least := if last.flight.destination.same e.home then minRestAtHome else minRestAway
    return some (max length least)
  | _, _, _ => .ok none

/-- The whole minutes by which the rest before the next duty falls short. -/
def restLack (d : Duty) (next : Option Duty) (e : Employee) : Result Int :=
  match next.bind fun n => if n.hasCode then n.start else none with
  | none => .ok 0
  | some start => do
    match ← d.minimumRest e, d.finish with
    | some required, some finish =>
      let rest ← start.minus finish
      if required ≤ rest then return 0 else return Span.minutes (required - rest)
    | _, _ => return 0

/--
The employee gets no local night between two duties: after a finish past 22:00 less than eight hours of
rest, otherwise a start before six.
-/
def noLocalNight (d : Duty) (previous : Option Duty) : Result Bool :=
  match previous.bind (·.finish), d.start with
  | some finish, some start =>
    if 22 * Span.hour < finish.clock.micros then do
      return (← start.minus finish) < 8 * Span.hour
    else .ok (start.clock.micros < 6 * Span.hour)
  | _, _ => .ok false

end CrewRoster.Duty
