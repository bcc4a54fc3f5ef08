import CrewRoster.Roster

/-!
Overlap in time, and the conflicts that follow from it: nobody holds two seats of one flight, or seats
of two flights that are in the air together.
-/

namespace CrewRoster

/-- An interval that holds its start but not its finish. -/
structure Interval where
  start : Instant
  finish : Instant

namespace Interval

/-- The whole minutes that two intervals share. -/
def overlapMinutes (a b : Interval) : Result Int := do
  if ← a.start.lt? b.finish then
    if ← b.start.lt? a.finish then
      let finish ← a.finish.min? b.finish
      let start ← a.start.max? b.start
      return Span.minutes (← finish.minus start)
  return 0

end Interval

namespace Flight

/-- The time in the air; sign-in and sign-off do not count. -/
def airborne (f : Flight) : Interval := ⟨f.departure, f.arrival⟩

def overlapMinutes (f g : Flight) : Result Int := f.airborne.overlapMinutes g.airborne

end Flight

namespace Duty

/-- The minutes that the flights of a duty share with the ground activity of the day. -/
def groundOverlapMinutes (d : Duty) : Result Int :=
  match d.ground, d.first?, d.last? with
  | some g, some first, some last =>
    Interval.overlapMinutes ⟨g.start, g.finish⟩ ⟨first.flight.departure, last.flight.arrival⟩
  | _, _, _ => .ok 0

end Duty

namespace Seat

/-- Whether one employee cannot hold both seats. -/
def conflicts (a b : Seat) : Result Bool := do
  if a.flight.id = b.flight.id then return true
  else return 0 < (← a.flight.overlapMinutes b.flight)

/--
The seats among `later`, which follow `s` in order, that conflict with it. From the first departure at or
past the arrival of `s` on none can.
-/
def conflictsAfter (s : Seat) : List Seat → Result (List Seat)
  | [] => .ok []
  | t :: later => do
    -- those behind `t` depart no earlier than `t` does
    if ← s.flight.arrival.le? t.flight.departure then return []
    else if ← s.conflicts t then return t :: (← s.conflictsAfter later)
    else s.conflictsAfter later

/-- All conflicts among seats in order, the earlier seat first in each pair. -/
def sweep : List Seat → Result (List (Seat × Seat))
  | [] => .ok []
  | s :: later => do
    let here ← s.conflictsAfter later
    return here.map (s, ·) ++ (← sweep later)

end Seat

namespace Roster

/-- The conflicts among some assignments, as pairs of seat ids. -/
def conflictPairs (as : List Assignment) : Result (List (String × String)) := do
  let pairs ← Seat.sweep ((← sortAssignments as).map (·.seat))
  return pairs.map fun (a, b) => (a.id, b.id)

end Roster
end CrewRoster
