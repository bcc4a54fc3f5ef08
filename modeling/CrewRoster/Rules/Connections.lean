import CrewRoster.Rules.DaysOff

/-!
How an employee gets from one leg to the next: by ground where there is a way, and otherwise across a gap
that a positioning flight may fill.
-/

namespace CrewRoster

/-- Each element with the one that follows it. -/
def consecutive {α : Type} (xs : List α) : List (α × α) := xs.zip xs.tail

/-- The connections of an employee: how many are not possible, and the ground minutes of the others. -/
structure Connections where
  invalid : Int
  taxiMinutes : Int
  deriving DecidableEq, Repr

namespace Connections

/-- The longest ground transfer between two legs, unless a scenario says otherwise. -/
def usualMaxTaxi : Int := 240

/-- Takes in the connection between two legs. -/
def add (r : Reference) (maxTaxi : Int) (c : Connections) (legs : Seat × Seat) : Connections :=
  let origin := legs.1.flight.destination
  let destination := legs.2.flight.origin
  if origin.same destination then c
  else
    match r.taxi origin destination with
    | some minutes =>
      if maxTaxi < minutes then { c with invalid := c.invalid + 1 }
      else { c with taxiMinutes := c.taxiMinutes + minutes }
    | none => { c with invalid := c.invalid + 1 }

def ofLegs (r : Reference) (maxTaxi : Int) (seats : List Seat) : Connections :=
  (consecutive seats).foldl (add r maxTaxi) ⟨0, 0⟩

end Connections

/-- Two legs of different days between which there is no way by ground. -/
structure Gap where
  previous : Seat
  following : Seat
  /-- The day after the first leg departs. -/
  travelDate : Date
  /-- The positioning flights of that day. -/
  options : List PositioningFlight

namespace Gap

def origin (g : Gap) : Label := g.previous.flight.destination
def destination (g : Gap) : Label := g.following.flight.origin
def isFillable (g : Gap) : Bool := !g.options.isEmpty
def firstOption? (g : Gap) : Option PositioningFlight := g.options.head?

/-- The gap between two legs, if they have one. -/
def between? (r : Reference) (previous following : Seat) : Option Gap := do
  let origin := previous.flight.destination
  let destination := following.flight.origin
  guard (previous.departureDate < following.departureDate)
  guard (!origin.same destination && (r.taxi origin destination).isNone)
  let travelDate ← previous.departureDate.next.toOption
  return ⟨previous, following, travelDate, r.options origin destination travelDate⟩

/-- The gap between two legs, if they have one, where their airports can be looked up. -/
def find (r : Reference) (previous following : Seat) : Result (Option Gap) := do
  let gap := between? r previous following
  if previous.departureDate < following.departureDate then
    r.checkWay previous.flight.destination following.flight.origin
    if gap.isSome then let _ ← following.flight.origin.lookupKey
  return gap

end Gap

namespace Employee

def connections (e : Employee) (r : Reference) (maxTaxi : Int) : Result Connections := do
  (consecutive e.seats).forM fun (s, t) => r.checkWay s.flight.destination t.flight.origin
  return .ofLegs r maxTaxi e.seats

def gaps (e : Employee) (r : Reference) : Result (List Gap) := do
  let gaps ← (consecutive e.seats).mapM fun (s, t) => Gap.find r s t
  return gaps.filterMap fun gap => gap

/-- The gaps on either side of a leg, found through its neighbours in time. -/
def gapsAround (e : Employee) (r : Reference) (s : Seat) : Result (List Gap) := do
  let previous ← e.calendar.previousSeat s
  let following ← e.calendar.nextSeat s
  let before ← previous.mapM (Gap.find r · s)
  let after ← following.mapM (Gap.find r s)
  return before.join.toList ++ after.join.toList

def startsAtHome (e : Employee) : Bool :=
  e.calendar.firstSeat.all fun s => s.flight.origin.same e.home

def endsAtHome (e : Employee) : Bool :=
  e.calendar.lastSeat.all fun s => s.flight.destination.same e.home

/-- The whole minutes in the air, flight by flight. -/
def flightMinutes (e : Employee) : Result Int := do
  return (← e.seats.mapM fun s => s.flight.minutes).foldr (· + ·) 0

end Employee
end CrewRoster
