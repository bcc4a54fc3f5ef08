import CrewRoster.Document
import CrewRoster.DutyLimit
import CrewRoster.Time.Date

/-!
What a roster is planned against and never changes: the airports with the ground transfers between them,
the scheduled flights on which crew can be moved, and the limits on duties.
-/

namespace CrewRoster

structure Airport where
  code : Label
  name : Label
  latitude : Binary64
  longitude : Binary64
  /-- Minutes of ground transfer, by destination. -/
  taxi : List (Label × Int)

namespace Airport

/-- Minutes by ground to another airport, if it can be reached. -/
def taxiTo (a : Airport) (destination : Label) : Option Int :=
  if destination.same a.code then some 0
  else (a.taxi.find? fun (l, _) => destination.sameKey l).map (·.2)

end Airport

/-- A scheduled flight on which crew can ride, at times of day in UTC and on some days of the week. -/
structure PositioningFlight where
  origin : Label
  destination : Label
  departure : Clock
  arrival : Clock
  weekdays : List Nat

namespace PositioningFlight

def operatesOn (f : PositioningFlight) (d : Date) : Bool := f.weekdays.contains d.weekday

/-- The weekdays named in a text, 1 for Monday up to 7 for Sunday; other characters mean nothing. -/
def weekdaysOf (cs : List Char) : List Nat :=
  [1, 2, 3, 4, 5, 6, 7].filter fun (day : Nat) => cs.contains (Char.ofNat ('0'.toNat + day))

end PositioningFlight

/-- An airport under the label that its code was first given with. -/
structure Listing where
  code : Label
  airport : Airport

structure Reference where
  /-- By the key of the code. -/
  airports : Registry Label Listing
  limits : DutyLimits
  /-- By the keys of origin and destination, in the order in which they were given. -/
  positioning : Registry (Label × Label) (List PositioningFlight)

namespace Reference

/-- Lists an airport. A later one with the same code takes its place, under the code as it stands. -/
def addAirport (r : Registry Label Listing) (a : Airport) : Registry Label Listing :=
  r.insert a.code.key ⟨((r.get? a.code.key).map (·.code)).getD a.code, a⟩

/-- Adds a flight behind those between the same airports. -/
def addPositioning (r : Registry (Label × Label) (List PositioningFlight)) (f : PositioningFlight) :
    Registry (Label × Label) (List PositioningFlight) :=
  let route := (f.origin.key, f.destination.key)
  r.insert route ((r.get? route).getD [] ++ [f])

def build (airports : List Airport) (limits : DutyLimits) (positioning : List PositioningFlight) :
    Reference where
  airports := airports.foldl addAirport .empty
  limits := limits
  positioning := positioning.foldl addPositioning .empty

/-- Airports are looked up by their codes, and positioning flights by both of their airports. -/
def checkKeys (airports : List Airport) (positioning : List PositioningFlight) : Result Unit := do
  positioning.forM fun f => do
    let _ ← f.origin.lookupKey
    let _ ← f.destination.lookupKey
  airports.forM fun a => do let _ ← a.code.lookupKey

def airport? (r : Reference) (code : Label) : Option Airport :=
  (r.airports.get? code.key).map (·.airport)

def hasAirport (r : Reference) (code : Label) : Bool := r.airports.contains code.key

/-- Minutes by ground between two airports, if there is a way. -/
def taxi (r : Reference) (origin destination : Label) : Option Int :=
  if origin.same destination then some 0
  else (r.airport? origin).bind (·.taxiTo destination)

/-- Whether a way between two airports can be looked for: what is looked up has to be a scalar. -/
def checkWay (r : Reference) (origin destination : Label) : Result Unit := do
  if origin.same destination then return ()
  let _ ← origin.lookupKey
  match r.airport? origin with
  | none => return ()
  | some a =>
    if destination.same a.code then return ()
    let _ ← destination.lookupKey

/-- The positioning flights between two airports, on one day or of all days. -/
def options (r : Reference) (origin destination : Label) (day : Option Date) :
    List PositioningFlight :=
  let all := (r.positioning.get? (origin.key, destination.key)).getD []
  day.elim all fun d => all.filter (·.operatesOn d)

end Reference
end CrewRoster
