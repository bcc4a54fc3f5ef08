import CrewRoster.Instance.Folder
import CrewRoster.Document.Display
import CrewRoster.Document.Order
import CrewRoster.Reference
import CrewRoster.Time.Notation

/-!
Reading airports, ground transfers, positioning flights and duty limits, and checking that what they name
exists.
-/

namespace CrewRoster

namespace DutyLimit

/-- Limits by leg count, given as hours and minutes or as minutes. -/
def ofDocument (d : Document) : Result DutyLimit := do
  let start ← Clock.read (← d.field "start")
  let finish ← Clock.read (← d.field "end")
  let entries ← (← (← d.field "max_fdp_by_segments").entries).mapM fun (legs, limit) => do
    return (← (Document.text legs).toWhole, ← Span.read limit)
  let byLegs : Registry Int Span := .ofList entries
  ofLegs start finish byLegs.entries

end DutyLimit

namespace DutyLimits

def ofDocument (d : Document) : Result DutyLimits := do
  (← (← d.fieldOr "rules" (.array [])).items).mapM DutyLimit.ofDocument

end DutyLimits

/-- A ground transfer between two airports. -/
structure Transfer where
  origin : Label
  destination : Label
  minutes : Int

/-- Ground transfers, those from one airport next to each other and one for each destination. -/
abbrev TaxiTable := List Transfer

namespace TaxiTable

/-- Enters a transfer. A later one between the same airports changes the minutes. -/
def insert (t : Transfer) : TaxiTable → TaxiTable
  | [] => [t]
  | u :: table =>
    if !u.origin.sameKey t.origin then u :: insert t table
    else if u.destination.sameKey t.destination then { u with minutes := t.minutes } :: table
    else if table.any (·.origin.sameKey t.origin) then u :: insert t table
    else u :: { t with origin := u.origin } :: table

def add (table : TaxiTable) (d : Document) : Result TaxiTable := do
  -- the minutes are looked at first
  let minutes ← (← d.field "minutes").toWhole
  let origin ← d.field "from"
  let _ ← origin.lookupKey
  let destination ← d.field "to"
  let _ ← destination.lookupKey
  return table.insert { origin, destination, minutes }

def ofDocument (d : Document) : Result TaxiTable := do
  (← (← d.fieldOr "taxi_minutes" (.array [])).items).foldlM add []

/-- The minutes to each destination from one airport. -/
def leaving (table : TaxiTable) (origin : Label) : List (Label × Int) :=
  (table.filter (·.origin.sameKey origin)).map fun t => (t.destination, t.minutes)

end TaxiTable

namespace Airport

def ofDocument (table : TaxiTable) (d : Document) : Result Airport := do
  let code ← d.field "code"
  let name ← d.fieldOr "name" (.text "")
  let latitude ← (← d.fieldOr "latitude" (.real .zero)).toReal
  let longitude ← (← d.fieldOr "longitude" (.real .zero)).toReal
  let _ ← code.lookupKey
  return { code, name, latitude, longitude, taxi := table.leaving code }

end Airport

namespace PositioningFlight

def ofDocument (d : Document) : Result PositioningFlight := do
  let origin ← d.field "departure_airport"
  let destination ← d.field "arrival_airport"
  let departure ← Clock.read (← d.field "departure_utc_time")
  let arrival ← Clock.read (← d.field "arrival_utc_time")
  let weekdays := weekdaysOf (← d.fieldOr "days_of_week" (.text "1234567")).display.toList
  return { origin, destination, departure, arrival, weekdays }

end PositioningFlight

namespace Reference

/-- Refuses an airport that is not listed. -/
def checkAirport (r : Reference) (place : String) (code : Label) : Result Unit := do
  let k ← code.lookupKey
  if r.airports.contains k then return ()
  let known ← Document.sortLabels (r.airports.values.map (·.code))
  .error (.rejected (.unknownAirport place code.display (Document.notated (.array known))))

/-- A transfer joins two airports that are listed, and takes no negative time. -/
def checkTransfer (r : Reference) (t : Transfer) : Result Unit := do
  r.checkAirport "Taxi time" t.origin
  r.checkAirport ("Taxi time from " ++ t.origin.display) t.destination
  if t.minutes < 0 then
    .error (.rejected (.negativeTaxi t.origin.display t.destination.display))

/-- The positioning flights between two airports that are listed operate on some day each. -/
def checkRoute (r : Reference) (flights : List PositioningFlight) : Result Unit :=
  match flights with
  | [] => .ok ()
  | f :: _ => do
    r.checkAirport "Repositioning flight" f.origin
    r.checkAirport "Repositioning flight" f.destination
    if flights.any (·.weekdays.isEmpty) then
      .error (.rejected (.neverOperates f.origin.display f.destination.display))

/-- There is a limit, and every airport that is named is listed. -/
def check (r : Reference) (table : TaxiTable) : Result Unit := do
  if r.limits.isEmpty then .error (.rejected .noDutyLimits)
  table.forM r.checkTransfer
  r.positioning.values.forM r.checkRoute

def load (f : Folder) : Result Reference := do
  let d ← f.document "airports.json"
  let table ← TaxiTable.ofDocument d
  let airports ← (← (← d.fieldOr "airports" (.array [])).items).mapM (Airport.ofDocument table)
  let positioning ← (← (← d.fieldOr "repositioning_flights" (.array [])).items).mapM
    PositioningFlight.ofDocument
  let limits ← DutyLimits.ofDocument (← f.document "max_fdp.json")
  checkKeys airports positioning
  let r := build airports limits positioning
  r.check table
  return r

end Reference
end CrewRoster
