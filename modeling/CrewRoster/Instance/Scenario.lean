import CrewRoster.Document.Display
import CrewRoster.Time.Notation

/-!
Scenarios: the period of a roster, and the settings of its rules.
-/

namespace CrewRoster

structure Scenario where
  first : Date
  last : Date
  /-- The hours by which the crew's local time is ahead of UTC. -/
  offsetHours : Binary64
  maxTaxi : Int
  groundCode : String

namespace Scenario

/-- The zone of the crew's local time. -/
def zone (s : Scenario) : Result Zone := Zone.ofRealHours s.offsetHours

def ofDocument (d : Document) : Result Scenario := do
  let first ← Date.read (← d.field "schedule_first_date")
  let last ← Date.read (← d.field "schedule_last_date")
  let offsetHours ← (← d.fieldOr "reference_utc_offset_hours" (.whole 2)).toReal
  let maxTaxi ← (← d.fieldOr "max_connection_taxi_minutes" (.whole 240)).toWhole
  let groundCode := (← d.fieldOr "ground_duty_code" (.text "GND")).display
  if last < first then .error (.rejected (.lastBeforeFirst last.text first.text))
  return { first, last, offsetHours, maxTaxi, groundCode }

end Scenario
end CrewRoster
