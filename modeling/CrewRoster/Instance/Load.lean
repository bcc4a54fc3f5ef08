import CrewRoster.Instance.Crew
import CrewRoster.Instance.Scenario
import CrewRoster.Ledger

/-!
Loading an instance: its scenario and its roster, with the owners of a solution if it has one.
-/

namespace CrewRoster

namespace Ledger.Plan

/-- The owners in a solution; `null` leaves a seat open. -/
def ofDocument (d : Document) : Result Plan := do
  let entries ← (← d.fieldOr "assignments" (.object [])).entries
  return entries.map fun (seat, owner) => (seat, if owner = .null then none else some owner.display)

/-- The plan of an instance, empty if it has no solution. -/
def load (f : Folder) : Result Plan :=
  if (f.file? "solution.json").isSome then do ofDocument (← f.document "solution.json") else .ok []

end Ledger.Plan

/-- Enters all ground duties of an employee. -/
def Employee.placeAll (e : Employee) (duties : List Duty) : Result Employee :=
  duties.foldlM Employee.place e

/-- The roster of an instance, without owners. -/
def Roster.load (f : Folder) (scenario : Scenario) : Result Roster := do
  let reference ← Reference.load f
  let flights ← (← (← (← f.document "flights.json").fieldOr "flights" (.array [])).items).mapM
    Flight.withSeats
  let crew ← (← (← (← f.document "employees.json").fieldOr "employees" (.array [])).items).mapM
    Employee.ofDocument
  -- every file is read before anything is checked against the reference
  let seats := flights.flatMap (·.2)
  let flights := flights.map (·.1)
  checkFlights reference flights seats
  checkEmployees reference (crew.map (·.1))
  (crew.flatMap (·.2)).forM Duty.checkGround
  let employees ← crew.mapM fun (e, duties) => e.placeAll duties
  Roster.build scenario.first scenario.last reference flights seats employees

/-- An instance with its owners, if `solved` asks for them. -/
def loadInstance (f : Folder) (solved : Bool) : Result (Scenario × Roster) := do
  let scenario ← Scenario.ofDocument (← f.document "scenario.json")
  let r ← Roster.load f scenario
  if solved then
    let (l, outcome) := (Ledger.ofRoster r).apply (← Ledger.Plan.load f)
    let _ ← outcome
    return (scenario, l.roster)
  else return (scenario, r)

end CrewRoster
