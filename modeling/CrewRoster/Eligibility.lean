import CrewRoster.Overlap

/-!
Who may take which seat.
-/

namespace CrewRoster

/-- By employee and seat; a pair without an entry is not eligible. -/
abbrev Eligibility := Registry (String × String) Bool

namespace Eligibility

def allows (el : Eligibility) (employee seat : String) : Bool := (el.get? (employee, seat)).getD false

/-- An employee needs the skill, the aircraft type, and a free day. -/
def isEligible (e : Employee) (s : Seat) : Result Bool := do
  if ← e.hasSkill s.skill then
    if ← e.isQualifiedFor s.flight.aircraft then return e.isAvailable s.departureDate
  return false

def ofPairs (employees : List Employee) (seats : List Seat) : Result Eligibility := do
  let rows ← employees.mapM fun e =>
    seats.mapM fun s => do return ((e.id, s.id), ← isEligible e s)
  return .ofList rows.flatten

/-- Who holds one of two conflicting seats is not eligible for the other while that is open. -/
def blockPair (r : Roster) (el : Eligibility) (pair : String × String) : Eligibility :=
  let owner (seat : String) : Option String := (r.assignments.get? seat).bind (·.owner)
  match owner pair.1, owner pair.2 with
  | some e, none => el.insert (e, pair.2) false
  | none, some e => el.insert (e, pair.1) false
  | _, _ => el

/-- Takes the seats that are already held into account. -/
def block (r : Roster) (el : Eligibility) : Result Eligibility := do
  if r.assignments.values.all (·.owner.isNone) then return el
  else return (← Roster.conflictPairs r.assignments.values).foldl (blockPair r) el

end Eligibility
end CrewRoster
