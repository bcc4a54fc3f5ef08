import CrewRoster.Ledger
import CrewRoster.Model.Verdict

/-!
Completing a roster: an owner for every open seat, so that nobody holds two conflicting seats.
-/

namespace CrewRoster

inductive Status
  | nothingToDo
  | coverageInfeasible
  | infeasible
  | refused
  | undecided
  | feasible
  | optimal
  deriving DecidableEq, Repr

namespace Status

def text : Status → String
  | nothingToDo => "NOTHING_TO_DO"
  | coverageInfeasible => "COVERAGE_INFEASIBLE"
  | infeasible => "INFEASIBLE"
  | refused => "MODEL_INVALID"
  | undecided => "UNKNOWN"
  | feasible => "FEASIBLE"
  | optimal => "OPTIMAL"

end Status

/-- How a completion went: the open seats, the shortages found, and the choices made. -/
structure Completion where
  status : Status
  openSeats : Nat
  shortages : List String
  filled : List Choice

/-- Decides a model. -/
abbrev Solver := Model → Result Verdict

namespace Completion

/-- The choices that complete a roster, in the order of the model's variables. -/
def find (solver : Solver) (r : Roster) (weight : Int) : Result Completion := do
  let openSeats := (← r.unassigned).map (·.seat)
  let answer (status : Status) (shortages : List String) (filled : List Choice) : Completion :=
    ⟨status, openSeats.length, shortages, filled⟩
  if openSeats.isEmpty then return answer .nothingToDo [] []
  let employees := r.employees.values
  let el ← Eligibility.block r (← Eligibility.ofPairs employees openSeats)
  let seatShortages := SeatShortage.find employees openSeats el
  let flightShortages := FlightShortage.find employees openSeats el
  if !(seatShortages.isEmpty && flightShortages.isEmpty) then
    return answer .coverageInfeasible
      (seatShortages.map (·.seat.id) ++ flightShortages.map (·.flight)) []
  let conflicts ← Roster.conflictPairs (openSeats.map fun s => ⟨s, none⟩)
  let model := Model.build employees openSeats el conflicts weight
  match ← solver model with
  | .refused => return answer .refused [] []
  | .infeasible => return answer .infeasible [] []
  | .undecided => return answer .undecided [] []
  | .satisfied chosen => return answer .feasible [] (model.choices.filter chosen.contains)
  | .solved chosen => return answer .optimal [] (model.choices.filter chosen.contains)

end Completion

namespace Ledger

/-- Gives every chosen seat to its employee. -/
def assignAll (l : Ledger) : List Choice → Outcome Unit
  | [] => (l, .ok ())
  | c :: cs =>
    match l.roster.assignment c.seat with
    | .error fault => (l, .error fault)
    | .ok a => andThen (l.assign a (some c.employee)) fun _ l => l.assignAll cs

/-- Completes the roster if it can be completed, and leaves it as it is otherwise. -/
def completeWith (solver : Solver) (l : Ledger) (weight : Int) : Outcome Completion :=
  match Completion.find solver l.roster weight with
  | .error fault => (l, .error fault)
  | .ok c => andThen (l.assignAll c.filled) fun _ l => (l, .ok c)

def complete (l : Ledger) (limits : SearchLimits) (weight : Int) : Outcome Completion :=
  l.completeWith (Model.solve limits) weight

end Ledger
end CrewRoster
