import CrewRoster.Model.Search

/-!
What comes of a model in the hands of a solver that works with 64-bit numbers and within limits.
-/

namespace CrewRoster

inductive Verdict
  /-- Choices that cost no more than any others. -/
  | solved (choices : List Choice)
  /-- Choices that may not be the cheapest: the time ran out before others were ruled out. -/
  | satisfied (choices : List Choice)
  | infeasible
  /-- The model or the limits are beyond what the solver takes. -/
  | refused
  /-- The time ran out before anything was found. -/
  | undecided
  deriving DecidableEq, Repr

/-- How long the solver may take, and how many workers it may put on a model. -/
structure SearchLimits where
  seconds : Binary64
  workers : Int

namespace SearchLimits

def usual : SearchLimits := ⟨.ofRat 10, 4⟩

/-- A number of workers has 32 bits. -/
def check (l : SearchLimits) : Result Unit :=
  if -Nat.pow 2 31 ≤ l.workers ∧ l.workers < Nat.pow 2 31 then .ok () else .error .wrongType

/-- No more than ten thousand workers, and no time below zero. -/
def areAccepted (l : SearchLimits) : Bool :=
  0 ≤ l.workers && l.workers ≤ 10000 && !l.seconds.isNaN && (0 ≤ l.seconds.value)

end SearchLimits

namespace Model

/-- The largest sum that costs may come to where they are whole numbers. -/
def mostCost : Int := Nat.pow 2 62 - 1

/-- The largest cost where costs are doubles. -/
def mostRealCost : Rat := Nat.pow 10 20

/-- From this weight on costs are doubles. -/
def leastRealWeight : Int := Nat.pow 2 63

def checkCosts (m : Model) : Result Unit := do
  if !m.awayLegs.isEmpty then
    if !(Binary64.ofRat m.weight).isFinite then .error .wrongType

/-- Whether costs are within the solver's range. -/
def areCostsAccepted (m : Model) : Bool :=
  if m.weight < leastRealWeight then
    m.costs.foldr (fun (cost, _) sum => cost + sum) 0 ≤ mostCost
  else
    m.awayLegs.all fun (legs, _) => nearest (nearest m.weight * legs) ≤ mostRealCost

/-- Decides a model, if the solver takes it. -/
def solve (limits : SearchLimits) (m : Model) : Result Verdict := do
  m.checkCosts
  limits.check
  if !(m.areCostsAccepted && limits.areAccepted) then return .refused
  return m.optimum.elim .infeasible .solved

end Model
end CrewRoster
