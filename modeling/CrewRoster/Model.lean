import CrewRoster.Coverage

/-!
The question whether a roster can be completed, as a model over 0/1 variables. There is a variable for
every employee and seat that go together. Every seat is chosen exactly once, and of two conflicting seats
no employee is given both.
-/

namespace CrewRoster

/-- The variable that is 1 if the employee takes the seat. -/
structure Choice where
  employee : String
  seat : String
  deriving DecidableEq, Repr, Hashable

namespace Choice

def name (c : Choice) : String := "x[" ++ c.employee ++ "," ++ c.seat ++ "]"

end Choice

/-- What is asked of some choices; a choice may be named more than once, and then counts as often. -/
inductive Constraint
  | exactlyOne (choices : List Choice)
  | notBoth (a b : Choice)
  deriving DecidableEq, Repr

/-- Bounds on a sum of variables with coefficients. Where there is no variable the constant 0 stands. -/
structure Linear where
  terms : List (Int × Option Choice)
  least : Option Int
  most : Int
  deriving DecidableEq, Repr

namespace Linear

def value (terms : List (Int × Option Choice)) (v : Choice → Bool) : Int :=
  terms.foldr (fun (coefficient, c) sum => (if c.any v then coefficient else 0) + sum) 0

def Holds (l : Linear) (v : Choice → Bool) : Prop :=
  (∀ least ∈ l.least, least ≤ value l.terms v) ∧ value l.terms v ≤ l.most

instance (l : Linear) (v : Choice → Bool) : Decidable (l.Holds v) := by
  unfold Holds; infer_instance

/-- The sum of some choices, a term for each variable among them, in the order of the variables. -/
def sum (order choices : List Choice) : List (Int × Option Choice) :=
  (order.filter choices.contains).map fun c => ((choices.count c : Nat), some c)

end Linear

namespace Constraint

def linear (order : List Choice) : Constraint → Linear
  | exactlyOne [] => ⟨[(1, none)], some 1, 1⟩
  | exactlyOne choices => ⟨Linear.sum order choices, some 1, 1⟩
  | notBoth a b => ⟨Linear.sum order [a, b], none, 1⟩

end Constraint

structure Model where
  /-- A variable is created for each pair that goes together; one that comes again is created anew. -/
  created : List Choice
  constraints : List Constraint
  /-- What a leg away from home costs. -/
  weight : Int
  /-- The legs away from home, for each variable that has some, in the order of the variables. -/
  awayLegs : List (Int × Choice)

namespace Model

/-- The variables by the first time that they were created. -/
def choices (m : Model) : List Choice := m.created.eraseDups

/-- The variables by the last time that they were created, which is how terms are ordered. -/
def ordered (created : List Choice) : List Choice := created.reverse.eraseDups.reverse

def order (m : Model) : List Choice := ordered m.created

def linear (m : Model) : List Linear := m.constraints.map (·.linear m.order)

def Satisfies (v : Choice → Bool) (m : Model) : Prop := ∀ l ∈ m.linear, l.Holds v

/-- The variables that cost something, with what they cost. -/
def costs (m : Model) : List (Int × Choice) := m.awayLegs.map fun (legs, c) => (m.weight * legs, c)

/-- What is to be made as small as possible. -/
def objective (m : Model) (v : Choice → Bool) : Int :=
  m.costs.foldr (fun (cost, c) sum => (if v c then cost else 0) + sum) 0

/-- How many ends of a flight are away from an employee's home. -/
def awayLegsOf (e : Employee) (s : Seat) : Int :=
  (if s.flight.origin.same e.home then 0 else 1) + (if s.flight.destination.same e.home then 0 else 1)

def choicesOf (employees : List Employee) (seats : List Seat) (el : Eligibility) : List Choice :=
  employees.flatMap fun e => (seats.filter fun s => el.allows e.id s.id).map fun s => ⟨e.id, s.id⟩

/-- A seat is chosen exactly once. -/
def cover (employees : List Employee) (el : Eligibility) (s : Seat) : Constraint :=
  .exactlyOne ((employees.filter fun e => el.allows e.id s.id).map fun e => ⟨e.id, s.id⟩)

/-- Two choices of one employee exclude each other. -/
def exclusion (choices : List Choice) (employee : String) (pair : String × String) :
    Option Constraint :=
  let a : Choice := ⟨employee, pair.1⟩
  let b : Choice := ⟨employee, pair.2⟩
  if choices.contains a && choices.contains b then some (.notBoth a b) else none

/-- The legs of a choice away from home, if it has some. -/
def awayLegs? (employees : List Employee) (seats : List Seat) (c : Choice) : Option (Int × Choice) := do
  let e ← employees.find? (·.id == c.employee)
  let s ← seats.find? (·.id == c.seat)
  guard (awayLegsOf e s ≠ 0)
  return (awayLegsOf e s, c)

/-- The model for some employees and seats. With a positive weight, legs away from home cost. -/
def build (employees : List Employee) (seats : List Seat) (el : Eligibility)
    (conflicts : List (String × String)) (weight : Int) : Model :=
  let created := choicesOf employees seats el
  { created
    constraints :=
      seats.map (cover employees el) ++
        employees.flatMap fun e => conflicts.filterMap (exclusion created e.id)
    weight
    awayLegs := if 0 < weight then (ordered created).filterMap (awayLegs? employees seats) else [] }

end Model
end CrewRoster
