import CrewRoster.Model
import Std.Data.HashMap
import Std.Data.HashSet

/-!
An exact search for the cheapest solution of a model in which every seat is covered once.

Seats that rule each other out for somebody belong together, and each group of them is searched for
itself. Within a group seats are decided one after the other. A partial solution is worth keeping only
for what it leaves to the seats that are still to come, and for that it does not matter who is left, but
only of what kind; so of all partial solutions that leave the same only the cheapest goes on.
-/

namespace CrewRoster.Model

namespace Search

/-- A seat that a candidate may take, by its number, and the later seats that it rules out. -/
structure Offer where
  seat : Nat
  price : Int
  excludes : List Nat
  deriving DecidableEq

/-- Somebody with the offers that are left. All candidates of a kind started with the same offers. -/
structure Candidate where
  employee : String
  kind : Nat
  /-- Ascending by seat. -/
  offers : List Offer

namespace Candidate

def seats (c : Candidate) : List Nat := c.offers.map (·.seat)

/-- What tells candidates apart. -/
def form (c : Candidate) : Nat × List Nat := (c.kind, c.seats)

/-- Rows of seats by their first difference. -/
def rowBefore : List Nat → List Nat → Bool
  | [], _ => true
  | _ :: _, [] => false
  | a :: as, b :: bs => a < b || (a = b && rowBefore as bs)

def before (a b : Candidate) : Bool :=
  a.kind < b.kind || (a.kind = b.kind && rowBefore a.seats b.seats)

/-- What is left when a seat goes to somebody else. -/
def pass (seat : Nat) (c : Candidate) : Candidate :=
  { c with offers := c.offers.filter (·.seat ≠ seat) }

/-- What is left when an offer is taken. -/
def take (offer : Offer) (c : Candidate) : Candidate :=
  { c with offers := c.offers.filter fun o => o.seat ≠ offer.seat && !offer.excludes.contains o.seat }

end Candidate

/-- The seats decided so far: who took them, what they cost, and who is left for the others. -/
structure Partial where
  /-- Those who have an offer left, in the order of their forms. -/
  candidates : List Candidate
  cost : Int
  /-- No less than this is added by the seats that are still to come. -/
  least : Int
  /-- The numbers of the seats with who took them, latest first. -/
  chosen : List (Nat × String)

/-- The lowest price among the offers for each of `size` seats. -/
def lowest (size : Nat) (candidates : List Candidate) : Array (Option Int) :=
  let offers := candidates.flatMap (·.offers)
  offers.foldl (fun lows o =>
    lows.modify o.seat fun low =>
      some (low.elim o.price fun price => if o.price < price then o.price else price))
    (Array.replicate size none)

/-- The sum of the lowest prices of some seats, unless there is a seat that nobody is left for. -/
def least? (seats : List Nat) (lows : Array (Option Int)) : Option Int :=
  seats.foldlM (fun sum seat => do return sum + (← (lows[seat]?).join)) 0

namespace Partial

/-- A partial solution in which each of the seats to come has somebody left. -/
def make? (size : Nat) (toCome : List Nat) (candidates : List Candidate) (cost : Int)
    (chosen : List (Nat × String)) : Option Partial := do
  let candidates := candidates.filter (!·.offers.isEmpty)
  let least ← least? toCome (lowest size candidates)
  return ⟨candidates.mergeSort Candidate.before, cost, least, chosen⟩

/-- The candidates for a seat, one of each form, with their offers. -/
def takers (p : Partial) (seat : Nat) : List (Candidate × Offer) :=
  let one := p.candidates.foldr (fun c cs =>
    if cs.head?.any fun d => d.form = c.form then c :: cs.drop 1 else c :: cs) []
  one.filterMap fun c => (c.offers.find? (·.seat = seat)).map (c, ·)

/-- The partial solution in which a candidate takes an offer. -/
def give? (size : Nat) (toCome : List Nat) (p : Partial) (taker : Candidate × Offer) :
    Option Partial :=
  let (c, offer) := taker
  let left := p.candidates.map fun d =>
    if d.employee == c.employee then d.take offer else d.pass offer.seat
  make? size toCome left (p.cost + offer.price) ((offer.seat, c.employee) :: p.chosen)

/-- All ways to decide a seat. -/
def extend (size seat : Nat) (toCome : List Nat) (p : Partial) : List Partial :=
  (p.takers seat).filterMap (p.give? size toCome)

/-- No solution that a partial one leads to costs less. -/
def bound (p : Partial) : Int := p.cost + p.least

end Partial

/-- Partial solutions by what they leave. -/
abbrev Frontier := Std.HashMap (List (Nat × List Nat)) Partial

/-- Keeps the cheaper of two partial solutions that leave the same. -/
def keep (frontier : Frontier) (p : Partial) : Frontier :=
  let form := p.candidates.map Candidate.form
  match frontier[form]? with
  | some q => if p.cost < q.cost then frontier.insert form p else frontier
  | none => frontier.insert form p

/-- Decides seats one after the other, going on with the partial solutions that `select` picks. -/
def run (size : Nat) (select : List Partial → List Partial) (frontier : List Partial) :
    List Nat → List Partial
  | [] => frontier
  | seat :: toCome =>
    let next := frontier.flatMap (Partial.extend size seat toCome)
    run size select (select (next.foldl keep {}).values) toCome

/-- So many partial solutions go on in a first search, which only looks where it seems cheapest. -/
def breadth : Nat := 100

def narrow (ps : List Partial) : List Partial :=
  (ps.mergeSort fun p q => p.bound ≤ q.bound).take breadth

/--
The cheapest way to decide some seats, if there is one. What the first search finds is the cheapest unless
there is a cheaper way, and partial solutions that cannot become cheaper need not go on.
-/
def cheapest (candidates : List Candidate) (size : Nat) : Option Partial := do
  let seats := List.range size
  let start ← Partial.make? size seats candidates 0 []
  let search (select : List Partial → List Partial) := (run size select [start] seats).head?
  match search narrow with
  | none => search id
  | some p => return (search (·.filter (·.bound < p.cost))).getD p

/-- Puts two seats into one group. -/
def join (groups : List (List Nat)) (a b : Nat) : List (List Nat) :=
  match groups.find? (·.contains a), groups.find? (·.contains b) with
  | some g, some h =>
    if g.contains b then groups
    else (g ++ h) :: groups.filter fun k => !(k.contains a || k.contains b)
  | _, _ => groups

end Search

open Search

/-- The choices for each seat; one that counts more than once cannot be made. -/
def covers (m : Model) : List (List Choice) :=
  m.constraints.filterMap fun
    | .exactlyOne choices => some (choices.filter fun c => choices.count c = 1)
    | .notBoth _ _ => none

/-- For each choice the seats that its employee cannot hold along with it. -/
def rivals (m : Model) : Std.HashMap Choice (List String) :=
  m.constraints.foldl (fun rivals c =>
    match c with
    | .exactlyOne _ => rivals
    | .notBoth a b =>
      let add (rivals : Std.HashMap Choice (List String)) (a b : Choice) :=
        rivals.insert a (b.seat :: rivals.getD a [])
      add (add rivals a b) b a) {}

/-- Seats by number that belong together. -/
def groups (m : Model) (numbers : Std.HashMap String Nat) : List (List Nat) :=
  let pairs := m.constraints.filterMap fun
    | .exactlyOne _ => none
    | .notBoth a b => do return (← numbers[a.seat]?, ← numbers[b.seat]?)
  let apart := (List.range m.covers.length).map fun i => [i]
  (Std.HashSet.ofList pairs).toList.foldl (fun groups p => join groups p.1 p.2) apart

/-- The candidates for the seats of a group with all of their offers. -/
def candidates (m : Model) (rivals : Std.HashMap Choice (List String)) (names : List String)
    (covers : List (List Choice)) : List Candidate :=
  let numbers := Std.HashMap.ofList names.zipIdx
  let prices := Std.HashMap.ofList (m.costs.map fun (cost, c) => (c, cost))
  let offered := covers.zipIdx.flatMap fun (cover, seat) =>
    cover.filterMap fun c =>
      let excluded := (rivals.getD c []).filterMap (numbers[·]?)
      -- a choice that rules itself out cannot be made
      if excluded.contains seat then none
      else
        let later := ((excluded.filter (seat < ·)).mergeSort).eraseDups
        some (c.employee, Offer.mk seat (prices.getD c 0) later)
  let employees := (offered.map (·.1)).eraseDups
  let all := employees.map fun e => (e, (offered.filter (·.1 == e)).map (·.2))
  let kinds := (all.map (·.2)).eraseDups
  all.map fun (e, offers) => ⟨e, kinds.idxOf offers, offers⟩

/-- The choices of a cheapest solution, if the model has a solution. -/
def optimum (m : Model) : Option (List Choice) := do
  let covers := m.covers
  guard (covers.all (!·.isEmpty))
  let names := covers.map fun cover => (cover.head?.map (·.seat)).getD ""
  let rivals := m.rivals
  let solved ← (m.groups (Std.HashMap.ofList names.zipIdx)).mapM fun group =>
    let group := group.mergeSort
    let names := group.map (names.getD · "")
    let candidates := m.candidates rivals names (group.map (covers.getD · []))
    (cheapest candidates group.length).map fun p =>
      p.chosen.map fun (seat, e) => Choice.mk e (names.getD seat "")
  return solved.flatten

end CrewRoster.Model
