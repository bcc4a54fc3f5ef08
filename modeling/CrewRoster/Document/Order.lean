import CrewRoster.Document

/-!
Labels in order. Texts are in order with texts and numbers with numbers; what is not a number is neither
below nor above anything, and where it ends up among numbers follows from the way in which they are
sorted.
-/

namespace CrewRoster

/-! ## Sorting by insertion -/

namespace Insertion

variable {α : Type} (below : α → α → Bool)

/-- The place of `x` in a list, found by halving: an element that `x` is below stays behind it. -/
def place (x : α) (xs : List α) (low high : Nat) : Nat :=
  if low < high then
    let middle := low + (high - low) / 2
    if xs[middle]?.any (below x) then place x xs low middle else place x xs (middle + 1) high
  else low
termination_by high - low

def insert (xs : List α) (x : α) : List α := xs.insertIdx (place below x xs 0 xs.length) x

/-- The longest start of a list in which `follows` relates each element to the next, and the rest. -/
def run (follows : α → α → Bool) : List α → List α × List α
  | [] => ([], [])
  | [x] => ([x], [])
  | x :: y :: xs =>
    if follows x y then
      let (start, rest) := run follows (y :: xs)
      (x :: start, rest)
    else ([x], y :: xs)

/-- What is in order at the start of a list, upward or strictly downward, and the rest. -/
def ordered : List α → List α × List α
  | x :: y :: xs =>
    if below y x then
      let (start, rest) := run (fun a b => below b a) (x :: y :: xs)
      (start.reverse, rest)
    else run (fun a b => !below b a) (x :: y :: xs)
  | xs => (xs, [])

/-- The start that is in order, with the rest put into its places one by one. -/
def sort (xs : List α) : List α :=
  let (start, rest) := ordered below xs
  rest.foldl (insert below) start

end Insertion

namespace Document

/-- The place of a number on the line: below or above all others if it is infinite, and its value. -/
def place? : Document → Option (Int × Rat)
  | flag b => some (0, if b then 1 else 0)
  | whole n => some (0, n)
  | real x =>
    if x.isNaN then none
    else if x.isFinite then some (0, x.value)
    else some (if x.isNegative then -1 else 1, 0)
  | _ => none

def isNumber : Document → Bool
  | flag _ | whole _ | real _ => true
  | _ => false

def isText : Document → Bool
  | text _ => true
  | _ => false

def isBelow (a b : Label) : Bool :=
  match a, b with
  | text s, text t => s < t
  | _, _ =>
    match a.place?, b.place? with
    | some p, some q => p.1 < q.1 || (p.1 = q.1 && p.2 < q.2)
    | _, _ => false

/-- Labels in order, if they have one. -/
def sortLabels (labels : List Label) : Result (List Label) :=
  if labels.length ≤ 1 || labels.all isText || labels.all isNumber then
    .ok (Insertion.sort isBelow labels)
  else .error .wrongType

end Document
end CrewRoster
