/-!
Bisection: searching a list for the place where a property ends that holds of its front. Which half to search
is told by the element in the middle, so most of the list is never looked at. What comes of it for a list of
which the property holds here and there follows from the halves as well.
-/

namespace CrewRoster.Lists

variable {α : Type}

/-- The place between `lo` and `hi` where the property ends. -/
def bisect (p : α → Bool) (l : List α) (lo hi : Nat) : Nat :=
  if lo < hi then
    let middle := (lo + hi) / 2
    if l[middle]?.any p then bisect p l (middle + 1) hi else bisect p l lo middle
  else lo
termination_by hi - lo

/-- What is looked at on the way to that place. -/
def probed (p : α → Bool) (l : List α) (lo hi : Nat) : List α :=
  if lo < hi then
    let middle := (lo + hi) / 2
    l[middle]?.toList ++ if l[middle]?.any p then probed p l (middle + 1) hi else probed p l lo middle
  else []
termination_by hi - lo

end CrewRoster.Lists
