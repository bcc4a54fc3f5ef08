import CrewRoster.Report.Frames

/-!
The charts of a report: their texts and the values that they show.
-/

namespace CrewRoster

structure Chart where
  file : String
  title : String
  xLabel : String
  yLabel : String
  legend : Option (List String)
  /-- The labels of the rows, then those of the columns. -/
  ticks : Option (List String × List String)
  image : Option (List (List Nat))
  bars : Option (List Int)

namespace Report

/-- The sum of two doubles, as a double. -/
def add (x y : Rat) : Rat := nearest (x + y)

/-- The sum of doubles, eight running sums at a time, long rows in halves. -/
def pairwiseSum (xs : List Rat) : Rat :=
  if xs.length < 8 then xs.foldl add 0
  else if h : xs.length ≤ 128 then block xs
  else
    let half := xs.length / 2 - xs.length / 2 % 8
    add (pairwiseSum (xs.take half)) (pairwiseSum (xs.drop half))
termination_by xs.length
decreasing_by
  · simp only [List.length_take]; omega
  · simp only [List.length_drop]; omega
where
  block (xs : List Rat) : Rat :=
    -- the sums of every eighth value, then the sums of those in pairs, then what is left over
    let whole := xs.length - xs.length % 8
    let lane (j : Nat) : Rat :=
      (List.range (whole / 8)).foldl (fun sum i => add sum (xs.getD (8 * i + j) 0)) 0
    let pair (j : Nat) : Rat := add (lane j) (lane (j + 1))
    (xs.drop whole).foldl add (add (add (pair 0) (pair 2)) (add (pair 4) (pair 6)))

/-- The share of its limit that a duty uses, in percent, unless both are nothing. -/
def utilisation (d : DutyRow) : Result (Option Rat) :=
  if d.limitMinutes ≠ 0 then
    .ok (some (nearest (nearest (100 * d.periodMinutes) / d.limitMinutes)))
  else if d.periodMinutes = 0 then .ok none
  else .error .unreadable

/-- A rational with one decimal, a half to the even neighbour. -/
def oneDecimal (q : Rat) : String :=
  let tenths := (roundEven (10 * q)).natAbs
  (if q < 0 then "-" else "") ++ toString (tenths / 10) ++ "." ++ toString (tenths % 10)

def calendarChart (r : Report) : Chart where
  file := "duty_calendar.png"
  title := "Duty Calendar"
  xLabel := "Date"
  yLabel := "Employee"
  legend := some ["No duty", "Flight duty", "Ground duty", "Day off", "FDP / rest violation"]
  ticks := some (r.employees, r.days.map (·.shortText))
  image := some (r.calendar.map (·.map (·.number)))
  bars := none

def minutesChart (r : Report) : Chart where
  file := "flight_minutes.png"
  title := "Flight time per employee"
  xLabel := "Employee"
  yLabel := "Flight minutes"
  legend := none
  ticks := none
  image := none
  bars := some (r.workloads.map (·.flightMinutes))

/-- The edges of ten bins between two doubles, which are one step apart from each other. -/
def binEdges (low high : Rat) : List Rat :=
  let step := nearest (nearest (high - low) / 10)
  (List.range 10).map (fun (i : Nat) => add (nearest (i * step)) low) ++ [high]

/-- The edges of ten bins for some values; values that are all the same lie in the middle of them. -/
def binEdgesOf (values : List Rat) : List Rat :=
  match values with
  | [] => []
  | v :: vs =>
    let low := vs.foldl (fun low w => if w < low then w else low) v
    let high := vs.foldl (fun high w => if high < w then w else high) v
    if low = high then binEdges (nearest (low - 1 / 2)) (nearest (high + 1 / 2)) else binEdges low high

/-- Values that lie too close together have no ten bins. -/
def checkBins (values : List Rat) : Result Unit :=
  let edges := binEdgesOf values
  if (edges.zip edges.tail).all fun (a, b) => a < b then .ok () else .error .unreadable

/-- The distribution of `utilisation`; it needs a value, none without bound, and bins for all of them. -/
def utilisationChart (r : Report) : Result Chart := do
  let shares ← r.duties.mapM utilisation
  let known := shares.filterMap fun share => share
  if known.isEmpty then .error .unreadable
  checkBins known
  -- a missing share adds nothing to the sum and is not counted
  let mean := nearest (pairwiseSum (shares.map (·.getD 0)) / known.length)
  let beyond := known.countP (100 < ·)
  return {
    file := "fdp_utilization.png"
    title := "FDP utilisation\nMean: " ++ oneDecimal mean ++ "% | Over limit: " ++ toString beyond
    xLabel := "Flight duty period / MaxFDP (%)"
    yLabel := "Duties"
    legend := none, ticks := none, image := none, bars := none }

/-- The charts that have something to show. -/
def charts (r : Report) : Result (List Chart) := do
  let minutes := if r.workloads.isEmpty then [] else [r.minutesChart]
  let utilisation ← if r.duties.isEmpty then pure [] else do pure [← r.utilisationChart]
  return r.calendarChart :: minutes ++ utilisation

end Report
end CrewRoster
