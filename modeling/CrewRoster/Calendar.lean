import CrewRoster.Duty
import Std.Data.TreeSet

/-!
Calendars: the duties of one employee, one for each date, in the order of the dates under which they stand.
A duty is entered under its own date; that it is still there is not for the calendar to know.
-/

namespace CrewRoster

/-- Where what comes earlier has a property along with what comes later, nothing has it behind the
first that does not. -/
theorem not_of_mem_dropWhile {α : Type} {r : α → α → Prop} {p : α → Bool} {l : List α} {a : α}
    (hp : ∀ a b, r a b → p b → p a) (hr : l.Pairwise r) (h : a ∈ l.dropWhile p) : ¬p a := by
  induction l with
  | nil => cases h
  | cons b l ih =>
    obtain ⟨hb, hr⟩ := List.pairwise_cons.1 hr
    rw [List.dropWhile_cons] at h
    split at h
    case isTrue => exact ih hr h
    case isFalse hn =>
      rcases List.mem_cons.1 h with rfl | h
      · exact hn
      · exact fun ha => hn (hp b a (hb a h) ha)

structure Calendar where
  entries : List (Date × Duty)
  /-- Each date has one entry, and the dates ascend. -/
  ordered : entries.Pairwise fun x y => x.1 < y.1

namespace Calendar

def empty : Calendar := ⟨[], .nil⟩

def dates (c : Calendar) : List Date := c.entries.map (·.1)

def duties (c : Calendar) : List Duty := c.entries.map (·.2)

def dutyOn (c : Calendar) (day : Date) : Option Duty := (c.entries.find? (·.1 = day)).map (·.2)

theorem lt_of_mem_takeWhile {day : Date} {x : Date × Duty} {entries : List (Date × Duty)}
    (h : x ∈ entries.takeWhile (·.1 < day)) : x.1 < day := by
  have := List.all_eq_true.1 (List.all_takeWhile (p := fun x : Date × Duty => decide (x.1 < day))) x h
  simpa using this

theorem lt_of_mem_dropWhile {day : Date} {x : Date × Duty} {entries : List (Date × Duty)}
    (ho : entries.Pairwise fun x y => x.1 < y.1) (h : x ∈ entries.dropWhile (·.1 ≤ day)) :
    day < x.1 := by
  have := not_of_mem_dropWhile
    (fun a b hab hb => decide_eq_true (Int.le_trans (Int.le_of_lt hab) (of_decide_eq_true hb))) ho h
  exact Int.not_le.1 (by simpa using this)

/-- Enters a duty under a date, in the place of the one that is there. -/
def putOn (c : Calendar) (day : Date) (d : Duty) : Calendar where
  entries := c.entries.takeWhile (·.1 < day) ++ (day, d) :: c.entries.dropWhile (·.1 ≤ day)
  ordered := by
    rw [List.pairwise_append, List.pairwise_cons]
    refine ⟨c.ordered.sublist (List.takeWhile_sublist _),
      ⟨fun y hy => lt_of_mem_dropWhile c.ordered hy,
        c.ordered.sublist (List.dropWhile_sublist _)⟩, ?_⟩
    intro x hx y hy
    have hlt := lt_of_mem_takeWhile hx
    rcases List.mem_cons.1 hy with rfl | hy
    · exact hlt
    · exact Int.lt_trans hlt (lt_of_mem_dropWhile c.ordered hy)

/-- Enters a duty under its own date. -/
def put (c : Calendar) (d : Duty) : Calendar := c.putOn d.date d

def ofDuties (ds : List Duty) : Calendar := ds.foldl put empty

/-- The days of a period without a duty. -/
def freeDays (c : Calendar) (first last : Date) : List Date :=
  let taken := Std.TreeSet.ofList (c.dates.map (·.number))
  (Date.range first last).filter fun day => !taken.contains day.number

theorem mem_freeDays {c : Calendar} {first last day : Date} :
    day ∈ c.freeDays first last ↔ day ∈ Date.range first last ∧ day ∉ c.dates := by
  have h : (c.dates.map (·.number)).contains day.number = true ↔ day ∈ c.dates := by
    rw [List.contains_iff_mem, List.mem_map]
    exact ⟨fun ⟨_, hm, he⟩ => Date.ext he ▸ hm, fun hm => ⟨day, hm, rfl⟩⟩
  rw [freeDays, List.mem_filter, Std.TreeSet.contains_ofList, Bool.not_eq_true', ← Bool.not_eq_true, h]

/-- Enters empty duties on the days of a period that have none. -/
def cover (c : Calendar) (employee : String) (first last : Date) : Calendar where
  entries := List.merge c.entries ((c.freeDays first last).map fun day => (day, .placeholder employee day))
    fun x y => x.1 ≤ y.1
  ordered := by
    have hle : ∀ x y : Date × Duty, x.1 < y.1 → decide (x.1 ≤ y.1) = true := fun x y h =>
      decide_eq_true (Int.le_of_lt h)
    have hfree : ((c.freeDays first last).map fun day => (day, Duty.placeholder employee day)).Pairwise
        fun x y => x.1 < y.1 :=
      List.pairwise_map.2 ((Date.range_ordered first last).filter _)
    have hmerge := @List.pairwise_merge (Date × Duty) (fun x y => decide (x.1 ≤ y.1))
      (fun x y z hxy hyz => by
        simp only [decide_eq_true_eq, Date.le_def] at *; omega)
      (fun x y => by
        simp only [Bool.or_eq_true, decide_eq_true_eq, Date.le_def]; omega)
      _ _ (c.ordered.imp (hle _ _)) (hfree.imp (hle _ _))
    -- what is entered is on other days than what is there, so no date comes twice
    have hne : (List.merge c.entries
        ((c.freeDays first last).map fun day => (day, Duty.placeholder employee day))
        fun x y => x.1 ≤ y.1).Pairwise fun x y => x.1 ≠ y.1 := by
      rw [(List.merge_perm_append _).pairwise_iff (fun h => Ne.symm h), List.pairwise_append]
      refine ⟨c.ordered.imp Date.ne_of_lt, hfree.imp Date.ne_of_lt, ?_⟩
      intro x hx y hy he
      obtain ⟨day, hday, rfl⟩ := List.mem_map.1 hy
      exact (mem_freeDays.1 hday).2 (List.mem_map.2 ⟨x, hx, he⟩)
    refine (hmerge.and hne).imp fun ⟨hle, hne⟩ => ?_
    have hne := mt Date.ext hne
    simp only [decide_eq_true_eq, Date.le_def, Date.lt_def] at *
    omega

/-- All seats, in order of time. -/
def seats (c : Calendar) : List Seat := c.duties.flatMap (·.seats)

def seatCount (c : Calendar) : Nat := c.duties.foldr (fun d count => d.legs + count) 0

def firstSeat (c : Calendar) : Option Seat := c.duties.findSome? (·.first?)

def lastSeat (c : Calendar) : Option Seat := c.duties.reverse.findSome? (·.last?)

/-- The last seat before `s` in the first duty that has one. -/
def seatBefore (s : Seat) : List Duty → Result (Option Seat)
  | [] => .ok none
  | d :: ds => do
    d.checkOrder s
    match Duty.countBefore d.seats s.key with
    | 0 => seatBefore s ds
    | n + 1 => return d.seats[n]?

/-- The first seat after `s` in the first duty that has one. -/
def seatAfter (s : Seat) : List Duty → Result (Option Seat)
  | [] => .ok none
  | d :: ds => do
    d.checkOrder s Seat.Key.le
    match d.seats[Duty.countUpTo d.seats s.key]? with
    | none => seatAfter s ds
    | some t => return some t

/-- The seat before `s` in time, from the day of `s` backward. -/
def previousSeat (c : Calendar) (s : Seat) : Result (Option Seat) :=
  seatBefore s ((c.entries.filter (·.1 ≤ s.departureDate)).map (·.2)).reverse

/-- The seat after `s` in time, from the day of `s` onward. -/
def nextSeat (c : Calendar) (s : Seat) : Result (Option Seat) :=
  seatAfter s ((c.entries.filter (s.departureDate ≤ ·.1)).map (·.2))

end Calendar
end CrewRoster
