import CrewRoster.Proofs.Connections
import CrewRoster.Proofs.Overage
import CrewRoster.Proofs.Violations

namespace CrewRoster

open Result (Yields)

-- Three days or more from either end of the calendar.
def Date.Central (day : Date) : Prop := 3 < day.number ∧ day.number ≤ 3652059 - 3

theorem Date.Central.inside {day : Date} (h : day.Central) : day.Inside := by
  obtain ⟨hlow, hhigh⟩ := h
  exact ⟨by omega, by omega⟩

theorem Instant.wall_of_central {t : Instant} (h : t.date.Central) :
    3 * Span.day ≤ t.wall ∧ t.wall < Span.calendar - 3 * Span.day := by
  obtain ⟨hlow, hhigh⟩ := h
  simp only [date] at hlow hhigh
  constructor
  · exact (Int.le_ediv_iff_mul_le day_pos).1 (by omega)
  · have hlt := (Int.ediv_lt_iff_lt_mul day_pos).1 (by omega : t.wall / Span.day < 3652059 - 3)
    exact hlt.trans_eq (by decide)

-- Away from the ends of the calendar there is room for sign-in, sign-off and the clocks of all zones.
theorem Flight.inside_of_central {f : Flight} (hd : f.departure.zone = none) (ha : f.arrival.zone = none)
    (hdeparture : f.departureDate.Central) (harrival : f.arrivalDate.Central)
    (hair : f.departure.wall < f.arrival.wall) (hc : f.Charted) : f.Inside := by
  obtain ⟨hlow, -⟩ := Instant.wall_of_central hdeparture
  obtain ⟨-, hhigh⟩ := Instant.wall_of_central harrival
  refine ⟨hd, ha, ?_, hair, ?_, hc.origin, hc.destination⟩
  all_goals
    have := Instant.day_pos
    dsimp only [Span] at *
    omega

instance (day : Date) : Decidable day.Central := inferInstanceAs (Decidable (_ ∧ _))

-- What keeps the figures of a roster away from all ends:
-- 1. times of flights have no zone, and neither has what there is to do on the ground
-- 2. flights and duties are three days or more from the ends of the calendar
-- 3. duties and limits are shorter than 2 ^ 53 microseconds
-- 4. no limit is between times with a zone
structure Roster.Temperate (r : Roster) : Prop where
  flights : ∀ s ∈ r.seats, s.flight.departure.zone = none ∧ s.flight.arrival.zone = none
  grounds : ∀ e ∈ r.employees.values, ∀ d ∈ e.calendar.duties, ∀ g ∈ d.ground,
    g.start.zone = none ∧ g.finish.zone = none
  legs : ∀ s ∈ r.seats, s.flight.departureDate.Central ∧ s.flight.arrivalDate.Central
  days : ∀ e ∈ r.employees.values, ∀ d ∈ e.calendar.duties, d.date.Central
  spans : ∀ e ∈ r.employees.values, ∀ d ∈ e.calendar.duties, ∀ first ∈ d.first?, ∀ last ∈ d.last?,
    first.periodTo last < 2 ^ 53
  limits : ∀ rule ∈ r.reference.limits, ∀ slot ∈ rule.limits, ∀ limit ∈ slot, |limit| < 2 ^ 53
  clocks : ∀ rule ∈ r.reference.limits, rule.start.zone = none ∧ rule.finish.zone = none

theorem DutyLimit.abs_limitFor_lt {rule : DutyLimit}
    (h : ∀ slot ∈ rule.limits, ∀ limit ∈ slot, |limit| < 2 ^ 53) (legs : ℤ) :
    |rule.limitFor legs| < 2 ^ 53 := by
  rw [limitFor]
  cases hlimit : (rule.limits[slot legs]?).join with
  | none => exact (by decide : |fallback| < 2 ^ 53)
  | some limit =>
    exact h _ (List.mem_of_getElem? (Option.join_eq_some_iff.1 hlimit)) limit rfl

namespace Roster.Temperate

variable {r : Roster} (h : r.Temperate)
include h

theorem usable : DutyLimits.Usable r.reference.limits where
  clocks := h.clocks
  bounds rule hrule legs := by
    have hlimit := DutyLimit.abs_limitFor_lt (h.limits rule hrule) legs
    refine ⟨hlimit.le.trans (by norm_num), ?_⟩
    have hlow := (abs_lt.1 hlimit).1
    simp only [Span.calendar_eq, Span.day, Span.hour, Span.minute, Span.second, Span] at *
    omega

theorem inside (ht : Seat.Timetable false r.seats) (hc : r.Charted) {k : String} {a : Assignment}
    (ha : r.assignments.get? k = some a) : a.seat.flight.Inside := by
  have hs : a.seat ∈ r.seats := Roster.mem_seats.2 ⟨k, a, ha, rfl⟩
  obtain ⟨hdzone, hazone⟩ := h.flights _ hs
  obtain ⟨hdeparture, harrival⟩ := h.legs _ hs
  have hair := ht.airborne _ hs
  rw [Instant.position_of_plain hdzone, Instant.position_of_plain hazone] at hair
  exact Flight.inside_of_central hdzone hazone hdeparture harrival hair (hc k a ha)

end Roster.Temperate

namespace DutyRow

variable {settings : ReportSettings} {r : Roster} {e : Employee} {d : Duty} {row : DutyRow}
  {first last : Seat}

theorem of_ofDuty (h : ofDuty settings r e d = .ok row) : row.legs = d.legs ∧ row.finish = d.finish ∧
    d.blockMinutes = .ok row.blockMinutes := by
  simp only [ofDuty, Result.bind_eq_ok, Result.pure_eq_ok] at h
  obtain ⟨period, -, start, -, limit, -, block, hblock, points, -, next, -, lack, -, home, -, overlap, -,
    isBefore, -, isAfter, -, previous, -, isShort, -, rfl⟩ := h
  exact ⟨rfl, rfl, hblock⟩

-- What a row has of the first and the last leg of its duty:
-- 1. it begins and ends half an hour outside of them
-- 2. its block counts the whole minutes from the first departure to the last arrival
-- 3. its period counts half an hour more
structure Frames (row : DutyRow) (first last : Seat) : Prop where
  times : ∃ finish block, row.finish = some finish ∧
    last.flight.arrival.minus first.flight.departure = .ok block ∧
    finish.minus row.start = .ok (block + 60 * Span.minute) ∧ row.blockMinutes = block / Span.minute
  minutes : row.periodMinutes = row.blockMinutes + 30

theorem frames_of_ofDuty (h : ofDuty settings r e d = .ok row) (hc : d.Current)
    (hf : d.first? = some first) (hl : d.last? = some last) (hfirst : first.flight.Plain)
    (hlast : last.flight.Plain) (hle : first.flight.departure.wall ≤ last.flight.arrival.wall)
    (hspan : first.periodTo last < 2 ^ 53) : row.Frames first last := by
  have hd := describes_of_ofDuty h
  obtain ⟨-, hrowFinish, hblock⟩ := of_ofDuty h
  obtain ⟨⟨t, ht, hstart⟩, ⟨u, hu, hfinish⟩, -⟩ := hc.flown first hf last hl
  obtain rfl := Option.some.inj (hstart.symm.trans hd.start)
  obtain ⟨htzone, htwall⟩ := Instant.of_plus ht
  obtain ⟨huzone, huwall⟩ := Instant.of_plus hu
  have hminus := Instant.minus_of_naive hlast.arrival hfirst.departure
  have hnonneg := sub_nonneg.2 hle
  simp only [Duty.blockMinutes, hf, hl, hminus, Result.ok_bind, Result.pure_eq_ok] at hblock
  constructor
  case times =>
    refine ⟨u, _, hrowFinish.trans hfinish, hminus, ?_, ?_⟩
    · rw [Instant.minus_of_naive (huzone.trans hlast.arrival) (htzone.trans hfirst.departure), htwall, huwall,
        Flight.signIn, Flight.signOff]
      congr 1
      ring
    · have hlt : last.flight.arrival.wall - first.flight.departure.wall < 2 ^ 53 :=
        (le_add_of_nonneg_right (by decide)).trans_lt hspan
      rw [← hblock, Span.minutes_eq_ediv hnonneg hlt]
  case minutes =>
    obtain ⟨period, hperiod, hminutes⟩ := hd.period
    obtain rfl := Except.ok.inj (hperiod.symm.trans (Duty.flightDutyPeriod_eq hc hf hl hfirst hlast))
    rw [hminutes, ← hblock, Option.elim_some]
    exact Span.minutes_add_mul hnonneg (by norm_num) hspan

end DutyRow

theorem Workload.of_ofEmployee {settings : ReportSettings} {r : Roster} {e : Employee} {w : Workload}
    (h : ofEmployee settings r e = .ok w) : w.employee = e.id ∧ w.seats = e.calendar.seatCount := by
  simp only [ofEmployee, Result.bind_eq_ok, Result.pure_eq_ok] at h
  obtain ⟨minutes, -, connections, -, encroachment, -, rfl⟩ := h
  exact ⟨rfl, rfl⟩

namespace Report

variable {r : Roster} {settings : ReportSettings} {rows : List DutyRow} {e : Employee} {id : String}
  {day : Date}

theorem employeesOf_ordered (hw : r.WellFormed) : (employeesOf r).Pairwise fun a b => a.id < b.id := by
  have hle : (employeesOf r).Pairwise fun a b => decide (a.id ≤ b.id) = true :=
    List.pairwise_mergeSort (fun a b c hab hbc => by
      simp only [decide_eq_true_eq] at *
      exact le_trans hab hbc) (fun a b => by simp [le_total]) _
  have hne : ((employeesOf r).map (·.id)).Nodup :=
    ((List.mergeSort_perm _ _).map _).nodup_iff.2 (hw.keyed List.nodup_nil (by simp)).employees
  exact (hle.and (List.pairwise_map.1 hne)).imp fun ⟨hle, hne⟩ => lt_of_le_of_ne (of_decide_eq_true hle) hne

-- The rows of one employee.
structure RowsOf (settings : ReportSettings) (r : Roster) (e : Employee) (rows : List DutyRow) : Prop where
  employee : ∀ row ∈ rows, row.employee = e.id
  ordered : rows.Pairwise fun a b => a.date < b.date
  legs : (rows.map (·.legs)).sum = e.calendar.seatCount

theorem rowsOf_of_mapM (hc : e.calendar.Dated)
    (h : (e.calendar.duties.filter (·.isFlightDuty)).mapM (DutyRow.ofDuty settings r e) = .ok rows) :
    RowsOf settings r e rows := by
  have hrows := Result.mapM_eq_ok.1 h
  constructor
  case employee =>
    intro row hrow
    obtain ⟨d, -, hof⟩ := (Result.mem_of_mapM h).1 hrow
    exact (DutyRow.describes_of_ofDuty hof).employee
  case ordered =>
    refine Lists.pairwise_of_forall₂ hrows (hc.pairwise_date.filter _) fun ha hb hlt => ?_
    rwa [(DutyRow.describes_of_ofDuty ha).date, (DutyRow.describes_of_ofDuty hb).date]
  case legs =>
    have hlegs : (e.calendar.duties.filter (·.isFlightDuty)).map (·.seats.length) = rows.map (·.legs) := by
      rw [← List.forall₂_eq_eq_eq, List.forall₂_map_left_iff, List.forall₂_map_right_iff]
      exact hrows.imp fun d row hrow => (DutyRow.of_ofDuty hrow).1.symm
    have hidle : ∀ d ∈ e.calendar.duties, ¬d.isFlightDuty → d.seats = [] := by
      simp [Duty.isFlightDuty]
    rw [← hlegs, ← List.length_flatMap, Lists.flatMap_filter_of_forall hidle, Calendar.seatCount_eq]
    rfl

theorem rowsOf_of_dutyRows (hw : r.WellFormed) (h : dutyRows settings r = .ok rows) :
    ∃ rowsOf, List.Forall₂ (RowsOf settings r) (employeesOf r) rowsOf ∧ rows = rowsOf.flatten := by
  obtain ⟨rowsOf, hof, rfl⟩ := rows_of_dutyRows h
  have hdated : ∀ e ∈ employeesOf r, e.calendar.Dated := fun e he => by
    obtain ⟨id, he⟩ := mem_employeesOf.1 he
    exact hw.calendar_dated he
  have hrows := (List.forall₂_and_left _ _).2 ⟨hdated, Result.mapM_eq_ok.1 hof⟩
  exact ⟨rowsOf, hrows.imp fun e rows ⟨hc, hof⟩ => rowsOf_of_mapM hc hof, rfl⟩

theorem RowsOf.filter_eq (h : RowsOf settings r e rows) :
    rows.filter (·.employee = id) = if e.id = id then rows else [] := by
  split
  case isTrue hid => exact List.filter_eq_self.2 fun row hrow => by simp [h.employee row hrow, hid]
  case isFalse hid => exact List.filter_eq_nil_iff.2 fun row hrow => by simp [h.employee row hrow, hid]

section Employees

variable {es : List Employee} {rowsOf : List (List DutyRow)} (h : List.Forall₂ (RowsOf settings r) es rowsOf)
  (hes : es.Pairwise fun a b => a.id < b.id)
include h hes

theorem ordered_flatten : rowsOf.flatten.Pairwise fun a b =>
    a.employee < b.employee ∨ a.employee = b.employee ∧ a.date < b.date := by
  refine List.pairwise_flatten.2 ⟨fun rows hrows => ?_, ?_⟩
  · obtain ⟨e, -, he⟩ := Lists.exists_of_forall₂ h hrows
    exact he.ordered.imp_of_mem fun ha hb hlt =>
      .inr ⟨(he.employee _ ha).trans (he.employee _ hb).symm, hlt⟩
  · refine Lists.pairwise_of_forall₂ h hes fun ha hb hlt a hrow b hrow' => .inl ?_
    rwa [ha.employee a hrow, hb.employee b hrow']

-- The rows of an employee are in one place, so their legs are those of the calendar.
theorem sum_legs (he : e ∈ es) :
    ((rowsOf.flatten.filter (·.employee = e.id)).map (·.legs)).sum = e.calendar.seatCount := by
  induction h with
  | nil => cases he
  | @cons e' rows es rowsOf hrows h ih =>
    obtain ⟨hlt, hes⟩ := List.pairwise_cons.1 hes
    rw [List.flatten_cons, List.filter_append, List.map_append, List.sum_append, hrows.filter_eq]
    rcases List.mem_cons.1 he with rfl | he
    · have hnone : rowsOf.flatten.filter (·.employee = e.id) = [] := by
        refine List.filter_eq_nil_iff.2 fun row hrow => ?_
        obtain ⟨others, hothers, hrow⟩ := List.mem_flatten.1 hrow
        obtain ⟨e', he', hof⟩ := Lists.exists_of_forall₂ h hothers
        simpa [hof.employee row hrow] using (hlt e' he').ne'
      rw [if_pos rfl, hnone, hrows.legs]
      rfl
    · rw [if_neg (hlt e he).ne, ih hes he]
      exact Nat.zero_add _

end Employees

section Exists

variable (hlimits : DutyLimits.Usable r.reference.limits) (hwithin : ∀ e ∈ r.employees.values, e.Within)
include hwithin

include hlimits in
theorem exists_dutyRows (settings : ReportSettings) : ∃ rows, dutyRows settings r = .ok rows := by
  obtain ⟨rowsOf, hrows⟩ : ∃ rowsOf, ((employeesOf r).mapM fun e =>
      (e.calendar.duties.filter (·.isFlightDuty)).mapM (DutyRow.ofDuty settings r e)) = .ok rowsOf := by
    refine Result.mapM_ok_of_forall fun e he => Result.mapM_ok_of_forall fun d hd => ?_
    obtain ⟨hd, hf⟩ := List.mem_filter.1 hd
    have he := hwithin e (List.mem_mergeSort.1 he)
    obtain ⟨n, hn⟩ := (he.duties d hd).exists_homePoints (r := r.reference) he.home
    exact (he.dutyRow_yields hlimits hd hf (P := fun _ => True) ⟨n, hn, trivial⟩).exists_ok
  exact ⟨_, by rw [dutyRows, hrows]; rfl⟩

theorem exists_workloadRows (settings : ReportSettings) : ∃ ws, workloadRows settings r = .ok ws := by
  refine Result.mapM_ok_of_forall fun e he => ?_
  have he := hwithin e (List.mem_mergeSort.1 he)
  have hcharted : ∀ s ∈ e.seats, s.flight.Charted := fun s hs =>
    ⟨(he.seat hs).origin, (he.seat hs).destination⟩
  refine (Yields.bind he.flightMinutes_yields fun minutes _ => ?_ :
    Yields (Workload.ofEmployee settings r e) fun _ => True).exists_ok
  rw [Employee.connections_eq hcharted]
  exact (he.totalEncroachment_yields settings.zone).bind fun _ _ => .ok trivial

end Exists

-- The frame of duties, next to the seats of a roster:
-- 1. rows are in order of employees, and of days for each, so that no two are for one employee and day
-- 2. there is one wherever an employee owns a seat whose flight departs on the day, in the period or not
-- 3. it goes from the first of these seats to the last
structure DutyFrame (r : Roster) (rows : List DutyRow) : Prop where
  ordered : rows.Pairwise fun a b =>
    a.employee < b.employee ∨ a.employee = b.employee ∧ a.date < b.date
  exists_iff : ∀ id day, (∃ row ∈ rows, row.employee = id ∧ row.date = day) ↔
    ∃ s, r.Owns id s ∧ s.departureDate = day
  frames : ∀ row ∈ rows, ∃ first last,
    Seat.IsEarliest (fun s => r.Owns row.employee s ∧ s.departureDate = row.date) (some first) ∧
    Seat.IsLatest (fun s => r.Owns row.employee s ∧ s.departureDate = row.date) (some last) ∧
    row.Frames first last

-- The frame of workloads, next to the rows of duties:
-- 1. there is a row for each employee, in the same order
-- 2. it counts the legs of all duties of the employee
-- 3. they are the seats that the employee owns
structure WorkloadFrame (r : Roster) (rows : List DutyRow) (ws : List Workload) : Prop where
  employees : ws.map (·.employee) = (employeesOf r).map (·.id)
  legs : ∀ w ∈ ws, ((rows.filter (·.employee = w.employee)).map (·.legs)).sum = w.seats
  seats : ∀ w ∈ ws, w.seats = r.assignments.values.countP fun a => a.owner = some w.employee

end Report

-- What a cell of the calendar shows: a flight, if there is one; else an activity; else a day off.
structure Cell.Shows (c : Cell) (flies works isOff : Prop) : Prop where
  flying : c = .flight ∨ c = .violation ↔ flies
  ground : ¬flies → (c = .ground ↔ works)
  dayOff : ¬flies → ¬works → (c = .dayOff ↔ isOff)
  nothing : ¬flies → ¬works → ¬isOff → c = .nothing

namespace Report

variable {r : Roster} {settings : ReportSettings} {rows : List DutyRow} {ws : List Workload}

-- The frame of the calendar, next to the rows of duties: it has a cell for every employee and every day of
-- the period, and the flights in it are those that have a row.
def CalendarFrame (r : Roster) (report : Report) : Prop :=
  ∀ id e, r.employees.get? id = some e → ∀ day ∈ r.horizon, ∃ c, report.cellAt id day = some c ∧
    c.Shows (∃ row ∈ report.duties, row.employee = id ∧ row.date = day)
      (∃ d, e.dutyOn day = some d ∧ d.hasCode = true) (e.isAvailable day = false)

theorem shows_cell (rows : List DutyRow) (e : Employee) (day : Date) :
    (cell rows e day).Shows (∃ d, e.dutyOn day = some d ∧ d.isFlightDuty = true)
      (∃ d, e.dutyOn day = some d ∧ d.hasCode = true) (e.isAvailable day = false) := by
  cases hd : e.dutyOn day with
  | none =>
    cases ha : e.isAvailable day <;> constructor <;> simp [cell, hd, ha]
  | some d =>
    cases hf : d.isFlightDuty
    case true =>
      simp only [cell, hd, hf, if_true]
      generalize (rows.any _) = isViolated
      cases isViolated <;> constructor <;> simp [hf]
    case false =>
      cases hc : d.hasCode <;> cases ha : e.isAvailable day <;> constructor <;> simp [cell, hd, hf, hc, ha]

end Report

namespace Ledger

variable {l : Ledger} {r : Roster} {folder : Folder} {scenario : Scenario} {solved : Bool}
  {settings : ReportSettings} {rows : List DutyRow} {ws : List Workload} {row : DutyRow} {id : String}
  {day : Date} {d : Duty} {s : Seat}

namespace Consistent

variable (h : l.Consistent)
include h

-- The flights of a duty are those of the roster.
theorem flight_of_mem {P : Flight → Prop}
    (hP : ∀ k a, l.roster.assignments.get? k = some a → P a.seat.flight)
    (hd : l.roster.dutyAt id day = some d) (hs : s ∈ d.seats) : P s.flight := by
  obtain ⟨a, ha, rfl⟩ := h.known ⟨d, hd, hs⟩
  exact hP _ a ha

theorem within_of_temperate (ht : l.roster.Temperate) (hh : l.roster.Homed)
    (hin : ∀ k a, l.roster.assignments.get? k = some a → a.seat.flight.Inside) :
    ∀ e ∈ l.roster.employees.values, e.Within := by
  intro e he
  obtain ⟨id, hid⟩ := Registry.mem_values.1 he
  refine ⟨hh id e hid, fun d hd => ?_⟩
  have hat := h.dutyAt_of_mem hid hd
  exact ⟨(ht.days e he d hd).inside, fun _ hs => h.flight_of_mem hin hat hs, ht.grounds e he d hd,
    h.current hat⟩

section Rows

variable (hrows : Report.dutyRows settings l.roster = .ok rows)
include hrows

theorem exists_duty_of_row (hrow : row ∈ rows) : ∃ e d, l.roster.employees.get? row.employee = some e ∧
    d ∈ e.calendar.duties ∧ d.date = row.date ∧ d.isFlightDuty = true ∧
    DutyRow.ofDuty settings l.roster e d = .ok row := by
  obtain ⟨e, he, d, hd, hf, hof⟩ := Report.exists_duty_of_mem hrows hrow
  obtain ⟨id, he⟩ := Report.mem_employeesOf.1 he
  have hdescribes := DutyRow.describes_of_ofDuty hof
  obtain rfl : row.employee = id := hdescribes.employee.trans (h.crewId he)
  exact ⟨e, d, he, hd, hdescribes.date.symm, hf, hof⟩

theorem exists_row_of_dutyAt (hd : l.roster.dutyAt id day = some d) (hf : d.isFlightDuty = true) :
    ∃ row ∈ rows, row.employee = id ∧ row.date = day := by
  have hday : d.date = day := h.dated hd
  obtain ⟨e, he, hd⟩ := Roster.dutyAt_eq_some.1 hd
  have hd : d ∈ e.calendar.duties := Calendar.mem_duties.2 ⟨day, hd⟩
  obtain ⟨row, hrow, hof⟩ := Report.exists_row_of_duty hrows (Report.mem_employeesOf.2 ⟨id, he⟩) hd hf
  have hdescribes := DutyRow.describes_of_ofDuty hof
  exact ⟨row, hrow, hdescribes.employee.trans (h.crewId he), hdescribes.date.trans hday⟩

end Rows

variable (hn : l.pending = none)
include hn

-- The seats of a duty are those that the employee owns and that depart on its day.
theorem mem_seats_iff (hd : l.roster.dutyAt id day = some d) (s : Seat) :
    s ∈ d.seats ↔ l.roster.Owns id s ∧ s.departureDate = day := by
  rw [eq_comm (a := s.departureDate), ← h.listing.lists_iff hn, Roster.Lists, hd]
  simp

-- There is a duty with flights wherever an employee owns a seat that departs on the day.
theorem exists_flightDuty_iff : (∃ d, l.roster.dutyAt id day = some d ∧ d.isFlightDuty = true) ↔
    ∃ s, l.roster.Owns id s ∧ s.departureDate = day := by
  constructor
  · rintro ⟨d, hd, hf⟩
    obtain ⟨s, hs⟩ := List.exists_mem_of_ne_nil d.seats (by simpa [Duty.isFlightDuty] using hf)
    exact ⟨s, (h.mem_seats_iff hn hd s).1 hs⟩
  · rintro ⟨s, hs, hday⟩
    obtain ⟨d, hd, hmem⟩ := (h.listing.lists_iff hn).2 ⟨hs, hday.symm⟩
    exact ⟨d, hd, by simpa [Duty.isFlightDuty] using List.ne_nil_of_mem hmem⟩

section Frames

variable (hrows : Report.dutyRows settings l.roster = .ok rows)
include hrows

theorem exists_ends_of_row (ht : l.roster.Temperate)
    (hin : ∀ k a, l.roster.assignments.get? k = some a → a.seat.flight.Inside) (hrow : row ∈ rows) :
    ∃ first last,
      Seat.IsEarliest (fun s => l.roster.Owns row.employee s ∧ s.departureDate = row.date) (some first) ∧
      Seat.IsLatest (fun s => l.roster.Owns row.employee s ∧ s.departureDate = row.date) (some last) ∧
      row.Frames first last := by
  obtain ⟨e, d, he, hd, hday, hf, hof⟩ := h.exists_duty_of_row hrows hrow
  obtain ⟨first, last, hfirst, hlast⟩ := Duty.exists_ends (d := d) (by simpa [Duty.isFlightDuty] using hf)
  have hat := h.dutyAt_of_mem he hd
  have ho := h.ordered hat
  have hseats := h.mem_seats_iff hn hat
  refine ⟨first, last, hday ▸ hfirst ▸ ho.isEarliest_head? hseats,
    hday ▸ hlast ▸ ho.isLatest_getLast? hseats, ?_⟩
  have hfirstIn : first.flight.Inside := h.flight_of_mem hin hat (Duty.mem_of_first? hfirst)
  have hlastIn : last.flight.Inside := h.flight_of_mem hin hat (Duty.mem_of_last? hlast)
  have hle := ho.first_departure_le hfirst (Duty.mem_of_last? hlast)
  simp only [Seat.key, Instant.position_of_plain hfirstIn.departure,
    Instant.position_of_plain hlastIn.departure] at hle
  exact DutyRow.frames_of_ofDuty hof (h.current hat) hfirst hlast hfirstIn.plain hlastIn.plain
    (hle.trans hlastIn.airborne.le)
    (ht.spans e (Registry.mem_values.2 ⟨_, he⟩) d hd first hfirst last hlast)

theorem dutyFrame (ht : l.roster.Temperate)
    (hin : ∀ k a, l.roster.assignments.get? k = some a → a.seat.flight.Inside) :
    Report.DutyFrame l.roster rows := by
  constructor
  case ordered =>
    obtain ⟨rowsOf, hof, rfl⟩ := Report.rowsOf_of_dutyRows h.toWellFormed hrows
    exact Report.ordered_flatten hof (Report.employeesOf_ordered h.toWellFormed)
  case exists_iff =>
    intro id day
    rw [← h.exists_flightDuty_iff hn]
    constructor
    · rintro ⟨row, hrow, rfl, rfl⟩
      obtain ⟨e, d, he, hd, hday, hf, -⟩ := h.exists_duty_of_row hrows hrow
      exact ⟨d, hday ▸ h.dutyAt_of_mem he hd, hf⟩
    · rintro ⟨d, hd, hf⟩
      exact h.exists_row_of_dutyAt hrows hd hf
  case frames => exact fun row hrow => h.exists_ends_of_row hn hrows ht hin hrow

theorem workloadFrame (hnaive : l.roster.Naive) (hws : Report.workloadRows settings l.roster = .ok ws) :
    Report.WorkloadFrame l.roster rows ws := by
  constructor
  case employees =>
    rw [← List.forall₂_eq_eq_eq, List.forall₂_map_left_iff, List.forall₂_map_right_iff]
    exact ((Result.mapM_eq_ok.1 hws).imp fun e w hw => (Workload.of_ofEmployee hw).1).flip
  case legs =>
    intro w hw
    obtain ⟨e, he, hof⟩ := (Result.mem_of_mapM hws).1 hw
    obtain ⟨hid, hseats⟩ := Workload.of_ofEmployee hof
    obtain ⟨rowsOf, hrowsOf, rfl⟩ := Report.rowsOf_of_dutyRows h.toWellFormed hrows
    rw [hid, hseats]
    exact Report.sum_legs hrowsOf (Report.employeesOf_ordered h.toWellFormed) he
  case seats =>
    intro w hw
    obtain ⟨e, he, hof⟩ := (Result.mem_of_mapM hws).1 hw
    obtain ⟨hid, hseats⟩ := Workload.of_ofEmployee hof
    obtain ⟨id, he⟩ := Report.mem_employeesOf.1 he
    rw [hid, hseats, h.crewId he]
    exact h.listing.seatCount_eq hnaive hn he

end Frames

theorem calendarFrame {report : Report} (hreport : Report.build settings l.roster = .ok report)
    (hframe : Report.DutyFrame l.roster report.duties) : Report.CalendarFrame l.roster report := by
  intro id e he day hday
  have hflies : (∃ row ∈ report.duties, row.employee = id ∧ row.date = day) ↔
      ∃ d, e.dutyOn day = some d ∧ d.isFlightDuty = true := by
    rw [hframe.exists_iff, ← h.exists_flightDuty_iff hn, Roster.dutyAt, he]
    rfl
  refine ⟨_, Report.cellAt_of_build hreport h.toWellFormed he hday, ?_⟩
  rw [hflies]
  exact Report.shows_cell report.duties e day

end Consistent

namespace Steps

variable (hload : loadInstance folder solved = .ok (scenario, r)) (hs : Steps (.ofRoster r) l)
  (ht : l.roster.Temperate)
include hload hs ht

-- What was done to a roster left its flights, so that it was temperate as far as they go.
theorem consistent_of_temperate : l.Consistent ∧ l.roster.Naive ∧
    (∀ k a, l.roster.assignments.get? k = some a → a.seat.flight.Inside) ∧
    ∀ e ∈ l.roster.employees.values, e.Within := by
  have hn : r.Naive := fun k a ha => by
    obtain ⟨hd, harrival⟩ := ht.flights _ (hs.seats_eq ▸ Roster.mem_seats.2 ⟨k, a, ha, rfl⟩)
    exact ⟨by simp [hd], by simp [harrival]⟩
  have hblank : l.roster.blank = r.blank := hs.blank_of_listing ⟨listing_of_loadInstance hload hn, hn⟩
  have htime : Seat.Timetable false l.roster.seats :=
    Roster.seats_of_blank_eq hblank ▸ timetable_of_loadInstance hload hn
  have hin : ∀ k a, l.roster.assignments.get? k = some a → a.seat.flight.Inside := fun k a ha =>
    ht.inside htime ((charted_of_loadInstance hload).of_blank_eq hblank.symm) ha
  have hp : r.Plain := Roster.Plain.of_blank_eq (fun k a ha => (hin k a ha).plain) hblank
  have h := (hs.consistent_and_blank (consistent_of_loadInstance hload hp).1 hp).1
  exact ⟨h, hn.of_blank_eq hblank.symm, hin,
    h.within_of_temperate ht ((homed_of_loadInstance hload).of_blank_eq hblank.symm) hin⟩

-- Whatever was done to a roster that was loaded, once nothing is pending and if it is temperate, all three
-- frames tell the same for every scenario whose crew lives less than a day from UTC:
-- 1. there are rows for the duties and for the workloads, and they agree with the owners of the seats
-- 2. if tables can be made of the rows there is a report of them, and its calendar agrees with them
theorem frames_of_load (hn : l.pending = none) {s : Scenario} {offset : Span}
    (hoffset : Span.ofRealHours s.offsetHours = .ok offset) (hwest : -Span.day < offset)
    (heast : offset < Span.day) :
    ∃ settings rows ws, ReportSettings.ofScenario s = .ok settings ∧
      Report.dutyRows settings l.roster = .ok rows ∧ Report.workloadRows settings l.roster = .ok ws ∧
      Report.DutyFrame l.roster rows ∧ Report.WorkloadFrame l.roster rows ws ∧
      ∀ dutyTable workloadTable, DutyRow.table rows = .ok dutyTable →
        Workload.table ws = .ok workloadTable →
        ∃ report, Report.build settings l.roster = .ok report ∧
          report.duties = rows ∧ report.dutyTable = dutyTable ∧
          report.workloads = ws ∧ report.workloadTable = workloadTable ∧
          Report.CalendarFrame l.roster report := by
  obtain ⟨h, hnaive, hin, hwithin⟩ := consistent_of_temperate hload hs ht
  obtain ⟨settings, hsettings⟩ : ∃ settings, ReportSettings.ofScenario s = .ok settings := by
    rw [ReportSettings.ofScenario, Scenario.zone, Zone.ofRealHours, hoffset, Result.ok_bind, Zone.ofOffset,
      dif_pos ⟨hwest, heast⟩]
    exact ⟨_, rfl⟩
  obtain ⟨rows, hrows⟩ := Report.exists_dutyRows ht.usable hwithin settings
  obtain ⟨ws, hws⟩ := Report.exists_workloadRows hwithin settings
  have hframe := h.dutyFrame hn hrows ht hin
  refine ⟨settings, rows, ws, hsettings, hrows, hws, hframe, h.workloadFrame hn hrows hnaive hws, ?_⟩
  intro dutyTable workloadTable hdutyTable hworkloadTable
  let report : Report := {
    employees := (Report.employeesOf l.roster).map (·.id)
    days := l.roster.horizon
    calendar := (Report.employeesOf l.roster).map fun e => l.roster.horizon.map (Report.cell rows e)
    duties := rows
    dutyTable
    workloads := ws
    workloadTable }
  have hreport : Report.build settings l.roster = .ok report :=
    Report.build_eq_ok.2 ⟨hrows, hdutyTable, hws, hworkloadTable, rfl, rfl, rfl⟩
  exact ⟨report, hreport, rfl, rfl, rfl, rfl, h.calendarFrame hn hreport hframe⟩

end Steps

end Ledger

namespace Contents

theorem ordinary_journey : journey.Ordinary where
  naive := ⟨by decide +kernel, naive_varied.grounds⟩
  clocks := Ledger.ordinary_varied.clocks
  zone := Result.isSome_toOption.1 (by decide +kernel)
  period := Ledger.ordinary_varied.period
  legs := by decide +kernel
  grounds := Ledger.ordinary_varied.grounds
  limits := Ledger.ordinary_varied.limits
  transfers := Ledger.ordinary_varied.transfers
  seats := by decide +kernel

theorem central_journey {scenario : Scenario} {r : Roster} {id : String} {day : Date} {d : Duty}
    (h : journey.load = .ok (scenario, r)) (hd : r.dutyAt id day = some d) : day.Central := by
  obtain ⟨e, he, hd⟩ := Roster.dutyAt_eq_some.1 hd
  obtain ⟨m, hm, -, hdays⟩ := member_of_load h he
  rcases hdays day d hd with ⟨hduty, hday⟩ | ⟨hrange, rfl⟩
  · have hcentral : ∀ m ∈ journey.crew, ∀ d ∈ m.duties, d.date.Central := by decide +kernel
    exact hday ▸ hcentral m hm d hduty
  · have hcentral : ∀ day ∈ Date.range journey.first journey.last, day.Central := by decide +kernel
    exact hcentral day hrange

end Contents

namespace Ledger

-- A roster is temperate as far as it is made of what changes of owners leave, and of days where it is not.
theorem Remains.temperate {r : Roster} {l : Ledger} (h : Remains r l)
    (hgrounds : ∀ {id day g}, r.groundAt id day = some g → g.start.zone = none ∧ g.finish.zone = none)
    (hlegs : ∀ s ∈ r.seats, s.flight.departureDate.Central ∧ s.flight.arrivalDate.Central)
    (hdays : ∀ {id day d}, l.roster.dutyAt id day = some d → day.Central)
    (hspans : ∀ s ∈ r.seats, ∀ t ∈ r.seats, s.periodTo t < 2 ^ 53)
    (hlimits : ∀ rule ∈ r.reference.limits, ∀ slot ∈ rule.limits, ∀ limit ∈ slot, |limit| < 2 ^ 53)
    (hclocks : ∀ rule ∈ r.reference.limits, rule.start.zone = none ∧ rule.finish.zone = none) :
    l.roster.Temperate := by
  have hseats : l.roster.seats = r.seats := Roster.seats_of_blank_eq h.blank
  have hreference : l.roster.reference = r.reference := Roster.reference_of_blank_eq h.blank
  have hat : ∀ e ∈ l.roster.employees.values, ∀ d ∈ e.calendar.duties,
      ∃ id, l.roster.dutyAt id d.date = some d := fun e he d hd => by
    obtain ⟨id, he⟩ := Registry.mem_values.1 he
    exact ⟨id, h.consistent.dutyAt_of_mem he hd⟩
  constructor
  case legs => exact hseats ▸ hlegs
  case limits => exact hreference ▸ hlimits
  case clocks => exact hreference ▸ hclocks
  case flights =>
    intro s hs
    obtain ⟨k, a, ha, rfl⟩ := Roster.mem_seats.1 hs
    exact ⟨(h.plain k a ha).departure, (h.plain k a ha).arrival⟩
  case days =>
    intro e he d hd
    obtain ⟨id, hat⟩ := hat e he d hd
    exact hdays hat
  case grounds =>
    intro e he d hd g hg
    obtain ⟨id, hat⟩ := hat e he d hd
    refine hgrounds (h.ground id d.date ▸ ?_ : r.groundAt id d.date = some g)
    rw [Roster.groundAt, hat]
    exact hg
  case spans =>
    intro e he d hd first hf last hl
    obtain ⟨id, hat⟩ := hat e he d hd
    have hmem : ∀ s ∈ d.seats, s ∈ r.seats := fun s hs => by
      obtain ⟨a, ha, rfl⟩ := h.consistent.known ⟨d, hat, hs⟩
      exact hseats ▸ Roster.mem_seats.2 ⟨_, _, ha, rfl⟩
    exact hspans _ (hmem _ (Duty.mem_of_first? hf)) _ (hmem _ (Duty.mem_of_last? hl))

-- The employee flies on Monday, and on Thursday, when the period is over.
theorem temperate_journey : ∃ scenario r l e, loadInstance .journey false = .ok (scenario, r) ∧
    Reassigned (.ofRoster r) l ∧ l.pending = none ∧ l.roster.Temperate ∧
    l.roster.employees.get? "E" = some e ∧ .after 739039 ∈ l.roster.horizon ∧
    .after 739042 ∉ l.roster.horizon ∧ l.roster.Owns "E" Contents.monday.seat ∧
    l.roster.Owns "E" Contents.thursday.seat := by
  obtain ⟨scenario, r, l, e, hload, hp, -, hre, hremains, hn, he, -, howns, -⟩ := travels_journey
  obtain ⟨_, _, hload', hlegs, hspans, hlimits, hclocks, hday, hout⟩ :=
    Contents.spelledBy_journey.exists_of_load
      (P := fun r =>
        (∀ s ∈ r.seats, s.flight.departureDate.Central ∧ s.flight.arrivalDate.Central) ∧
        (∀ s ∈ r.seats, ∀ t ∈ r.seats, s.periodTo t < 2 ^ 53) ∧
        (∀ rule ∈ r.reference.limits, ∀ slot ∈ rule.limits, ∀ limit ∈ slot, |limit| < 2 ^ 53) ∧
        (∀ rule ∈ r.reference.limits, rule.start.zone = none ∧ rule.finish.zone = none) ∧
        .after 739039 ∈ r.horizon ∧ .after 739042 ∉ r.horizon)
      (by decide +kernel)
  obtain ⟨rfl, rfl⟩ := Prod.mk.inj (Except.ok.inj (hload.symm.trans hload'))
  have hc : Contents.journey.load = .ok (scenario, r) :=
    Contents.spelledBy_journey.loadInstance_eq ▸ hload
  have hhorizon : l.roster.horizon = r.horizon := Roster.horizon_of_blank_eq hremains.blank
  have hstart : Remains r (.ofRoster r) :=
    ⟨(fresh_of_loadInstance hload).consistent hp, hp, rfl, fun _ _ => rfl⟩
  have hdays : ∀ {id day d}, l.roster.dutyAt id day = some d → day.Central :=
    (hre.kept (Remains.kept_days fun ha => (hlegs _ (Roster.mem_seats.2 ⟨_, _, ha, rfl⟩)).1)
      ⟨hstart, Contents.central_journey hc⟩).2
  have hgrounds : ∀ {id day g}, r.groundAt id day = some g →
      g.start.zone = none ∧ g.finish.zone = none := fun hground => by
    obtain ⟨_, hat, hg⟩ := Option.bind_eq_some_iff.1 hground
    exact (Contents.duty_of_load Contents.ordinary_journey hc hat).2 _ hg
  exact ⟨scenario, r, l, e, hload, hre, hn,
    hremains.temperate hgrounds hlegs hdays hspans hlimits hclocks, he, hhorizon ▸ hday,
    hhorizon ▸ hout, (howns _).2 (.inl rfl), (howns _).2 (.inr rfl)⟩

-- Where the crew lives far to the west: Monday is a flight in the calendar, broken limits or not, and
-- Thursday, which the calendar does not show, has a row.
theorem Steps.frames_of_load_journey : ∃ scenario r l s offset settings report,
    loadInstance .journey false = .ok (scenario, r) ∧ Steps (.ofRoster r) l ∧ l.roster.Temperate ∧
    l.pending = none ∧ Span.ofRealHours s.offsetHours = .ok offset ∧ -Span.day < offset ∧
    offset < Span.day ∧ ReportSettings.ofScenario s = .ok settings ∧
    Report.build settings l.roster = .ok report ∧ Report.DutyFrame l.roster report.duties ∧
    Report.WorkloadFrame l.roster report.duties report.workloads ∧ Report.CalendarFrame l.roster report ∧
    (report.cellAt "E" (.after 739039) = some .flight ∨
      report.cellAt "E" (.after 739039) = some .violation) ∧
    .after 739042 ∉ l.roster.horizon ∧
    ∃ row ∈ report.duties, row.employee = "E" ∧ row.date = .after 739042 := by
  obtain ⟨scenario, r, l, e, hload, hre, hn, ht, he, hday, hout, hmonday, hthursday⟩ := temperate_journey
  obtain ⟨s, hs⟩ : ∃ s : Scenario, s.offsetHours = .ofRat (-47 / 2) :=
    ⟨{ scenario with offsetHours := .ofRat (-47 / 2) }, rfl⟩
  have hoffset : Span.ofRealHours s.offsetHours = .ok (-47 * (30 * Span.minute)) := hs ▸ by decide +kernel
  obtain ⟨settings, rows, ws, hsettings, hrows, hws, hduties, hworkloads, hreport⟩ :=
    Steps.frames_of_load hload hre.steps ht hn hoffset (by decide) (by decide)
  -- the tables can be made, since the instance is an ordinary one
  obtain ⟨report, hbuild, -⟩ :=
    (hre.within Contents.spelledBy_journey Contents.ordinary_journey hload).1.report_yields settings
  obtain ⟨hrows', hdutyTable, hws', hworkloadTable, -⟩ := Report.build_eq_ok.1 hbuild
  obtain rfl := Except.ok.inj (hrows.symm.trans hrows')
  obtain rfl := Except.ok.inj (hws.symm.trans hws')
  obtain ⟨_, hbuild', -, -, -, -, hcalendar⟩ := hreport _ _ hdutyTable hworkloadTable
  obtain rfl := Except.ok.inj (hbuild.symm.trans hbuild')
  have hmondayRow := (hduties.exists_iff "E" (.after 739039)).2 ⟨_, hmonday, by decide +kernel⟩
  have hthursdayRow := (hduties.exists_iff "E" (.after 739042)).2 ⟨_, hthursday, by decide +kernel⟩
  obtain ⟨c, hc, hshows⟩ := hcalendar "E" e he _ hday
  refine ⟨scenario, r, l, s, _, settings, report, hload, hre.steps, ht, hn, hoffset, by decide, by decide,
    hsettings, hbuild, hduties, hworkloads, hcalendar, ?_, hout, hthursdayRow⟩
  rcases hshows.flying.2 hmondayRow with rfl | rfl
  · exact .inl hc
  · exact .inr hc

end Ledger

end CrewRoster
