import CrewRoster.Proofs.Answers
import CrewRoster.Proofs.Window

namespace CrewRoster

variable {d : Duty} {e : Employee} {limits : DutyLimits} {zone : Zone}

theorem Zone.abs_offset_lt (o : Option Zone) : |o.elim 0 Zone.offset| < Span.day := by
  cases o with
  | none => decide
  | some z => exact abs_lt.2 ⟨z.gt_day, z.lt_day⟩

theorem Instant.abs_minus_le {t u : Instant} {s : Span} (h : t.minus u = .ok s) : |s| ≤ 2 ^ 60 := by
  have hwall := abs_le.1 (abs_wall_sub_le t u)
  have ht := abs_lt.1 (Zone.abs_offset_lt t.zone)
  have hu := abs_lt.1 (Zone.abs_offset_lt u.zone)
  rw [minus] at h
  split at h
  case isTrue =>
    obtain rfl := Except.ok.inj h
    refine abs_le.2 ?_
    simp only [position, Span.calendar_eq, Span.day, Span.hour, Span.minute, Span.second, Span] at *
    omega
  case isFalse => cases h

namespace Duty

-- How much longer a duty is than its limit; it is shorter by what is below zero.
def OverBy (d : Duty) (limits : DutyLimits) (zone : Zone) (excess : Span) : Prop :=
  ∃ start period limit, d.start = some start ∧ d.flightDutyPeriod = .ok (some period) ∧
    d.periodLimit limits zone start = .ok limit ∧ period - limit = excess

-- How much shorter the rest before the duty of the next day is than it has to be, if that duty has a code.
def ShortBy (d : Duty) (e : Employee) (lack : Span) : Prop :=
  ∃ next start finish required rest, e.dayAfter d.date = .ok (some next) ∧ next.hasCode = true ∧
    next.start = some start ∧ d.finish = some finish ∧ d.minimumRest e = .ok (some required) ∧
    start.minus finish = .ok rest ∧ required - rest = lack

-- A duty is too long, or the rest after it is too short.
def Breaks (d : Duty) (limits : DutyLimits) (zone : Zone) (e : Employee) : Prop :=
  (∃ excess, d.OverBy limits zone excess ∧ 0 < excess) ∨ ∃ lack, d.ShortBy e lack ∧ 0 < lack

-- The same by a margin: ten minutes too long, or a minute too short.
def BreaksWidely (d : Duty) (limits : DutyLimits) (zone : Zone) (e : Employee) : Prop :=
  (∃ excess, d.OverBy limits zone excess ∧ 10 * Span.minute ≤ excess) ∨
    ∃ lack, d.ShortBy e lack ∧ Span.minute ≤ lack

theorem BreaksWidely.breaks (h : d.BreaksWidely limits zone e) : d.Breaks limits zone e := by
  rcases h with ⟨excess, hover, hle⟩ | ⟨lack, hlack, hle⟩
  · exact .inl ⟨excess, hover, lt_of_lt_of_le (by decide) hle⟩
  · exact .inr ⟨lack, hlack, lt_of_lt_of_le (by decide) hle⟩

theorem flightDutyPeriod_eq_ok {period : Option Span} (h : d.flightDutyPeriod = .ok period) :
    period = none ∧ (d.start = none ∨ d.lastArrival = none) ∨ ∃ s, period = some s ∧ |s| ≤ 2 ^ 60 := by
  rw [flightDutyPeriod] at h
  split at h
  case h_1 start arrival hstart harrival =>
    cases hs : arrival.minus start with
    | error => simp [hs, Except.map] at h
    | ok s =>
      rw [hs] at h
      exact .inr ⟨s, (Except.ok.inj h).symm, Instant.abs_minus_le hs⟩
  case h_2 hnone =>
    refine .inl ⟨(Except.ok.inj h).symm, ?_⟩
    by_contra! hsome
    obtain ⟨start, hstart⟩ := Option.ne_none_iff_exists'.1 hsome.1
    obtain ⟨arrival, harrival⟩ := Option.ne_none_iff_exists'.1 hsome.2
    exact hnone start arrival hstart harrival

theorem OverBy.iff_eq {s t : Span} (ht : d.OverBy limits zone t) : d.OverBy limits zone s ↔ s = t := by
  refine ⟨fun hs => ?_, fun heq => heq ▸ ht⟩
  obtain ⟨start, period, limit, hstart, hperiod, hlimit, rfl⟩ := hs
  obtain ⟨start', period', limit', hstart', hperiod', hlimit', rfl⟩ := ht
  obtain rfl := Option.some.inj (hstart.symm.trans hstart')
  obtain rfl := Option.some.inj (Except.ok.inj (hperiod.symm.trans hperiod'))
  obtain rfl := Except.ok.inj (hlimit.symm.trans hlimit')
  rfl

theorem ShortBy.iff_eq {s t : Span} (ht : d.ShortBy e t) : d.ShortBy e s ↔ s = t := by
  refine ⟨fun hs => ?_, fun heq => heq ▸ ht⟩
  obtain ⟨next, start, finish, required, rest, hnext, -, hstart, hfinish, hrequired, hrest, rfl⟩ := hs
  obtain ⟨next', start', finish', required', rest', hnext', -, hstart', hfinish', hrequired', hrest',
    rfl⟩ := ht
  obtain rfl := Option.some.inj (Except.ok.inj (hnext.symm.trans hnext'))
  obtain rfl := Option.some.inj (hstart.symm.trans hstart')
  obtain rfl := Option.some.inj (hfinish.symm.trans hfinish')
  obtain rfl := Option.some.inj (Except.ok.inj (hrequired.symm.trans hrequired'))
  obtain rfl := Except.ok.inj (hrest.symm.trans hrest')
  rfl

-- The points are for what the duty is over its limit by; there are none if it cannot be held against one.
theorem pointsOverLimit_cases {points : ℤ} (hf : d.isFlightDuty = true)
    (h : d.pointsOverLimit limits zone = .ok points) :
    (∃ excess, d.OverBy limits zone excess ∧
        (excess ≤ 0 ∧ points = 0 ∨ 0 < excess ∧ points = Span.minutes excess / 10)) ∨
      (∀ excess, ¬d.OverBy limits zone excess) ∧ points = 0 := by
  rw [pointsOverLimit] at h
  split at h
  case h_1 start _ hstart =>
    obtain ⟨period, hperiod, h⟩ := Result.bind_eq_ok.1 h
    cases period with
    | none =>
      refine .inr ⟨?_, (Result.pure_eq_ok.1 h).symm⟩
      rintro excess ⟨_, period, _, -, hperiod', -⟩
      cases hperiod.symm.trans hperiod'
    | some period =>
      obtain ⟨limit, hlimit, h⟩ := Result.bind_eq_ok.1 h
      refine .inl ⟨period - limit, ⟨start, period, limit, hstart, hperiod, hlimit, rfl⟩, ?_⟩
      split at h
      case isTrue hle => exact .inl ⟨Int.sub_nonpos_of_le hle, (Result.pure_eq_ok.1 h).symm⟩
      case isFalse hle =>
        obtain ⟨excess, hcheck, h⟩ := Result.bind_eq_ok.1 h
        obtain ⟨rfl, -⟩ := Span.check_eq_ok hcheck
        obtain rfl := Result.pure_eq_ok.1 h
        exact .inr ⟨Int.sub_pos_of_lt (not_le.1 hle), Int.fdiv_eq_ediv_of_nonneg _ (by norm_num)⟩
  case h_2 hnone =>
    refine .inr ⟨?_, (Except.ok.inj h).symm⟩
    rintro excess ⟨start, _, _, hstart, -⟩
    exact hnone start hf hstart

theorem pointsOverLimit_pos_iff {points : ℤ} (hf : d.isFlightDuty = true)
    (h : d.pointsOverLimit limits zone = .ok points) :
    0 < points ↔ ∃ excess, d.OverBy limits zone excess ∧ 10 * Span.minute ≤ excess := by
  rcases pointsOverLimit_cases hf h with ⟨excess, hover, hpoints⟩ | ⟨hnone, rfl⟩
  · simp only [hover.iff_eq, exists_eq_left]
    rcases hpoints with ⟨hle, rfl⟩ | ⟨-, rfl⟩
    · exact iff_of_false (lt_irrefl 0) (not_le.2 (hle.trans_lt (by decide)))
    · rw [← Span.le_minutes_iff (by norm_num) (by norm_num)]
      omega
  · simp [hnone]

theorem restLack_cases {next : Option Duty} {lack : ℤ} (hnext : e.dayAfter d.date = .ok next)
    (h : d.restLack next e = .ok lack) :
    (∃ short, d.ShortBy e short ∧ (short ≤ 0 ∧ lack = 0 ∨ lack = Span.minutes short)) ∨
      (∀ short, ¬d.ShortBy e short) ∧ lack = 0 := by
  rw [restLack] at h
  split at h
  case h_1 hstart =>
    refine .inr ⟨?_, (Except.ok.inj h).symm⟩
    rintro short ⟨next', start, _, _, _, hnext', hcode, hstart', -⟩
    obtain rfl := Except.ok.inj (hnext.symm.trans hnext')
    simp [hcode, hstart'] at hstart
  case h_2 start hcoded =>
    obtain ⟨next, rfl, hif⟩ := Option.bind_eq_some_iff.1 hcoded
    obtain ⟨hcode, hstart⟩ := Option.ite_none_right_eq_some.1 hif
    obtain ⟨required, hrequired, h⟩ := Result.bind_eq_ok.1 h
    split at h
    case h_1 required finish hfinish =>
      obtain ⟨rest, hrest, h⟩ := Result.bind_eq_ok.1 h
      refine .inl ⟨required - rest,
        ⟨next, start, finish, required, rest, hnext, hcode, hstart, hfinish, hrequired, hrest, rfl⟩, ?_⟩
      split at h
      case isTrue hle => exact .inl ⟨Int.sub_nonpos_of_le hle, (Result.pure_eq_ok.1 h).symm⟩
      case isFalse => exact .inr (Result.pure_eq_ok.1 h).symm
    case h_2 hnone =>
      refine .inr ⟨?_, (Result.pure_eq_ok.1 h).symm⟩
      rintro short ⟨_, _, finish, required', _, -, -, -, hfinish, hrequired', -⟩
      obtain rfl := Except.ok.inj (hrequired.symm.trans hrequired')
      exact hnone required' finish rfl hfinish

theorem restLack_pos_iff {next : Option Duty} {lack : ℤ} (hnext : e.dayAfter d.date = .ok next)
    (h : d.restLack next e = .ok lack) :
    0 < lack ↔ ∃ short, d.ShortBy e short ∧ Span.minute ≤ short := by
  rcases restLack_cases hnext h with ⟨short, hshort, hlack⟩ | ⟨hnone, rfl⟩
  · simp only [hshort.iff_eq, exists_eq_left]
    rcases hlack with ⟨hle, rfl⟩ | rfl
    · exact iff_of_false (lt_irrefl 0) (not_le.2 (hle.trans_lt (by decide)))
    · exact Span.minutes_pos_iff
  · simp [hnone]

end Duty

namespace DutyRow

variable {settings : ReportSettings} {r : Roster} {row : DutyRow}

-- What a row says of its duty, as far as limits and rest go.
structure Describes (row : DutyRow) (settings : ReportSettings) (r : Roster) (e : Employee) (d : Duty) :
    Prop where
  employee : row.employee = e.id
  date : row.date = d.date
  start : d.start = some row.start
  period : ∃ period, d.flightDutyPeriod = .ok period ∧ row.periodMinutes = period.elim 0 Span.minutes
  limit : ∃ limit, d.periodLimit r.reference.limits settings.zone row.start = .ok limit ∧
    row.limitMinutes = Span.minutes limit
  points : d.pointsOverLimit r.reference.limits settings.zone = .ok row.pointsOverLimit
  lack : ∃ next, e.dayAfter d.date = .ok next ∧ d.restLack next e = .ok row.restLack

theorem describes_of_ofDuty (h : ofDuty settings r e d = .ok row) : row.Describes settings r e d := by
  simp only [ofDuty, Result.bind_eq_ok, Result.pure_eq_ok, Result.elim_eq_ok] at h
  obtain ⟨period, hperiod, start, hstart, limit, hlimit, block, hblock, points, hpoints, next, hnext, lack,
    hlack, home, hhome, overlap, hoverlap, isBefore, hbefore, isAfter, hafter, previous, hprevious, isShort,
    hshort, rfl⟩ := h
  exact ⟨rfl, rfl, hstart, ⟨period, hperiod, rfl⟩, ⟨limit, hlimit, rfl⟩, hpoints, ⟨next, hnext, hlack⟩⟩

theorem Describes.isViolation_iff (h : row.Describes settings r e d) (hf : d.isFlightDuty = true) :
    row.isViolation = true ↔ d.BreaksWidely r.reference.limits settings.zone e := by
  obtain ⟨next, hnext, hlack⟩ := h.lack
  rw [isViolation, Bool.or_eq_true, decide_eq_true_iff, decide_eq_true_iff,
    Duty.pointsOverLimit_pos_iff hf h.points, Duty.restLack_pos_iff hnext hlack]
  rfl

-- A duty that is two minutes over its limit has more minutes than the limit in whatever way they are
-- rounded, and a duty with more minutes than the limit is over it.
theorem Describes.limit_lt_period (h : row.Describes settings r e d) {excess : Span}
    (hover : d.OverBy r.reference.limits settings.zone excess) (hle : 2 * Span.minute ≤ excess) :
    row.limitMinutes < row.periodMinutes := by
  obtain ⟨start, period, limit, hstart, hperiod, hlimit, rfl⟩ := hover
  obtain ⟨period', hperiod', hrow⟩ := h.period
  obtain ⟨limit', hlimit', hrow'⟩ := h.limit
  obtain rfl := Option.some.inj (hstart.symm.trans h.start)
  obtain rfl := Except.ok.inj (hperiod.symm.trans hperiod')
  obtain rfl := Except.ok.inj (hlimit.symm.trans hlimit')
  have hbound : |period| ≤ 2 ^ 60 := by
    obtain ⟨hnone, -⟩ | ⟨s, hs, hbound⟩ := Duty.flightDutyPeriod_eq_ok hperiod
    · cases hnone
    · exact Option.some.inj hs ▸ hbound
  rw [hrow, hrow']
  exact Span.minutes_lt_of_add_le (Int.add_le_of_le_sub_left hle) hbound

theorem Describes.overBy_of_limit_lt (h : row.Describes settings r e d) (harrival : d.lastArrival ≠ none)
    (hlt : row.limitMinutes < row.periodMinutes) :
    ∃ excess, d.OverBy r.reference.limits settings.zone excess ∧ 0 < excess := by
  obtain ⟨period, hperiod, hrow⟩ := h.period
  obtain ⟨limit, hlimit, hrow'⟩ := h.limit
  obtain ⟨-, hnone⟩ | ⟨s, rfl, -⟩ := Duty.flightDutyPeriod_eq_ok hperiod
  · simp [h.start, harrival] at hnone
  · refine ⟨s - limit, ⟨row.start, s, limit, h.start, hperiod, hlimit, rfl⟩, Int.sub_pos_of_lt ?_⟩
    rw [hrow, hrow'] at hlt
    exact lt_of_not_ge fun hle => not_lt.2 (Span.minutes_mono hle) hlt

end DutyRow

namespace Report

variable {settings : ReportSettings} {r : Roster} {report : Report} {row : DutyRow} {id : String}
  {day : Date}

theorem mem_employeesOf : e ∈ employeesOf r ↔ ∃ id, r.employees.get? id = some e := by
  rw [employeesOf, List.mem_mergeSort, Registry.mem_values]

-- What the calendar has for an employee on a day.
def cellAt (report : Report) (id : String) (day : Date) : Option Cell :=
  report.calendar[report.employees.idxOf id]?.bind fun row => row[report.days.idxOf day]?

-- The rows of the flight duties, employee by employee.
def dutyRows (settings : ReportSettings) (r : Roster) : Result (List DutyRow) := do
  return (← (employeesOf r).mapM fun e =>
    (e.calendar.duties.filter (·.isFlightDuty)).mapM (DutyRow.ofDuty settings r e)).flatten

section Rows

variable {rows : List DutyRow} (h : dutyRows settings r = .ok rows)
include h

theorem rows_of_dutyRows : ∃ rowsOf, ((employeesOf r).mapM fun e =>
      (e.calendar.duties.filter (·.isFlightDuty)).mapM (DutyRow.ofDuty settings r e)) = .ok rowsOf ∧
    rows = rowsOf.flatten := by
  obtain ⟨rowsOf, hrows, h⟩ := Result.bind_eq_ok.1 h
  exact ⟨rowsOf, hrows, (Result.pure_eq_ok.1 h).symm⟩

theorem exists_duty_of_mem (hrow : row ∈ rows) : ∃ e ∈ employeesOf r, ∃ d ∈ e.calendar.duties,
    d.isFlightDuty = true ∧ DutyRow.ofDuty settings r e d = .ok row := by
  obtain ⟨rowsOf, hrows, rfl⟩ := rows_of_dutyRows h
  obtain ⟨of, hof, hrow⟩ := List.mem_flatten.1 hrow
  obtain ⟨e, he, hof⟩ := (Result.mem_of_mapM hrows).1 hof
  obtain ⟨d, hd, hrow⟩ := (Result.mem_of_mapM hof).1 hrow
  obtain ⟨hd, hf⟩ := List.mem_filter.1 hd
  exact ⟨e, he, d, hd, hf, hrow⟩

theorem exists_row_of_duty (he : e ∈ employeesOf r) (hd : d ∈ e.calendar.duties)
    (hf : d.isFlightDuty = true) : ∃ row ∈ rows, DutyRow.ofDuty settings r e d = .ok row := by
  obtain ⟨rowsOf, hrows, rfl⟩ := rows_of_dutyRows h
  obtain ⟨of, hmem, hof⟩ := Result.exists_of_mapM hrows he
  obtain ⟨row, hrow, hrowOf⟩ := Result.exists_of_mapM hof (List.mem_filter.2 ⟨hd, hf⟩)
  exact ⟨row, List.mem_flatten.2 ⟨of, hmem, hrow⟩, hrowOf⟩

end Rows

-- The rows of the workloads, employee by employee.
def workloadRows (settings : ReportSettings) (r : Roster) : Result (List Workload) :=
  (employeesOf r).mapM (Workload.ofEmployee settings r)

-- A report is made of its rows, if they can be put into tables.
theorem build_eq_ok : build settings r = .ok report ↔
    dutyRows settings r = .ok report.duties ∧ DutyRow.table report.duties = .ok report.dutyTable ∧
    workloadRows settings r = .ok report.workloads ∧
    Workload.table report.workloads = .ok report.workloadTable ∧
    report.employees = (employeesOf r).map (·.id) ∧ report.days = r.horizon ∧
    report.calendar = (employeesOf r).map fun e => r.horizon.map (cell report.duties e) := by
  constructor
  · intro h
    simp only [build, Result.bind_eq_ok, Result.pure_eq_ok] at h
    obtain ⟨rows, hrows, dutyTable, hdutyTable, ws, hws, workloadTable, hworkloadTable, rfl⟩ := h
    refine ⟨?_, hdutyTable, hws, hworkloadTable, rfl, rfl, rfl⟩
    rw [dutyRows, hrows]
    rfl
  · obtain ⟨employees, days, calendar, duties, dutyTable, ws, workloadTable⟩ := report
    dsimp only
    rintro ⟨hrows, hdutyTable, hws, hworkloadTable, rfl, rfl, rfl⟩
    obtain ⟨rowsOf, hof, rfl⟩ := rows_of_dutyRows hrows
    unfold workloadRows at hws
    simp only [build, hof, hdutyTable, hws, hworkloadTable, Result.ok_bind]
    rfl

section Build

variable (h : build settings r = .ok report)
include h

theorem calendar_of_build : report.employees = (employeesOf r).map (·.id) ∧ report.days = r.horizon ∧
    report.calendar = (employeesOf r).map fun e => r.horizon.map (cell report.duties e) :=
  (build_eq_ok.1 h).2.2.2.2

theorem dutyRows_of_build : dutyRows settings r = .ok report.duties :=
  (build_eq_ok.1 h).1

variable (hw : r.WellFormed) (he : r.employees.get? id = some e)
include hw he

omit h in
theorem eq_of_id {e' : Employee} (he' : e' ∈ employeesOf r) (hid : e'.id = id) : e' = e := by
  obtain ⟨k, hk⟩ := mem_employeesOf.1 he'
  obtain rfl := (hw.crewId hk).symm.trans hid
  exact Option.some.inj (hk.symm.trans he)

theorem cellAt_of_build (hday : day ∈ r.horizon) :
    report.cellAt id day = some (cell report.duties e day) := by
  obtain ⟨hemployees, hdays, hcalendar⟩ := calendar_of_build h
  have hid : id ∈ report.employees := by
    rw [hemployees]
    exact List.mem_map.2 ⟨e, mem_employeesOf.2 ⟨id, he⟩, hw.crewId he⟩
  have hrow := List.getElem?_idxOf hid
  have hcell := List.getElem?_idxOf hday
  rw [cellAt, hdays, hcalendar, List.getElem?_map]
  generalize report.employees.idxOf id = i at hrow ⊢
  rw [hemployees, List.getElem?_map] at hrow
  obtain ⟨e', he', hid⟩ := Option.map_eq_some_iff.1 hrow
  obtain rfl := eq_of_id hw he (List.mem_of_getElem? he') hid
  simp [he', hcell]

-- There is one duty on a day, so the rows of an employee on that day describe it.
theorem describes_of_mem (hd : e.dutyOn day = some d) (hrow : row ∈ report.duties)
    (hid : row.employee = id) (hdate : row.date = day) : row.Describes settings r e d := by
  obtain ⟨e', he', d', hd', -, hof⟩ := exists_duty_of_mem (dutyRows_of_build h) hrow
  have hdescribes := DutyRow.describes_of_ofDuty hof
  obtain rfl := eq_of_id hw he he' (hdescribes.employee.symm.trans hid)
  have hon : e'.dutyOn d'.date = some d' := (hw.calendar_dated he).dutyOn_date hd'
  rw [← hdescribes.date, hdate, hd] at hon
  exact Option.some.inj hon ▸ hdescribes

variable (hf : d.isFlightDuty = true)
include hf

theorem exists_describes (hd : e.dutyOn day = some d) : ∃ row ∈ report.duties,
    row.employee = id ∧ row.date = day ∧ row.Describes settings r e d := by
  have hday := hw.calendar_dated he day d hd
  obtain ⟨row, hrow, hof⟩ := exists_row_of_duty (dutyRows_of_build h) (mem_employeesOf.2 ⟨id, he⟩)
    (Calendar.mem_duties.2 ⟨day, hd⟩) hf
  have hdescribes := DutyRow.describes_of_ofDuty hof
  exact ⟨row, hrow, hdescribes.employee.trans (hw.crewId he), hdescribes.date.trans hday, hdescribes⟩

theorem any_isViolation_iff (hd : e.dutyOn day = some d) :
    (report.duties.any fun row => row.employee = e.id && row.date = day && row.isViolation) = true ↔
      d.BreaksWidely r.reference.limits settings.zone e := by
  have hid : e.id = id := hw.crewId he
  simp only [List.any_eq_true, Bool.and_eq_true, decide_eq_true_eq, hid]
  constructor
  · rintro ⟨row, hrow, ⟨hemployee, hdate⟩, hviolation⟩
    exact ((describes_of_mem h hw he hd hrow hemployee hdate).isViolation_iff hf).1 hviolation
  · intro hwide
    obtain ⟨row, hrow, hemployee, hdate, hdescribes⟩ := exists_describes h hw he hf hd
    exact ⟨row, hrow, ⟨hemployee, hdate⟩, (hdescribes.isViolation_iff hf).2 hwide⟩

theorem cellAt_eq (hd : e.dutyOn day = some d) (hday : day ∈ r.horizon) :
    report.cellAt id day = some .violation ∧ d.BreaksWidely r.reference.limits settings.zone e ∨
      report.cellAt id day = some .flight ∧ ¬d.BreaksWidely r.reference.limits settings.zone e := by
  simp only [cellAt_of_build h hw he hday, cell, hd, hf, if_true, ← any_isViolation_iff h hw he hf hd]
  split
  case isTrue hany => exact .inl ⟨rfl, hany⟩
  case isFalse hany => exact .inr ⟨rfl, hany⟩

end Build

-- The row of a duty has more minutes than there are in its limit.
def Counts (report : Report) (e : Employee) (d : Duty) : Prop :=
  ∃ row ∈ report.duties, row.employee = e.id ∧ row.date = d.date ∧ row.limitMinutes < row.periodMinutes

-- What a report makes of a flight duty:
-- 1. in the calendar it is a violation if it breaks a limit by a margin
-- 2. else it is a flight there
-- 3. its row counts if it is over its limit by two minutes or more
-- 4. and only if it is over its limit, as far as it is known when its last flight arrives
structure Judges (report : Report) (limits : DutyLimits) (zone : Zone) (e : Employee) (d : Duty) :
    Prop where
  violation : report.cellAt e.id d.date = some .violation ↔ d.BreaksWidely limits zone e
  flight : report.cellAt e.id d.date = some .flight ↔ ¬d.BreaksWidely limits zone e
  counts : ∀ excess, d.OverBy limits zone excess → 2 * Span.minute ≤ excess → report.Counts e d
  exceeds : d.lastArrival ≠ none → report.Counts e d → ∃ excess, d.OverBy limits zone excess ∧ 0 < excess

-- The calendar agrees with the limits on a flight duty, and with its row: it is a violation exactly if it
-- breaks a limit at all, and it is one whenever its row counts.
structure Agrees (report : Report) (limits : DutyLimits) (zone : Zone) (e : Employee) (d : Duty) :
    Prop where
  violation : report.cellAt e.id d.date = some .violation ↔ d.Breaks limits zone e
  counts : report.Counts e d → report.cellAt e.id d.date = some .violation

theorem Judges.agrees_iff (h : report.Judges limits zone e d) (harrival : d.lastArrival ≠ none) :
    report.Agrees limits zone e d ↔ (d.Breaks limits zone e → d.BreaksWidely limits zone e) := by
  constructor
  · exact fun ha hb => h.violation.1 (ha.violation.2 hb)
  · intro hwide
    have hiff := h.violation.trans ⟨Duty.BreaksWidely.breaks, hwide⟩
    exact ⟨hiff, fun hc => hiff.2 (.inl (h.exceeds harrival hc))⟩

theorem judges (h : build settings r = .ok report) (hw : r.WellFormed) (he : r.employees.get? id = some e)
    (hday : day ∈ r.horizon) (hd : e.dutyOn day = some d) (hf : d.isFlightDuty = true) :
    report.Judges r.reference.limits settings.zone e d := by
  obtain rfl := hw.crewId he
  obtain rfl := hw.calendar_dated he day d hd
  have hcell := cellAt_eq h hw he hf hd hday
  constructor
  case violation => rcases hcell with ⟨hc, hb⟩ | ⟨hc, hb⟩ <;> simp [hc, hb]
  case flight => rcases hcell with ⟨hc, hb⟩ | ⟨hc, hb⟩ <;> simp [hc, hb]
  case counts =>
    intro excess hover hle
    obtain ⟨row, hrow, hemployee, hdate, hdescribes⟩ := exists_describes h hw he hf hd
    exact ⟨row, hrow, hemployee, hdate, hdescribes.limit_lt_period hover hle⟩
  case exceeds =>
    rintro harrival ⟨row, hrow, hemployee, hdate, hlt⟩
    exact (describes_of_mem h hw he hd hrow hemployee hdate).overBy_of_limit_lt harrival hlt

end Report

namespace Ledger.Steps

variable {l : Ledger} {r : Roster} {folder : Folder} {scenario : Scenario} {solved : Bool}

-- Whatever was done to a roster that was loaded, a report of it judges every flight duty of the period by
-- margins: ten minutes over the limit, or a minute short of rest. So calendar and limits agree on a duty
-- unless it breaks a limit by less. There is a report if the instance is ordinary and only owners changed.
theorem judges_of_load (hload : loadInstance folder solved = .ok (scenario, r)) (hn : r.Naive)
    (hs : Steps (.ofRoster r) l) (settings : ReportSettings) :
    (∀ c : Contents, c.SpelledBy folder → c.Ordinary → Reassigned (.ofRoster r) l →
      ∃ report, Report.build settings l.roster = .ok report) ∧
    ∀ report, Report.build settings l.roster = .ok report →
      ∀ id e, l.roster.employees.get? id = some e → ∀ day ∈ l.roster.horizon,
        ∀ d, e.dutyOn day = some d → d.isFlightDuty = true →
          report.Judges l.roster.reference.limits settings.zone e d ∧
          (d.lastArrival ≠ none → (report.Agrees l.roster.reference.limits settings.zone e d ↔
            (d.Breaks l.roster.reference.limits settings.zone e →
              d.BreaksWidely l.roster.reference.limits settings.zone e))) := by
  have hw := (hs.listing ⟨listing_of_loadInstance hload hn, hn⟩).1.toWellFormed
  refine ⟨fun c hc ho hre => ((hre.within hc ho hload).1.report_yields settings).exists_ok, ?_⟩
  intro report hreport id e he day hday d hd hf
  have hj := Report.judges hreport hw he hday hd hf
  exact ⟨hj, hj.agrees_iff⟩

end Ledger.Steps

-- One employee, and one flight that is longer than a duty may be.
def Folder.overlong : Folder :=
  .withFlights .smallest
    "\x7b\"flights\": [\x7b\"flight_number\": \"1\", \"departure_airport\": \"A\",
      \"arrival_airport\": \"A\", \"departure_utc\": \"2024-06-03T08:00\",
      \"arrival_utc\": \"2024-06-03T16:35\", \"required_skills\": [\"P\"]\x7d]\x7d"

namespace Contents

variable {c : Contents} {scenario : Scenario} {r : Roster} {id : String} {day : Date}

def overlong : Contents :=
  { smallest with legs := [⟨"1", "A", "A", onDay 8 0, onDay 16 35, "", "", ["P"]⟩] }

set_option maxRecDepth 10000 in
theorem spelledBy_overlong : overlong.SpelledBy .overlong :=
  spelledBy_smallest.withFlights (t := [("2024-06-03T08:00", "2024-06-03T16:35")])
    rfl (by decide +kernel) (by decide +kernel)

theorem grounds_overlong : ∀ m ∈ overlong.crew, m.grounds = [] := by
  intro m hm
  obtain rfl := List.mem_singleton.1 hm
  rfl

theorem ordinary_overlong : overlong.Ordinary := by
  have hlegs : ∀ {P : Leg → Prop}, P ⟨"1", "A", "A", onDay 8 0, onDay 16 35, "", "", ["P"]⟩ →
      ∀ f ∈ overlong.legs, P f := fun h f hf => List.mem_singleton.1 hf ▸ h
  have hlimits : ∀ l ∈ overlong.limits, l = ⟨.after 0 0 0, .after 23 59 0, []⟩ := fun l hl =>
    List.mem_singleton.1 hl
  constructor
  case naive => exact ⟨hlegs ⟨rfl, rfl⟩, fun m hm g hg => by simp [grounds_overlong m hm] at hg⟩
  case clocks => exact fun l hl => hlimits l hl ▸ ⟨rfl, rfl⟩
  case zone => exact Result.isSome_toOption.1 (by decide +kernel)
  case period => decide +kernel
  case legs => exact hlegs (by decide +kernel)
  case grounds => exact fun m hm g hg => by simp [grounds_overlong m hm] at hg
  case limits => exact fun l hl p hp => by simp [hlimits l hl] at hp
  case transfers => exact fun t ht => nomatch ht
  case seats => decide +kernel

-- What a roster has on the ground is in its files.
theorem exists_activity_of_load {g : Ground} (h : c.load = .ok (scenario, r))
    (hg : r.groundAt id day = some g) : ∃ m ∈ c.crew, ∃ a ∈ m.grounds, (a.duty m.id).ground = some g := by
  obtain ⟨d, hd, hground⟩ := Option.bind_eq_some_iff.1 hg
  obtain ⟨e, he, hday⟩ := Roster.dutyAt_eq_some.1 hd
  obtain ⟨m, hm, -, hdays⟩ := member_of_load h he
  rcases hdays day d hday with ⟨hplanned, -⟩ | ⟨-, rfl⟩
  · obtain ⟨a, ha, rfl⟩ := List.mem_map.1 hplanned
    exact ⟨m, hm, a, ha, hground⟩
  · cases hground

-- What its files have on the ground is in a roster.
theorem dutyAt_of_load (h : c.load = .ok (scenario, r)) (he : r.employees.get? id = some e) :
    ∃ m ∈ c.crew, ∀ a ∈ m.grounds, r.dutyAt id a.start.date = some (a.duty m.id) := by
  obtain ⟨limits, employees, -, hplaced, hbuild, -⟩ := load_eq_ok h
  obtain ⟨e₀, he₀, -, rfl⟩ := Roster.employee_of_build hbuild he
  obtain ⟨m, hm, hplace⟩ := (Result.mem_of_mapM hplaced).1 he₀
  have hcode : ∀ d ∈ m.duties, d.hasCode = true := List.forall_mem_map.2 fun _ _ => rfl
  refine ⟨m, hm, fun a ha => Roster.dutyAt_eq_some.2 ⟨_, he, ?_⟩⟩
  have hday := Employee.dutyOn_of_placeAll hplace hcode _ (List.mem_map_of_mem ha)
  rw [Employee.dutyOn_cover]
  exact Option.or_eq_some_iff.2 (.inl hday)

end Contents

namespace Ledger

-- The one seat, and the one employee who may have it.
theorem loads_overlong : ∃ scenario r a e, loadInstance .overlong false = .ok (scenario, r) ∧ r.Plain ∧
    r.assignments.entries = [("1@2024-06-03#0", a)] ∧ r.employees.entries = [("E", e)] ∧
    a.seat.flight.departure = Contents.onDay 8 0 ∧ a.seat.flight.arrival = Contents.onDay 16 35 ∧
    Contents.smallest.first ∈ r.horizon ∧
    r.reference.limits.limitFor (.after 9 30 0) 1 = .ok (9 * Span.hour) := by
  obtain ⟨scenario, r, hload, hp, hkeys, hcrew, hdeparture, harrival, hday, hlimits⟩ :=
    Contents.spelledBy_overlong.exists_of_load
      (P := fun r => r.Plain ∧ r.assignments.keys = ["1@2024-06-03#0"] ∧ r.employees.keys = ["E"] ∧
        (∀ a ∈ r.assignments.values, a.seat.flight.departure = Contents.onDay 8 0) ∧
        (∀ a ∈ r.assignments.values, a.seat.flight.arrival = Contents.onDay 16 35) ∧
        Contents.smallest.first ∈ r.horizon ∧
        r.reference.limits.limitFor (.after 9 30 0) 1 = .ok (9 * Span.hour))
      (by decide +kernel)
  obtain ⟨⟨_, a⟩, ha, rfl⟩ := List.map_eq_singleton_iff.1 hkeys
  obtain ⟨⟨_, e⟩, he, rfl⟩ := List.map_eq_singleton_iff.1 hcrew
  have hmem : a ∈ r.assignments.values := by simp [Registry.values, ha]
  exact ⟨scenario, r, a, e, hload, hp, ha, he, hdeparture a hmem, harrival a hmem, hday, hlimits⟩

-- The employee has the seat, and nothing else to do.
theorem assigns_overlong : ∃ scenario r l s, loadInstance .overlong false = .ok (scenario, r) ∧ r.Plain ∧
    Reassigned (.ofRoster r) l ∧ Remains r l ∧ s.flight.departure = Contents.onDay 8 0 ∧
    s.flight.arrival = Contents.onDay 16 35 ∧ Contents.smallest.first ∈ l.roster.horizon ∧
    l.roster.reference.limits.limitFor (.after 9 30 0) 1 = .ok (9 * Span.hour) ∧
    (∀ day t, l.roster.Lists "E" day t ↔ t = s ∧ day = Contents.smallest.first) := by
  obtain ⟨scenario, r, a, e, hload, hp, hs, he, hdeparture, harrival, hday, hlimits⟩ := loads_overlong
  have ha : r.assignments.get? "1@2024-06-03#0" = some a := Registry.get?_eq_some.2 (by simp [hs])
  have he : r.employees.get? "E" = some e := Registry.get?_eq_some.2 (by simp [he])
  have hc := (fresh_of_loadInstance hload).consistent hp
  obtain ⟨l, hl, hn, -, hassignments⟩ := hc.assign_ok hp ha (some "E") rfl fun id hid =>
    ⟨e, Option.some.inj hid ▸ he⟩
  have hre : Reassigned (.ofRoster r) (Ledger.assign (.ofRoster r) a (some "E")).1 :=
    Reassigned.refl.assign (Result.elim_eq_ok.2 ha) (some "E")
  rw [hl] at hre
  have hremains : Remains r l := hre.kept (Remains.kept r) ⟨hc, hp, rfl, fun _ _ => rfl⟩
  have howns : ∀ t, l.roster.Owns "E" t ↔ t = a.seat := fun t => by
    simp [Roster.Owns, Registry.get?_eq_some, hassignments, Ledger.ofRoster, Roster.setOwner,
      Registry.modify, hs]
  have hdate : a.seat.departureDate = Contents.smallest.first :=
    Contents.departureDate_of_onDay hdeparture (by decide +kernel)
  refine ⟨scenario, r, l, a.seat, hload, hp, hre, hremains, hdeparture, harrival,
    Roster.horizon_of_blank_eq hremains.blank ▸ hday,
    Roster.reference_of_blank_eq hremains.blank ▸ hlimits, fun day t => ?_⟩
  rw [hremains.consistent.listing.lists_iff hn, howns]
  exact and_congr_right fun ht => by rw [ht, hdate]

-- The duty of the employee, with the limit that there is for it.
theorem duty_overlong : ∃ scenario r l e d, loadInstance .overlong false = .ok (scenario, r) ∧ r.Plain ∧
    Reassigned (.ofRoster r) l ∧ l.roster.employees.get? "E" = some e ∧
    Contents.smallest.first ∈ l.roster.horizon ∧ e.dutyOn Contents.smallest.first = some d ∧
    d.isFlightDuty = true ∧ d.lastArrival ≠ none ∧
    d.OverBy l.roster.reference.limits .crew (5 * Span.minute) ∧ ∀ lack, ¬d.ShortBy e lack := by
  obtain ⟨scenario, r, l, s, hload, hp, hre, hremains, hdeparture, harrival, hday, hlimits, hlists⟩ :=
    assigns_overlong
  obtain ⟨d, hd, hs⟩ := (hlists Contents.smallest.first s).2 ⟨rfl, rfl⟩
  obtain ⟨e, he, hdon⟩ := Roster.dutyAt_eq_some.1 hd
  have hcurrent := hremains.consistent.current hd
  have hf : d.isFlightDuty = true := by simpa [Duty.isFlightDuty] using List.ne_nil_of_mem hs
  have hseats : d.seats = [s] := hremains.consistent.seats_eq_singleton hd fun t => by simp [hlists]
  obtain ⟨⟨t, ht, hstart⟩, -, hlastArrival, -⟩ :=
    hcurrent.flown s (by simp [Duty.first?, hseats]) s (by simp [Duty.last?, hseats])
  have hsign : (Contents.onDay 8 0).plus (-Flight.signIn) = .ok (Contents.onDay 7 30) := by decide +kernel
  obtain rfl := Except.ok.inj ((hdeparture ▸ ht).symm.trans hsign)
  refine ⟨scenario, r, l, e, d, hload, hp, hre, he, hday, hdon, hf, by simp [hlastArrival], ?_, ?_⟩
  · refine ⟨_, 9 * Span.hour + 5 * Span.minute, 9 * Span.hour, hstart, ?_, ?_, by decide⟩
    · rw [Duty.flightDutyPeriod, hstart, hlastArrival, harrival]
      decide +kernel
    · have hclock : Duty.localClock .crew (Contents.onDay 7 30) = .ok (.after 9 30 0) := by decide +kernel
      rw [Duty.periodLimit, hclock, Result.ok_bind, Duty.legs, hseats]
      exact hlimits
  · rintro lack ⟨next, start, _, _, _, hnext, hcode, -⟩
    obtain ⟨day, hafter, hnext⟩ := Result.bind_eq_ok.1 hnext
    have hnext : l.roster.dutyAt "E" day = some next :=
      Roster.dutyAt_eq_some.2 ⟨e, he, Result.pure_eq_ok.1 hnext⟩
    have hother : day ≠ Contents.smallest.first := by
      rintro rfl
      rw [hremains.consistent.dated hd] at hafter
      revert hafter
      decide +kernel
    have hground : r.groundAt "E" day = none := Option.eq_none_iff_forall_ne_some.2 fun g hg => by
      obtain ⟨m, hm, a, ha, -⟩ := Contents.exists_activity_of_load
        (Contents.spelledBy_overlong.loadInstance_eq ▸ hload) hg
      rw [Contents.grounds_overlong m hm] at ha
      cases ha
    have hnone := hremains.hasCode_eq_false hnext (fun t ht => hother ((hlists day t).1 ht).2) hground
    rw [hnone] at hcode
    cases hcode

namespace Steps

-- The duty is five minutes over its limit. Its row counts, and the calendar has it for a flight like the
-- others.
theorem not_agrees_overlong : ∃ scenario r l report e d,
    loadInstance .overlong false = .ok (scenario, r) ∧ r.Naive ∧ Steps (.ofRoster r) l ∧
    Report.build .usual l.roster = .ok report ∧ l.roster.employees.get? "E" = some e ∧
    Contents.smallest.first ∈ l.roster.horizon ∧ e.dutyOn Contents.smallest.first = some d ∧
    d.isFlightDuty = true ∧ d.OverBy l.roster.reference.limits .crew (5 * Span.minute) ∧
    report.Counts e d ∧ report.cellAt e.id d.date = some .flight ∧
    ¬report.Agrees l.roster.reference.limits .crew e d := by
  obtain ⟨scenario, r, l, e, d, hload, hp, hre, he, hday, hd, hf, -, hover, hshort⟩ := duty_overlong
  have hw := (hre.steps.listing ⟨listing_of_loadInstance hload hp.naive, hp.naive⟩).1.toWellFormed
  obtain ⟨report, hreport⟩ := ((hre.within Contents.spelledBy_overlong Contents.ordinary_overlong
    hload).1.report_yields .usual).exists_ok
  have hj := Report.judges hreport hw he hday hd hf
  have hflight : report.cellAt e.id d.date = some .flight := hj.flight.2 fun hwide => by
    rcases hwide with ⟨excess, ho, hle⟩ | ⟨lack, hlack, -⟩
    · rw [hover.iff_eq.1 ho] at hle
      exact absurd hle (by decide)
    · exact hshort lack hlack
  have hcounts : report.Counts e d := hj.counts _ hover (by decide)
  refine ⟨scenario, r, l, report, e, d, hload, hp.naive, hre.steps, hreport, he, hday, hd, hf, hover,
    hcounts, hflight, fun h => ?_⟩
  cases hflight.symm.trans (h.counts hcounts)

theorem judges_of_load_overlong : ∃ scenario r l report e d,
    loadInstance .overlong false = .ok (scenario, r) ∧ r.Naive ∧ Steps (.ofRoster r) l ∧
    Report.build .usual l.roster = .ok report ∧ l.roster.employees.get? "E" = some e ∧
    Contents.smallest.first ∈ l.roster.horizon ∧ e.dutyOn Contents.smallest.first = some d ∧
    d.isFlightDuty = true ∧ d.lastArrival ≠ none ∧
    report.Judges l.roster.reference.limits .crew e d ∧
    (report.Agrees l.roster.reference.limits .crew e d ↔
      (d.Breaks l.roster.reference.limits .crew e → d.BreaksWidely l.roster.reference.limits .crew e)) := by
  obtain ⟨scenario, r, l, e, d, hload, hp, hre, he, hday, hd, hf, harrival, -⟩ := duty_overlong
  obtain ⟨hexists, hall⟩ := judges_of_load hload hp.naive hre.steps .usual
  obtain ⟨report, hreport⟩ := hexists _ Contents.spelledBy_overlong Contents.ordinary_overlong hre
  obtain ⟨hj, hiff⟩ := hall report hreport "E" e he _ hday d hd hf
  exact ⟨scenario, r, l, report, e, d, hload, hp.naive, hre.steps, hreport, he, hday, hd, hf, harrival, hj,
    hiff harrival⟩

end Steps

end Ledger

end CrewRoster
