import CrewRoster.Proofs.Acceptance
import CrewRoster.Proofs.Reload
import CrewRoster.Proofs.Reports
import CrewRoster.Proofs.TimeOrder

namespace CrewRoster

theorem Span.check_eq_ok {s t : Span} (h : check t = .ok s) :
    s = t ∧ -999999999 * day ≤ s ∧ s < 1000000000 * day := by
  rw [check] at h
  split at h
  case isTrue hin => exact Except.ok.inj h ▸ ⟨rfl, hin⟩
  case isFalse => cases h

theorem Span.of_read {d : Document} {s : Span} (h : Span.read d = .ok s) :
    -999999999 * day ≤ s ∧ s < 1000000000 * day := by
  unfold read at h
  split at h
  case h_4 =>
    split at h
    case h_1 =>
      obtain ⟨_, -, h⟩ := Result.bind_eq_ok.1 h
      obtain ⟨_, -, h⟩ := Result.bind_eq_ok.1 h
      exact (check_eq_ok h).2
    case h_2 => cases h
  all_goals
    obtain ⟨_, -, h⟩ := Result.bind_eq_ok.1 h
    exact (check_eq_ok h).2

theorem DutyLimit.mem_fill {limits limits' : List (Option Span)} {entries : List (ℤ × Span)} {s : Span}
    (h : DutyLimit.fill limits entries = .ok limits') (hs : some s ∈ limits') :
    some s ∈ limits ∨ ∃ p ∈ entries, p.2 = s := by
  induction entries generalizing limits with
  | nil => exact .inl (Except.ok.inj h ▸ hs)
  | cons p entries ih =>
    obtain ⟨legs, limit⟩ := p
    rw [fill] at h
    split at h
    case isTrue => cases h
    case isFalse =>
      rcases ih h with hmem | ⟨q, hq, he⟩
      · rcases List.mem_or_eq_of_mem_set hmem with hmem | he
        · exact .inl hmem
        · exact .inr ⟨_, List.mem_cons_self, (Option.some.inj he).symm⟩
      · exact .inr ⟨q, List.mem_cons_of_mem _ hq, he⟩

namespace Ledger

variable {l : Ledger} {r : Roster} {a : Assignment} {k id : String} {day : Date} {d : Duty} {s : Seat}

namespace Remains

variable {P : Date → Prop} (h : Remains r l)
  (hdays : ∀ {id day d}, l.roster.dutyAt id day = some d → P day)

include hdays in
theorem day_release (hd : (l.release a).1.roster.dutyAt id day = some d) : P day := by
  have hrel := released l a
  generalize l.release a = o at hrel hd
  cases hrel
  case refused => exact hdays hd
  case unordered => exact hdays hd
  case unowned => exact hdays hd
  case owned i old _ _ hold hc _ =>
    obtain ⟨emp, he, -⟩ := Roster.dutyAt_eq_some.1 hold
    have hd : (l.roster.putDuty i _ (old.retract a.seat).duty).dutyAt id day = some d := hd
    rw [Roster.dutyAt_putDuty he] at hd
    split at hd
    case isTrue heq => exact heq.2 ▸ hdays hold
    case isFalse => exact hdays hd

variable (hr : ∀ {k a}, r.assignments.get? k = some a → P a.seat.departureDate)

include h hdays hr in
theorem day_settle (ha : l.roster.assignments.get? k = some a)
    (hd : (l.settle a).1.roster.dutyAt id day = some d) : P day := by
  have hset := settled l a
  generalize l.settle a = o at hset hd
  cases hset
  case refused => exact hdays hd
  case unowned => exact hdays hd
  case owned i emp _ _ he =>
    have hd : (l.roster.putDuty i _ ((emp.ensure a.seat.departureDate).2.enter a.seat).duty).dutyAt id day =
        some d := hd
    rw [Roster.dutyAt_putDuty he] at hd
    split at hd
    case isTrue heq =>
      obtain ⟨b, hb, hseat⟩ := Roster.exists_of_blank_eq h.blank ha
      rw [heq.2, ← hseat]
      exact hr hb
    case isFalse => exact hdays hd

-- Duties are on days of before and on days on which seats depart.
include hr in
theorem kept_days :
    Kept fun l => Remains r l ∧ ∀ {id day d}, l.roster.dutyAt id day = some d → P day where
  seatId h ha := h.1.consistent.seatId ha
  release h ha := ⟨(Remains.kept r).release h.1 ha, day_release h.2⟩
  settle h ha := ⟨(Remains.kept r).settle h.1 ha, h.1.day_settle h.2 hr ha⟩
  setOwner owner h hn := ⟨(Remains.kept r).setOwner owner h.1 hn, h.2⟩

end Remains

-- What changes of owners leave of a roster, where no duty is on a day at an end of the calendar.
structure Inside (r : Roster) (l : Ledger) : Prop extends Remains r l where
  days : ∀ {id day d}, l.roster.dutyAt id day = some d → day.Inside

namespace Inside

theorem kept (hr : ∀ {k a}, r.assignments.get? k = some a → a.seat.departureDate.Inside) :
    Kept (Inside r) where
  seatId h ha := h.consistent.seatId ha
  release h ha := ⟨(Remains.kept r).release h.toRemains ha, Remains.day_release h.days⟩
  settle h ha := ⟨(Remains.kept r).settle h.toRemains ha, h.toRemains.day_settle h.days hr ha⟩
  setOwner owner h hn := ⟨(Remains.kept r).setOwner owner h.toRemains hn, h.days⟩

end Inside

end Ledger

namespace Contents

variable {c : Contents} {folder : Folder} {scenario : Scenario} {r : Roster} {limits : DutyLimits}
  {a : Assignment} {e : Employee} {k id : String} {day : Date} {d : Duty}

-- What an instance keeps within so that everything can be answered about it later:
-- 1. no time has a zone
-- 2. the crew lives less than a day away from UTC
-- 3. the period and what is planned on the ground leave a day at either end of the calendar, and flights
--    leave two
-- 4. no limit is so far below zero that a duty is beyond it by more than a length of time can be
-- 5. transfers, and the number of seats, are not so large that their sums are far from all doubles
structure Ordinary (c : Contents) : Prop where
  naive : c.Naive
  clocks : ∀ l ∈ c.limits, l.start.zone = none ∧ l.finish.zone = none
  zone : ∃ zone, c.scenario.zone = .ok zone
  period : 1 < c.first.number ∧ c.last.number < 3652059
  legs : ∀ f ∈ c.legs,
    2 * Span.day ≤ f.departure.wall ∧ f.arrival.wall < Span.calendar - 2 * Span.day
  grounds : ∀ m ∈ c.crew, ∀ g ∈ m.grounds, g.start.date.Inside
  limits : ∀ l ∈ c.limits, ∀ p ∈ l.byLegs, Span.calendar - p.2 < 1000000000 * Span.day
  transfers : ∀ t ∈ c.transfers, t.minutes ≤ Reference.taxiLimit
  seats : c.seats.length ≤ 2 ^ 64

theorem load_eq_ok (h : c.load = .ok (scenario, r)) : ∃ limits employees,
    c.limits.mapM (·.rule) = .ok limits ∧
    (c.crew.mapM fun m => m.employee.placeAll m.duties) = .ok employees ∧
    Roster.build c.first c.last (c.reference limits) c.flights c.seats employees = .ok r ∧
    c.scenario = scenario := by
  rw [load] at h
  split at h
  case isTrue => cases h
  case isFalse =>
    simp only [Result.bind_eq_ok, Result.pure_eq_ok] at h
    obtain ⟨limits, hlimits, _, -, _, -, _, -, _, -, employees, hemployees, r', hbuild, heq⟩ := h
    cases heq
    exact ⟨limits, employees, hlimits, hemployees, hbuild, rfl⟩

section Load

variable (h : c.load = .ok (scenario, r))
include h

theorem leg_of_load (ha : r.assignments.get? k = some a) : ∃ f ∈ c.legs, a.seat.flight = f.flight := by
  obtain ⟨limits, employees, -, -, hbuild, -⟩ := load_eq_ok h
  rw [(Roster.build_eq_ok hbuild).2.1] at ha
  obtain ⟨s, hs, he⟩ := List.mem_map.1 (Registry.mem_of_get?_ofList ha)
  cases he
  obtain ⟨f, hf, hs⟩ := List.mem_flatMap.1 hs
  obtain ⟨i, skill, -, rfl⟩ := Seat.mem_ofSkills hs
  exact ⟨f, hf, rfl⟩

theorem length_seats_of_load : r.seats.length ≤ c.seats.length := by
  obtain ⟨limits, employees, -, -, hbuild, -⟩ := load_eq_ok h
  rw [Roster.seats, Registry.values, (Roster.build_eq_ok hbuild).2.1, List.length_map, List.length_map]
  exact (Registry.length_ofList_le _).trans_eq (List.length_map _)

theorem member_of_load (he : r.employees.get? k = some e) : ∃ m ∈ c.crew,
    { e with calendar := .empty } = m.employee ∧
      ∀ day d, e.dutyOn day = some d →
        d ∈ m.duties ∧ d.date = day ∨
          day ∈ Date.range c.first c.last ∧ d = .placeholder m.id day := by
  obtain ⟨limits, employees, -, hplaced, hbuild, -⟩ := load_eq_ok h
  obtain ⟨e₀, he₀, -, rfl⟩ := Roster.employee_of_build hbuild he
  obtain ⟨m, hm, hplace⟩ := (Result.mem_of_mapM hplaced).1 he₀
  obtain ⟨hsame, hdays⟩ := Employee.placeAll_eq_ok hplace
  refine ⟨m, hm, hsame, fun day d hd => ?_⟩
  rw [Employee.dutyOn_cover] at hd
  cases h₀ : e₀.dutyOn day with
  | some d₀ =>
    rw [h₀, Option.some_or] at hd
    rcases hdays day d₀ h₀ with hplanned | hempty
    · exact .inl (Option.some.inj hd ▸ hplanned)
    · cases hempty
  | none =>
    rw [h₀, Option.none_or] at hd
    split at hd
    case isTrue hin =>
      have hid : e₀.id = m.id := congrArg Employee.id hsame
      exact .inr ⟨hin, hid ▸ (Option.some.inj hd).symm⟩
    case isFalse => cases hd

end Load

section Usable

theorem limitFor_of_rule {l : Limit} {rule : DutyLimit} (h : l.rule = .ok rule) (legs : ℤ) :
    rule.limitFor legs = DutyLimit.fallback ∨ ∃ p ∈ l.byLegs, p.2 = rule.limitFor legs := by
  simp only [Limit.rule, DutyLimit.ofLegs, Result.bind_eq_ok, Result.pure_eq_ok] at h
  obtain ⟨slots, hfill, rfl⟩ := h
  simp only [DutyLimit.limitFor]
  cases hslot : (slots[DutyLimit.slot legs]?).join with
  | none => exact .inl rfl
  | some s =>
    rw [Option.join_eq_some_iff] at hslot
    rcases DutyLimit.mem_fill hfill (List.mem_of_getElem? hslot) with hs | ⟨p, hp, rfl⟩
    · cases List.eq_of_mem_replicate hs
    · exact .inr ⟨p, Registry.mem_of_get?_ofList (Registry.get?_eq_some.2 hp), rfl⟩

theorem SpelledBy.checked (h : c.SpelledBy folder) {l : Limit} (hl : l ∈ c.limits) {p : ℤ × Span}
    (hp : p ∈ l.byLegs) : -999999999 * Span.day ≤ p.2 ∧ p.2 < 1000000000 * Span.day := by
  obtain ⟨d, -, ds, -, hds⟩ := h.limits
  obtain ⟨x, -, hx⟩ := Lists.exists_of_forall₂ hds hl
  obtain ⟨entries, -, hentries⟩ := hx.byLegs
  obtain ⟨e, -, he⟩ := Lists.exists_of_forall₂ hentries hp
  exact Span.of_read he.2

-- A transfer that is listed is one that stands, and neither below zero nor too long.
theorem abs_taxi_le (ho : c.Ordinary) (hminutes : ∀ t, Standing c.transfers t → 0 ≤ t.minutes)
    {origin destination : Label} {n : ℤ} (hn : (c.reference limits).taxi origin destination = some n) :
    |n| ≤ Reference.taxiLimit := by
  have hstanding : ∀ t ∈ c.table, |t.minutes| ≤ Reference.taxiLimit := by
    obtain ⟨us, hus, -, hmem⟩ := exists_table c.transfers
    intro t ht
    obtain ⟨u, hu, rfl⟩ := List.mem_map.1 (hus ▸ ht : t ∈ us.map (·.entry))
    have hu := (hmem u).1 hu
    exact (abs_of_nonneg (hminutes u hu)).trans_le (ho.transfers u hu.mem)
  rw [Reference.taxi] at hn
  split at hn
  case isTrue => exact Option.some.inj hn ▸ Reference.taxiLimit_nonneg
  case isFalse =>
    obtain ⟨a, ha, hn⟩ := Option.bind_eq_some_iff.1 hn
    obtain ⟨listing, hlisting, rfl⟩ := Option.map_eq_some_iff.1 ha
    obtain ⟨b, -, hb⟩ := List.mem_map.1 (Reference.airport_of_get? hlisting)
    rw [Airport.taxiTo] at hn
    split at hn
    case isTrue => exact Option.some.inj hn ▸ Reference.taxiLimit_nonneg
    case isFalse =>
      obtain ⟨p, hp, rfl⟩ := Option.map_eq_some_iff.1 hn
      have hp := List.mem_of_find?_eq_some hp
      rw [← hb] at hp
      obtain ⟨t, ht, rfl⟩ := List.mem_map.1 hp
      exact hstanding t (List.mem_filter.1 ht).1

theorem usable_reference (h : c.SpelledBy folder) (ho : c.Ordinary) (hload : c.load = .ok (scenario, r)) :
    r.reference.Usable := by
  obtain ⟨limits, employees, hlimits, -, hbuild, -⟩ := load_eq_ok hload
  have hrule : ∀ rule ∈ limits, ∃ l ∈ c.limits, l.rule = .ok rule := fun rule hr =>
    (Result.mem_of_mapM hlimits).1 hr
  rw [(Roster.build_eq_ok hbuild).2.2.2]
  constructor
  case clocks =>
    intro rule hr
    obtain ⟨l, hl, hrule⟩ := hrule rule hr
    simp only [Limit.rule, DutyLimit.ofLegs, Result.bind_eq_ok, Result.pure_eq_ok] at hrule
    obtain ⟨slots, -, rfl⟩ := hrule
    exact ho.clocks l hl
  case limits =>
    intro rule hr legs
    obtain ⟨l, hl, hrule⟩ := hrule rule hr
    rcases limitFor_of_rule hrule legs with hfallback | ⟨p, hp, hlimit⟩
    · rw [hfallback]
      exact ⟨by decide, by decide⟩
    · rw [← hlimit]
      refine ⟨abs_le.2 ?_, ho.limits l hl p hp⟩
      have := h.checked hl hp
      simp only [Span.day, Span.hour, Span.minute, Span.second, Span] at *
      omega
  case taxi =>
    have hacceptable := (judges_load ho.naive ho.period.2).accepts_iff.1 ⟨_, hload⟩
    intro origin destination n hn
    exact abs_taxi_le ho hacceptable.minutes hn

end Usable

section Inside

variable (ho : c.Ordinary) (h : c.load = .ok (scenario, r))
include ho h

theorem inside_of_load (ha : r.assignments.get? k = some a) : a.seat.flight.Inside := by
  have hacceptable := (judges_load ho.naive ho.period.2).accepts_iff.1 ⟨_, h⟩
  obtain ⟨f, hf, hflight⟩ := leg_of_load h ha
  obtain ⟨hdeparture, harrival⟩ := ho.naive.legs f hf
  obtain ⟨hlater, hearlier⟩ := ho.legs f hf
  rw [hflight]
  exact ⟨hdeparture, harrival, hlater, (hacceptable.legs f hf).2, hearlier, rfl, rfl⟩

theorem departureDate_inside_of_load (ha : r.assignments.get? k = some a) :
    a.seat.departureDate.Inside := by
  have hin := inside_of_load ho h ha
  have hday := Instant.day_pos
  have hlater := hin.later
  have hairborne := hin.airborne
  have hearlier := hin.earlier
  refine ⟨Instant.one_lt_date ?_, Instant.date_lt_last ?_⟩
  all_goals
    dsimp only [Span] at *
    omega

theorem plain_of_load : r.Plain := fun _ _ ha => (inside_of_load ho h ha).plain

theorem duty_of_load (hd : r.dutyAt id day = some d) :
    day.Inside ∧ ∀ g ∈ d.ground, g.start.zone = none ∧ g.finish.zone = none := by
  obtain ⟨e, he, hd⟩ := Roster.dutyAt_eq_some.1 hd
  obtain ⟨m, hm, -, hdays⟩ := member_of_load h he
  rcases hdays day d hd with ⟨hduty, hday⟩ | ⟨hrange, rfl⟩
  · obtain ⟨g, hg, rfl⟩ := List.mem_map.1 hduty
    refine ⟨hday ▸ ho.grounds m hm g hg, fun g' hg' => ?_⟩
    obtain rfl := Option.some.inj hg'
    exact ho.naive.grounds m hm g hg
  · obtain ⟨hfirst, hlast⟩ := Date.mem_range hrange
    rw [Date.le_def] at hfirst hlast
    have hperiod := ho.period
    exact ⟨⟨by omega, by omega⟩, fun g hg => nomatch hg⟩

theorem inside_ofRoster (hfresh : r.Fresh) : Ledger.Inside r (.ofRoster r) where
  consistent := hfresh.consistent (plain_of_load ho h)
  plain := plain_of_load ho h
  blank := rfl
  ground _ _ := rfl
  days hd := (duty_of_load ho h hd).1

section Ledger

variable {l : Ledger} (hl : Ledger.Inside r l)
include hl

theorem seat_inside (ha : l.roster.assignments.get? k = some a) : a.seat.flight.Inside := by
  obtain ⟨b, hb, hseat⟩ := Roster.exists_of_blank_eq hl.blank ha
  exact hseat ▸ inside_of_load ho h hb

theorem duty_within (hd : l.roster.dutyAt id day = some d) : d.Within where
  date := hl.consistent.dated hd ▸ hl.days hd
  seats s hs := by
    obtain ⟨a, ha, rfl⟩ := hl.consistent.known ⟨d, hd, hs⟩
    exact seat_inside ho h hl ha
  ground g hg := by
    have hground : r.groundAt id day = some g := by
      rw [← hl.ground, Roster.groundAt, hd, Option.bind_some, hg]
    obtain ⟨d₀, hd₀, hg₀⟩ := Option.bind_eq_some_iff.1 hground
    exact (duty_of_load ho h hd₀).2 g hg₀
  current := hl.consistent.current hd

omit ho in
theorem member_of_inside (he : l.roster.employees.get? id = some e) :
    ∃ m ∈ c.crew, e.name = .text m.name ∧ e.home = .text m.home := by
  obtain ⟨e₀, he₀, hsame⟩ := Roster.exists_employee_of_blank_eq hl.blank he
  obtain ⟨m, hm, hmember, -⟩ := member_of_load h he₀
  have hsame := hsame.symm.trans hmember
  exact ⟨m, hm, congrArg Employee.name hsame, congrArg Employee.home hsame⟩

theorem employee_within (he : l.roster.employees.get? id = some e) : e.Within where
  home := by
    obtain ⟨m, -, -, hhome⟩ := member_of_inside h hl he
    rw [hhome]
    rfl
  duties d hd := duty_within ho h hl (hl.consistent.dutyAt_of_mem he hd)

theorem length_seats_le (he : l.roster.employees.get? id = some e) : e.seats.length ≤ 2 ^ 64 := by
  have hlisting := hl.consistent.listing
  have hordered : Seat.Ordered e.seats := hlisting.seats_ordered hl.plain.naive he
  have hsub : e.seats ⊆ l.roster.seats := fun s hs => by
    obtain ⟨day, d, hd, hs⟩ := Calendar.mem_seats.1 hs
    obtain ⟨a, ha, rfl⟩ := hlisting.known ⟨d, Roster.dutyAt_eq_some.2 ⟨e, he, hd⟩, hs⟩
    exact Roster.mem_seats.2 ⟨_, a, ha, rfl⟩
  calc e.seats.length ≤ l.roster.seats.length := (hordered.nodup.subperm hsub).length_le
    _ = r.seats.length := by rw [Roster.seats_of_blank_eq hl.blank]
    _ ≤ c.seats.length := length_seats_of_load h
    _ ≤ 2 ^ 64 := ho.seats

theorem roster_within (hs : c.SpelledBy folder) : l.roster.Within := by
  have hmem : ∀ e ∈ l.roster.employees.values, ∃ id, l.roster.employees.get? id = some e := fun e he =>
    Registry.mem_values.1 he
  constructor
  case reference =>
    rw [Roster.reference_of_blank_eq hl.blank]
    exact usable_reference hs ho h
  case employees =>
    intro e he
    obtain ⟨id, he⟩ := hmem e he
    exact employee_within ho h hl he
  case texts =>
    intro e he
    obtain ⟨id, he⟩ := hmem e he
    obtain ⟨m, -, hname, hhome⟩ := member_of_inside h hl he
    rw [hname, hhome]
    exact ⟨trivial, trivial⟩
  case seats =>
    intro e he
    obtain ⟨id, he⟩ := hmem e he
    exact length_seats_le ho h hl he

end Ledger

end Inside

end Contents

-- What is asked about a duty, with those of the days beside it.
structure Duty.Answers (d : Duty) (e : Employee) (r : Reference) (zone : Zone) (groundCode : Label) :
    Prop where
  flightDutyPeriod : ∃ period, d.flightDutyPeriod = .ok period
  blockMinutes : ∃ n, d.blockMinutes = .ok n
  pointsOverLimit : ∃ n, d.pointsOverLimit r.limits zone = .ok n
  minimumRest : ∃ rest, d.minimumRest e = .ok rest
  restLack : ∃ next n, e.dayAfter d.date = .ok next ∧ d.restLack next e = .ok n
  noLocalNight : ∃ previous b, e.dayBefore d.date = .ok previous ∧ d.noLocalNight previous = .ok b
  startPoints : ∃ n, d.startPoints e r = .ok n
  endPoints : ∃ n, d.endPoints e r = .ok n
  homePoints : ∃ n, d.homePoints e r = .ok n
  isDayBeforeOffOrGround : ∃ b, d.isDayBeforeOffOrGround e groundCode = .ok b
  isDayAfterOffOrGround : ∃ b, d.isDayAfterOffOrGround e groundCode = .ok b
  groundOverlapMinutes : ∃ n, d.groundOverlapMinutes = .ok n

-- What is asked about an employee and the seats that the employee has.
structure Employee.Answers (e : Employee) (r : Reference) (zone : Zone) (maxTaxi : ℤ) : Prop where
  connections : ∃ connections, e.connections r maxTaxi = .ok connections
  flightMinutes : ∃ n, e.flightMinutes = .ok n
  totalEncroachment : ∃ n, e.totalEncroachment zone = .ok n
  gaps : ∃ gaps, e.gaps r = .ok gaps
  encroachment : ∀ s ∈ e.seats, ∃ n, e.encroachment zone s.flight = .ok n
  previousSeat : ∀ s ∈ e.seats, ∃ t, e.calendar.previousSeat s = .ok t
  nextSeat : ∀ s ∈ e.seats, ∃ t, e.calendar.nextSeat s = .ok t
  gapsAround : ∀ s ∈ e.seats, ∃ gaps, e.gapsAround r s = .ok gaps

-- Whatever is asked about the roster of a ledger is answered:
-- 1. its seats can be put in order, and those that clash be found
-- 2. every seat can be given to every employee, or to nobody
-- 3. every duty in the calendars has its figures, and so has every employee
-- 4. the report can be made, in the scenario or under any other settings
structure Ledger.Answers (l : Ledger) (scenario : Scenario) : Prop where
  sorted : ∃ as, l.roster.sorted = .ok as
  unassigned : ∃ as, l.roster.unassigned = .ok as
  conflictPairs : ∃ pairs, Roster.conflictPairs l.roster.assignments.values = .ok pairs
  assign : ∀ {seat a}, l.roster.assignment seat = .ok a → ∀ owner,
    (∀ id ∈ owner, ∃ e, l.roster.employee id = .ok e) → ∃ l', l.assign a owner = (l', .ok ())
  duties : ∀ e ∈ l.roster.employees.values, ∀ d ∈ e.calendar.duties, ∀ zone groundCode,
    d.Answers e l.roster.reference zone groundCode
  employees : ∀ e ∈ l.roster.employees.values, ∀ zone maxTaxi,
    e.Answers l.roster.reference zone maxTaxi
  settings : ∃ settings, ReportSettings.ofScenario scenario = .ok settings
  report : ∀ settings, ∃ report, Report.build settings l.roster = .ok report

namespace Roster.Within

variable {r : Roster} {e : Employee} {d : Duty}

theorem duty_answers (h : r.Within) (he : e ∈ r.employees.values) (hd : d ∈ e.calendar.duties)
    (zone : Zone) (groundCode : Label) : d.Answers e r.reference zone groundCode := by
  have hemployee := h.employees e he
  have hduty := hemployee.duties d hd
  obtain ⟨next, hnext, hn⟩ := hemployee.dayAfter_yields hd
  obtain ⟨previous, hprevious, hp⟩ := hemployee.dayBefore_yields hd
  obtain ⟨lack, hlack, -⟩ := hduty.restLack_yields hn e
  obtain ⟨isShort, hshort, -⟩ := hduty.noLocalNight_yields hp
  exact {
    flightDutyPeriod := hduty.flightDutyPeriod_yields.exists_ok
    blockMinutes := hduty.blockMinutes_yields.exists_ok
    pointsOverLimit := (hduty.pointsOverLimit_yields h.reference.dutyLimits zone).exists_ok
    minimumRest := (hduty.minimumRest_yields e).exists_ok
    restLack := ⟨next, lack, hnext, hlack⟩
    noLocalNight := ⟨previous, isShort, hprevious, hshort⟩
    startPoints := (hduty.startPoints_yields hemployee.home h.reference).exists_ok
    endPoints := (hduty.endPoints_yields hemployee.home h.reference).exists_ok
    homePoints := (hduty.homePoints_yields hemployee.home h.reference).exists_ok
    isDayBeforeOffOrGround := hduty.isDayBeforeOffOrGround_yields.exists_ok
    isDayAfterOffOrGround := hduty.isDayAfterOffOrGround_yields.exists_ok
    groundOverlapMinutes := hduty.groundOverlapMinutes_yields.exists_ok }

theorem employee_answers (h : r.Within) (he : e ∈ r.employees.values) (zone : Zone) (maxTaxi : ℤ) :
    e.Answers r.reference zone maxTaxi := by
  have hemployee := h.employees e he
  exact {
    connections := (hemployee.connections_yields h.reference maxTaxi).exists_ok
    flightMinutes := hemployee.flightMinutes_yields.exists_ok
    totalEncroachment := (hemployee.totalEncroachment_yields zone).exists_ok
    gaps := (hemployee.gaps_yields r.reference).exists_ok
    encroachment := fun s hs => (Employee.encroachment_yields (hemployee.seat hs) zone).exists_ok
    previousSeat := fun s hs => (hemployee.previousSeat_yields (hemployee.seat hs)).exists_ok
    nextSeat := fun s hs => (hemployee.nextSeat_yields (hemployee.seat hs)).exists_ok
    gapsAround := fun s hs => (hemployee.gapsAround_yields (hemployee.seat hs) r.reference).exists_ok }

end Roster.Within

namespace Ledger

variable {l : Ledger} {r : Roster} {c : Contents} {folder : Folder} {scenario : Scenario}

-- Whatever is done about the owners of an ordinary instance that was loaded, its figures stay within bounds.
theorem Reassigned.within {solved : Bool} (h : Reassigned (.ofRoster r) l) (hs : c.SpelledBy folder)
    (ho : c.Ordinary) (hload : loadInstance folder solved = .ok (scenario, r)) :
    l.roster.Within ∧ ∃ r₀, c.load = .ok (scenario, r₀) ∧ r₀.Fresh ∧ Inside r₀ l := by
  obtain ⟨r₀, plan, l₀, n, hfalse, happly, rfl⟩ := exists_apply_of_loadInstance hload
  have hc : c.load = .ok (scenario, r₀) := hs.loadInstance_eq ▸ hfalse
  have hfresh := fresh_of_loadInstance hfalse
  have hkept : Kept (Inside r₀) := Inside.kept fun ha => Contents.departureDate_inside_of_load ho hc ha
  have h₀ : Inside r₀ ((Ledger.ofRoster r₀).apply plan).1 :=
    hkept.apply (Contents.inside_ofRoster ho hc hfresh)
  rw [happly] at h₀
  have hl : Inside r₀ l := h.kept hkept
    ⟨⟨h₀.consistent.of_eq rfl (pending_of_apply rfl happly).symm, h₀.plain, h₀.blank, h₀.ground⟩, h₀.days⟩
  exact ⟨Contents.roster_within ho hc hl hs, r₀, hc, hfresh, hl⟩

-- If what an instance says is ordinary and it is loaded, with or without its solution, then whatever is
-- done about the owners of its seats, everything can be answered once nothing is pending.
theorem Reassigned.answers {solved : Bool} (h : Reassigned (.ofRoster r) l) (hs : c.SpelledBy folder)
    (ho : c.Ordinary) (hload : loadInstance folder solved = .ok (scenario, r)) (hn : l.pending = none) :
    l.Answers scenario := by
  obtain ⟨hwithin, r₀, hc, hfresh, hl⟩ := h.within hs ho hload
  have ht : Seat.Timetable false l.roster.seats := by
    rw [Roster.seats_of_blank_eq hl.blank]
    exact hfresh.timetable (Contents.plain_of_load ho hc).naive
  constructor
  case sorted =>
    obtain ⟨as, has, -⟩ := hl.consistent.exists_sorted hl.plain.naive
    exact ⟨as, has⟩
  case unassigned =>
    obtain ⟨as, has, -⟩ := Roster.unassigned_eq hl.consistent.toWellFormed ht
    exact ⟨as, has⟩
  case conflictPairs =>
    obtain ⟨sorted, -, -, hpairs⟩ := Roster.conflictPairs_eq ht hl.consistent.pairwise_key
    exact ⟨_, hpairs⟩
  case assign =>
    intro seat a ha owner howner
    obtain ⟨l', hl', -⟩ := hl.consistent.assign_ok hl.plain (Result.elim_eq_ok.1 ha) owner hn
      fun id hid => by
        obtain ⟨e, he⟩ := howner id hid
        exact ⟨e, Result.elim_eq_ok.1 he⟩
    exact ⟨l', hl'⟩
  case duties => exact fun e he d hd => hwithin.duty_answers he hd
  case employees => exact fun e he => hwithin.employee_answers he
  case settings =>
    obtain ⟨-, -, -, -, -, rfl⟩ := Contents.load_eq_ok hc
    obtain ⟨zone, hzone⟩ := ho.zone
    exact ⟨⟨zone, c.maxTaxi, .text c.groundCode⟩, by rw [ReportSettings.ofScenario, hzone]; rfl⟩
  case report => exact fun settings => (hwithin.report_yields settings).exists_ok

theorem ordinary_varied : Contents.varied.Ordinary := by
  constructor
  case naive => exact Contents.naive_varied
  case zone => exact Result.isSome_toOption.1 (by decide +kernel)
  case period => decide +kernel
  case transfers =>
    rintro t (_ | ⟨_, _ | ⟨_, ⟨⟩⟩⟩)
    · exact le_trans (by decide) Reference.two_pow_100_le_taxiLimit
    · exact le_trans (by decide) Reference.two_pow_100_le_taxiLimit
  case seats => decide +kernel
  case clocks =>
    intro l hl
    obtain rfl := List.mem_singleton.1 hl
    exact ⟨rfl, rfl⟩
  case legs =>
    intro f hf
    obtain rfl := List.mem_singleton.1 hf
    decide +kernel
  case grounds =>
    intro m hm g hg
    obtain rfl := List.mem_singleton.1 hm
    obtain rfl := List.mem_singleton.1 hg
    exact ⟨by decide +kernel, by decide +kernel⟩
  case limits =>
    intro l hl
    obtain rfl := List.mem_singleton.1 hl
    decide +kernel

theorem loads_varied : ∃ scenario r a e, loadInstance .varied false = .ok (scenario, r) ∧
    r.assignment "1@2024-06-03#0" = .ok a ∧ r.employee "E" = .ok e := by
  obtain ⟨scenario, r, hload, hseat, hcrew⟩ := Contents.spelledBy_varied.exists_of_load
    (P := fun r => r.assignments.contains "1@2024-06-03#0" = true ∧ r.employees.contains "E" = true)
    (by decide +kernel)
  obtain ⟨a, ha⟩ := Registry.contains_iff.1 hseat
  obtain ⟨e, he⟩ := Registry.contains_iff.1 hcrew
  exact ⟨scenario, r, a, e, hload, Result.elim_eq_ok.2 ha, Result.elim_eq_ok.2 he⟩

-- Everything is answered about the instance, and again once its one seat is given away.
theorem Reassigned.answers_varied : ∃ scenario r a l, Contents.varied.SpelledBy .varied ∧
    Contents.varied.Ordinary ∧ loadInstance .varied false = .ok (scenario, r) ∧
    (Ledger.ofRoster r).Answers scenario ∧ r.assignment "1@2024-06-03#0" = .ok a ∧
    (Ledger.ofRoster r).assign a (some "E") = (l, .ok ()) ∧ Reassigned (.ofRoster r) l ∧
    l.pending = none ∧ l.Answers scenario := by
  obtain ⟨scenario, r, a, e, hload, ha, he⟩ := loads_varied
  have hr := Reassigned.refl.answers Contents.spelledBy_varied ordinary_varied hload rfl
  obtain ⟨l, hl⟩ := hr.assign ha (some "E") fun id hid => ⟨e, Option.some.inj hid ▸ he⟩
  have hreassigned : Reassigned (.ofRoster r) l := by
    have hrefl : Reassigned (.ofRoster r) (.ofRoster r) := .refl
    have := hrefl.assign ha (some "E")
    rwa [hl] at this
  have hn := pending_of_assign hl
  exact ⟨scenario, r, a, l, Contents.spelledBy_varied, ordinary_varied, hload, hr, ha, hl, hreassigned, hn,
    hreassigned.answers Contents.spelledBy_varied ordinary_varied hload hn⟩

end Ledger

-- The same instance with a second flight, whose times have a zone.
def Folder.zoned : Folder where
  path := Folder.varied.path
  file? name :=
    if name = "flights.json" then some
      "\x7b\"flights\": [\x7b\"flight_number\": \"1\", \"departure_airport\": \"A\",
        \"arrival_airport\": \"B\", \"departure_utc\": \"2024-06-03T08:00\",
        \"arrival_utc\": \"2024-06-03T09:00\", \"required_skills\": [\"P\"]\x7d,
        \x7b\"flight_number\": \"2\", \"departure_airport\": \"A\",
        \"arrival_airport\": \"B\", \"departure_utc\": \"2024-06-03T10:00Z\",
        \"arrival_utc\": \"2024-06-03T11:00Z\", \"required_skills\": [\"P\"]\x7d]\x7d"
    else Folder.varied.file? name

namespace Contents

def zoned : Contents :=
  let utc (hour : ℕ) : Instant :=
    .ofDate varied.first { Clock.after hour 0 0 with zone := some .utc }
  { varied with legs := varied.legs ++ [⟨"2", "A", "B", utc 10, utc 11, "", "", ["P"]⟩] }

set_option maxRecDepth 10000 in
theorem spelledBy_zoned : zoned.SpelledBy .zoned :=
  spelledBy_varied.withFlights (t := [("2024-06-03T08:00", "2024-06-03T09:00"),
      ("2024-06-03T10:00Z", "2024-06-03T11:00Z")])
    rfl (by decide +kernel) (by decide +kernel)

end Contents

-- It is loaded, and then neither can its seats be put in order nor those be found that clash.
theorem Ledger.not_answers_zoned : ∃ scenario r, Contents.zoned.SpelledBy .zoned ∧
    loadInstance .zoned false = .ok (scenario, r) ∧ r.sorted = .error .wrongType ∧
    Roster.conflictPairs r.assignments.values = .error .wrongType ∧
    ¬(Ledger.ofRoster r).Answers scenario := by
  obtain ⟨scenario, r, hload, hcheck⟩ := Contents.spelledBy_zoned.exists_of_load
    (P := fun r => Roster.checkOrder (r.assignments.values.map (·.seat)) = .error .wrongType)
    (by decide +kernel)
  have hsort : r.sorted = .error .wrongType := by
    rw [Roster.sorted, Roster.sortAssignments, hcheck]
    rfl
  refine ⟨scenario, r, Contents.spelledBy_zoned, hload, hsort, ?_, fun hanswers => ?_⟩
  · rw [Roster.conflictPairs, ← Roster.sorted, hsort]
    rfl
  · obtain ⟨as, has⟩ := hanswers.sorted
    cases has.symm.trans hsort

end CrewRoster
