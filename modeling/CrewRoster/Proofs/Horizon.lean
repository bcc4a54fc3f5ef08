import CrewRoster.Proofs.Loading

namespace CrewRoster

namespace Date

variable {day next last : Date}

-- December 31 of year 9999, which no day follows.
def final : Date := .after 3652058

example : ofCivil? 9999 12 31 = some final := by decide

theorem number_of_next (h : day.next = .ok next) : next.number = day.number + 1 :=
  number_of_ofNumber? (Result.elim_eq_ok.1 h)

theorem next_final : final.next = .error .outOfRange :=
  rfl

theorem exists_next (h : day ≠ final) : ∃ next, day.next = .ok next := by
  have hlt : day.number < 3652059 := lt_of_le_of_ne day.le_last fun he => h (Date.ext he)
  have hday := day.one_le
  refine ⟨⟨day.number + 1, by omega, hlt⟩, ?_⟩
  rw [Date.next, plus, ofNumber?, dif_pos ⟨by omega, hlt⟩]
  rfl

theorem eq_final_of_next {fault : Fault} (h : day.next = .error fault) : day = .final := by
  by_contra hne
  obtain ⟨next, hnext⟩ := exists_next hne
  cases h.symm.trans hnext

end Date

-- A calendar is told by the duties on its days.
theorem Calendar.eq_of_dutyOn {c c' : Calendar} (h : ∀ day, c.dutyOn day = c'.dutyOn day) : c = c' := by
  have hmem : ∀ x, x ∈ c.entries ↔ x ∈ c'.entries := fun ⟨day, d⟩ => by
    rw [← dutyOn_eq_some, h, dutyOn_eq_some]
  have hentries := Lists.eq_of_ordered Int.lt_asymm c.ordered c'.ordered hmem
  cases c
  cases c'
  cases hentries
  rfl

namespace Employee

variable {e e' : Employee} {d : Duty} {day next first last : Date} {days : List Date}

theorem eq_of_dutyOn (hsame : { e with calendar := .empty } = { e' with calendar := .empty })
    (h : ∀ day, e.dutyOn day = e'.dutyOn day) : e = e' := by
  have hcalendar := Calendar.eq_of_dutyOn h
  cases e
  cases e'
  cases hcalendar
  cases hsame
  rfl

theorem dutyOn_ensure {x : Date} :
    (e.ensure day).1.dutyOn x = (e.dutyOn x).or (if x = day then some (.placeholder e.id day) else none) := by
  cases h : e.dutyOn day with
  | some d =>
    rw [ensure_of_some h]
    split
    case isTrue hx => rw [hx, h, Option.some_or]
    case isFalse => rw [Option.or_none]
  | none =>
    have hput : (e.put (.placeholder e.id day)).dutyOn x =
        if x = day then some (.placeholder e.id day) else e.dutyOn x := dutyOn_put
    rw [ensure_of_none h, hput]
    by_cases hx : x = day
    · rw [if_pos hx, if_pos hx, hx, h, Option.none_or]
    · rw [if_neg hx, if_neg hx, Option.or_none]

-- Enters empty duties day by day, wherever there is none, and looks for the day after each, that after the
-- last as well.
def populate (e : Employee) (day last : Date) : Result Employee :=
  if day ≤ last then
    match _h : day.next with
    | .ok next => populate (e.ensure day).1 next last
    | .error fault => .error fault
  else .ok e
termination_by (last.number + 1 - day.number).toNat
decreasing_by
  have := Date.number_of_next _h
  have : day.number ≤ last.number := ‹day ≤ last›
  omega

theorem cover_of_lt (h : last < first) : e.cover first last = e := by
  refine eq_of_dutyOn rfl fun day => ?_
  rw [dutyOn_cover, if_neg, Option.or_none]
  rw [Date.mem_range_iff, Date.le_def, Date.le_def]
  rw [Date.lt_def] at h
  omega

-- To cover a period is to have a duty on its first day and to cover the days after it.
theorem cover_ensure (hle : day ≤ last) (hnext : day.next = .ok next) :
    (e.ensure day).1.cover next last = e.cover day last := by
  have hnumber := Date.number_of_next hnext
  refine eq_of_dutyOn (Planned.cover.same.trans (Planned.ensure.same.trans Planned.cover.same.symm)) fun x => ?_
  rw [dutyOn_cover, dutyOn_cover, dutyOn_ensure, Planned.ensure.id_eq, Option.or_assoc]
  congr 1
  by_cases hx : x = day
  · subst hx
    rw [if_pos rfl, if_pos (Date.mem_range_iff.2 ⟨Int.le_refl _, hle⟩), Option.some_or]
  · have hiff : x ∈ Date.range next last ↔ x ∈ Date.range day last := by
      have hne : x.number ≠ day.number := fun he => hx (Date.ext he)
      simp only [Date.mem_range_iff, Date.le_def]
      omega
    rw [if_neg hx, Option.none_or, if_congr hiff rfl rfl]

theorem checkHorizon_of_ne (h : last ≠ .final) : checkHorizon first last = .ok () := by
  obtain ⟨next, hnext⟩ := Date.exists_next h
  rw [checkHorizon, hnext]
  split <;> rfl

theorem checkHorizon_final (h : first ≤ .final) : checkHorizon first .final = .error .outOfRange := by
  rw [checkHorizon, if_pos h, Date.next_final]
  rfl

-- Whether there is a day after the last is asked in the end, wherever one starts.
theorem checkHorizon_next (hle : day ≤ last) (hnext : day.next = .ok next) :
    checkHorizon next last = checkHorizon day last := by
  have hnumber := Date.number_of_next hnext
  rw [checkHorizon, checkHorizon, if_pos hle]
  split
  case isTrue => rfl
  case isFalse hlt =>
    have hlast : last = day := Date.ext (by rw [Date.le_def] at hle hlt; omega)
    rw [hlast, hnext]
    rfl

-- Day by day the same is entered as for the whole period at once, and there is no answer only where no day
-- follows the last.
theorem populate_eq (e : Employee) (day last : Date) :
    e.populate day last = (checkHorizon day last).map fun _ => e.cover day last := by
  fun_induction populate e day last with
  | case1 e day hle next hnext ih => rw [ih, cover_ensure hle hnext, checkHorizon_next hle hnext]
  | case2 e day hle fault hfault =>
    have hlast : last = day := Date.ext
      (Int.le_antisymm (Date.eq_final_of_next hfault ▸ last.le_last) hle)
    rw [checkHorizon, if_pos hle, hlast, hfault]
    rfl
  | case3 e day hlt =>
    rw [checkHorizon, if_neg hlt, cover_of_lt (Int.not_le.1 hlt)]
    rfl

-- Where every day has its duty already, there is nothing to enter.
theorem cover_cover : (e.cover first last).cover first last = e.cover first last := by
  refine eq_of_dutyOn rfl fun day => ?_
  rw [dutyOn_cover (e := e.cover first last), dutyOn_cover, Option.or_assoc]
  congr 1
  exact Option.or_self

-- What makes every one of some days a day with a duty:
-- 1. nothing but the calendar is touched
-- 2. its days are these and those that it had
-- 3. what is planned on a day stays as it is
-- 4. on the other days there is an empty duty of the employee
structure Populated (e e' : Employee) (days : List Date) : Prop where
  same : { e' with calendar := .empty } = { e with calendar := .empty }
  dates : ∀ day, day ∈ e'.calendar.dates ↔ day ∈ days ∨ day ∈ e.calendar.dates
  kept : ∀ {day d}, e.dutyOn day = some d → e'.dutyOn day = some d
  entered : ∀ {day d}, e.dutyOn day = none → e'.dutyOn day = some d → d = .placeholder e.id day

theorem populated_cover : e.Populated (e.cover first last) (Date.range first last) where
  same := rfl
  dates day := by
    have hdates : ∀ c : Calendar, day ∈ c.dates ↔ c.dutyOn day ≠ none := fun c => by
      rw [Ne, Calendar.dutyOn_eq_none, not_not]
    have hcover : (e.cover first last).calendar.dutyOn day = _ := dutyOn_cover
    rw [hdates, hdates, hcover, Ne, Option.or_eq_none_iff, ite_eq_right_iff]
    change ¬(e.calendar.dutyOn day = none ∧ _) ↔ _
    simp only [reduceCtorEq, imp_false]
    tauto
  kept h := by rw [dutyOn_cover, h, Option.some_or]
  entered {day d} h hd := by
    rw [dutyOn_cover, h, Option.none_or] at hd
    split at hd
    case isTrue => exact (Option.some.inj hd).symm
    case isFalse => cases hd

end Employee

namespace Roster

variable {r : Roster} {first last day : Date} {reference : Reference} {flights : List Flight}
  {seats : List Seat} {employees : List Employee}

-- Enters empty duties in the calendars of all employees, on every day of the horizon without a duty.
def populate (r : Roster) : Result Roster := do
  let entries ← r.employees.entries.mapM fun p => do return (p.1, ← p.2.populate r.first r.last)
  return { r with employees := .ofList entries }

-- A roster as it stands before empty duties are entered.
def unpopulated (first last : Date) (reference : Reference) (flights : List Flight) (seats : List Seat)
    (employees : List Employee) : Roster where
  first := first
  last := last
  reference := reference
  flights := .ofList (flights.map fun f => (f.id, f))
  assignments := .ofList (seats.map fun s => (s.id, ⟨s, none⟩))
  employees := .ofList (employees.map fun e => (e.id, e))

theorem mem_horizon : day ∈ r.horizon ↔ r.first ≤ day ∧ day ≤ r.last :=
  Date.mem_range_iff

theorem entries_populate (hne : r.employees.entries ≠ []) :
    (r.employees.entries.mapM fun p => do return (p.1, ← p.2.populate r.first r.last) : Result _) =
      (Employee.checkHorizon r.first r.last).map fun _ =>
        (r.employees.mapValues (·.cover r.first r.last)).entries := by
  have hentry : ∀ p : String × Employee,
      (do return (p.1, ← p.2.populate r.first r.last) : Result (String × Employee)) =
        (Employee.checkHorizon r.first r.last).map fun _ => (p.1, p.2.cover r.first r.last) := fun p => by
    rw [Employee.populate_eq]
    cases Employee.checkHorizon r.first r.last <;> rfl
  simp only [hentry]
  exact Result.mapM_map_check hne

-- Not all days can be entered if there is one and no day follows the last of the horizon.
def checkCalendars (r : Roster) : Result Unit :=
  if r.employees.entries = [] then .ok () else Employee.checkHorizon r.first r.last

-- The employees with a duty on every day of the horizon.
def covered (r : Roster) : Roster :=
  { r with employees := r.employees.mapValues (·.cover r.first r.last) }

theorem populate_eq (r : Roster) : r.populate = r.checkCalendars.map fun _ => r.covered := by
  rw [populate, checkCalendars, covered]
  split
  case isTrue hnil =>
    have hcover : r.employees.mapValues (·.cover r.first r.last) = .empty :=
      Registry.ext (by rw [Registry.entries_mapValues, hnil]; rfl)
    rw [hnil, hcover]
    rfl
  case isFalse hne =>
    rw [entries_populate hne]
    cases Employee.checkHorizon r.first r.last with
    | error => rfl
    | ok =>
      have hentries := Registry.entries_ofList (r.employees.mapValues (·.cover r.first r.last)).nodup
      exact congrArg (fun es => Except.ok { r with employees := es }) (Registry.ext hentries)

theorem populate_eq_ok {r' : Roster} :
    r.populate = .ok r' ↔ r.checkCalendars = .ok () ∧ r.covered = r' := by
  rw [populate_eq]
  cases r.checkCalendars <;> simp [Except.map]

theorem covered_covered : r.covered.covered = r.covered := by
  have hentries : r.covered.covered.employees.entries = r.covered.employees.entries := by
    simp only [covered, Registry.entries_mapValues, List.map_map]
    refine List.map_congr_left fun p _ => ?_
    simp only [Function.comp_apply, Employee.cover_cover]
  exact congrArg (fun es => { r with employees := es }) (Registry.ext hentries)

-- What is entered once is there when it is entered again.
theorem populate_populate {r' : Roster} (h : r.populate = .ok r') : r'.populate = .ok r' := by
  obtain ⟨hcheck, rfl⟩ := populate_eq_ok.1 h
  refine populate_eq_ok.2 ⟨?_, covered_covered⟩
  rw [← hcheck]
  simp only [checkCalendars, covered, Registry.entries_mapValues, List.map_eq_nil_iff]

section Build

variable (hids : (employees.map (·.id)).Nodup)
include hids

theorem entries_unpopulated : (unpopulated first last reference flights seats employees).employees.entries =
    employees.map fun e => (e.id, e) :=
  Registry.entries_ofList (by rwa [List.map_map])

theorem checkCalendars_unpopulated : (unpopulated first last reference flights seats employees).checkCalendars =
    if employees = [] then .ok () else Employee.checkHorizon first last := by
  simp only [checkCalendars, entries_unpopulated hids, List.map_eq_nil_iff]
  rfl

-- A roster is built by entering what is missing in every calendar.
theorem build_eq_populate : build first last reference flights seats employees =
    (unpopulated first last reference flights seats employees).populate := by
  rw [populate_eq, checkCalendars_unpopulated hids, build]
  cases employees with
  | nil => rfl
  | cons e es =>
    rw [if_neg (List.cons_ne_nil e es)]
    change Employee.checkHorizon first last >>= _ = (Employee.checkHorizon first last).map _
    cases Employee.checkHorizon first last <;> rfl

-- What a roster is whose calendars are dense:
-- 1. its horizon is the days of the period, in order
-- 2. its employees are those given, in order, with every day of the horizon in their calendars
-- 3. there is nothing left to enter
structure Dense (r : Roster) (first last : Date) (employees : List Employee) : Prop where
  ascending : r.horizon.Pairwise (· < ·)
  horizon : ∀ day, day ∈ r.horizon ↔ first ≤ day ∧ day ≤ last
  employees : List.Forall₂ (fun e p => p.1 = e.id ∧ e.Populated p.2 r.horizon) employees r.employees.entries
  again : r.populate = .ok r

theorem dense_of_populate
    (h : (unpopulated first last reference flights seats employees).populate = .ok r) :
    r.Dense first last employees := by
  obtain ⟨-, rfl⟩ := populate_eq_ok.1 h
  refine ⟨Date.range_ordered _ _, fun _ => mem_horizon, ?_, populate_populate h⟩
  rw [covered, Registry.entries_mapValues, entries_unpopulated hids, List.map_map,
    List.forall₂_map_right_iff]
  exact List.forall₂_same.2 fun e _ => ⟨rfl, Employee.populated_cover⟩

end Build

-- A roster is built by entering empty duties day by day, employee by employee. That makes the calendars dense,
-- unless there is one and the period ends on the last day that there is: the day after it is asked for.
theorem build_dense (hle : first ≤ last) (hids : (employees.map (·.id)).Nodup) :
    build first last reference flights seats employees =
      (unpopulated first last reference flights seats employees).populate ∧
    (employees = [] ∨ last ≠ .final →
      ∃ r, build first last reference flights seats employees = .ok r ∧ r.Dense first last employees) ∧
    (employees ≠ [] → last = .final →
      build first last reference flights seats employees = .error .outOfRange) := by
  have hbuild : build first last reference flights seats employees = _ := build_eq_populate hids
  have hpopulate := populate_eq (unpopulated first last reference flights seats employees)
  rw [checkCalendars_unpopulated hids] at hpopulate
  refine ⟨hbuild, fun h => ?_, fun hne hlast => ?_⟩
  · have hcheck : (if employees = [] then .ok () else Employee.checkHorizon first last) = .ok () := by
      split
      case isTrue => rfl
      case isFalse hne => exact Employee.checkHorizon_of_ne (h.resolve_left hne)
    rw [hcheck] at hpopulate
    exact ⟨_, hbuild.trans hpopulate, dense_of_populate hids hpopulate⟩
  · rw [hbuild, hpopulate, if_neg hne, hlast, Employee.checkHorizon_final (hlast ▸ hle)]
    rfl

-- An employee who works on the ground on a day and has nothing else planned.
def grounded (day : Date) : Employee where
  id := "E"
  name := .text "E"
  home := .text "A"
  skills := [.text "P"]
  aircraft := []
  extras := []
  daysOff := []
  calendar := Calendar.empty.put
    (.ofGround "E" ⟨some (.text "GND"), .ofDate day (.after 8 0 0), .ofDate day (.after 16 0 0)⟩)

-- The work on February 29 stays, and the days before and after it get empty duties.
theorem build_dense_leapDay : Date.after 738943 ≤ .after 738945 ∧
    ∃ r, build (.after 738943) (.after 738945) (.build [] [] []) [] [] [grounded (.after 738944)] = .ok r ∧
      r.Dense (.after 738943) (.after 738945) [grounded (.after 738944)] := by
  have hle : Date.after 738943 ≤ .after 738945 := by decide
  exact ⟨hle, (build_dense hle (by decide)).2.1 (.inr (by decide))⟩

-- The one day of the period is there, and no day follows it.
theorem not_build_final : Date.final ≤ .final ∧ ([grounded .final].map (·.id)).Nodup ∧
    build .final .final (.build [] [] []) [] [] [grounded .final] = .error .outOfRange :=
  ⟨by decide, by decide, rfl⟩

end Roster
end CrewRoster
