import CrewRoster.Ledger
import CrewRoster.Proofs.Calendar
import CrewRoster.Proofs.Edit
import CrewRoster.Proofs.Registry

namespace CrewRoster

@[ext]
theorem Registry.ext {κ α : Type} {r r' : Registry κ α} (h : r.entries = r'.entries) : r = r' := by
  cases r
  cases r'
  cases h
  rfl

namespace Employee

variable {e : Employee} {d : Duty} {day day' first last : Date}

theorem dutyOn_putOn : (e.putOn day d).dutyOn day' = if day' = day then some d else e.dutyOn day' :=
  Calendar.dutyOn_putOn

theorem dutyOn_put : (e.put d).dutyOn day = if day = d.date then some d else e.dutyOn day :=
  dutyOn_putOn

theorem dutyOn_cover :
    (e.cover first last).dutyOn day =
      (e.dutyOn day).or (if day ∈ Date.range first last then some (.placeholder e.id day) else none) :=
  Calendar.dutyOn_cover

theorem ensure_of_some (h : e.dutyOn day = some d) : e.ensure day = (e, d) := by
  simp [ensure, h]

theorem ensure_of_none (h : e.dutyOn day = none) :
    e.ensure day = (e.put (.placeholder e.id day), .placeholder e.id day) := by
  simp [ensure, h]

theorem date_ensure (hc : e.calendar.Dated) : (e.ensure day).2.date = day := by
  cases h : e.dutyOn day with
  | none => rw [ensure_of_none h]; rfl
  | some d => rw [ensure_of_some h]; exact hc day d h

-- A duty is placed only where there is none, or an empty one.
theorem place_eq_ok {e' : Employee} (h : e.place d = .ok e') :
    d.employee = e.id ∧ e' = e.put d ∧ ∀ old, e.dutyOn d.date = some old → old.seats = [] := by
  unfold place at h
  split at h
  case isTrue => cases h
  case isFalse hid =>
    have hid : d.employee = e.id := by simpa using hid
    cases hd : e.dutyOn d.date with
    | none =>
      rw [hd] at h
      cases h
      exact ⟨hid, rfl, fun _ h => nomatch h⟩
    | some old =>
      rw [hd] at h
      dsimp only at h
      split at h
      case isTrue => cases h
      case isFalse hold =>
        cases h
        refine ⟨hid, rfl, fun _ h => ?_⟩
        cases h
        have : old.isFlightDuty = false := by simp_all
        simpa [Duty.isFlightDuty] using this

end Employee

namespace Roster

variable {r r' : Roster} {d : Duty} {e : Employee} {day day' : Date} {id k : String} {s : Seat}

-- The duty of an employee on a day.
def dutyAt (r : Roster) (employee : String) (day : Date) : Option Duty :=
  (r.employees.get? employee).bind (·.dutyOn day)

theorem dutyAt_eq_some :
    r.dutyAt id day = some d ↔ ∃ e, r.employees.get? id = some e ∧ e.dutyOn day = some d :=
  Option.bind_eq_some_iff

theorem dutyAt_putDuty (h : r.employees.get? k = some e) :
    (r.putDuty k day d).dutyAt id day' =
      if id = k ∧ day' = day then some d else r.dutyAt id day' := by
  unfold dutyAt putDuty
  by_cases hid : id = k
  · subst hid
    simp [h, Employee.dutyOn_putOn]
  · simp [Registry.get?_modify_of_ne hid, hid]

theorem dutyAt_replace (h : r.employees.get? id = some e) {e' : Employee} (hid : e'.id = id)
    {k : String} :
    (r.replace e').dutyAt k day = if k = id then e'.dutyOn day else r.dutyAt k day := by
  subst hid
  unfold dutyAt replace
  by_cases hk : k = e'.id
  · subst hk
    simp [h]
  · simp [Registry.get?_modify_of_ne hk, hk]

-- The duty of an employee on a day lists the seat.
def Lists (r : Roster) (employee : String) (day : Date) (s : Seat) : Prop :=
  ∃ d, r.dutyAt employee day = some d ∧ s ∈ d.seats

theorem mem_seats_ensure (h : r.employees.get? id = some e) :
    s ∈ (e.ensure day).2.seats ↔ r.Lists id day s := by
  cases hd : e.dutyOn day with
  | none => simp [Employee.ensure_of_none hd, Duty.placeholder, Lists, dutyAt, h, hd]
  | some d => simp [Employee.ensure_of_some hd, Lists, dutyAt, h, hd]

theorem lists_putDuty (h : r.employees.get? k = some e) :
    (r.putDuty k day d).Lists id day' s ↔
      if id = k ∧ day' = day then s ∈ d.seats else r.Lists id day' s := by
  unfold Lists
  rw [dutyAt_putDuty h]
  split <;> simp

-- A duty that replaces another brings its seats, if its employee exists, and nothing else comes in.
theorem lists_of_putDuty (h : (r.putDuty k day d).Lists id day' s) : s ∈ d.seats ∨ r.Lists id day' s := by
  cases he : r.employees.get? k with
  | some e =>
    rw [lists_putDuty he] at h
    split at h
    case isTrue => exact .inl h
    case isFalse => exact .inr h
  | none =>
    obtain ⟨d', hd, hs⟩ := h
    refine .inr ⟨d', ?_, hs⟩
    rw [← hd, dutyAt, dutyAt, putDuty, Registry.get?_modify]
    split
    case isTrue hid => rw [hid, he, Option.map_none]
    case isFalse => rfl

-- Every seat of the roster is on a plain flight.
def Plain (r : Roster) : Prop :=
  ∀ k a, r.assignments.get? k = some a → a.seat.flight.Plain

theorem plain_iff : r.Plain ↔ ∀ a ∈ r.assignments.values, a.seat.flight.Plain := by
  simp only [Plain, Registry.mem_values]
  constructor
  · rintro h a ⟨k, ha⟩
    exact h k a ha
  · intro h k a ha
    exact h a ⟨k, ha⟩

instance : Decidable r.Plain := decidable_of_iff _ plain_iff.symm

-- 1. seats and employees are registered under their ids
-- 2. the duties in the calendar of an employee are that employee's, under their own dates
-- 3. no two seats have the same place in the order of seats
structure WellFormed (r : Roster) : Prop where
  seatId : ∀ {k a}, r.assignments.get? k = some a → a.seat.id = k
  crewId : ∀ {k e}, r.employees.get? k = some e → e.id = k
  crewOf : ∀ {k day d}, r.dutyAt k day = some d → d.employee = k
  dated : ∀ {k day d}, r.dutyAt k day = some d → d.date = day
  key : ∀ {j k a b}, r.assignments.get? j = some a → r.assignments.get? k = some b →
    a.seat.key = b.seat.key → a.seat = b.seat

theorem WellFormed.putDuty (h : r.WellFormed) (he : r.employees.get? id = some e)
    (hd : d.employee = id) (hday : d.date = day) : (r.putDuty id day d).WellFormed where
  seatId ha := h.seatId ha
  crewId {k e'} hk := by
    rw [Roster.putDuty, Registry.get?_modify] at hk
    split at hk
    case isTrue hid =>
      rw [he] at hk
      obtain rfl := Option.some.inj hk
      exact (h.crewId he).trans hid.symm
    case isFalse => exact h.crewId hk
  crewOf {k day' d'} hd' := by
    rw [dutyAt_putDuty he] at hd'
    split at hd'
    case isTrue hid =>
      obtain rfl := Option.some.inj hd'
      exact hd.trans hid.1.symm
    case isFalse => exact h.crewOf hd'
  dated {k day' d'} hd' := by
    rw [dutyAt_putDuty he] at hd'
    split at hd'
    case isTrue hid =>
      obtain rfl := Option.some.inj hd'
      exact hday.trans hid.2.symm
    case isFalse => exact h.dated hd'
  key ha hb hk := h.key ha hb hk

theorem WellFormed.calendar_dated (h : r.WellFormed) (he : r.employees.get? id = some e) :
    e.calendar.Dated := fun _ _ hd =>
  h.dated (dutyAt_eq_some.2 ⟨e, he, hd⟩)

theorem WellFormed.dutyAt_of_mem (h : r.WellFormed) (he : r.employees.get? id = some e)
    (hd : d ∈ e.calendar.duties) : r.dutyAt id d.date = some d :=
  dutyAt_eq_some.2 ⟨e, he, (h.calendar_dated he).dutyOn_date hd⟩

-- Only the owner of the one seat is written.
theorem get?_setOwner {j : String} {owner : Option String} :
    (r.setOwner k owner).assignments.get? j =
      (r.assignments.get? j).map fun a => { a with owner := if j = k then owner else a.owner } := by
  rw [setOwner, Registry.get?_modify]
  split
  case isTrue h => rw [h]
  case isFalse => simp

theorem get?_setOwner_of_some {a : Assignment} {j : String} {owner : Option String}
    (h : r.assignments.get? j = some a) :
    (r.setOwner k owner).assignments.get? j =
      some { a with owner := if j = k then owner else a.owner } := by
  rw [get?_setOwner, h, Option.map_some]

theorem exists_of_get?_setOwner {b : Assignment} {j : String} {owner : Option String}
    (h : (r.setOwner k owner).assignments.get? j = some b) :
    ∃ a, r.assignments.get? j = some a ∧ { a with owner := if j = k then owner else a.owner } = b := by
  rwa [get?_setOwner, Option.map_eq_some_iff] at h

theorem WellFormed.setOwner {owner : Option String} (h : r.WellFormed) :
    (r.setOwner k owner).WellFormed where
  seatId h' := by
    obtain ⟨a, ha, rfl⟩ := exists_of_get?_setOwner h'
    exact h.seatId (a := a) ha
  crewId := h.crewId
  crewOf := h.crewOf
  dated := h.dated
  key h₁ h₂ hk := by
    obtain ⟨a, ha, rfl⟩ := exists_of_get?_setOwner h₁
    obtain ⟨b, hb, rfl⟩ := exists_of_get?_setOwner h₂
    exact h.key (a := a) (b := b) ha hb hk

-- A roster without owners and duties: what no change of owners and no planning touches.
def blank (r : Roster) : Roster :=
  { r with
    assignments := r.assignments.mapValues fun a => { a with owner := none }
    employees := r.employees.mapValues fun e => { e with calendar := .empty } }

theorem blank_setOwner (owner : Option String) : (r.setOwner k owner).blank = r.blank := by
  unfold blank setOwner
  congr 1
  ext1
  simp only [Registry.mapValues, Registry.modify, List.map_map]
  apply List.map_congr_left
  intro p _
  by_cases hp : p.1 = k <;> simp [hp]

theorem blank_putDuty : (r.putDuty id day d).blank = r.blank := by
  unfold blank putDuty
  congr 1
  ext1
  simp only [Registry.mapValues, Registry.modify, List.map_map]
  apply List.map_congr_left
  intro p _
  by_cases hp : p.1 = id <;> simp [hp, Employee.putOn]

theorem blank_replace (h : r.employees.get? id = some e) {e' : Employee} (hid : e'.id = id)
    (he : { e' with calendar := .empty } = { e with calendar := .empty }) :
    (r.replace e').blank = r.blank := by
  unfold blank replace
  congr 1
  ext1
  simp only [Registry.mapValues, Registry.modify, List.map_map]
  apply List.map_congr_left
  rintro ⟨k, x⟩ hx
  by_cases hk : k = e'.id
  · have hg : r.employees.get? k = some x := Registry.get?_eq_some.2 hx
    rw [hk, hid, h] at hg
    cases hg
    simp [hk, he]
  · simp [hk]

-- Rosters that differ only in owners and duties have the same seats.
theorem seat_of_blank_eq (h : r.blank = r'.blank) :
    (r.assignments.get? k).map (·.seat) = (r'.assignments.get? k).map (·.seat) := by
  have := congrArg (fun r => (r.assignments.get? k).map (·.seat)) h
  simpa [blank, Registry.get?_mapValues, Function.comp_def] using this

theorem reference_of_blank_eq (h : r.blank = r'.blank) : r.reference = r'.reference := by
  have := congrArg (fun r => r.reference) h
  exact this

theorem horizon_of_blank_eq (h : r.blank = r'.blank) : r.horizon = r'.horizon := by
  have := congrArg (fun r => r.horizon) h
  exact this

theorem exists_of_blank_eq (h : r.blank = r'.blank) {a : Assignment}
    (ha : r.assignments.get? k = some a) :
    ∃ a', r'.assignments.get? k = some a' ∧ a'.seat = a.seat := by
  have := seat_of_blank_eq (k := k) h
  rw [ha, Option.map_some, eq_comm, Option.map_eq_some_iff] at this
  exact this

theorem exists_employee_of_blank_eq (h : r.blank = r'.blank) (he : r.employees.get? id = some e) :
    ∃ e', r'.employees.get? id = some e' ∧
      { e' with calendar := .empty } = { e with calendar := .empty } := by
  have := congrArg (fun r => r.employees.get? id) h
  simp only [blank, Registry.get?_mapValues, he, Option.map_some] at this
  rwa [eq_comm, Option.map_eq_some_iff] at this

theorem Plain.of_blank_eq (hp : r.Plain) (h : r.blank = r'.blank) : r'.Plain := by
  intro k a ha
  obtain ⟨a', ha', he⟩ := exists_of_blank_eq h.symm ha
  exact he ▸ hp k a' ha'

end Roster
end CrewRoster
