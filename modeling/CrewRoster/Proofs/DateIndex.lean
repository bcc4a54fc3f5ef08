import CrewRoster.Proofs.Diary
import CrewRoster.Proofs.Horizon

namespace CrewRoster

-- The duties of a calendar by the dates under which they stand.
def Calendar.table (c : Calendar) : Registry Date Duty where
  entries := c.entries
  nodup := c.nodup_dates

theorem Calendar.get?_table {c : Calendar} {day : Date} : c.table.get? day = c.dutyOn day := by
  ext d
  rw [Registry.get?_eq_some, dutyOn_eq_some, table]

namespace Employee

variable {e : Employee} {d : Duty} {day : Date}

theorem dutyOn_ensure_self : (e.ensure day).1.dutyOn day = some (e.ensure day).2 := by
  cases h : e.dutyOn day with
  | some d => rw [ensure_of_some h, h]
  | none =>
    rw [ensure_of_none h, dutyOn_put]
    exact if_pos rfl

-- A duty that is entered leaves no trace of the empty one that was on the date.
theorem putOn_ensure : (e.ensure day).1.putOn day d = e.putOn day d := by
  refine eq_of_dutyOn Planned.ensure.same fun x => ?_
  rw [dutyOn_putOn, dutyOn_putOn, dutyOn_ensure]
  split
  case isTrue => rfl
  case isFalse => rw [Option.or_none]

end Employee

namespace Diary

-- A diary and a calendar hold the same: the same dates in the same order, and on each of them the same duty.
structure Holds (b : Diary) (c : Calendar) : Prop where
  dates : b.dates = c.dates
  duties : ∀ day, b.table.get? day = c.dutyOn day

-- The duties of a diary are those of an employee, day by day.
def Agrees (b : Diary) (e : Employee) : Prop := ∀ day, b.table.get? day = e.dutyOn day

variable {id : String} {b : Diary} {e e' : Employee} {d : Duty} {day : Date} {s : Seat}

theorem Indexed.holds (h : b.Indexed) (ha : b.Agrees e) : b.Holds e.calendar where
  dates := by
    refine Lists.eq_of_ordered Int.lt_asymm h.ascending (List.pairwise_map.2 e.calendar.ordered) fun day => ?_
    rw [h.listed, Registry.contains, ha day, ← not_iff_not, ← Calendar.dutyOn_eq_none,
      Option.not_isSome_iff_eq_none]
    rfl
  duties := ha

namespace Agrees

variable (h : b.Agrees e)
include h

theorem put (d : Duty) : (b.put d).Agrees (e.put d) := fun x => by
  rw [get?_put, Employee.dutyOn_put, h x]

theorem ensure (hid : e.id = id) (day : Date) : (b.ensure id day).Agrees (e.ensure day).1 := fun x => by
  rw [get?_ensure, Employee.dutyOn_ensure, h x, hid]

theorem place (hid : e.id = id) (d : Duty) : b.place id d =
    match e.place d with
    | .ok _ => (b.put d, .ok ())
    | .error fault => (b, .error fault) := by
  subst hid
  unfold Diary.place Employee.place
  rw [h d.date]
  split
  case isTrue => rfl
  case isFalse =>
    cases e.dutyOn d.date with
    | none => rfl
    | some old =>
      by_cases hold : (old.isFlightDuty || old.hasCode) = true
      · simp only [if_pos hold]
      · simp only [if_neg hold]

theorem edit {f : Duty → Duty} (hd : e.dutyOn day = some d) :
    (b.edit day f).Agrees (e.putOn day (f d)) := fun x => by
  rw [get?_edit, Employee.dutyOn_putOn, h day, hd, Option.map_some, h x]

end Agrees

theorem Agrees.populate (h : b.Agrees e) (hid : e.id = id) (day last : Date) :
    (b.populate id day last).1.Agrees (e.cover day last) ∧
      (b.populate id day last).2 = Employee.checkHorizon day last := by
  fun_induction Diary.populate b id day last generalizing e with
  | case1 b day hle next hnext ih =>
    rw [← Employee.cover_ensure hle hnext, ← Employee.checkHorizon_next hle hnext]
    exact ih (h.ensure hid day) (Employee.Planned.ensure.id_eq.trans hid)
  | case2 b day hle fault hfault =>
    obtain rfl : last = day := Date.ext
      (Int.le_antisymm (Date.eq_final_of_next hfault ▸ last.le_last) hle)
    refine ⟨fun x => ?_, ?_⟩
    · have hday : x ∈ Date.range last last ↔ x = last := by
        rw [Date.mem_range_iff]
        exact ⟨fun h => Date.ext (Int.le_antisymm h.2 h.1), fun h => h ▸ ⟨Int.le_refl _, Int.le_refl _⟩⟩
      rw [get?_ensure, Employee.dutyOn_cover, h x, hid, if_congr hday rfl rfl]
      exact congrArg _ (ite_congr rfl (fun hx => by rw [hx]) fun _ => rfl)
    · rw [Employee.checkHorizon, if_pos hle, hfault]
      rfl
  | case3 b day hlt =>
    rw [Employee.cover_of_lt (Int.not_le.1 hlt), Employee.checkHorizon, if_neg hlt]
    exact ⟨h, rfl⟩

-- The employee `id` was `e₀` at first: some diary was kept ever since and agrees with the calendar now.
structure Traces (id : String) (e₀ e : Employee) : Prop where
  id_eq : e.id = id
  kept : ∃ b, Steps id (.ofTable e₀.calendar.table) b ∧ b.Agrees e

namespace Traces

variable {e₀ : Employee}

theorem refl (hid : e.id = id) : Traces id e e where
  id_eq := hid
  kept := ⟨_, .refl, fun _ => Calendar.get?_table⟩

section Kept

variable (h : Traces id e₀ e)
include h

theorem step (hid : e'.id = e.id) (hstep : ∀ b, b.Agrees e → ∃ b', Step id b b' ∧ b'.Agrees e') :
    Traces id e₀ e' := by
  obtain ⟨b, hsteps, hagrees⟩ := h.kept
  obtain ⟨b', hb, hagrees'⟩ := hstep b hagrees
  exact ⟨hid.trans h.id_eq, b', hsteps.step hb, hagrees'⟩

theorem ensure (day : Date) : Traces id e₀ (e.ensure day).1 :=
  h.step Employee.Planned.ensure.id_eq fun _ hb => ⟨_, .ensure day, hb.ensure h.id_eq day⟩

theorem cover (first last : Date) : Traces id e₀ (e.cover first last) :=
  h.step rfl fun _ hb => ⟨_, .populate first last, (hb.populate h.id_eq first last).1⟩

theorem place (hp : e.place d = .ok e') : Traces id e₀ e' := by
  obtain ⟨-, rfl, -⟩ := Employee.place_eq_ok hp
  refine h.step rfl fun b hb => ⟨_, .place d, ?_⟩
  rw [hb.place h.id_eq, hp]
  exact hb.put d

theorem leave (hd : e.dutyOn s.departureDate = some d) (hs : d.contains s = .ok true) :
    Traces id e₀ (e.putOn s.departureDate (d.retract s).duty) :=
  h.step rfl fun _ hb => ⟨_, .leave ((hb _).trans hd) hs, hb.edit hd⟩

theorem enter (s : Seat) :
    Traces id e₀ (e.putOn s.departureDate ((e.ensure s.departureDate).2.enter s).duty) := by
  refine h.step rfl fun b hb => ⟨_, .enter s, ?_⟩
  rw [← Employee.putOn_ensure]
  exact (hb.ensure h.id_eq _).edit Employee.dutyOn_ensure_self

end Kept
end Traces

end Diary

namespace Roster

variable {r₀ r : Roster} {e₀ e : Employee} {id : String} {day : Date} {d : Duty}

-- Every employee is registered under an id of the employee's own.
def Crewed (r : Roster) : Prop := ∀ id e, r.employees.get? id = some e → e.id = id

-- The employees of two rosters are the same, and their calendars in the second trace back to those in the
-- first.
def Traces (r₀ r : Roster) : Prop :=
  ∀ id, Option.Rel (Diary.Traces id) (r₀.employees.get? id) (r.employees.get? id)

theorem Crewed.traces (h : r.Crewed) : r.Traces r := fun id => by
  cases he : r.employees.get? id with
  | none => exact .none
  | some e => exact .some (.refl (h id e he))

namespace Traces

variable (h : r₀.Traces r)
include h

theorem exists_of_get? (he : r.employees.get? id = some e) :
    ∃ e₀, r₀.employees.get? id = some e₀ ∧ Diary.Traces id e₀ e := by
  have hrel := h id
  rw [he] at hrel
  cases he₀ : r₀.employees.get? id with
  | none => rw [he₀] at hrel; cases hrel
  | some e₀ =>
    rw [he₀] at hrel
    cases hrel with
    | some htraces => exact ⟨e₀, rfl, htraces⟩

theorem exists_of_get?_first (he₀ : r₀.employees.get? id = some e₀) :
    ∃ e, r.employees.get? id = some e ∧ Diary.Traces id e₀ e := by
  have hrel := h id
  rw [he₀] at hrel
  cases he : r.employees.get? id with
  | none => rw [he] at hrel; cases hrel
  | some e =>
    rw [he] at hrel
    cases hrel with
    | some htraces => exact ⟨e, rfl, htraces⟩

theorem modify {g : Employee → Employee}
    (hg : ∀ e₀ e, r.employees.get? id = some e → Diary.Traces id e₀ e → Diary.Traces id e₀ (g e)) :
    r₀.Traces { r with employees := r.employees.modify id g } := fun k => by
  dsimp only
  rw [Registry.get?_modify]
  split
  case isTrue hk =>
    subst hk
    have hrel := h k
    cases he : r.employees.get? k with
    | none => rwa [he] at hrel
    | some e =>
      obtain ⟨e₀, he₀, htraces⟩ := h.exists_of_get? he
      rw [he₀]
      exact .some (hg e₀ e he htraces)
  case isFalse => exact h k

theorem replace (he : r.employees.get? id = some e) {e' : Employee}
    (hg : ∀ e₀, Diary.Traces id e₀ e → Diary.Traces id e₀ e') : r₀.Traces (r.replace e') := by
  obtain ⟨e₀, -, htraces⟩ := h.exists_of_get? he
  rw [Roster.replace, (hg e₀ htraces).id_eq]
  refine h.modify fun e₁ e₂ he₂ htraces₂ => ?_
  obtain rfl := Option.some.inj (he.symm.trans he₂)
  exact hg e₁ htraces₂

theorem putDuty (he : r.employees.get? id = some e)
    (hg : ∀ e₀, Diary.Traces id e₀ e → Diary.Traces id e₀ (e.putOn day d)) :
    r₀.Traces (r.putDuty id day d) := by
  refine h.modify fun e₁ e₂ he₂ htraces₂ => ?_
  obtain rfl := Option.some.inj (he.symm.trans he₂)
  exact hg e₁ htraces₂

end Traces
end Roster

namespace Ledger

-- What is done to a ledger, in whatever order: changes of owners, in halves, as a whole or many at once, with
-- the owner of any seat written in between; and calendars that get duties, any that fit in or are refused. For
-- the dates of the calendars it does not matter, as it does in a `Step`, that the seats are the roster's, that
-- owners are written while they may be, and that a duty that is placed has no seats.
inductive Deed (l : Ledger) : Ledger → Prop
  | release (a : Assignment) : Deed l (l.release a).1
  | settle (a : Assignment) : Deed l (l.settle a).1
  | assign (a : Assignment) (owner : Option String) : Deed l (l.assign a owner).1
  | apply (plan : Plan) : Deed l (l.apply plan).1
  | write (seat : String) (owner : Option String) : Deed l (l.setOwner seat owner)
  | place {id e} (he : l.roster.employees.get? id = some e) (d : Duty) : Deed l (l.place e d).1
  | ensure {id e} (he : l.roster.employees.get? id = some e) (day : Date) : Deed l (l.ensure e day).1
  | cover {id e} (he : l.roster.employees.get? id = some e) (first last : Date) :
    Deed l (l.cover e first last).1

inductive Deeds (l : Ledger) : Ledger → Prop
  | refl : Deeds l l
  | step {l₁ l₂} (hs : Deeds l l₁) (h : Deed l₁ l₂) : Deeds l l₂

variable {l l' : Ledger} {r : Roster}

section Traces

variable (h : r.Traces l.roster)
include h

theorem traces_release (a : Assignment) : r.Traces (l.release a).1.roster := by
  have hreleased := released l a
  generalize l.release a = o at hreleased ⊢
  cases hreleased
  case refused => exact h
  case unordered => exact h
  case unowned => exact h
  case owned id d hn ho hd hc hi =>
    obtain ⟨e, he, hon⟩ := Roster.dutyAt_eq_some.1 hd
    have hcontains : d.contains a.seat = .ok true := by rw [Duty.contains_of_checkOrder hc, hi]
    exact h.putDuty he fun _ ht => ht.leave hon hcontains

theorem traces_settle (a : Assignment) : r.Traces (l.settle a).1.roster := by
  have hsettled := settled l a
  generalize l.settle a = o at hsettled ⊢
  cases hsettled
  case refused => exact h
  case unowned => exact h
  case owned id e hn ho he =>
    exact h.putDuty he fun _ ht => ht.enter a.seat

theorem traces_assign (a : Assignment) (owner : Option String) : r.Traces (l.assign a owner).1.roster := by
  unfold assign
  split
  case h_1 => exact h
  case h_2 =>
    have hrelease := traces_release h a
    cases ho : l.release a with
    | mk l₁ answer =>
      rw [ho] at hrelease
      cases answer with
      | error fault => exact hrelease
      | ok u => exact traces_settle (l := l₁.setOwner a.seat.id owner) hrelease { a with owner }

theorem traces_follow (count : Nat) (plan : Plan) : r.Traces (l.follow count plan).1.roster := by
  induction plan generalizing l count with
  | nil => exact h
  | cons p plan ih =>
    rw [follow]
    split
    case h_1 => exact h
    case h_2 a ha =>
      split
      case isTrue => exact ih h count
      case isFalse =>
        have hassign := traces_assign h a p.2
        split
        case h_1 he =>
          rw [he] at hassign
          exact ih hassign (count + 1)
        case h_2 he =>
          rw [he] at hassign
          exact hassign

theorem traces_apply (plan : Plan) : r.Traces (l.apply plan).1.roster := by
  unfold apply
  split
  case h_1 => exact h
  case h_2 => exact traces_follow h 0 plan

theorem traces_deed (hd : Deed l l') : r.Traces l'.roster := by
  cases hd
  case release a => exact traces_release h a
  case settle a => exact traces_settle h a
  case assign a owner => exact traces_assign h a owner
  case apply plan => exact traces_apply h plan
  case write seat owner => exact h
  case place id e he d =>
    unfold place
    split
    case h_1 e' hp => exact h.replace he fun _ ht => ht.place hp
    case h_2 => exact h
  case ensure id e he day => exact h.replace he fun _ ht => ht.ensure day
  case cover id e he first last => exact h.replace he fun _ ht => ht.cover first last

end Traces

-- The calendar of one employee comes to hold a diary. Everybody else, and every owner, stays as it was.
structure Updates (l : Ledger) (id : String) (b : Diary) (l' : Ledger) : Prop where
  held : ∃ e, l'.roster.employees.get? id = some e ∧ b.Holds e.calendar
  others : ∀ k, k ≠ id → l'.roster.employees.get? k = l.roster.employees.get? k
  owners : l'.roster.assignments = l.roster.assignments

-- A ledger goes on with the calendar of an employee as with the diary that the calendar holds:
-- 1. a duty that the diary accepts is placed where the diary has it
-- 2. a duty that the diary does not accept is rejected, and everything stays as it is
-- 3. a day gets its duty where the diary has it get one
-- 4. a period gets its duties where the diary has it get them, and fails as it does there
structure Follows (l : Ledger) (id : String) (e : Employee) (b : Diary) : Prop where
  placed : ∀ d, b.Accepts id d →
    (l.place e d).2 = .ok () ∧ l.Updates id (b.place id d).1 (l.place e d).1
  refused : ∀ d, ¬b.Accepts id d → ∃ why, l.place e d = (l, .error (.rejected why))
  ensured : ∀ day, l.Updates id (b.ensure id day) (l.ensure e day).1
  covered : ∀ first last, (l.cover e first last).2 = (b.populate id first last).2 ∧
    l.Updates id (b.populate id first last).1 (l.cover e first last).1

section Follows

variable {id : String} {e e' : Employee} {b b' : Diary} (he : l.roster.employees.get? id = some e)
include he

theorem updates_replace (hid : e'.id = id) (hi : b'.Indexed) (ha : b'.Agrees e') :
    l.Updates id b' { l with roster := l.roster.replace e' } where
  held := by
    refine ⟨e', ?_, hi.holds ha⟩
    rw [Roster.replace, Registry.get?_modify, if_pos hid.symm, hid, he, Option.map_some]
  others k hk := by
    rw [Roster.replace, Registry.get?_modify, if_neg (hid ▸ hk)]
  owners := rfl

theorem follows {t : Registry Date Duty} (hid : e.id = id) (hb : Diary.Steps id (.ofTable t) b)
    (ha : b.Agrees e) : l.Follows id e b := by
  have hi : ∀ {b'}, Diary.Step id b b' → b'.Indexed := fun hs => (hb.step hs).kept.toIndexed
  constructor
  case placed =>
    intro d haccepts
    have hplace := ha.place hid d
    have hindexed := hi (.place d)
    rw [Diary.place_of_accepts haccepts] at hplace hindexed ⊢
    unfold place
    cases hp : e.place d with
    | error fault => simp [hp] at hplace
    | ok e' =>
      obtain ⟨-, rfl, -⟩ := Employee.place_eq_ok hp
      exact ⟨rfl, updates_replace he hid hindexed (ha.put d)⟩
  case refused =>
    intro d hrefuses
    obtain ⟨why, hwhy⟩ := Diary.place_of_not_accepts hrefuses
    have hplace := hwhy.symm.trans (ha.place hid d)
    refine ⟨why, ?_⟩
    unfold place
    cases hp : e.place d with
    | ok e' => simp [hp] at hplace
    | error fault =>
      simp only [hp, Prod.mk.injEq, Except.error.injEq, true_and] at hplace
      rw [hplace]
  case ensured =>
    exact fun day => updates_replace he (Employee.Planned.ensure.id_eq.trans hid) (hi (.ensure day))
      (ha.ensure hid day)
  case covered =>
    intro first last
    obtain ⟨hagrees, hanswer⟩ := ha.populate hid first last
    exact ⟨hanswer.symm, updates_replace he hid (hi (.populate first last)) hagrees⟩

end Follows

namespace Deeds

theorem traces (hr : l.roster.Crewed) (h : Deeds l l') : l.roster.Traces l'.roster := by
  induction h
  case refl => exact hr.traces
  case step hd ih => exact traces_deed ih hd

-- From whatever table a diary starts, and whatever is done to it, it is kept. Whatever is done to a ledger, the
-- calendar of every employee holds what a diary does that started with it, and the ledger goes on with the
-- calendar as with that diary.
theorem dates_in_step :
    (∀ id t b, Diary.Steps id (.ofTable t) b → Diary.Kept id t b) ∧
    ∀ l l', l.roster.Crewed → Deeds l l' → ∀ id e₀, l.roster.employees.get? id = some e₀ →
      ∃ e b, l'.roster.employees.get? id = some e ∧ Diary.Steps id (.ofTable e₀.calendar.table) b ∧
        b.Holds e.calendar ∧ l'.Follows id e b := by
  refine ⟨fun id t b h => h.kept, fun l l' hr h id e₀ he₀ => ?_⟩
  obtain ⟨e, he, htraces⟩ := (h.traces hr).exists_of_get?_first he₀
  obtain ⟨b, hsteps, hagrees⟩ := htraces.kept
  exact ⟨e, b, he, hsteps, hsteps.kept.holds hagrees, follows he htraces.id_eq hsteps hagrees⟩

end Deeds
end Ledger

-- A roster of one employee, who works on the ground on one day.
def Roster.alone : Roster where
  first := .after 738944
  last := .after 738944
  reference := .build [] [] []
  flights := .empty
  assignments := .empty
  employees := .ofList [("E", grounded (.after 738944))]

namespace Ledger.Deeds

theorem crewed_alone : Roster.alone.Crewed := by
  intro id e he
  have hentry : (id, e) ∈ [("E", Roster.grounded (.after 738944))] := Registry.get?_eq_some.1 he
  obtain ⟨rfl, rfl⟩ := Prod.mk.inj (List.mem_singleton.1 hentry)
  rfl

-- A day after it gets its duty, then the day itself keeps its own, and then a day long before gets one.
theorem dates_in_step_alone : ∃ l e b, Deeds (.ofRoster .alone) l ∧ l.roster.employees.get? "E" = some e ∧
    Diary.Steps "E" (.ofTable (Roster.grounded (.after 738944)).calendar.table) b ∧
    Diary.Kept "E" (Roster.grounded (.after 738944)).calendar.table b ∧ b.Holds e.calendar ∧
    b.dates = [.after 365, .after 738944, .after 738945] := by
  let e₁ := ((Roster.grounded (.after 738944)).ensure (.after 738945)).1
  let l₁ := ((ofRoster .alone).ensure (Roster.grounded (.after 738944)) (.after 738945)).1
  have h₀ : (ofRoster .alone).roster.employees.get? "E" =
      some (Roster.grounded (.after 738944)) := rfl
  have s₁ : Deeds (.ofRoster .alone) l₁ := .step .refl (.ensure h₀ _)
  have h₁ : l₁.roster.employees.get? "E" = some e₁ := rfl
  let l₂ := (l₁.place e₁ (.placeholder "E" (.after 738944))).1
  have s₂ : Deeds (.ofRoster .alone) l₂ := .step s₁ (.place h₁ _)
  have h₂ : l₂.roster.employees.get? "E" = some e₁ := rfl
  have s₃ : Deeds (.ofRoster .alone) (l₂.ensure e₁ (.after 365)).1 := .step s₂ (.ensure h₂ _)
  obtain ⟨hkept, hledger⟩ := dates_in_step
  obtain ⟨e, b, he, hsteps, hholds, -⟩ := hledger _ _ crewed_alone s₃ "E" _ h₀
  refine ⟨_, e, b, s₃, he, hsteps, hkept _ _ _ hsteps, hholds, hholds.dates.trans ?_⟩
  obtain rfl : (e₁.ensure (.after 365)).1 = e := Option.some.inj he
  decide

end Ledger.Deeds
end CrewRoster
