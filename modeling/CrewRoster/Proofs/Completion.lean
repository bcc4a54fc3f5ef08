import CrewRoster.Proofs.Question
import CrewRoster.Proofs.Solver
import CrewRoster.Proofs.Steps

namespace CrewRoster

-- Employees who differ only in their calendars may take the same seats.
theorem Employee.Qualified.of_same {e e' : Employee} {s : Seat} (h : e.Qualified s)
    (hs : { e' with calendar := .empty } = { e with calendar := .empty }) : e'.Qualified s := by
  obtain ⟨id, name, home, skills, aircraft, extras, daysOff, calendar⟩ := e
  obtain ⟨id', name', home', skills', aircraft', extras', daysOff', calendar'⟩ := e'
  cases hs
  exact ⟨h.skill, h.aircraft, h.available⟩

-- A completion was found.
def Completion.Found (c : Completion) : Prop := c.status = .optimal ∨ c.status = .feasible

namespace Ledger

variable {l l' : Ledger} {g : Seat → Employee} {cs : List Choice} {c : Completion} {seats : List Seat}

theorem blank_assignAll : (l.assignAll cs).1.roster.blank = l.roster.blank := by
  induction cs generalizing l with
  | nil => rfl
  | cons c cs ih =>
    rw [assignAll]
    split
    · rfl
    · rw [blank_andThen fun _ _ => ih, blank_assign]

-- A completion writes owners and duties, and nothing else.
theorem blank_completeWith {solver : Solver} {weight : Int} :
    (l.completeWith solver weight).1.roster.blank = l.roster.blank := by
  unfold completeWith
  split
  · rfl
  · rw [blank_andThen fun _ _ => rfl, blank_assignAll]

-- Choices about different seats of the roster are all carried out.
theorem Consistent.assignAll_ok (h : l.Consistent) (hp : l.roster.Plain) (hn : l.pending = none)
    (hnodup : (cs.map (·.seat)).Nodup)
    (hknown : ∀ c ∈ cs, (∃ a, l.roster.assignments.get? c.seat = some a) ∧
      ∃ e, l.roster.employees.get? c.employee = some e) :
    ∃ l', l.assignAll cs = (l', .ok ()) ∧ l'.pending = none ∧ l'.Consistent ∧
      l'.roster.blank = l.roster.blank ∧
      (∀ k, k ∉ cs.map (·.seat) → l'.roster.assignments.get? k = l.roster.assignments.get? k) ∧
      ∀ c ∈ cs, ∀ a, l.roster.assignments.get? c.seat = some a →
        l'.roster.assignments.get? c.seat = some { a with owner := some c.employee } := by
  induction cs generalizing l with
  | nil => exact ⟨l, rfl, hn, h, rfl, fun _ _ => rfl, fun c hc => nomatch hc⟩
  | cons c cs ih =>
    rw [List.map_cons, List.nodup_cons] at hnodup
    obtain ⟨⟨a, ha⟩, e, he⟩ := hknown c List.mem_cons_self
    obtain ⟨l₁, h₁, hn₁, hc₁, ha₁⟩ := h.assign_ok hp ha (some c.employee) hn fun id hid => by
      obtain rfl := Option.some.inj hid
      exact ⟨e, he⟩
    have hb₁ : l₁.roster.blank = l.roster.blank := blank_of_assign h₁
    have hget : ∀ {k b}, l.roster.assignments.get? k = some b → l₁.roster.assignments.get? k =
        some { b with owner := if k = c.seat then some c.employee else b.owner } := fun hb => by
      rw [ha₁]
      exact Roster.get?_setOwner_of_some hb
    have hknown₁ : ∀ d ∈ cs, (∃ b, l₁.roster.assignments.get? d.seat = some b) ∧
        ∃ e, l₁.roster.employees.get? d.employee = some e := by
      intro d hd
      obtain ⟨⟨b, hb⟩, e, he⟩ := hknown d (List.mem_cons_of_mem _ hd)
      obtain ⟨e', he', -⟩ := Roster.exists_employee_of_blank_eq hb₁.symm he
      exact ⟨⟨_, hget hb⟩, e', he'⟩
    obtain ⟨l₂, h₂, hn₂, hc₂, hb₂, hother, hset⟩ :=
      ih hc₁ (hp.of_blank_eq hb₁.symm) hn₁ hnodup.2 hknown₁
    have hassign : l.roster.assignment c.seat = .ok a := Result.elim_eq_ok.2 ha
    refine ⟨l₂, by simp only [assignAll, hassign, h₁, andThen, h₂], hn₂, hc₂, hb₂.trans hb₁, ?_, ?_⟩
    · intro k hk
      rw [List.map_cons, List.mem_cons, not_or] at hk
      rw [hother k hk.2, ha₁, Roster.get?_setOwner]
      simp [hk.1]
    · intro d hd b hb
      rcases List.mem_cons.1 hd with rfl | hd
      · rw [hother _ hnodup.1, hget hb, if_pos rfl]
      · have hne : d.seat ≠ c.seat := fun he => hnodup.1 (he ▸ List.mem_map_of_mem hd)
        rw [hset d hd _ (hget hb), if_neg hne]

-- What a completion that was found makes of a ledger:
-- 1. who held a seat holds it still
-- 2. every open seat has one owner, with the skill and the aircraft type, on a free day
-- 3. so many seats were filled as were open, and none is open any more
-- 4. of two conflicting seats nobody holds both who did not hold them before
-- 5. duties and owners agree
structure Filled (l : Ledger) (c : Completion) (l' : Ledger) : Prop where
  kept : ∀ e s, l.roster.Owns e s → l'.roster.Owns e s
  filled : ∀ s, l.roster.Open s → ∃ e : Employee, l'.roster.employees.get? e.id = some e ∧
    e.Qualified s ∧ ∀ id, l'.roster.Owns id s ↔ id = e.id
  counted : c.filled.length = c.openSeats
  closed : l'.roster.unassigned = .ok []
  apart : ∀ e s t, l'.roster.Owns e s → l'.roster.Owns e t → s ≠ t → s.conflicts t = .ok true →
    l.roster.Owns e s ∧ l.roster.Owns e t
  consistent : l'.Consistent
  settled : l'.pending = none

section Carried

variable (hc' : l'.Consistent) (hb : l'.roster.blank = l.roster.blank) (hg : l.roster.Completes g)
  (hnew : ∀ s, l.roster.Open s → l'.roster.Owns (g s).id s)
  (hkept : ∀ e s, l.roster.Owns e s → l'.roster.Owns e s) (ht : Seat.Timetable false l.roster.seats)
include hc' hb hnew hkept

-- An owner in the end is the owner from before, or the one who was chosen.
theorem owns_of_carried {e : String} {s : Seat} (hs : l'.roster.Owns e s) :
    l.roster.Owns e s ∨ l.roster.Open s ∧ e = (g s).id := by
  have hm : s ∈ l.roster.seats := Roster.seats_of_blank_eq hb ▸ hs.mem_seats
  rcases Roster.open_or_owns hm with hopen | ⟨e', hown⟩
  · exact .inr ⟨hopen, hc'.eq_of_owns hs (hnew s hopen)⟩
  · exact .inl (hc'.eq_of_owns hs (hkept e' s hown) ▸ hown)

include ht

theorem unassigned_of_carried : l'.roster.unassigned = .ok [] := by
  have hseats : l'.roster.seats = l.roster.seats := Roster.seats_of_blank_eq hb
  obtain ⟨as, has, hperm, -⟩ := Roster.unassigned_eq hc'.toWellFormed (hseats ▸ ht)
  have hnil : as.map (·.seat) = [] := by
    refine List.eq_nil_iff_forall_not_mem.2 fun s hs => ?_
    have hopen := (Roster.mem_openSeats hperm).1 hs
    rcases Roster.open_or_owns (hseats ▸ hopen.mem_seats) with hs | ⟨e, hs⟩
    · exact hc'.not_open_of_owns (hnew s hs) hopen
    · exact hc'.not_open_of_owns (hkept e s hs) hopen
  rw [has, List.map_eq_nil_iff.1 hnil]

include hg

theorem apart_of_carried {e : String} {s t : Seat} (hs : l'.roster.Owns e s) (hm : l'.roster.Owns e t)
    (hne : s ≠ t) (hconflict : s.conflicts t = .ok true) : l.roster.Owns e s ∧ l.roster.Owns e t := by
  have hseats : l'.roster.seats = l.roster.seats := Roster.seats_of_blank_eq hb
  have hline : ∀ {u}, l'.roster.Owns e u → u.flight.OnLine false := fun hu =>
    ht.line _ (hseats ▸ hu.mem_seats)
  have hsym : t.conflicts s = .ok true := by
    rw [Seat.conflicts_eq (hline hm) (hline hs), Seat.clashes_comm,
      ← Seat.conflicts_eq (hline hs) (hline hm), hconflict]
  rcases owns_of_carried hc' hb hnew hkept hs with hold | ⟨hopen, rfl⟩
  · rcases owns_of_carried hc' hb hnew hkept hm with hold' | ⟨hopen', rfl⟩
    · exact ⟨hold, hold'⟩
    · exact absurd hsym (hg.free t s hopen' hold)
  · rcases owns_of_carried hc' hb hnew hkept hm with hold' | ⟨hopen', he⟩
    · exact absurd hconflict (hg.free s t hopen hold')
    · exact absurd he (hg.apart s t hopen hopen' hne hconflict)

end Carried

section Fill

variable (h : l.Consistent) (hp : l.roster.Plain) (hn : l.pending = none)
  (hseats : ∀ s, s ∈ seats ↔ l.roster.Open s) (hnodup : seats.Nodup) (hg : l.roster.Completes g)
  (hcs : cs.Perm (seats.map fun s => ⟨(g s).id, s.id⟩))
include h hp hn hseats hnodup hg hcs

-- The choices of a completion are carried out, and give every open seat to its employee and nothing
-- else.
theorem assignAll_completes : ∃ l', l.assignAll cs = (l', .ok ()) ∧ l'.pending = none ∧ l'.Consistent ∧
    l'.roster.blank = l.roster.blank ∧ (∀ s, l.roster.Open s → l'.roster.Owns (g s).id s) ∧
    ∀ e s, l.roster.Owns e s → l'.roster.Owns e s := by
  have hmem : ∀ {c}, c ∈ cs ↔ ∃ s, l.roster.Open s ∧ (⟨(g s).id, s.id⟩ : Choice) = c := by
    intro c
    simp [hcs.mem_iff, hseats]
  have hids : (cs.map (·.seat)).Nodup := by
    rw [(hcs.map (·.seat)).nodup_iff, List.map_map]
    refine hnodup.map_on fun s hs t ht hid => ?_
    exact h.eq_of_seatId ((hseats s).1 hs).mem_seats ((hseats t).1 ht).mem_seats hid
  have hknown : ∀ c ∈ cs, (∃ a, l.roster.assignments.get? c.seat = some a) ∧
      ∃ e, l.roster.employees.get? c.employee = some e := by
    intro c hc
    obtain ⟨s, hs, rfl⟩ := hmem.1 hc
    exact ⟨⟨_, h.open_iff.1 hs⟩, g s, hg.employee s hs⟩
  obtain ⟨l', h', hn', hc', hb', hother, hset⟩ := h.assignAll_ok hp hn hids hknown
  refine ⟨l', h', hn', hc', hb', fun s hs => ?_, fun e s hs => ?_⟩
  · exact ⟨s.id, hset _ (hmem.2 ⟨s, hs, rfl⟩) _ (h.open_iff.1 hs)⟩
  · have hs := h.owns_iff.1 hs
    refine ⟨s.id, (hother s.id fun hm => ?_).trans hs⟩
    -- a seat that is owned is not one of the open ones
    obtain ⟨c, hc, hid⟩ := List.mem_map.1 hm
    obtain ⟨t, hopen, rfl⟩ := hmem.1 hc
    have hid : t.id = s.id := hid
    have := (h.open_iff.1 hopen).symm.trans ((congrArg l.roster.assignments.get? hid).trans hs)
    simp at this

theorem filled_of_completes (ht : Seat.Timetable false l.roster.seats) (hfilled : c.filled = cs)
    (hcount : c.openSeats = seats.length) :
    ∃ l', l.assignAll cs = (l', .ok ()) ∧ Filled l c l' ∧
      ∀ s, l.roster.Open s → l'.roster.Owns (g s).id s := by
  obtain ⟨l', h', hn', hc', hb, hnew, hkept⟩ := assignAll_completes h hp hn hseats hnodup hg hcs
  refine ⟨l', h', ?_, hnew⟩
  constructor
  case kept => exact hkept
  case filled =>
    intro s hs
    obtain ⟨e, he, hsame⟩ := Roster.exists_employee_of_blank_eq hb.symm (hg.employee s hs)
    have hid : e.id = (g s).id := by
      have := congrArg Employee.id hsame
      exact this
    refine ⟨e, hid ▸ he, (hg.qualified s hs).of_same hsame, fun id => ⟨fun hown => ?_, ?_⟩⟩
    · rw [hid]
      exact hc'.eq_of_owns hown (hnew s hs)
    · rintro rfl
      exact hid ▸ hnew s hs
  case counted => rw [hfilled, hcount, hcs.length_eq, List.length_map]
  case closed => exact unassigned_of_carried hc' hb hnew hkept ht
  case apart => exact fun _ _ _ => apart_of_carried hc' hb hg hnew hkept ht
  case consistent => exact hc'
  case settled => exact hn'

end Fill

end Ledger

namespace Ledger

variable {l l' : Ledger} {solver : Solver} {c : Completion} {g : Seat → Employee} {weight : Int}
  {folder : Folder} {solved : Bool} {scenario : Scenario} {r : Roster}

-- How a completion ends:
-- 1. what was answered is carried out without a fault
-- 2. a completion that was found fills the ledger
-- 3. any other answer, a fault among them, leaves it as it was
structure Completed (l : Ledger) (answer : Result Completion) (o : Outcome Completion) : Prop where
  answered : o.2 = answer
  filled : ∀ c, answer = .ok c → c.Found → Filled l c o.1
  left : (∀ c, answer = .ok c → ¬c.Found) → o.1 = l

-- What is made of a ledger by a solver that decides every model:
-- 1. there is nothing to do if no seat is open, and only then
-- 2. there is nothing to do or a completion is found if there is one, and only then
-- 3. it has the fewest legs away from home of all completions, if it is said to be the cheapest
structure Decided (l : Ledger) (weight : Int) (o : Outcome Completion) : Prop where
  idle : (∃ c, o.2 = .ok c ∧ c.status = .nothingToDo) ↔ ∀ s, ¬l.roster.Open s
  completable : (∃ c, o.2 = .ok c ∧ (c.status = .nothingToDo ∨ c.Found)) ↔ ∃ g, l.roster.Completes g
  cheapest : 0 < weight → ∀ c, o.2 = .ok c → c.status = .optimal → ∃ g, l.roster.Completes g ∧
    (∀ s, l.roster.Open s → o.1.roster.Owns (g s).id s) ∧
    ∀ g', l.roster.Completes g' → l.roster.awayLegs g ≤ l.roster.awayLegs g'

theorem Decided.found {o : Outcome Completion} {s : Seat} (h : Decided l weight o)
    (hs : l.roster.Open s) (hg : l.roster.Completes g) : ∃ c, o.2 = .ok c ∧ c.Found := by
  obtain ⟨c, hc, hidle | hfound⟩ := h.completable.2 ⟨g, hg⟩
  · exact absurd hs (h.idle.1 ⟨c, hc, hidle⟩ s)
  · exact ⟨c, hc, hfound⟩

theorem completeWith_of_nothing {answer : Result Completion}
    (h : Completion.find solver l.roster weight = answer) (hc : ∀ c, answer = .ok c → c.filled = []) :
    l.completeWith solver weight = (l, answer) := by
  cases answer with
  | error fault => simp only [completeWith, h]
  | ok c => simp only [completeWith, h, hc c rfl, assignAll, andThen]

theorem completed_of_nothing {answer : Result Completion}
    (h : Completion.find solver l.roster weight = answer)
    (hc : ∀ c, answer = .ok c → c.filled = [] ∧ ¬c.Found) :
    Completed l answer (l.completeWith solver weight) := by
  rw [completeWith_of_nothing h fun c hanswer => (hc c hanswer).1]
  exact ⟨rfl, fun c hanswer hfound => absurd hfound (hc c hanswer).2, fun _ => rfl⟩

theorem decided_of_nothing {answer : Result Completion}
    (h : Completion.find solver l.roster weight = answer)
    (hc : ∀ c, answer = .ok c → c.filled = [] ∧ ¬c.Found)
    (hidle : (∃ c, answer = .ok c ∧ c.status = .nothingToDo) ↔ ∀ s, ¬l.roster.Open s)
    (hdone : (∃ c, answer = .ok c ∧ c.status = .nothingToDo) ↔ ∃ g, l.roster.Completes g) :
    Decided l weight (l.completeWith solver weight) := by
  rw [completeWith_of_nothing h fun c hanswer => (hc c hanswer).1]
  constructor
  case idle => exact hidle
  case completable =>
    rw [← hdone]
    exact exists_congr fun c => and_congr_right fun hanswer => or_iff_left (hc c hanswer).2
  case cheapest => exact fun _ c hanswer hstatus => absurd (.inl hstatus) (hc c hanswer).2

-- A ledger that cannot be completed has a seat that is open.
theorem decided_of_not_completes {answer : Result Completion}
    (h : Completion.find solver l.roster weight = answer)
    (hc : ∀ c, answer = .ok c → c.filled = [] ∧ ¬c.Found ∧ c.status ≠ .nothingToDo)
    (hnot : ¬∃ g, l.roster.Completes g) : Decided l weight (l.completeWith solver weight) := by
  have hbusy : ¬∃ c, answer = .ok c ∧ c.status = .nothingToDo := fun ⟨c, hanswer, hstatus⟩ =>
    (hc c hanswer).2.2 hstatus
  exact decided_of_nothing h (fun c hanswer => ⟨(hc c hanswer).1, (hc c hanswer).2.1⟩)
    (iff_of_false hbusy fun hopen => hnot (Roster.exists_completes_of_not_open hopen))
    (iff_of_false hbusy hnot)

section Complete

variable (h : l.Consistent) (hp : l.roster.Plain) (hn : l.pending = none)
  (ht : Seat.Timetable false l.roster.seats)
include h hp hn ht

section Satisfied

variable {m : Model} {seats : List Seat} {chosen : List Choice}
  (hseats : ∀ s, s ∈ seats ↔ l.roster.Open s) (hnodup : seats.Nodup)
  (hposes : l.roster.Poses weight seats m) (hs : m.Satisfies chosen.contains)
  (hfind : Completion.find solver l.roster weight = .ok c) (hcount : c.openSeats = seats.length)
  (hfilled : c.filled = m.choices.filter chosen.contains)
include hseats hnodup hposes hs hfind hcount hfilled

-- Choices that satisfy the model are those of a completion, and are carried out.
theorem completeWith_of_satisfies :
    ∃ g l', l.completeWith solver weight = (l', .ok c) ∧ Filled l c l' ∧ l.roster.Completes g ∧
      (∀ s, l.roster.Open s → l'.roster.Owns (g s).id s) ∧
      (0 < weight → m.objective chosen.contains = weight * l.roster.awayLegs g) := by
  obtain ⟨g, hg, hperm, hobjective⟩ := hposes.sound _ hs
  obtain ⟨l', hl', hl, hnew⟩ := filled_of_completes h hp hn hseats hnodup hg hperm ht hfilled hcount
  refine ⟨g, l', ?_, hl, hg, hnew, hobjective⟩
  simp only [completeWith, hfind, hfilled, hl', andThen]

theorem completed_of_satisfies (hfound : c.Found) :
    Completed l (Completion.find solver l.roster weight) (l.completeWith solver weight) := by
  obtain ⟨g, l', hl', hl, -⟩ :=
    completeWith_of_satisfies h hp hn ht hseats hnodup hposes hs hfind hcount hfilled
  rw [hl', hfind]
  constructor
  case answered => rfl
  case filled =>
    rintro c hc -
    cases hc
    exact hl
  case left => exact fun hleft => absurd hfound (hleft _ rfl)

theorem decided_of_satisfies {s : Seat} (hopen : l.roster.Open s) (hfound : c.Found)
    (hleast : c.status = .optimal →
      ∀ v, m.Satisfies v → m.objective chosen.contains ≤ m.objective v) :
    Decided l weight (l.completeWith solver weight) := by
  obtain ⟨g, l', hl', -, hg, hnew, hworth⟩ :=
    completeWith_of_satisfies h hp hn ht hseats hnodup hposes hs hfind hcount hfilled
  rw [hl']
  constructor
  case idle =>
    refine iff_of_false ?_ fun hnone => hnone s hopen
    rintro ⟨c, hc, hidle⟩
    cases hc
    simp [Completion.Found, hidle] at hfound
  case completable => exact iff_of_true ⟨c, rfl, .inr hfound⟩ ⟨g, hg⟩
  case cheapest =>
    rintro hw c hc hoptimal
    cases hc
    refine ⟨g, hg, hnew, fun g' hg' => ?_⟩
    -- the other completion is a solution too, and no solution costs less
    obtain ⟨v, hv, hworth'⟩ := hposes.complete g' hg'
    have hle := hleast hoptimal v hv
    rw [hworth hw, hworth' hw] at hle
    exact Int.le_of_mul_le_mul_left hle hw

end Satisfied

-- A solver that answers with solutions only is safe to follow.
theorem completed_of_sound (hsolver : solver.Sound) :
    Completed l (Completion.find solver l.roster weight) (l.completeWith solver weight) := by
  rcases Completion.find_cases h.toWellFormed ht solver weight with ⟨-, hfind⟩ |
    ⟨-, ⟨fault, hfind⟩ | ⟨n, shortages, hfind⟩⟩ | ⟨seats, m, -, hseats, hnodup, hposes, hfind⟩
  case inl => exact completed_of_nothing rfl (by simp [hfind, Completion.Found])
  case inr.inl.inl => exact completed_of_nothing rfl (by simp [hfind])
  case inr.inl.inr => exact completed_of_nothing rfl (by simp [hfind, Completion.Found])
  case inr.inr =>
    cases hs : solver m with
    | error fault => exact completed_of_nothing rfl (by simp [hfind, hs, Except.map])
    | ok verdict =>
      rw [hs] at hfind
      cases verdict with
      | solved chosen =>
        have hsat : m.Satisfies chosen.contains := hsolver m chosen (.inl hs)
        exact completed_of_satisfies h hp hn ht hseats hnodup hposes hsat hfind rfl rfl (.inl rfl)
      | satisfied chosen =>
        have hsat : m.Satisfies chosen.contains := hsolver m chosen (.inr hs)
        exact completed_of_satisfies h hp hn ht hseats hnodup hposes hsat hfind rfl rfl (.inr rfl)
      | infeasible | refused | undecided =>
        refine completed_of_nothing rfl ?_
        simp [hfind, Except.map, Verdict.status, Verdict.chosen, Completion.Found]

-- A solver that decides every model finds a completion where there is one, and the cheapest if it says
-- so.
theorem decided_of_exact (hsolver : solver.Exact) :
    Decided l weight (l.completeWith solver weight) := by
  rcases Completion.find_cases h.toWellFormed ht solver weight with ⟨hnone, hfind⟩ |
    ⟨hnot, ⟨fault, hfind⟩ | ⟨n, shortages, hfind⟩⟩ |
    ⟨seats, m, ⟨s, hopen⟩, hseats, hnodup, hposes, hfind⟩
  case inl =>
    exact decided_of_nothing hfind (by simp [Completion.Found]) (iff_of_true ⟨_, rfl, rfl⟩ hnone)
      (iff_of_true ⟨_, rfl, rfl⟩ (Roster.exists_completes_of_not_open hnone))
  case inr.inl.inl => exact decided_of_not_completes hfind (by simp) hnot
  case inr.inl.inr => exact decided_of_not_completes hfind (by simp [Completion.Found]) hnot
  case inr.inr =>
    by_cases hm : ∃ v, m.Satisfies v
    · obtain ⟨v, hv⟩ := hm
      obtain ⟨chosen, hs, hanswer | ⟨hanswer, hleast⟩⟩ := hsolver.found m v hv
      · rw [hanswer] at hfind
        exact decided_of_satisfies h hp hn ht hseats hnodup hposes hs hfind rfl rfl hopen (.inr rfl)
          (by simp [Verdict.status])
      · rw [hanswer] at hfind
        exact decided_of_satisfies h hp hn ht hseats hnodup hposes hs hfind rfl rfl hopen (.inl rfl)
          fun _ => hleast
    · have hinfeasible := hsolver.none m (by simpa using hm)
      refine decided_of_not_completes rfl ?_ ?_
      · simp [hfind, hinfeasible, Except.map, Verdict.status, Verdict.chosen, Completion.Found]
      · rintro ⟨g, hg⟩
        obtain ⟨v, hv, -⟩ := hposes.complete g hg
        exact hm ⟨v, hv⟩

end Complete

section Load

variable (hload : loadInstance folder solved = .ok (scenario, r)) (hp : r.Plain)
include hload hp

-- Whoever holds seats of the roster of an instance, a solver that answers with solutions only is safe to
-- follow.
theorem completed_of_load (hsolver : solver.Sound) (hb : l.roster.blank = r.blank) (h : l.Consistent)
    (hn : l.pending = none) :
    Completed l (Completion.find solver l.roster weight) (l.completeWith solver weight) := by
  refine completed_of_sound h (hp.of_blank_eq hb.symm) hn ?_ hsolver
  rw [Roster.seats_of_blank_eq hb]
  exact (consistent_of_loadInstance hload hp).2

-- Whatever was done to the roster of an instance, a solver that decides every model completes it if it
-- can be completed, and no shortage is seen where it can.
theorem decided_of_load (hsolver : solver.Exact) (hs : Steps (.ofRoster r) l) (hn : l.pending = none) :
    Decided l weight (l.completeWith solver weight) ∧
      ∀ c, (l.completeWith solver weight).2 = .ok c → c.status = .coverageInfeasible →
        ¬∃ g, l.roster.Completes g := by
  obtain ⟨hc, ht⟩ := consistent_of_loadInstance hload hp
  obtain ⟨h, hb⟩ := hs.consistent_and_blank hc hp
  have hdecided : Decided l weight (l.completeWith solver weight) := by
    refine decided_of_exact h (hp.of_blank_eq hb.symm) hn ?_ hsolver
    rw [Roster.seats_of_blank_eq hb]
    exact ht
  refine ⟨hdecided, fun c hanswer hshort hg => ?_⟩
  obtain ⟨c', hanswer', hdone⟩ := hdecided.completable.2 hg
  obtain rfl := Except.ok.inj (hanswer.symm.trans hanswer')
  simp [hshort, Completion.Found] at hdone

end Load

end Ledger

-- Two employees, and three flights of which the second overlaps with the first and the third.
def Folder.rivals : Folder where
  path := Folder.smallest.path
  file? name :=
    if name = "flights.json" then some
      "\x7b\"flights\": [\x7b\"flight_number\": \"1\", \"departure_airport\": \"A\",
        \"arrival_airport\": \"A\", \"departure_utc\": \"2024-06-03T08:00\",
        \"arrival_utc\": \"2024-06-03T10:00\", \"required_skills\": [\"P\"]\x7d,
        \x7b\"flight_number\": \"2\", \"departure_airport\": \"A\",
        \"arrival_airport\": \"A\", \"departure_utc\": \"2024-06-03T09:00\",
        \"arrival_utc\": \"2024-06-03T11:00\", \"required_skills\": [\"P\"]\x7d,
        \x7b\"flight_number\": \"3\", \"departure_airport\": \"A\",
        \"arrival_airport\": \"A\", \"departure_utc\": \"2024-06-03T10:30\",
        \"arrival_utc\": \"2024-06-03T12:00\", \"required_skills\": [\"P\"]\x7d]\x7d"
    else if name = "employees.json" then some
      "\x7b\"employees\": [\x7b\"employee_id\": \"E\", \"home_airport\": \"A\", \"skills\": [\"P\"],
        \"aircraft_type_qualifications\": [\"\"]\x7d,
        \x7b\"employee_id\": \"F\", \"home_airport\": \"A\", \"skills\": [\"P\"],
        \"aircraft_type_qualifications\": [\"\"]\x7d]\x7d"
    else Folder.smallest.file? name

namespace Contents

def early : Leg :=
  ⟨"1", "A", "A", .ofDate smallest.first (.after 8 0 0), .ofDate smallest.first (.after 10 0 0), "", "", ["P"]⟩

def middle : Leg :=
  ⟨"2", "A", "A", .ofDate smallest.first (.after 9 0 0), .ofDate smallest.first (.after 11 0 0), "", "", ["P"]⟩

def late : Leg :=
  ⟨"3", "A", "A", .ofDate smallest.first (.after 10 30 0), .ofDate smallest.first (.after 12 0 0), "", "",
    ["P"]⟩

def rivals : Contents :=
  { smallest with
    legs := [early, middle, late]
    crew := [⟨"E", "E", "A", ["P"], [""], [], [], []⟩, ⟨"F", "F", "A", ["P"], [""], [], [], []⟩] }

set_option maxRecDepth 10000 in
theorem spelledBy_rivals : rivals.SpelledBy .rivals := by
  refine spelledBy_smallest.withFiles (fun name hlegs hcrew => ?_)
    ⟨.object [("flights", .array (List.zipWith Leg.document _ _))],
      Folder.document_of_file rfl (by decide +kernel), _, rfl,
      spelledBy_documents (t := [("2024-06-03T08:00", "2024-06-03T10:00"),
        ("2024-06-03T09:00", "2024-06-03T11:00"), ("2024-06-03T10:30", "2024-06-03T12:00")])
        (by decide +kernel)⟩
    ⟨.object [("employees", .array [
        .object [("employee_id", .text "E"), ("home_airport", .text "A"), ("skills", .array [.text "P"]),
          ("aircraft_type_qualifications", .array [.text ""])],
        .object [("employee_id", .text "F"), ("home_airport", .text "A"), ("skills", .array [.text "P"]),
          ("aircraft_type_qualifications", .array [.text ""])]])],
      Folder.document_of_file rfl (by decide +kernel), [_, _], rfl,
      .cons ⟨rfl, rfl, rfl, rfl, rfl, rfl, ⟨[], rfl, .nil⟩, [], rfl, .nil⟩
        (.cons ⟨rfl, rfl, rfl, rfl, rfl, rfl, ⟨[], rfl, .nil⟩, [], rfl, .nil⟩ .nil)⟩
  simp only [Folder.document, Folder.rivals, if_neg hlegs, if_neg hcrew]

-- The flight in the middle overlaps with both others, and those two do not overlap.
theorem conflicts_rivals : early.seat.conflicts middle.seat = .ok true ∧
    middle.seat.conflicts early.seat = .ok true ∧ middle.seat.conflicts late.seat = .ok true ∧
    late.seat.conflicts early.seat = .ok false := by
  decide +kernel

end Contents

namespace Ledger

open Contents

theorem loads_rivals : ∃ scenario r e f, loadInstance .rivals false = .ok (scenario, r) ∧ r.Plain ∧
    r.assignments.entries = [("1@2024-06-03#0", ⟨early.seat, none⟩), ("2@2024-06-03#0", ⟨middle.seat, none⟩),
      ("3@2024-06-03#0", ⟨late.seat, none⟩)] ∧
    r.employees.entries = [("E", e), ("F", f)] ∧ f.Qualified middle.seat ∧ e.Qualified late.seat := by
  obtain ⟨scenario, r, hload, hp, hs, hcrew, hq⟩ := spelledBy_rivals.exists_of_load
    (P := fun r => r.Plain ∧
      r.assignments.entries = [("1@2024-06-03#0", ⟨early.seat, none⟩),
        ("2@2024-06-03#0", ⟨middle.seat, none⟩), ("3@2024-06-03#0", ⟨late.seat, none⟩)] ∧
      r.employees.keys = ["E", "F"] ∧
      ∀ e ∈ r.employees.values, e.Qualified middle.seat ∧ e.Qualified late.seat)
    (by decide +kernel)
  obtain ⟨⟨_, e⟩, _, he, rfl, hcrew⟩ := List.map_eq_cons_iff.1 hcrew
  obtain ⟨⟨_, f⟩, rfl, rfl⟩ := List.map_eq_singleton_iff.1 hcrew
  exact ⟨scenario, r, e, f, hload, hp, hs, he, (hq f (by simp [Registry.values, he])).1,
    (hq e (by simp [Registry.values, he])).2⟩

-- "E" takes the first flight. The last one is free for "E" then, and the one in the middle only for "F".
theorem seats_rivals : ∃ scenario r l g, loadInstance .rivals false = .ok (scenario, r) ∧ r.Plain ∧
    Steps (.ofRoster r) l ∧ l.roster.blank = r.blank ∧ l.Consistent ∧ l.pending = none ∧
    (∀ id s, l.roster.Owns id s ↔ id = "E" ∧ s = early.seat) ∧
    (∀ s, l.roster.Open s ↔ s = middle.seat ∨ s = late.seat) ∧
    (∀ id e, l.roster.employees.get? id = some e → id = "E" ∨ id = "F") ∧ l.roster.Completes g := by
  obtain ⟨scenario, r, e₀, f₀, hload, hp, hs, hcrew, hqf, hqe⟩ := loads_rivals
  have hc := (fresh_of_loadInstance hload).consistent hp
  have he₀ : r.employees.get? "E" = some e₀ := Registry.get?_eq_some.2 (by simp [hcrew])
  have hf₀ : r.employees.get? "F" = some f₀ := Registry.get?_eq_some.2 (by simp [hcrew])
  have hearly : r.assignments.get? "1@2024-06-03#0" = some ⟨early.seat, none⟩ :=
    Registry.get?_eq_some.2 (by simp [hs])
  obtain ⟨l, hl, hn, hcl, hassign⟩ := hc.assign_ok hp hearly (some "E") rfl fun id hid =>
    ⟨e₀, Option.some.inj hid ▸ he₀⟩
  have hb : l.roster.blank = r.blank := blank_of_assign hl
  have hentries : l.roster.assignments.entries = [("1@2024-06-03#0", ⟨early.seat, some "E"⟩),
      ("2@2024-06-03#0", ⟨middle.seat, none⟩), ("3@2024-06-03#0", ⟨late.seat, none⟩)] := by
    simp [hassign, ofRoster, Roster.setOwner, Registry.modify, hs]
  have howns : ∀ id s, l.roster.Owns id s ↔ id = "E" ∧ s = early.seat := by
    simp [Roster.Owns, Registry.get?_eq_some, hentries, and_comm]
  have hopen : ∀ s, l.roster.Open s ↔ s = middle.seat ∨ s = late.seat := by
    simp [Roster.Open, Registry.get?_eq_some, hentries, exists_or]
  obtain ⟨e, he, hsame⟩ := Roster.exists_employee_of_blank_eq hb.symm he₀
  obtain ⟨f, hf, hsame'⟩ := Roster.exists_employee_of_blank_eq hb.symm hf₀
  have hide : e.id = "E" := hcl.toWellFormed.crewId he
  have hidf : f.id = "F" := hcl.toWellFormed.crewId hf
  have hne : middle.seat ≠ late.seat := by decide +kernel
  obtain ⟨-, -, -, hfree⟩ := conflicts_rivals
  have hknown : ∀ id e, l.roster.employees.get? id = some e → id = "E" ∨ id = "F" := by
    intro id e he
    obtain ⟨e', he', -⟩ := Roster.exists_employee_of_blank_eq hb he
    have := Registry.get?_eq_some.1 he'
    simp only [hcrew, List.mem_cons, Prod.mk.injEq, List.not_mem_nil, or_false] at this
    exact this.imp And.left And.left
  refine ⟨scenario, r, l, fun s => if s = late.seat then e else f, hload, hp, ?_, hb, hcl, hn, howns, hopen,
    hknown, ?_⟩
  · have := Steps.step (.assign (l := .ofRoster r) (Result.elim_eq_ok.2 hearly) (some "E")) .refl
    rwa [hl] at this
  constructor
  case employee =>
    intro s hs
    split
    · exact hide ▸ he
    · exact hidf ▸ hf
  case qualified =>
    intro s hs
    rcases (hopen s).1 hs with rfl | rfl
    · rw [if_neg hne]
      exact hqf.of_same hsame'
    · rw [if_pos rfl]
      exact hqe.of_same hsame
  case apart =>
    rintro s t hs ht hst -
    rcases (hopen s).1 hs with rfl | rfl <;> rcases (hopen t).1 ht with rfl | rfl
    · exact absurd rfl hst
    · simp [hne, hide, hidf]
    · simp [hne, hide, hidf]
    · exact absurd rfl hst
  case free =>
    intro s t hs ht
    obtain ⟨hid, rfl⟩ := (howns _ t).1 ht
    rcases (hopen s).1 hs with rfl | rfl
    · simp [hne, hidf] at hid
    · simp [hfree]

-- The first flight stays with "E", who gets the last one too, and "F" gets the one in the middle: nobody can
-- have that one beside another.
theorem completed_of_load_rivals : ∃ scenario r l c l',
    loadInstance .rivals false = .ok (scenario, r) ∧ r.Plain ∧ l.roster.blank = r.blank ∧ l.Consistent ∧
    l.pending = none ∧ l.roster.Owns "E" early.seat ∧ l.roster.Open middle.seat ∧ l.roster.Open late.seat ∧
    l.completeWith .exhaustive 1 = (l', .ok c) ∧ c.Found ∧ Filled l c l' ∧
    l'.roster.Owns "E" early.seat ∧ l'.roster.Owns "F" middle.seat ∧ l'.roster.Owns "E" late.seat := by
  obtain ⟨scenario, r, l, g, hload, hp, -, hb, hc, hn, howns, hopen, hknown, hg⟩ := seats_rivals
  have hearly : l.roster.Owns "E" early.seat := (howns _ _).2 ⟨rfl, rfl⟩
  have hmiddle : l.roster.Open middle.seat := (hopen _).2 (.inl rfl)
  have hlate : l.roster.Open late.seat := (hopen _).2 (.inr rfl)
  have ht : Seat.Timetable false l.roster.seats :=
    Roster.seats_of_blank_eq hb ▸ (consistent_of_loadInstance hload hp).2
  have hdecided : Decided l 1 (l.completeWith .exhaustive 1) :=
    decided_of_exact hc (hp.of_blank_eq hb.symm) hn ht Solver.exhaustive_exact
  have hcompleted : Completed l (Completion.find .exhaustive l.roster 1) (l.completeWith .exhaustive 1) :=
    completed_of_load hload hp Solver.exhaustive_exact.sound hb hc hn
  have hb' : (l.completeWith .exhaustive 1).1.roster.blank = l.roster.blank := blank_completeWith
  obtain ⟨c, hc', hfound⟩ := hdecided.found hmiddle hg
  generalize hl' : l.completeWith .exhaustive 1 = o at hcompleted hc' hb'
  obtain ⟨l', answer⟩ := o
  obtain rfl : answer = .ok c := hc'
  have hfilled : Filled l c l' := hcompleted.filled c hcompleted.answered.symm hfound
  have howner : ∀ s, l.roster.Open s → l'.roster.Owns "E" s ∨ l'.roster.Owns "F" s := by
    intro s hs
    obtain ⟨e, he, -, hown⟩ := hfilled.filled s hs
    obtain ⟨e', he', -⟩ := Roster.exists_employee_of_blank_eq hb' he
    exact (hknown _ e' he').imp (fun h => (hown _).2 h.symm) fun h => (hown _).2 h.symm
  obtain ⟨hconflict, -, hconflict', -⟩ := conflicts_rivals
  -- nobody holds two seats in conflict who did not before
  have hmiddle' : l'.roster.Owns "F" middle.seat := by
    refine (howner _ hmiddle).resolve_left fun h => ?_
    have hold := (hfilled.apart _ _ _ (hfilled.kept _ _ hearly) h (by decide +kernel) hconflict).2
    exact hc.not_open_of_owns hold hmiddle
  have hlate' : l'.roster.Owns "E" late.seat := by
    refine (howner _ hlate).resolve_right fun h => ?_
    have hold := (hfilled.apart _ _ _ hmiddle' h (by decide +kernel) hconflict').2
    exact hc.not_open_of_owns hold hlate
  exact ⟨scenario, r, l, c, l', hload, hp, hb, hc, hn, hearly, hmiddle, hlate, hl', hfound, hfilled,
    hfilled.kept _ _ hearly, hmiddle', hlate'⟩

-- With "E" on the first flight the two others can be filled in one way only, and that is found.
theorem decided_of_load_rivals : ∃ scenario r l g c l',
    loadInstance .rivals false = .ok (scenario, r) ∧ r.Plain ∧ Steps (.ofRoster r) l ∧ l.pending = none ∧
    l.roster.Owns "E" early.seat ∧ l.roster.Open middle.seat ∧ l.roster.Open late.seat ∧
    l.roster.Completes g ∧
    (∀ g', l.roster.Completes g' → (g' middle.seat).id = "F" ∧ (g' late.seat).id = "E") ∧
    l.completeWith .exhaustive 1 = (l', .ok c) ∧ c.Found ∧ Decided l 1 (l', .ok c) := by
  obtain ⟨scenario, r, l, g, hload, hp, hs, hb, hc, hn, howns, hopen, hknown, hg⟩ := seats_rivals
  have hearly : l.roster.Owns "E" early.seat := (howns _ _).2 ⟨rfl, rfl⟩
  have hmiddle : l.roster.Open middle.seat := (hopen _).2 (.inl rfl)
  have hlate : l.roster.Open late.seat := (hopen _).2 (.inr rfl)
  have hdecided : Decided l 1 (l.completeWith .exhaustive 1) :=
    (decided_of_load hload hp Solver.exhaustive_exact hs hn).1
  obtain ⟨c, hc', hfound⟩ := hdecided.found hmiddle hg
  refine ⟨scenario, r, l, g, c, _, hload, hp, hs, hn, hearly, hmiddle, hlate, hg, fun g' hg' => ?_,
    Prod.ext rfl hc', hfound, hc' ▸ hdecided⟩
  obtain ⟨-, hconflict, hconflict', -⟩ := conflicts_rivals
  have hid : (g' middle.seat).id = "F" := by
    refine (hknown _ _ (hg'.employee _ hmiddle)).resolve_left fun h => ?_
    exact hg'.free _ early.seat hmiddle (h ▸ hearly) hconflict
  refine ⟨hid, (hknown _ _ (hg'.employee _ hlate)).resolve_right fun h => ?_⟩
  exact hg'.apart _ _ hmiddle hlate (by decide +kernel) hconflict' (hid.trans h.symm)

end Ledger

end CrewRoster
