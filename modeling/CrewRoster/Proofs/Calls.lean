import CrewRoster.Proofs.Mirror
import CrewRoster.Proofs.Steps

namespace CrewRoster.Ledger

-- Nothing is told, and no duty changes.
structure Silent (l l' : Ledger) : Prop where
  notices : l'.notices = l.notices
  others : ∀ i day, l'.roster.dutyAt i day = l.roster.dutyAt i day

-- The duty of an employee on a day, an empty one if there was none, is written in the fields `fs`, one
-- after the other. Only that is told, and no other duty changes.
structure Writes (l : Ledger) (id : String) (day : Date) (fs : List Field) (l' : Ledger) : Prop where
  told : ∃ d d' ns, (l.roster.dutyAt id day).getD (.placeholder id day) = d ∧
    d.employee = id ∧ d.date = day ∧ Tells d ns fs d' ∧ l'.notices = l.notices ++ ns ∧
    l'.roster.dutyAt id day = some d'
  others : ∀ i day', ¬(i = id ∧ day' = day) → l'.roster.dutyAt i day' = l.roster.dutyAt i day'

-- The duty of an employee on a day lists these seats, in order, and its fields follow from them.
structure Stands (l : Ledger) (id : String) (day : Date) (listed : Seat → Prop) (d : Duty) : Prop where
  there : l.roster.dutyAt id day = some d
  mem : ∀ s, s ∈ d.seats ↔ listed s
  ordered : Seat.Ordered d.seats
  current : d.Current

-- A seat leaves the duty of its owner, where the others stay. The code is written only when none is left.
def Leaves (l : Ledger) (a : Assignment) (l' : Ledger) : Prop :=
  match a.owner with
  | none => Silent l l'
  | some id => ∃ d', Stands l' id a.seat.departureDate
      (fun s => l.roster.Lists id a.seat.departureDate s ∧ s ≠ a.seat) d' ∧
    Writes l id a.seat.departureDate (if d'.seats = [] then Field.all else Field.times) l'

-- A seat enters the duty of its owner, beside those that are there.
def Enters (l : Ledger) (a : Assignment) (l' : Ledger) : Prop :=
  match a.owner with
  | none => Silent l l'
  | some id => (∃ d', Stands l' id a.seat.departureDate
      (fun s => s = a.seat ∨ l.roster.Lists id a.seat.departureDate s) d') ∧
    Writes l id a.seat.departureDate Field.all l'

-- First the duty of the old owner is written, then the duty of the new one.
def Changes (l : Ledger) (a : Assignment) (owner : Option String) (l' : Ledger) : Prop :=
  ∃ l₁, Leaves l a l₁ ∧ Enters l₁ { a with owner } l'

-- The changes that a plan asks for, one after the other.
inductive Applied : Plan → Ledger → Ledger → Prop
  | nil {l} : Applied [] l l
  | skip {seat owner plan l l' a} (ha : l.roster.assignment seat = .ok a) (ho : a.owner = owner)
    (h : Applied plan l l') : Applied ((seat, owner) :: plan) l l'
  | change {seat owner plan l l₁ l' a} (ha : l.roster.assignment seat = .ok a) (ho : a.owner ≠ owner)
    (h₁ : l.assign a owner = (l₁, .ok ())) (hc : Changes l a owner l₁) (h : Applied plan l₁ l') :
    Applied ((seat, owner) :: plan) l l'

inductive Call
  | release (seat : String)
  | settle (seat : String)
  | assign (seat : String) (owner : Option String)
  | apply (plan : Plan)
  | write (owner : Option String)

namespace Call

-- `c.Succeeds l l'`: the call goes well and makes `l'` of `l`. Owners are written only while pending.
inductive Succeeds : Call → Ledger → Ledger → Prop
  | release {seat a l l'} (ha : l.roster.assignment seat = .ok a) (h : l.release a = (l', .ok ())) :
    Succeeds (.release seat) l l'
  | settle {seat a l l'} (ha : l.roster.assignment seat = .ok a) (h : l.settle a = (l', .ok ())) :
    Succeeds (.settle seat) l l'
  | assign {seat owner a l l'} (ha : l.roster.assignment seat = .ok a)
    (h : l.assign a owner = (l', .ok ())) : Succeeds (.assign seat owner) l l'
  | apply {plan n l l'} (h : l.apply plan = (l', .ok n)) : Succeeds (.apply plan) l l'
  | write {seat owner l} (h : l.pending = some seat) :
    Succeeds (.write owner) l (l.setOwner seat owner)

-- What a call may tell and write.
def Effect (c : Call) (l l' : Ledger) : Prop :=
  match c with
  | release seat => ∃ a, l.roster.assignment seat = .ok a ∧ Leaves l a l'
  | settle seat => ∃ a, l.roster.assignment seat = .ok a ∧ Enters l a l'
  | assign seat owner => ∃ a, l.roster.assignment seat = .ok a ∧ Changes l a owner l'
  | apply plan => Applied plan l l'
  | write _ => Silent l l'

end Call

-- Calls that succeed, in a row.
inductive Calls : Ledger → List Call → Ledger → Prop
  | nil {l} : Calls l [] l
  | snoc {l l₁ l₂ cs c} (h : Calls l cs l₁) (hc : c.Succeeds l₁ l₂) : Calls l (cs ++ [c]) l₂

variable {l l₀ l₁ l' : Ledger} {a : Assignment} {k : String} {owner : Option String} {m : Mirror}
  {plan : Plan} {count n : Nat} {cs : List Call} {c : Call} {id : String} {day : Date}
  {fs : List Field} {d : Duty} {e : Edit}

section Taken

variable {emp : Employee} (he : l.roster.employees.get? id = some emp)
  (hr : l'.roster = l.roster.putDuty id day e.duty)
include he hr

-- An edit that is taken over writes the duty that it began with.
theorem writes_of_wrote (hw : Edit.Wrote d fs e)
    (hd : (l.roster.dutyAt id day).getD (.placeholder id day) = d) (hid : d.employee = id)
    (hday : d.date = day) (hn : l'.notices = l.notices ++ e.notices) : Writes l id day fs l' := by
  constructor
  case told =>
    refine ⟨d, e.duty, e.notices, hd, hid, hday, hw.told, hn, ?_⟩
    rw [hr, Roster.dutyAt_putDuty he, if_pos ⟨rfl, rfl⟩]
  case others =>
    intro i day' h
    rw [hr, Roster.dutyAt_putDuty he, if_neg h]

-- What it made of the seats is what the duty lists from then on.
theorem stands_of_remade {seats : List Seat} {listed : Seat → Prop} (hm : d.Remade seats fs e)
    (ho : Seat.Ordered seats) (hlisted : ∀ s, s ∈ seats ↔ listed s) :
    Stands l' id day listed e.duty where
  there := by rw [hr, Roster.dutyAt_putDuty he, if_pos ⟨rfl, rfl⟩]
  mem := hm.seats ▸ hlisted
  ordered := hm.seats ▸ ho
  current := hm.current

end Taken

-- Duties and notices are the same whoever owns the pending seat.
theorem Enters.of_setOwner (h : (l.setOwner k owner).Enters a l') : l.Enters a l' := by
  unfold Enters at *
  cases ho : a.owner with
  | none =>
    rw [ho] at h
    exact ⟨h.notices, h.others⟩
  | some id =>
    rw [ho] at h
    exact ⟨h.1, h.2.told, h.2.others⟩

namespace Consistent

variable (h : l.Consistent) (hp : l.roster.Plain) (ha : l.roster.assignments.get? k = some a)
include h hp ha

theorem leaves (hs : l.release a = (l', .ok ())) : Leaves l a l' := by
  cases hn : l.pending with
  | some j =>
    rw [release_of_pending hn] at hs
    cases hs
  | none =>
    unfold Leaves
    cases ho : a.owner with
    | none =>
      rw [release_of_unowned hn ho] at hs
      cases hs
      exact ⟨rfl, fun _ _ => rfl⟩
    | some id =>
      obtain ⟨d, hd, hm, hr, heq⟩ := h.release_owned hp hn ha ho
      obtain ⟨emp, he, -⟩ := Roster.dutyAt_eq_some.1 hd
      rw [heq, record_of_wrote hr.wrote] at hs
      cases hs
      have hlisted : ∀ s, s ∈ Duty.eraseSeat d.seats a.seat ↔
          l.roster.Lists id a.seat.departureDate s ∧ s ≠ a.seat := fun s => by
        rw [Duty.mem_eraseSeat (h.ordered hd) hm]
        simp [Roster.Lists, hd]
      refine ⟨(d.retract a.seat).duty, stands_of_remade he rfl hr
        (Duty.eraseSeat_ordered (h.ordered hd) hm) hlisted, ?_⟩
      rw [hr.seats]
      exact writes_of_wrote he rfl hr.wrote (by rw [hd, Option.getD_some]) (h.crewOf hd) (h.dated hd) rfl

theorem enters (hs : l.settle a = (l', .ok ())) : Enters l a l' := by
  by_cases hn : l.pending = some k
  · unfold Enters
    cases ho : a.owner with
    | none =>
      rw [settle_of_unowned (h.seatId ha ▸ hn) ho] at hs
      cases hs
      exact ⟨rfl, fun _ _ => rfl⟩
    | some id =>
      cases he : l.roster.employees.get? id with
      | none =>
        rw [settle_of_unknown (h.seatId ha ▸ hn) ho he] at hs
        cases hs
      | some emp =>
        have hr := h.remade_of_settle hp ha he
        rw [settle_of_known (h.seatId ha ▸ hn) ho he, record_of_wrote hr.wrote] at hs
        cases hs
        exact ⟨⟨_, stands_of_remade he rfl hr (h.listing.ordered_entered ha _ hn he)
            fun s => h.listing.mem_entered ha _ hn he⟩,
          writes_of_wrote he rfl hr.wrote (h.getD_dutyAt he) (h.employee_ensure he)
            (Employee.date_ensure (h.calendar_dated he)) rfl⟩
  · rw [settle_of_not_pending (h.seatId ha ▸ hn)] at hs
    cases hs

theorem changes (hs : l.assign a owner = (l', .ok ())) : Changes l a owner l' := by
  by_cases hk : ∀ id ∈ owner, ∃ emp, l.roster.employees.get? id = some emp
  · cases hn : l.pending with
    | some j =>
      rw [assign_of_known hk, release_of_pending hn] at hs
      cases hs
    | none =>
      obtain ⟨l₁, h₁, hn₁, hc₁, ha₁⟩ := h.release_ok hp hn ha
      have hp₁ : (l₁.setOwner k owner).roster.Plain :=
        hp.of_blank_eq ((blank_of_release h₁).symm.trans (Roster.blank_setOwner owner).symm)
      have ha₂ : (l₁.setOwner k owner).roster.assignments.get? k = some { a with owner } := by
        rw [Ledger.setOwner, Roster.get?_setOwner_of_some (ha₁ ▸ ha), if_pos rfl]
      rw [assign_of_known hk, h₁, andThen, h.seatId ha] at hs
      exact ⟨l₁, h.leaves hp ha h₁, ((hc₁.setOwner hn₁).enters hp₁ ha₂ hs).of_setOwner⟩
  · push Not at hk
    obtain ⟨id, rfl, he⟩ := hk
    rw [assign_of_unknown (Option.eq_none_iff_forall_ne_some.2 he)] at hs
    cases hs

end Consistent

theorem Consistent.applied (h : l.Consistent) (hp : l.roster.Plain)
    (hs : l.follow count plan = (l', .ok n)) : Applied plan l l' := by
  induction plan generalizing l count with
  | nil =>
    cases hs
    exact .nil
  | cons p plan ih =>
    obtain ⟨seat, owner⟩ := p
    rw [Ledger.follow] at hs
    split at hs
    · cases hs
    · next a ha =>
      have hget := Result.elim_eq_ok.1 ha
      split at hs
      · next ho => exact .skip ha ho (ih h hp hs)
      · next ho =>
        split at hs
        · next l₁ h₁ =>
          have hc₁ : (l.assign a owner).1.Consistent := h.assign hp hget
          have hb₁ : (l.assign a owner).1.roster.blank = l.roster.blank := blank_assign
          rw [h₁] at hc₁ hb₁
          exact .change ha ho h₁ (h.changes hp hget h₁) (ih hc₁ (hp.of_blank_eq hb₁.symm) hs)
        · cases hs

-- Each call that succeeds tells and writes what it may.
theorem Call.Succeeds.effect (hs : c.Succeeds l l') (h : l.Consistent) (hp : l.roster.Plain) :
    c.Effect l l' := by
  cases hs
  case release a ha hs => exact ⟨a, ha, h.leaves hp (Result.elim_eq_ok.1 ha) hs⟩
  case settle a ha hs => exact ⟨a, ha, h.enters hp (Result.elim_eq_ok.1 ha) hs⟩
  case assign a ha hs => exact ⟨a, ha, h.changes hp (Result.elim_eq_ok.1 ha) hs⟩
  case apply plan n hs =>
    unfold Ledger.apply at hs
    split at hs
    · cases hs
    · exact h.applied hp hs
  case write => exact ⟨rfl, fun _ _ => rfl⟩

-- What a mirror that has heard all notices since `l₀` is to `l`: right about every duty that it has
-- heard of, while the others are as they were.
structure Agrees (m : Mirror) (l₀ l : Ledger) : Prop where
  heard : ∀ {id day t}, m id day = some t → ∃ d, l.roster.dutyAt id day = some d ∧ d.tracked = t
  unheard : ∀ {id day}, m id day = none → l.roster.dutyAt id day = l₀.roster.dutyAt id day

def Mirrored (m : Mirror) (l₀ l : Ledger) : Prop :=
  ∃ ns, l.notices = l₀.notices ++ ns ∧ Bracketed ns ∧ Agrees (m.hearAll ns) l₀ l

namespace Mirrored

theorem silent (h : Mirrored m l₀ l) (hs : Silent l l') : Mirrored m l₀ l' := by
  obtain ⟨ns, hn, hb, hm⟩ := h
  refine ⟨ns, hs.notices.trans hn, hb, ?_, ?_⟩
  · exact fun ht => by simpa only [hs.others] using hm.heard ht
  · exact fun ht => (hs.others _ _).trans (hm.unheard ht)

theorem writes (h : Mirrored m l₀ l) (hw : Writes l id day fs l') (hfs : fs ≠ []) :
    Mirrored m l₀ l' := by
  obtain ⟨ns, hn, hb, hm⟩ := h
  obtain ⟨d, d', ns', hd, rfl, rfl, ht, hn', hd'⟩ := hw.told
  -- what the mirror knows of the duty before it is written
  have hbefore : ∀ t ∈ m.hearAll ns d.employee d.date, t = d.tracked := by
    intro t h
    obtain ⟨d₁, hd₁, rfl⟩ := hm.heard h
    rw [hd₁, Option.getD_some] at hd
    rw [hd]
  have hafter := (Mirror.hearAll_tells ht hbefore).2 hfs
  have hothers : ∀ i day, ¬(i = d.employee ∧ day = d.date) →
      m.hearAll (ns ++ ns') i day = m.hearAll ns i day := by
    intro i day hne
    rw [Mirror.hearAll_append]
    refine Mirror.hearAll_of_other fun n hn he => hne ?_
    obtain ⟨h₁, h₂⟩ := ht.duty_of_mem n hn
    exact ⟨he.1.trans h₁, he.2.trans h₂⟩
  refine ⟨ns ++ ns', by rw [hn', hn, List.append_assoc], hb.append ht.bracketed, ?_, ?_⟩
  · intro i day t h
    by_cases hi : i = d.employee ∧ day = d.date
    · obtain ⟨rfl, rfl⟩ := hi
      rw [Mirror.hearAll_append, hafter] at h
      exact ⟨d', hd', Option.some.inj h⟩
    · rw [hothers i day hi] at h
      rw [hw.others i day hi]
      exact hm.heard h
  · intro i day h
    by_cases hi : i = d.employee ∧ day = d.date
    · obtain ⟨rfl, rfl⟩ := hi
      rw [Mirror.hearAll_append, hafter] at h
      cases h
    · rw [hothers i day hi] at h
      exact (hw.others i day hi).trans (hm.unheard h)

theorem leaves (h : Mirrored m l₀ l) (hl : Leaves l a l') : Mirrored m l₀ l' := by
  unfold Leaves at hl
  cases ho : a.owner with
  | none =>
    rw [ho] at hl
    exact h.silent hl
  | some id =>
    rw [ho] at hl
    obtain ⟨d', -, hw⟩ := hl
    refine h.writes hw ?_
    split <;> simp [Field.all, Field.times]

theorem enters (h : Mirrored m l₀ l) (he : Enters l a l') : Mirrored m l₀ l' := by
  unfold Enters at he
  cases ho : a.owner with
  | none =>
    rw [ho] at he
    exact h.silent he
  | some id =>
    rw [ho] at he
    exact h.writes he.2 (by simp [Field.all])

theorem changes (h : Mirrored m l₀ l) (hc : Changes l a owner l') : Mirrored m l₀ l' := by
  obtain ⟨l₁, hl, he⟩ := hc
  exact (h.leaves hl).enters he

theorem applied (h : Mirrored m l₀ l) (ha : Applied plan l l') : Mirrored m l₀ l' := by
  induction ha
  case nil => exact h
  case skip ih => exact ih h
  case change hc _ ih => exact ih (h.changes hc)

theorem effect (h : Mirrored m l₀ l) (he : c.Effect l l') : Mirrored m l₀ l' := by
  cases c with
  | release seat =>
    obtain ⟨a, -, hl⟩ := he
    exact h.leaves hl
  | settle seat =>
    obtain ⟨a, -, he⟩ := he
    exact h.enters he
  | assign seat owner =>
    obtain ⟨a, -, hc⟩ := he
    exact h.changes hc
  | apply plan => exact h.applied he
  | write owner => exact h.silent he

end Mirrored

-- A call that succeeds is a step.
theorem Call.Succeeds.step (hs : c.Succeeds l l') : Step l l' := by
  cases hs
  case release ha hs =>
    have s := Step.release ha
    rwa [hs] at s
  case settle ha hs =>
    have s := Step.settle ha
    rwa [hs] at s
  case assign owner a ha hs =>
    have s := Step.assign ha owner
    rwa [hs] at s
  case apply plan n hs =>
    have s := Step.apply (l := l) plan
    rwa [hs] at s
  case write owner hs => exact .write hs owner

namespace Calls

variable (h : Calls l₀ cs l) (hc : l₀.Consistent) (hp : l₀.roster.Plain)
include h hc hp

theorem consistent_and_plain : l.Consistent ∧ l.roster.Plain := by
  induction h
  case nil => exact ⟨hc, hp⟩
  case snoc hs ih =>
    obtain ⟨hc₁, hp₁⟩ := ih
    exact ⟨hs.step.consistent hc₁ hp₁, hp₁.of_blank_eq (hs.step.blank hc₁).symm⟩

-- 1. A mirror that was right about all it knew when the calls began is right after every call, about
--    what it knew and what it has heard of; and the writes have come as pairs of an announcement and a
--    report.
-- 2. Each call writes the duties that it is about, field by field, and no other.
theorem mirrored (hm : Agrees m l₀ l₀) :
    Mirrored m l₀ l ∧ ∀ (c : Call) (l' : Ledger), c.Succeeds l l' → c.Effect l l' := by
  constructor
  · induction h
    case nil => exact ⟨[], by simp, .nil, hm⟩
    case snoc hcalls hs ih =>
      obtain ⟨hc₁, hp₁⟩ := hcalls.consistent_and_plain hc hp
      exact ih.effect (hs.effect hc₁ hp₁)
  · obtain ⟨hc', hp'⟩ := h.consistent_and_plain hc hp
    exact fun c l' hs => hs.effect hc' hp'

end Calls

-- A mirror that knows nothing yet hears of the duty in which the one seat of an instance goes to its one
-- employee.
theorem Calls.mirrored_smallest : ∃ (r : Roster) (a : Assignment) (l : Ledger),
    r.Plain ∧ (Ledger.ofRoster r).Consistent ∧
    Calls (.ofRoster r) [.assign "1@2024-06-03#0" (some "E")] l ∧
    l.roster.assignment "1@2024-06-03#0" = .ok { a with owner := some "E" } ∧
    Mirrored (fun _ _ => none) (.ofRoster r) l := by
  obtain ⟨scenario, r, s, e, hload, hp, hs, he, -⟩ := loads_smallest
  obtain ⟨a, ha⟩ : ∃ a, r.assignments.get? "1@2024-06-03#0" = some a := by simp [Registry.get?, hs]
  have he : r.employees.get? "E" = some e := by simp [Registry.get?, he]
  have hc := (fresh_of_loadInstance hload).consistent hp
  obtain ⟨l, h, -, -, hassignments⟩ := hc.assign_ok hp ha (some "E") rfl fun id hid => by
    obtain rfl := Option.some.inj hid
    exact ⟨e, he⟩
  have hcalls : Calls (.ofRoster r) [.assign "1@2024-06-03#0" (some "E")] l :=
    .snoc .nil (.assign (Result.elim_eq_ok.2 ha) h)
  have howner : l.roster.assignments.get? "1@2024-06-03#0" = some { a with owner := some "E" } := by
    rw [hassignments]
    exact Roster.get?_setOwner_of_some ha
  have hagrees : Agrees (fun _ _ => none) (.ofRoster r) (.ofRoster r) := by
    constructor
    · intro id day t ht
      cases ht
    · exact fun _ => rfl
  exact ⟨r, a, l, hp, hc, hcalls, Result.elim_eq_ok.2 howner, (hcalls.mirrored hc hp hagrees).1⟩

end CrewRoster.Ledger
