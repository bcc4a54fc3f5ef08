import CrewRoster.Proofs.Loading

namespace CrewRoster.Ledger

-- All flights are plain, those of the seats and those that the duties list. Nothing else is known: owners
-- and duties need not agree, and a duty need not be in order, nor belong to the employee in whose calendar it
-- stands, or on the date under which it stands there.
structure Plain (l : Ledger) : Prop where
  seats : l.roster.Plain
  duties : ∀ {id day s}, l.roster.Lists id day s → s.flight.Plain

-- One half of a change, by its seat.
inductive Hook
  | before (seat : String)
  | after (seat : String)

-- `Alternates p hs q`: from `p` pending to `q` pending the halves `hs` take turns, and each second half is
-- about the seat of the first half in front of it.
inductive Alternates : Option String → List Hook → Option String → Prop
  | nil {p} : Alternates p [] p
  | before {seat hs q} (h : Alternates (some seat) hs q) : Alternates none (.before seat :: hs) q
  | after {seat hs q} (h : Alternates none hs q) : Alternates (some seat) (.after seat :: hs) q

theorem Alternates.append {p q t : Option String} {hs hs' : List Hook} (h : Alternates p hs q)
    (h' : Alternates q hs' t) : Alternates p (hs ++ hs') t := by
  induction h
  case nil => exact h'
  case before ih => exact .before (ih h')
  case after ih => exact .after (ih h')

-- A half counts if it succeeds.
def counted (hook : Hook) (o : Outcome Unit) : List Hook :=
  match o.2 with
  | .ok () => [hook]
  | .error _ => []

-- What can be done about a seat. Its owner may be written at any time, behind the ledger's back.
inductive Act
  | release
  | settle
  | assign (owner : Option String)
  | write (owner : Option String)

namespace Act

def run (l : Ledger) (a : Assignment) : Act → Outcome Unit
  | release => l.release a
  | settle => l.settle a
  | assign owner => l.assign a owner
  | write owner => (l.setOwner a.seat.id owner, .ok ())

-- The halves that succeed on the way, those within a whole change among them.
def hooks (l : Ledger) (a : Assignment) : Act → List Hook
  | release => counted (.before a.seat.id) (l.release a)
  | settle => counted (.after a.seat.id) (l.settle a)
  | assign owner =>
    match owner.mapM l.employee, l.release a with
    | .ok _, (l, .ok ()) =>
      .before a.seat.id ::
        counted (.after a.seat.id) ((l.setOwner a.seat.id owner).settle { a with owner })
    | _, _ => []
  | write _ => []

end Act

-- Acts in a row, whether they succeed or not, with the halves that do.
inductive Turns : Ledger → List Hook → Ledger → Prop
  | nil {l} : Turns l [] l
  | snoc {l hs l₁ seat a} (h : Turns l hs l₁) (ha : l₁.roster.assignment seat = .ok a) (act : Act) :
    Turns l (hs ++ act.hooks l₁ a) (act.run l₁ a).1

-- How an act goes that counts `hs`: it fails only by being refused, and then without a trace; its halves
-- take turns.
structure Guarded (l : Ledger) (o : Outcome Unit) (hs : List Hook) : Prop where
  refused : ∀ fault, o.2 = .error fault → (∃ why, fault = .breach why) ∧ o.1 = l
  alternates : Alternates l.pending hs o.1.pending
  plain : o.1.Plain

-- `Ends l p q o`: a call that goes from `p` pending to `q` pending is carried out, or refused.
inductive Ends (l : Ledger) (p q : Option String) : Outcome Unit → Prop
  | done {l'} (hp : l.pending = p) (hq : l'.pending = q) (h : l'.Plain) : Ends l p q (l', .ok ())
  | refused (why : Breach) : Ends l p q (l, .error (.breach why))

variable {l l' : Ledger} {a : Assignment} {d : Duty} {e : Edit} {owner : Option String}
  {fs : List Field} {seat id : String} {hs : List Hook} {o : Outcome Unit} {act : Act}

namespace Plain

theorem of_duties (h : l.Plain) (ha : l'.roster.assignments = l.roster.assignments)
    (hd : ∀ {id day s}, l'.roster.Lists id day s → s.flight.Plain) : l'.Plain :=
  ⟨fun k a hk => h.seats k a (ha ▸ hk), hd⟩

theorem setOwner (h : l.Plain) : (l.setOwner seat owner).Plain :=
  ⟨h.seats.of_blank_eq (Roster.blank_setOwner owner).symm, h.duties⟩

-- An edit that went well is taken over as a whole.
theorem record {day : Date} (h : l.Plain) (hw : Edit.Wrote d fs e) (hs : ∀ t ∈ e.duty.seats, t.flight.Plain) :
    ∃ l', l.record id day e = (l', .ok ()) ∧ l'.pending = l.pending ∧ l'.Plain := by
  refine ⟨_, record_of_wrote hw, rfl, h.of_duties rfl fun hl => ?_⟩
  rcases Roster.lists_of_putDuty hl with hm | hl
  · exact hs _ hm
  · exact h.duties hl

theorem of_seats (h : l.roster.Plain)
    (hs : ∀ e ∈ l.roster.employees.values, ∀ s ∈ e.seats, s.flight.Plain) : l.Plain := by
  refine ⟨h, fun hl => ?_⟩
  obtain ⟨d, hd, hm⟩ := hl
  obtain ⟨e, he, hd⟩ := Roster.dutyAt_eq_some.1 hd
  exact hs e (Registry.mem_values.2 ⟨_, he⟩) _ (Calendar.mem_seats.2 ⟨_, d, hd, hm⟩)

section Halves

variable (h : l.Plain) (ha : a.seat.flight.Plain)
include h ha

theorem release : Ends l none (some a.seat.id) (l.release a) := by
  have hrel := released l a
  generalize l.release a = o at hrel
  cases hrel
  case refused why _ => exact .refused why
  case unordered id d fault hd hf =>
    rw [Duty.checkOrder_of_plain (fun _ ht => h.duties ⟨d, hd, ht⟩) ha] at hf
    cases hf
  case unowned hn _ => exact .done hn rfl ⟨h.seats, h.duties⟩
  case owned id d hn _ hd hc _ =>
    have hseats : ∀ t ∈ d.seats, t.flight.Plain := fun _ ht => h.duties ⟨d, hd, ht⟩
    have hpending : ({ l with pending := some a.seat.id } : Ledger).Plain := ⟨h.seats, h.duties⟩
    obtain ⟨l', heq, hn', hp'⟩ := hpending.record (Duty.wrote_retract hseats ha) fun t ht =>
      Duty.plain_eraseSeat hseats t ((Duty.alike_retract hc).seats ▸ ht)
    rw [heq]
    exact .done hn hn' hp'

theorem settle : Ends l (some a.seat.id) none (l.settle a) := by
  have hset := settled l a
  generalize l.settle a = o at hset
  cases hset
  case refused why _ => exact .refused why
  case unowned hn _ => exact .done hn rfl ⟨h.seats, h.duties⟩
  case owned id emp hn _ he =>
    have hseats : ∀ t ∈ (emp.ensure a.seat.departureDate).2.seats, t.flight.Plain := fun _ ht =>
      h.duties ((Roster.mem_seats_ensure he).1 ht)
    have hr := Duty.remade_enter hseats ha
    have hpending : ({ l with pending := none } : Ledger).Plain := ⟨h.seats, h.duties⟩
    obtain ⟨l', heq, hn', hp'⟩ := hpending.record hr.wrote fun t ht => by
      rcases Duty.mem_of_mem_insertSeat (hr.seats ▸ ht) with rfl | ht
      · exact ha
      · exact hseats t ht
    rw [heq]
    exact .done hn hn' hp'

-- After the first half of a change to an employee who exists, nothing can fail any more.
theorem settle_assigned {l₁ : Ledger} (hrel : l.release a = (l₁, .ok ()))
    (hk : ∀ id ∈ owner, ∃ emp, l.roster.employees.get? id = some emp) :
    ∃ l', (l₁.setOwner a.seat.id owner).settle { a with owner } = (l', .ok ()) ∧
      l'.pending = none ∧ l'.Plain := by
  have hends := h.release ha
  have hb : l₁.roster.blank = l.roster.blank := blank_of_release hrel
  rw [hrel] at hends
  cases hends
  case done hn hn₁ hp₁ =>
    have hset : Ends _ _ none ((l₁.setOwner a.seat.id owner).settle { a with owner }) :=
      hp₁.setOwner.settle ha
    have hwhy := settled (l₁.setOwner a.seat.id owner) { a with owner }
    generalize (l₁.setOwner a.seat.id owner).settle { a with owner } = o at hset hwhy
    cases hset
    case done l' _ hn' hp' => exact ⟨l', rfl, hn', hp'⟩
    case refused why =>
      obtain ⟨id, hid, hnone⟩ := hwhy.unknown_of_pending hn₁
      obtain ⟨emp, he⟩ := hk id hid
      obtain ⟨emp', he', -⟩ := Roster.exists_employee_of_blank_eq hb.symm he
      exact absurd (hnone.symm.trans he') (by simp)

end Halves

end Plain

namespace Guarded

theorem of_ok (h : Alternates l.pending hs l'.pending) (hp : l'.Plain) :
    Guarded l (l', .ok ()) hs where
  refused _ hf := nomatch hf
  alternates := h
  plain := hp

theorem of_refused (hp : l.Plain) (why : Breach) : Guarded l (l, .error (.breach why)) [] where
  refused _ hf := ⟨⟨why, (Except.error.inj hf).symm⟩, rfl⟩
  alternates := .nil
  plain := hp

end Guarded

theorem Ends.guarded_before (h : Ends l none (some seat) o) (hp : l.Plain) :
    Guarded l o (counted (.before seat) o) := by
  cases h
  case done hn hn' hp' =>
    refine .of_ok ?_ hp'
    rw [hn, hn']
    exact .before .nil
  case refused why => exact .of_refused hp why

theorem Ends.guarded_after (h : Ends l (some seat) none o) (hp : l.Plain) :
    Guarded l o (counted (.after seat) o) := by
  cases h
  case done hn hn' hp' =>
    refine .of_ok ?_ hp'
    rw [hn, hn']
    exact .after .nil
  case refused why => exact .of_refused hp why

theorem Plain.guarded_assign (h : l.Plain) (ha : a.seat.flight.Plain) (owner : Option String) :
    Guarded l (l.assign a owner) ((Act.assign owner).hooks l a) := by
  by_cases hk : ∀ id ∈ owner, ∃ emp, l.roster.employees.get? id = some emp
  · obtain ⟨emp, hemp⟩ : ∃ emp, owner.mapM l.employee = .ok emp := by
      cases owner with
      | none => exact ⟨none, rfl⟩
      | some id =>
        obtain ⟨emp, he⟩ := hk id rfl
        exact ⟨some emp, by simp [employee, he]⟩
    have hset := fun l₁ (hrel : l.release a = (l₁, .ok ())) => h.settle_assigned ha hrel hk
    have hends := h.release ha
    rw [assign_of_known hk]
    simp only [Act.hooks, hemp]
    generalize l.release a = o at hset hends
    cases hends
    case refused why => exact .of_refused h why
    case done l₁ hn hn₁ _ =>
      obtain ⟨l', hl', hn', hp'⟩ := hset l₁ rfl
      simp only [andThen, hl', counted]
      refine .of_ok ?_ hp'
      rw [hn, hn']
      exact .before (.after .nil)
  · push Not at hk
    obtain ⟨id, rfl, he⟩ := hk
    have he := Option.eq_none_iff_forall_ne_some.2 he
    have hemp : (some id).mapM l.employee = .error (.breach (.unknownEmployee id)) := by
      simp [employee, he]
    rw [assign_of_unknown he]
    simp only [Act.hooks, hemp]
    exact .of_refused h _

-- What one act does.
theorem Plain.guarded_act (h : l.Plain) (ha : a.seat.flight.Plain) (act : Act) :
    Guarded l (act.run l a) (act.hooks l a) := by
  cases act with
  | release => exact (h.release ha).guarded_before h
  | settle => exact (h.settle ha).guarded_after h
  | assign owner => exact h.guarded_assign ha owner
  | write owner => exact .of_ok .nil h.setOwner

namespace Turns

theorem plain (h : Turns l hs l') (hp : l.Plain) : l'.Plain := by
  induction h
  case nil => exact hp
  case snoc ha act ih => exact (ih.guarded_act (ih.seats _ _ (Result.elim_eq_ok.1 ha)) act).plain

-- Whatever is done about the seats, in whatever order, and whatever the owners and duties were:
-- 1. what fails is refused, and leaves owners, duties, the pending seat and the notices as they were
-- 2. the halves that succeed take turns, a second half for the seat of each first half
theorem guarded (h : Turns l hs l') (hp : l.Plain) :
    (∀ seat a act fault, l'.roster.assignment seat = .ok a → (Act.run l' a act).2 = .error fault →
      (∃ why, fault = .breach why) ∧ (Act.run l' a act).1 = l') ∧
    Alternates l.pending hs l'.pending := by
  constructor
  · intro seat a act fault ha
    have hp' := h.plain hp
    exact (hp'.guarded_act (hp'.seats _ _ (Result.elim_eq_ok.1 ha)) act).refused fault
  · induction h
    case nil => exact .nil
    case snoc hturns ha act ih =>
      have hp' := hturns.plain hp
      exact ih.append (hp'.guarded_act (hp'.seats _ _ (Result.elim_eq_ok.1 ha)) act).alternates

end Turns

-- A whole change that goes through counts both of its halves.
theorem Act.hooks_of_assign (hs : l.assign a owner = (l', .ok ())) :
    (Act.assign owner).hooks l a = [.before a.seat.id, .after a.seat.id] := by
  unfold Ledger.assign at hs
  simp only [Act.hooks]
  cases hemp : owner.mapM l.employee with
  | error fault =>
    rw [hemp] at hs
    cases hs
  | ok emp =>
    rw [hemp] at hs
    generalize l.release a = o at hs
    obtain ⟨l₁, fault | ⟨⟨⟩⟩⟩ := o
    · cases hs
    · dsimp only [andThen] at hs
      simp [counted, hs]

end CrewRoster.Ledger

namespace CrewRoster

-- An hour in the air.
def Contents.hourFrom (number : String) (hour : ℕ) : Leg :=
  ⟨number, "A", "A", .ofDate smallest.first (.after hour 0 0), .ofDate smallest.first (.after (hour + 1) 0 0),
    "", "", ["P"]⟩

-- The duty in the calendar of "E" is that of "F", on the day after, and its flights depart at 10, 6 and 8
-- o'clock.
def Roster.disorderly : Roster where
  first := Contents.smallest.first
  last := Contents.smallest.last
  reference := Contents.smallest.reference []
  flights := .ofList (legs.map fun f => (f.flight.id, f.flight))
  assignments := .ofList (legs.map fun f => (f.seat.id, ⟨f.seat, some "E"⟩))
  employees := .ofList [
    ("E", ⟨"E", .text "E", .text "A", [], [], [], [], Calendar.empty.putOn Contents.smallest.first
      { Duty.placeholder "F" (.after 739040) with seats := legs.map (·.seat) }⟩),
    ("F", ⟨"F", .text "F", .text "A", [], [], [], [], .empty⟩)]
where
  legs : List Contents.Leg := [Contents.hourFrom "1" 10, Contents.hourFrom "2" 6, Contents.hourFrom "3" 8]

namespace Ledger

-- The bisection finds the flight at 8 o'clock, which leaves the duty where the duty stands. It misses the
-- flight at 10 o'clock, which the duty lists too, and so that one cannot leave.
theorem Turns.guarded_disorderly : ∃ (r : Roster) (ten six eight : Seat) (l : Ledger) (hs : List Hook),
    (Ledger.ofRoster r).Plain ∧ ¬Seat.Ordered [ten, six, eight] ∧
    (r.dutyAt "E" Contents.smallest.first).map (fun d => (d.employee, d.seats)) =
      some ("F", [ten, six, eight]) ∧
    hs = [.before eight.id, .after eight.id] ∧ Turns (.ofRoster r) hs l ∧ Alternates none hs none ∧
    (l.roster.dutyAt "E" Contents.smallest.first).map (fun d => (d.employee, d.seats)) =
      some ("F", [ten, six]) ∧
    l.roster.dutyAt "F" Contents.smallest.first = none ∧
    l.roster.assignment ten.id = .ok ⟨ten, some "E"⟩ ∧
    l.release ⟨ten, some "E"⟩ = (l, .error (.breach (.notInCalendar ten.id "E"))) := by
  let l₀ : Ledger := .ofRoster .disorderly
  let ten : Seat := (Contents.hourFrom "1" 10).seat
  let six : Seat := (Contents.hourFrom "2" 6).seat
  let eight : Seat := (Contents.hourFrom "3" 8).seat
  have hp : l₀.Plain := .of_seats (by decide +kernel) (by decide +kernel)
  have hlisted : (l₀.roster.dutyAt "E" Contents.smallest.first).map (fun d => (d.employee, d.seats)) =
      some ("F", [ten, six, eight]) := by
    decide +kernel
  have hassigned : (l₀.assign ⟨eight, some "E"⟩ none).2 = .ok () := by decide +kernel
  have ht : Turns l₀ [.before eight.id, .after eight.id] (l₀.assign ⟨eight, some "E"⟩ none).1 := by
    have height : l₀.roster.assignment eight.id = .ok ⟨eight, some "E"⟩ := by decide +kernel
    have := Turns.snoc .nil height (.assign none)
    rwa [Act.hooks_of_assign (Prod.ext rfl hassigned)] at this
  have hsettled : (l₀.assign ⟨eight, some "E"⟩ none).1.pending = none := by decide +kernel
  obtain ⟨hguarded, halternates⟩ := ht.guarded hp
  rw [hsettled] at halternates
  have hten : (l₀.assign ⟨eight, some "E"⟩ none).1.roster.assignment ten.id = .ok ⟨ten, some "E"⟩ := by
    decide +kernel
  have hrefused : ((l₀.assign ⟨eight, some "E"⟩ none).1.release ⟨ten, some "E"⟩).2 =
      .error (.breach (.notInCalendar ten.id "E")) := by
    decide +kernel
  have hdisorder : ¬Seat.Ordered [ten, six, eight] := fun h =>
    absurd (List.rel_of_pairwise_cons h List.mem_cons_self) (by decide +kernel)
  exact ⟨_, ten, six, eight, _, _, hp, hdisorder, hlisted, rfl, ht, halternates, by decide +kernel,
    by decide +kernel, hten, Prod.ext (hguarded _ _ .release _ hten hrefused).2 hrefused⟩

end Ledger
end CrewRoster
