import CrewRoster.Proofs.Roster

namespace CrewRoster.Ledger

variable {l l' : Ledger} {a : Assignment} {d : Duty} {day : Date} {e : Edit} {emp : Employee} {k id : String}
  {owner : Option String} {o : Outcome Unit} {fs : List Field}

theorem record_of_wrote {fs : List Field} (h : Edit.Wrote d fs e) :
    l.record id day e =
      ({ l with roster := l.roster.putDuty id day e.duty, notices := l.notices ++ e.notices }, .ok ()) := by
  simp [record, h.fault]

section Calls

-- A seat leaves the duty that lists it.
theorem release_of_listed (hp : l.pending = none) (ho : a.owner = some id)
    (hd : l.roster.dutyAt id a.seat.departureDate = some d) (hc : d.contains a.seat = .ok true) :
    l.release a = { l with pending := some a.seat.id }.record id a.seat.departureDate (d.retract a.seat) := by
  obtain ⟨emp, he, hd⟩ := Roster.dutyAt_eq_some.1 hd
  have hl : l.dutyListing a.seat id = .ok d := by
    simp [dutyListing, employee, he, hd, hc, bind, Except.bind, pure, Except.pure]
  simp [release, hp, ho, hl]

theorem release_of_unowned (hp : l.pending = none) (ho : a.owner = none) :
    l.release a = ({ l with pending := some a.seat.id }, .ok ()) := by
  simp [release, hp, ho]

theorem release_of_pending (hp : l.pending = some k) :
    l.release a = (l, .error (.breach (.stillPending a.seat.id k))) := by
  simp [release, hp, refuse]

theorem settle_of_not_pending (hp : l.pending ≠ some a.seat.id) :
    l.settle a = (l, .error (.breach (.notPending a.seat.id))) := by
  simp [settle, hp, refuse]

theorem settle_of_unowned (hp : l.pending = some a.seat.id) (ho : a.owner = none) :
    l.settle a = ({ l with pending := none }, .ok ()) := by
  simp [settle, hp, ho]

theorem settle_of_unknown (hp : l.pending = some a.seat.id) (ho : a.owner = some id)
    (he : l.roster.employees.get? id = none) :
    l.settle a = (l, .error (.breach (.unknownEmployee id))) := by
  simp [settle, hp, ho, employee, he]

theorem settle_of_known (hp : l.pending = some a.seat.id) (ho : a.owner = some id)
    (he : l.roster.employees.get? id = some emp) :
    l.settle a =
      { l with pending := none }.record id a.seat.departureDate
        ((emp.ensure a.seat.departureDate).2.enter a.seat) := by
  simp [settle, hp, ho, employee, he]

theorem assign_of_unknown (he : l.roster.employees.get? id = none) :
    l.assign a (some id) = (l, .error (.breach (.unknownEmployee id))) := by
  simp [assign, employee, he]

theorem assign_of_known (hk : ∀ id ∈ owner, ∃ emp, l.roster.employees.get? id = some emp) :
    l.assign a owner = andThen (l.release a) fun _ l =>
      (l.setOwner a.seat.id owner).settle { a with owner } := by
  cases owner with
  | none => rfl
  | some id =>
    obtain ⟨emp, he⟩ := hk id rfl
    simp [assign, employee, he]

end Calls

section Blank

-- No change of owner touches what the duties and owners are about, whether it fails or not.
theorem blank_record : (l.record id day e).1.roster.blank = l.roster.blank :=
  Roster.blank_putDuty

theorem blank_release : (l.release a).1.roster.blank = l.roster.blank := by
  unfold release
  split
  · rfl
  · rfl
  · split
    · rfl
    · exact blank_record

theorem blank_settle : (l.settle a).1.roster.blank = l.roster.blank := by
  unfold settle
  split
  · rfl
  · split
    · rfl
    · split
      · rfl
      · exact blank_record

theorem blank_andThen {α β : Type} {o : Outcome α} {f : α → Ledger → Outcome β}
    (h : ∀ x l, (f x l).1.roster.blank = l.roster.blank) :
    (andThen o f).1.roster.blank = o.1.roster.blank := by
  obtain ⟨l, fault | x⟩ := o
  · rfl
  · exact h x l

theorem blank_assign : (l.assign a owner).1.roster.blank = l.roster.blank := by
  unfold assign
  split
  · rfl
  · rw [blank_andThen fun _ l => blank_settle.trans (Roster.blank_setOwner owner), blank_release]

theorem blank_of_release {answer : Result Unit} (h : l.release a = (l', answer)) :
    l'.roster.blank = l.roster.blank := by
  have hb : (l.release a).1.roster.blank = l.roster.blank := blank_release
  rwa [h] at hb

theorem blank_of_assign {answer : Result Unit} (h : l.assign a owner = (l', answer)) :
    l'.roster.blank = l.roster.blank := by
  have hb : (l.assign a owner).1.roster.blank = l.roster.blank := blank_assign
  rwa [h] at hb

theorem blank_follow {plan : Plan} {count : Nat} :
    (l.follow count plan).1.roster.blank = l.roster.blank := by
  induction plan generalizing l count with
  | nil => rfl
  | cons p plan ih =>
    obtain ⟨seat, owner⟩ := p
    rw [follow]
    split
    case h_1 => rfl
    case h_2 =>
      split
      case isTrue => exact ih
      case isFalse =>
        split
        case h_1 h₁ => exact ih.trans (blank_of_assign h₁)
        case h_2 h₁ => exact blank_of_assign h₁

theorem blank_apply {plan : Plan} : (l.apply plan).1.roster.blank = l.roster.blank := by
  unfold apply
  split
  · rfl
  · exact blank_follow

theorem blank_of_apply {plan : Plan} {answer : Result Nat} (h : l.apply plan = (l', answer)) :
    l'.roster.blank = l.roster.blank := by
  have hb : (l.apply plan).1.roster.blank = l.roster.blank := blank_apply
  rwa [h] at hb

end Blank

-- What comes of the first half of a change:
-- 1. it is refused while another seat is pending, and where the owner has no duty that lists the seat
-- 2. it stops at a duty with whose seats the seat cannot be put in order
-- 3. a seat that nobody has is pending from now on
-- 4. a seat leaves the duty that lists it, as far as the fields of the duty can be written
inductive Released (l : Ledger) (a : Assignment) : Outcome Unit → Prop
  | refused (why : Breach) (hr : l.pending = none → ∃ id ∈ a.owner, ∀ d,
      l.roster.dutyAt id a.seat.departureDate = some d → Duty.indexOf? d.seats a.seat = none) :
    Released l a (l, .error (.breach why))
  | unordered {id : String} {d : Duty} {fault : Fault}
    (hd : l.roster.dutyAt id a.seat.departureDate = some d)
    (hf : d.checkOrder a.seat = .error fault) : Released l a (l, .error fault)
  | unowned (hn : l.pending = none) (ho : a.owner = none) :
    Released l a ({ l with pending := some a.seat.id }, .ok ())
  | owned {id : String} {d : Duty} (hn : l.pending = none) (ho : a.owner = some id)
    (hd : l.roster.dutyAt id a.seat.departureDate = some d) (hc : d.checkOrder a.seat = .ok ())
    (hi : (Duty.indexOf? d.seats a.seat).isSome) :
    Released l a ({ l with pending := some a.seat.id }.record id a.seat.departureDate (d.retract a.seat))

-- What comes of the second half:
-- 1. it is refused for a seat that is not pending, and for an owner who does not exist
-- 2. a seat that nobody is to have is no longer pending
-- 3. a seat enters the duty of its owner, as far as that can be written
inductive Settled (l : Ledger) (a : Assignment) : Outcome Unit → Prop
  | refused (why : Breach) (hr : l.pending = some a.seat.id →
      ∃ id ∈ a.owner, l.roster.employees.get? id = none) : Settled l a (l, .error (.breach why))
  | unowned (hn : l.pending = some a.seat.id) (ho : a.owner = none) :
    Settled l a ({ l with pending := none }, .ok ())
  | owned {id : String} {e : Employee} (hn : l.pending = some a.seat.id) (ho : a.owner = some id)
    (he : l.roster.employees.get? id = some e) :
    Settled l a ({ l with pending := none }.record id a.seat.departureDate
      ((e.ensure a.seat.departureDate).2.enter a.seat))

theorem released (l : Ledger) (a : Assignment) : Released l a (l.release a) := by
  unfold release
  split
  case h_1 hn => exact .refused _ fun hnone => by simp [hn] at hnone
  case h_2 hn ho => exact .unowned hn ho
  case h_3 owner hn ho =>
    have hat : ∀ {d}, l.roster.dutyAt owner a.seat.departureDate = some d ↔
        ∃ e, l.roster.employees.get? owner = some e ∧ e.dutyOn a.seat.departureDate = some d :=
      Roster.dutyAt_eq_some
    unfold dutyListing employee
    cases he : l.roster.employees.get? owner with
    | none => exact .refused _ fun _ => ⟨owner, ho, fun d hd => by simp [hat, he] at hd⟩
    | some e =>
      cases hd : e.dutyOn a.seat.departureDate with
      | none =>
        simp only [Option.elim_some, hd, bind, Except.bind]
        exact .refused _ fun _ => ⟨owner, ho, fun d hd' => by simp [hat, he, hd] at hd'⟩
      | some d =>
        have hat := hat.2 ⟨e, he, hd⟩
        cases hc : d.checkOrder a.seat with
        | error fault =>
          simp only [Option.elim_some, hd, Duty.contains, Duty.position?, hc, bind, Except.bind]
          exact .unordered hat hc
        | ok u =>
          simp only [Option.elim_some, hd, Duty.contains_of_checkOrder hc, bind, Except.bind]
          cases hi : Duty.indexOf? d.seats a.seat with
          | none =>
            refine .refused _ fun _ => ⟨owner, ho, fun d' hd' => ?_⟩
            obtain rfl := Option.some.inj (hat.symm.trans hd')
            exact hi
          | some i => exact .owned hn ho hat hc (by simp [hi])

theorem settled (l : Ledger) (a : Assignment) : Settled l a (l.settle a) := by
  unfold settle
  split
  case isTrue hn => exact .refused _ fun hp => absurd hp hn
  case isFalse hn =>
    have hn := not_not.1 hn
    split
    case h_1 ho => exact .unowned hn ho
    case h_2 id ho =>
      unfold employee
      cases he : l.roster.employees.get? id with
      | none => exact .refused _ fun _ => ⟨id, ho, he⟩
      | some e => exact .owned hn ho he

namespace Released

-- A first half that goes through has found nothing pending, and leaves the seat pending.
theorem pending (h : Released l a o) (hs : o.2 = .ok ()) :
    l.pending = none ∧ o.1.pending = some a.seat.id := by
  cases h
  case refused => cases hs
  case unordered => cases hs
  case unowned hn _ => exact ⟨hn, rfl⟩
  case owned hn _ _ _ _ => exact ⟨hn, rfl⟩

theorem assignments (h : Released l a o) : o.1.roster.assignments = l.roster.assignments := by
  cases h <;> rfl

end Released

namespace Settled

theorem pending (h : Settled l a o) (hs : o.2 = .ok ()) :
    l.pending = some a.seat.id ∧ o.1.pending = none := by
  cases h
  case refused => cases hs
  case unowned hn _ => exact ⟨hn, rfl⟩
  case owned hn _ _ => exact ⟨hn, rfl⟩

-- The seat that is pending stays so only if its owner does not exist.
theorem unknown_of_pending (h : Settled l a o) (hn : o.1.pending = some a.seat.id) :
    ∃ id ∈ a.owner, l.roster.employees.get? id = none := by
  cases h
  case refused hr => exact hr hn
  case unowned => cases hn
  case owned => cases hn

end Settled

section Pending

variable {plan : Plan} {count n : Nat}

-- A change of owner that goes through leaves nothing pending, whatever was pending before.
theorem pending_of_assign (hs : l.assign a owner = (l', .ok ())) : l'.pending = none := by
  unfold assign at hs
  split at hs
  case h_1 => cases hs
  case h_2 =>
    generalize l.release a = o at hs
    obtain ⟨l₁, fault | ⟨⟨⟩⟩⟩ := o
    · cases hs
    · have hset := settled (l₁.setOwner a.seat.id owner) { a with owner }
      dsimp only [andThen] at hs
      rw [hs] at hset
      exact (hset.pending rfl).2

theorem pending_of_follow (hn : l.pending = none) (hs : l.follow count plan = (l', .ok n)) :
    l'.pending = none := by
  induction plan generalizing l count with
  | nil =>
    cases hs
    exact hn
  | cons p plan ih =>
    obtain ⟨seat, owner⟩ := p
    rw [follow] at hs
    split at hs
    case h_1 => cases hs
    case h_2 =>
      split at hs
      case isTrue => exact ih hn hs
      case isFalse =>
        split at hs
        case h_1 h₁ => exact ih (pending_of_assign h₁) hs
        case h_2 => cases hs

theorem pending_of_apply (hn : l.pending = none) (hs : l.apply plan = (l', .ok n)) :
    l'.pending = none := by
  unfold apply at hs
  split at hs
  case h_1 => cases hs
  case h_2 => exact pending_of_follow hn hs

end Pending

-- What holds of a ledger and goes on to hold through the halves of a change and the owner's write between
-- them.
structure Kept (P : Ledger → Prop) : Prop where
  seatId : ∀ {l k a}, P l → l.roster.assignments.get? k = some a → a.seat.id = k
  release : ∀ {l k a}, P l → l.roster.assignments.get? k = some a → P (l.release a).1
  settle : ∀ {l k a}, P l → l.roster.assignments.get? k = some a → P (l.settle a).1
  setOwner : ∀ {l k} owner, P l → l.pending = some k → P (l.setOwner k owner)

namespace Kept

variable {P : Ledger → Prop} {plan : Plan} {count : Nat} (hk : Kept P) (h : P l)
include hk h

theorem assign (ha : l.roster.assignments.get? k = some a) : P (l.assign a owner).1 := by
  unfold Ledger.assign
  split
  case h_1 => exact h
  case h_2 =>
    have hr := hk.release h ha
    have hrel := released l a
    cases ho : l.release a with
    | mk l₁ answer =>
      rw [ho] at hr hrel
      cases answer with
      | error fault => exact hr
      | ok u =>
        have ha₁ : l₁.roster.assignments.get? k = some a := hrel.assignments ▸ ha
        refine hk.settle (k := k) (hk.setOwner owner hr (hrel.pending rfl).2) ?_
        rw [Ledger.setOwner, Roster.get?_setOwner_of_some ha₁, if_pos (hk.seatId h ha).symm]

theorem follow : P (l.follow count plan).1 := by
  induction plan generalizing l count with
  | nil => exact h
  | cons p plan ih =>
    obtain ⟨seat, owner⟩ := p
    rw [Ledger.follow]
    split
    case h_1 => exact h
    case h_2 a ha =>
      split
      case isTrue => exact ih h
      case isFalse =>
        have h₁ : P (l.assign a owner).1 := hk.assign h (Result.elim_eq_ok.1 ha)
        split
        case h_1 he =>
          rw [he] at h₁
          exact ih h₁
        case h_2 he =>
          rw [he] at h₁
          exact h₁

theorem apply : P (l.apply plan).1 := by
  unfold Ledger.apply
  split
  case h_1 => exact h
  case h_2 => exact hk.follow h

end Kept
end CrewRoster.Ledger
