import CrewRoster.Ledger.Edit
import CrewRoster.Proofs.Result
import CrewRoster.Proofs.SeatOrder

namespace CrewRoster

-- The times of a plain flight carry no zone, and there are points in time at which its crew signs in
-- and off.
structure Flight.Plain (f : Flight) : Prop where
  departure : f.departure.zone = none
  arrival : f.arrival.zone = none
  signIn : ∃ t, f.departure.plus (-Flight.signIn) = .ok t
  signOff : ∃ t, f.arrival.plus Flight.signOff = .ok t

instance (f : Flight) : Decidable f.Plain :=
  decidable_of_iff
    ((f.departure.zone = none ∧ f.arrival.zone = none) ∧
      (f.departure.plus (-Flight.signIn)).toOption.isSome ∧
      (f.arrival.plus Flight.signOff).toOption.isSome)
    ⟨fun ⟨⟨hd, ha⟩, hi, ho⟩ => ⟨hd, ha, Result.isSome_toOption.1 hi, Result.isSome_toOption.1 ho⟩,
      fun h => ⟨⟨h.departure, h.arrival⟩, Result.isSome_toOption.2 h.signIn,
        Result.isSome_toOption.2 h.signOff⟩⟩

theorem Seat.comparable_of_plain {s t : Seat} (hs : s.flight.Plain) (ht : t.flight.Plain) :
    s.comparable t = true := by
  simp [Seat.comparable, Instant.comparable, hs.departure, ht.departure]

namespace Duty

variable {d : Duty} {s : Seat} {r : Seat.Key → Seat.Key → Bool}

-- The fields that follow from the seats of a duty are as its seats, or else its ground activity, have it:
-- 1. with seats, it runs from the first departure less sign-in to the last arrival and sign-off
-- 2. without seats, it is what was planned on the ground, if anything was
structure Current (d : Duty) : Prop where
  flown : ∀ first ∈ d.first?, ∀ last ∈ d.last?,
    (∃ t, first.flight.departure.plus (-Flight.signIn) = .ok t ∧ d.start = some t) ∧
    (∃ t, last.flight.arrival.plus Flight.signOff = .ok t ∧ d.finish = some t) ∧
    d.lastArrival = some last.flight.arrival ∧ d.code = some flightCode
  idle : d.seats = [] →
    d.start = d.ground.map (·.start) ∧ d.finish = d.ground.map (·.finish) ∧
    d.lastArrival = none ∧ d.code = d.ground.bind (·.code)

theorem Current.placeholder (employee : String) (day : Date) : (placeholder employee day).Current where
  flown _ h := nomatch h
  idle _ := ⟨rfl, rfl, rfl, rfl⟩

theorem Current.ofGround (employee : String) (g : Ground) : (ofGround employee g).Current where
  flown _ h := nomatch h
  idle _ := ⟨rfl, rfl, rfl, rfl⟩

theorem checkOrder_of_comparable (h : ∀ t ∈ d.seats, t.comparable s) : d.checkOrder s r = .ok () :=
  if_pos (List.all_eq_true.2 fun t ht => h t (Lists.mem_of_mem_probed ht))

theorem checkOrder_of_plain (hd : ∀ t ∈ d.seats, t.flight.Plain) (hs : s.flight.Plain) :
    d.checkOrder s r = .ok () :=
  checkOrder_of_comparable fun t ht => Seat.comparable_of_plain (hd t ht) hs

section Order

variable (h : d.checkOrder s = .ok ())
include h

theorem position?_of_checkOrder : d.position? s = .ok (indexOf? d.seats s) := by
  rw [position?, h]
  rfl

theorem add_eq_of_checkOrder :
    d.add s = .ok ({ d with seats := insertSeat d.seats s }, (indexOf? d.seats s).isNone) := by
  rw [add, position?_of_checkOrder h]
  rfl

theorem remove_eq_of_checkOrder :
    d.remove s = .ok ({ d with seats := eraseSeat d.seats s }, (indexOf? d.seats s).isSome) := by
  rw [remove, position?_of_checkOrder h]
  rfl

theorem contains_of_checkOrder : d.contains s = .ok (indexOf? d.seats s).isSome := by
  rw [contains, position?_of_checkOrder h]
  rfl

theorem add_of_checkOrder : (d.add s).map (·.1) = .ok { d with seats := insertSeat d.seats s } := by
  rw [add_eq_of_checkOrder h]
  rfl

theorem remove_of_checkOrder : (d.remove s).map (·.1) = .ok { d with seats := eraseSeat d.seats s } := by
  rw [remove_eq_of_checkOrder h]
  rfl

end Order

end Duty

namespace Field

def all : List Field := [.assignments, .start, .finish, .lastArrival, .code]

-- The fields that are written when seats are left behind: the code does not change then.
def times : List Field := [.assignments, .start, .finish, .lastArrival]

-- What `dst` is once it has taken a field over from `src`.
def copy (f : Field) (src dst : Duty) : Duty :=
  match f with
  | assignments => { dst with seats := src.seats }
  | start => { dst with start := src.start }
  | finish => { dst with finish := src.finish }
  | lastArrival => { dst with lastArrival := src.lastArrival }
  | code => { dst with code := src.code }

end Field

-- `Tells d ns fs d'`: from `d` to `d'` the fields `fs` were written in order, one at a time, and `ns` are
-- the notices of it, each write between its announcement and its report.
inductive Tells (d : Duty) : List Notice → List Field → Duty → Prop
  | nil : Tells d [] [] d
  | snoc {ns fs d₁ d₂ f} (h : Tells d ns fs d₁) (hc : d₂ = f.copy d₂ d₁) :
    Tells d (ns ++ [⟨.before, d₁, f⟩, ⟨.after, d₂, f⟩]) (fs ++ [f]) d₂

namespace Edit

variable {e : Edit} {d : Duty} {f : Field} {fs : List Field}

-- An edit of `d` that went well so far and has written `fs`.
structure Wrote (d : Duty) (fs : List Field) (e : Edit) : Prop where
  fault : e.fault = none
  told : Tells d e.notices fs e.duty

theorem wrote_begin (d : Duty) : Wrote d [] (begin d) :=
  ⟨rfl, .nil⟩

section Write

variable (h : Wrote d fs e)
include h

theorem duty_change {g : Duty → Result Duty} {d' : Duty} (hg : g e.duty = .ok d') :
    (e.change f g).duty = d' := by
  simp [change, h.fault, hg]

theorem Wrote.change {g : Duty → Result Duty} {d' : Duty} (hg : g e.duty = .ok d')
    (hc : d' = f.copy d' e.duty) : Wrote d (fs ++ [f]) (e.change f g) where
  fault := by simp [Edit.change, h.fault, hg]
  told := by simpa [Edit.change, h.fault, hg] using h.told.snoc hc

theorem duty_write {α : Type} {a : α} {g : α → Duty → Duty} :
    (e.write f (.ok a) g).duty = g a e.duty := by
  simp [write, change, h.fault]

theorem Wrote.write {α : Type} {a : α} {g : α → Duty → Duty}
    (hc : g a e.duty = f.copy (g a e.duty) e.duty) : Wrote d (fs ++ [f]) (e.write f (.ok a) g) := by
  have hw : e.write f (.ok a) g = e.change f fun d => .ok (g a d) := by simp [Edit.write, h.fault]
  exact hw ▸ h.change rfl hc

theorem duty_writeStart {t : Option Instant} :
    (e.writeStart (.ok t)).duty = { e.duty with start := t } :=
  duty_write h

theorem duty_writeFinish {t : Option Instant} :
    (e.writeFinish (.ok t)).duty = { e.duty with finish := t } :=
  duty_write h

theorem duty_writeLastArrival {t : Option Instant} :
    (e.writeLastArrival t).duty = { e.duty with lastArrival := t } :=
  duty_write h

theorem duty_writeCode {code : Option Label} :
    (e.writeCode code).duty = { e.duty with code } :=
  duty_write h

theorem Wrote.writeStart {t : Option Instant} : Wrote d (fs ++ [.start]) (e.writeStart (.ok t)) :=
  h.write rfl

theorem Wrote.writeFinish {t : Option Instant} :
    Wrote d (fs ++ [.finish]) (e.writeFinish (.ok t)) :=
  h.write rfl

theorem Wrote.writeLastArrival {t : Option Instant} :
    Wrote d (fs ++ [.lastArrival]) (e.writeLastArrival t) :=
  h.write rfl

theorem Wrote.writeCode {code : Option Label} : Wrote d (fs ++ [.code]) (e.writeCode code) :=
  h.write rfl

end Write

section WriteTimes

variable {first last : Seat} (h : Wrote d fs e) (hf : e.duty.first? = some first)
  (hl : e.duty.last? = some last) {t u : Instant}
  (ht : first.flight.departure.plus (-Flight.signIn) = .ok t)
  (hu : last.flight.arrival.plus Flight.signOff = .ok u)
include h hf hl ht hu

theorem duty_writeTimes :
    e.writeTimes.duty =
      { e.duty with start := some t, finish := some u, lastArrival := some last.flight.arrival } := by
  simp only [writeTimes, hf, hl, ht, hu, Except.map]
  rw [duty_writeLastArrival h.writeStart.writeFinish, duty_writeFinish h.writeStart, duty_writeStart h]

theorem Wrote.writeTimes :
    Wrote d (fs ++ [.start] ++ [.finish] ++ [.lastArrival]) e.writeTimes := by
  simp only [Edit.writeTimes, hf, hl, ht, hu, Except.map]
  exact h.writeStart.writeFinish.writeLastArrival

end WriteTimes

section WriteGround

variable (h : Wrote d fs e)
include h

theorem duty_writeGround :
    e.writeGround.duty =
      { e.duty with
        start := e.duty.ground.map (·.start)
        finish := e.duty.ground.map (·.finish)
        lastArrival := none
        code := e.duty.ground.bind (·.code) } := by
  have h₁ := h.writeStart (t := e.duty.ground.map (·.start))
  have h₂ := h₁.writeFinish (t := e.duty.ground.map (·.finish))
  rw [writeGround, duty_writeCode h₂.writeLastArrival, duty_writeLastArrival h₂, duty_writeFinish h₁,
    duty_writeStart h]

theorem Wrote.writeGround :
    Wrote d (fs ++ [.start] ++ [.finish] ++ [.lastArrival] ++ [.code]) e.writeGround :=
  h.writeStart.writeFinish.writeLastArrival.writeCode

end WriteGround

end Edit

-- Whose duty it is and when, which seats it has, and what was planned on the ground. None of this changes
-- once the seats are written, whether the other fields can be written or not.
structure Duty.Alike (d d' : Duty) : Prop where
  employee : d'.employee = d.employee
  date : d'.date = d.date
  seats : d'.seats = d.seats
  ground : d'.ground = d.ground

theorem Duty.Alike.refl (d : Duty) : d.Alike d :=
  ⟨rfl, rfl, rfl, rfl⟩

theorem Duty.Alike.trans {d₁ d₂ d₃ : Duty} (h : d₁.Alike d₂) (h' : d₂.Alike d₃) : d₁.Alike d₃ :=
  ⟨h'.employee.trans h.employee, h'.date.trans h.date, h'.seats.trans h.seats,
    h'.ground.trans h.ground⟩

namespace Edit

variable {e : Edit} {f : Field}

theorem alike_write {α : Type} {value : Result α} {g : α → Duty → Duty}
    (hg : ∀ a (d : Duty), d.Alike (g a d)) : e.duty.Alike (e.write f value g).duty := by
  unfold write
  split
  case h_1 => exact .refl _
  case h_2 hn => simpa [change, hn] using hg _ e.duty
  case h_3 => exact .refl _

theorem alike_writeTimes : e.duty.Alike e.writeTimes.duty := by
  unfold writeTimes
  split
  case h_1 =>
    refine .trans (alike_write ?_) (.trans (alike_write ?_) (alike_write ?_))
    all_goals exact fun _ _ => ⟨rfl, rfl, rfl, rfl⟩
  case h_2 => exact .refl _

theorem alike_writeCode {code : Option Label} : e.duty.Alike (e.writeCode code).duty :=
  alike_write fun _ _ => ⟨rfl, rfl, rfl, rfl⟩

theorem alike_writeGround : e.duty.Alike e.writeGround.duty := by
  refine .trans (alike_write ?_) (.trans (alike_write ?_) (.trans (alike_write ?_) alike_writeCode))
  all_goals exact fun _ _ => ⟨rfl, rfl, rfl, rfl⟩

end Edit

namespace Duty

variable {d : Duty} {s : Seat}

-- What an edit makes of a duty: other seats, with the fields that follow from them, each of them written
-- once and told. What the duty is on, and for whom, stays.
structure Remade (d : Duty) (seats : List Seat) (fs : List Field) (e : Edit) : Prop where
  wrote : Edit.Wrote d fs e
  seats : e.duty.seats = seats
  employee : e.duty.employee = d.employee
  date : e.duty.date = d.date
  ground : e.duty.ground = d.ground
  current : e.duty.Current

theorem exists_times {seats : List Seat} (hd : ∀ t ∈ seats, t.flight.Plain) (hne : seats ≠ []) :
    ∃ first last t u, seats.head? = some first ∧ seats.getLast? = some last ∧
      first.flight.departure.plus (-Flight.signIn) = .ok t ∧
      last.flight.arrival.plus Flight.signOff = .ok u := by
  obtain ⟨t, ht⟩ := (hd _ (List.head_mem hne)).signIn
  obtain ⟨u, hu⟩ := (hd _ (List.getLast_mem hne)).signOff
  exact ⟨_, _, t, u, List.head?_eq_some_head hne, List.getLast?_eq_some_getLast hne, ht, hu⟩

theorem Current.of_times {first last : Seat} {t u : Instant} (hf : d.first? = some first)
    (hl : d.last? = some last) (ht : first.flight.departure.plus (-Flight.signIn) = .ok t)
    (hu : last.flight.arrival.plus Flight.signOff = .ok u) (hs : d.start = some t)
    (he : d.finish = some u) (ha : d.lastArrival = some last.flight.arrival)
    (hc : d.code = some flightCode) : d.Current where
  flown a hfa b hlb := by
    obtain rfl := Option.some.inj (hf.symm.trans hfa)
    obtain rfl := Option.some.inj (hl.symm.trans hlb)
    exact ⟨⟨t, ht, hs⟩, ⟨u, hu, he⟩, ha, hc⟩
  idle hn := by simp [first?, hn] at hf

-- Once the seats are written, an edit changes only the fields that follow from them.
theorem alike_enter_of_change (d : Duty) (s : Seat) :
    ((Edit.begin d).change .assignments fun d => (d.add s).map (·.1)).duty.Alike (d.enter s).duty :=
  Edit.alike_writeTimes.trans Edit.alike_writeCode

theorem alike_retract_of_change (d : Duty) (s : Seat) :
    ((Edit.begin d).change .assignments fun d => (d.remove s).map (·.1)).duty.Alike (d.retract s).duty := by
  unfold retract
  dsimp only
  split
  case isTrue => exact Edit.alike_writeTimes
  case isFalse => exact Edit.alike_writeGround

section Order

variable (h : d.checkOrder s = .ok ())
include h

-- The first write of an edit: the seats.
theorem wrote_add :
    Edit.Wrote d [.assignments]
      ((Edit.begin d).change .assignments fun d => (d.add s).map (·.1)) :=
  (Edit.wrote_begin d).change (add_of_checkOrder h) rfl

theorem duty_add :
    ((Edit.begin d).change .assignments fun d => (d.add s).map (·.1)).duty =
      { d with seats := insertSeat d.seats s } :=
  Edit.duty_change (Edit.wrote_begin d) (add_of_checkOrder h)

theorem wrote_remove :
    Edit.Wrote d [.assignments]
      ((Edit.begin d).change .assignments fun d => (d.remove s).map (·.1)) :=
  (Edit.wrote_begin d).change (remove_of_checkOrder h) rfl

theorem duty_remove :
    ((Edit.begin d).change .assignments fun d => (d.remove s).map (·.1)).duty =
      { d with seats := eraseSeat d.seats s } :=
  Edit.duty_change (Edit.wrote_begin d) (remove_of_checkOrder h)

theorem retract_eq :
    d.retract s =
      if eraseSeat d.seats s = [] then
        ((Edit.begin d).change .assignments fun d => (d.remove s).map (·.1)).writeGround
      else ((Edit.begin d).change .assignments fun d => (d.remove s).map (·.1)).writeTimes := by
  by_cases hnil : eraseSeat d.seats s = []
  · simp [retract, duty_remove h, isFlightDuty, hnil]
  · simp [retract, duty_remove h, isFlightDuty, hnil]

theorem alike_enter : Alike { d with seats := insertSeat d.seats s } (d.enter s).duty := by
  rw [← duty_add h]
  exact alike_enter_of_change d s

theorem alike_retract : Alike { d with seats := eraseSeat d.seats s } (d.retract s).duty := by
  rw [← duty_remove h]
  exact alike_retract_of_change d s

end Order

-- A duty that is edited stays with its employee and on its date, whether the edit goes through or not.
section Stays

theorem stays_change {e : Edit} {f : Field} {g : Duty → Result Duty}
    (hg : ∀ d', g e.duty = .ok d' → d'.employee = e.duty.employee ∧ d'.date = e.duty.date) :
    (e.change f g).duty.employee = e.duty.employee ∧ (e.change f g).duty.date = e.duty.date := by
  unfold Edit.change
  split
  case h_1 => exact ⟨rfl, rfl⟩
  case h_2 =>
    split
    case h_1 d' hd' => exact hg d' hd'
    case h_2 => exact ⟨rfl, rfl⟩

theorem stays_add {d' : Duty} (h : (d.add s).map (·.1) = .ok d') :
    d'.employee = d.employee ∧ d'.date = d.date := by
  cases hc : d.checkOrder s with
  | error fault => simp [add, position?, hc, bind, Except.bind, Except.map] at h
  | ok =>
    rw [add_of_checkOrder hc, Except.ok.injEq] at h
    exact h ▸ ⟨rfl, rfl⟩

theorem stays_remove {d' : Duty} (h : (d.remove s).map (·.1) = .ok d') :
    d'.employee = d.employee ∧ d'.date = d.date := by
  cases hc : d.checkOrder s with
  | error fault => simp [remove, position?, hc, bind, Except.bind, Except.map] at h
  | ok =>
    rw [remove_of_checkOrder hc, Except.ok.injEq] at h
    exact h ▸ ⟨rfl, rfl⟩

theorem enter_stays (d : Duty) (s : Seat) :
    (d.enter s).duty.employee = d.employee ∧ (d.enter s).duty.date = d.date := by
  obtain ⟨hemployee, hdate⟩ := stays_change (e := Edit.begin d) (f := .assignments)
    (g := fun d => (d.add s).map (·.1)) fun _ => stays_add
  have halike := alike_enter_of_change d s
  exact ⟨halike.employee.trans hemployee, halike.date.trans hdate⟩

theorem retract_stays (d : Duty) (s : Seat) :
    (d.retract s).duty.employee = d.employee ∧ (d.retract s).duty.date = d.date := by
  obtain ⟨hemployee, hdate⟩ := stays_change (e := Edit.begin d) (f := .assignments)
    (g := fun d => (d.remove s).map (·.1)) fun _ => stays_remove
  have halike := alike_retract_of_change d s
  exact ⟨halike.employee.trans hemployee, halike.date.trans hdate⟩

end Stays

section Plain

variable (hd : ∀ t ∈ d.seats, t.flight.Plain) (hs : s.flight.Plain)
include hd hs

-- A seat that is entered makes the duty one with flights.
theorem remade_enter : d.Remade (insertSeat d.seats s) Field.all (d.enter s) := by
  have horder : d.checkOrder s = .ok () := checkOrder_of_plain hd hs
  have hplain : ∀ t ∈ insertSeat d.seats s, t.flight.Plain := by
    intro t ht
    rcases mem_of_mem_insertSeat ht with rfl | ht
    · exact hs
    · exact hd t ht
  obtain ⟨first, last, t, u, hf, hl, ht, hu⟩ := exists_times hplain (insertSeat_ne_nil d.seats s)
  have hd₁ := duty_add horder
  have h₁ := wrote_add horder
  have hf₁ : (Edit.duty _).first? = some first := (congrArg first? hd₁).trans hf
  have hl₁ : (Edit.duty _).last? = some last := (congrArg last? hd₁).trans hl
  have h₂ := h₁.writeTimes hf₁ hl₁ ht hu
  have hduty : (d.enter s).duty = { d with
      seats := insertSeat d.seats s, start := some t, finish := some u
      lastArrival := some last.flight.arrival, code := some flightCode } := by
    rw [enter, Edit.duty_writeCode h₂, Edit.duty_writeTimes h₁ hf₁ hl₁ ht hu, hd₁]
  constructor
  case wrote => exact h₂.writeCode
  case current =>
    rw [hduty]
    exact .of_times hf hl ht hu rfl rfl rfl rfl
  all_goals rw [hduty]

omit hs in
theorem plain_eraseSeat : ∀ t ∈ eraseSeat d.seats s, t.flight.Plain := fun t ht =>
  hd t ((eraseSeat_sublist d.seats s).mem ht)

-- A seat that is taken out leaves a duty that is written to the end.
theorem wrote_retract :
    Edit.Wrote d (if eraseSeat d.seats s = [] then Field.all else Field.times) (d.retract s) := by
  have horder : d.checkOrder s = .ok () := checkOrder_of_plain hd hs
  have hd₁ := duty_remove horder
  have h₁ := wrote_remove horder
  rw [retract_eq horder]
  split
  case isTrue => exact h₁.writeGround
  case isFalse hne =>
    obtain ⟨first, last, t, u, hf, hl, ht, hu⟩ := exists_times (plain_eraseSeat hd) hne
    exact h₁.writeTimes ((congrArg first? hd₁).trans hf) ((congrArg last? hd₁).trans hl) ht hu

-- What it leaves is what the other seats make of the duty, or what was planned on the ground.
theorem remade_retract (hm : s ∈ d.seats) (hc : d.Current) :
    d.Remade (eraseSeat d.seats s) (if eraseSeat d.seats s = [] then Field.all else Field.times)
      (d.retract s) := by
  have horder : d.checkOrder s = .ok () := checkOrder_of_plain hd hs
  have hd₁ := duty_remove horder
  have h₁ := wrote_remove horder
  have halike := alike_retract horder
  refine ⟨wrote_retract hd hs, halike.seats, halike.employee, halike.date, halike.ground, ?_⟩
  rw [retract_eq horder]
  split
  case isTrue hnil =>
    rw [(Edit.duty_writeGround h₁).trans (by rw [hd₁])]
    exact ⟨fun _ h => by simp [first?, hnil] at h, fun _ => ⟨rfl, rfl, rfl, rfl⟩⟩
  case isFalse hne =>
    obtain ⟨first, last, t, u, hf, hl, ht, hu⟩ := exists_times (plain_eraseSeat hd) hne
    have hf₁ : (Edit.duty _).first? = some first := (congrArg first? hd₁).trans hf
    have hl₁ : (Edit.duty _).last? = some last := (congrArg last? hd₁).trans hl
    -- the code was written when the duty got its first seat
    have hcode : d.code = some flightCode := by
      obtain ⟨a, b, -, -, ha, hb, -⟩ := exists_times hd (List.ne_nil_of_mem hm)
      exact (hc.flown a ha b hb).2.2.2
    rw [(Edit.duty_writeTimes h₁ hf₁ hl₁ ht hu).trans (by rw [hd₁])]
    exact .of_times hf hl ht hu rfl rfl rfl hcode

end Plain

end Duty
end CrewRoster
