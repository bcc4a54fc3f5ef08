import CrewRoster.Proofs.Loading

namespace CrewRoster.Ledger

-- What can be done to a ledger. A call that fails is a step too, to the ledger that it leaves behind. The
-- owner of a seat is written directly only while the seat is pending, and may be anybody then.
inductive Step (l : Ledger) : Ledger → Prop
  | release {seat a} (h : l.roster.assignment seat = .ok a) : Step l (l.release a).1
  | settle {seat a} (h : l.roster.assignment seat = .ok a) : Step l (l.settle a).1
  | assign {seat a} (h : l.roster.assignment seat = .ok a) (owner : Option String) :
    Step l (l.assign a owner).1
  | apply (plan : Plan) : Step l (l.apply plan).1
  | write {seat} (h : l.pending = some seat) (owner : Option String) : Step l (l.setOwner seat owner)
  | placeGround {id e} (h : l.roster.employee id = .ok e) (employee : String) (g : Ground) :
    Step l (l.place e (.ofGround employee g)).1
  | placeEmpty {id e} (h : l.roster.employee id = .ok e) (employee : String) (day : Date) :
    Step l (l.place e (.placeholder employee day)).1
  | ensure {id e} (h : l.roster.employee id = .ok e) (day : Date) : Step l (l.ensure e day).1
  | cover {id e} (h : l.roster.employee id = .ok e) (first last : Date) :
    Step l (l.cover e first last).1

inductive Steps : Ledger → Ledger → Prop
  | refl {l} : Steps l l
  | step {l₁ l₂ l₃} (h : Step l₁ l₂) (hs : Steps l₂ l₃) : Steps l₁ l₃

variable {l l₁ l₂ l₃ : Ledger} {r : Roster} {folder : Folder} {scenario : Scenario}

section Planning

variable {id : String} {e e' : Employee}

section WellFormed

variable (h : l.roster.WellFormed) (he : l.roster.employees.get? id = some e) (hp : e.Planned e')
include h he hp

-- The days on which something was planned had no seats before and have none now.
theorem dutyAt_replace_planned (i : String) (day : Date) :
    (l.roster.replace e').dutyAt i day = l.roster.dutyAt i day ∨
      (∀ d, l.roster.dutyAt i day = some d → d.seats = []) ∧
        ∃ d, (l.roster.replace e').dutyAt i day = some d ∧ d.Vacant i day := by
  have hid : e.id = id := h.crewId he
  rw [Roster.dutyAt_replace he (hp.id_eq.trans hid)]
  split
  case isTrue hi =>
    rw [hi, Roster.dutyAt, he, Option.bind_some, ← hid]
    exact hp.days day
  case isFalse => exact .inl rfl

theorem lists_replace_planned (i : String) (day : Date) (s : Seat) :
    (l.roster.replace e').Lists i day s ↔ l.roster.Lists i day s := by
  unfold Roster.Lists
  rcases dutyAt_replace_planned h he hp i day with heq | ⟨hold, d, hd, hvacant⟩
  · rw [heq]
  · constructor
    · rintro ⟨d', hd', hm⟩
      obtain rfl := Option.some.inj (hd.symm.trans hd')
      simp [hvacant.seats] at hm
    · rintro ⟨d', hd', hm⟩
      simp [hold d' hd'] at hm

-- A duty in the calendars now was there before, or has no seats.
theorem duty_of_replace_planned {i : String} {day : Date} {d : Duty}
    (hd : (l.roster.replace e').dutyAt i day = some d) :
    l.roster.dutyAt i day = some d ∨ d.Vacant i day := by
  rcases dutyAt_replace_planned h he hp i day with heq | ⟨-, d', hd', hnew⟩
  · exact .inl (heq ▸ hd)
  · obtain rfl := Option.some.inj (hd'.symm.trans hd)
    exact .inr hnew

theorem wellFormed_replace_planned : (l.roster.replace e').WellFormed := by
  have hid : e'.id = id := hp.id_eq.trans (h.crewId he)
  refine ⟨h.seatId, ?_, ?_, ?_, h.key⟩
  · intro k x hk
    change (l.roster.employees.modify e'.id fun _ => e').get? k = some x at hk
    rw [Registry.get?_modify, hid] at hk
    split at hk
    case isTrue hkid =>
      rw [he] at hk
      obtain rfl := Option.some.inj hk
      exact hid.trans hkid.symm
    case isFalse => exact h.crewId hk
  · intro k day d hd
    rcases duty_of_replace_planned h he hp hd with hd | hvacant
    · exact h.crewOf hd
    · exact hvacant.employee
  · intro k day d hd
    rcases duty_of_replace_planned h he hp hd with hd | hvacant
    · exact h.dated hd
    · exact hvacant.date

theorem blank_replace_planned : (l.roster.replace e').blank = l.roster.blank :=
  Roster.blank_replace he (hp.id_eq.trans (h.crewId he)) hp.same

end WellFormed

variable (he : l.roster.employees.get? id = some e) (hp : e.Planned e')
include he hp

-- An employee for whom something was planned takes the place of the one before. The days with seats are
-- the same for both.
theorem Listing.replace (h : l.Listing) : Listing { l with roster := l.roster.replace e' } := by
  constructor
  case toWellFormed => exact wellFormed_replace_planned h.toWellFormed he hp
  case known => exact fun hs => h.known ((lists_replace_planned h.toWellFormed he hp _ _ _).1 hs)
  case listed =>
    exact fun ha i day =>
      (lists_replace_planned h.toWellFormed he hp _ _ _).trans (h.listed ha i day)
  case ordered =>
    intro i day d hd
    rcases duty_of_replace_planned h.toWellFormed he hp hd with hd | hvacant
    · exact h.ordered hd
    · rw [hvacant.seats]
      exact .nil

theorem Consistent.replace (h : l.Consistent) :
    Consistent { l with roster := l.roster.replace e' } := by
  refine .of_listing (h.listing.replace he hp) fun hd => ?_
  rcases duty_of_replace_planned h.toWellFormed he hp hd with hd | hvacant
  · exact h.current hd
  · exact hvacant.current

end Planning

-- A duty that cannot be entered leaves everything as it is.
theorem place_cases {e : Employee} {d : Duty} (hs : d.seats = []) (hc : d.Current) :
    (l.place e d).1 = l ∨
      ∃ e', e.Planned e' ∧ (l.place e d).1 = { l with roster := l.roster.replace e' } := by
  unfold place
  split
  case h_1 e' he => exact .inr ⟨e', .place hs hc he, rfl⟩
  case h_2 => exact .inl rfl

namespace Step

-- A step changes owners, or plans something for one employee, or does nothing.
theorem elim {P : Ledger → Ledger → Prop} (s : Step l₁ l₂)
    (release : ∀ {seat a}, l₁.roster.assignments.get? seat = some a → P l₁ (l₁.release a).1)
    (settle : ∀ {seat a}, l₁.roster.assignments.get? seat = some a → P l₁ (l₁.settle a).1)
    (assign : ∀ {seat a} owner, l₁.roster.assignments.get? seat = some a → P l₁ (l₁.assign a owner).1)
    (apply : ∀ plan, P l₁ (l₁.apply plan).1)
    (write : ∀ {seat} owner, l₁.pending = some seat → P l₁ (l₁.setOwner seat owner))
    (plan : ∀ {id e e'}, l₁.roster.employees.get? id = some e → e.Planned e' →
      P l₁ { l₁ with roster := l₁.roster.replace e' })
    (stay : P l₁ l₁) : P l₁ l₂ := by
  cases s
  case release h => exact release (Result.elim_eq_ok.1 h)
  case settle h => exact settle (Result.elim_eq_ok.1 h)
  case assign h owner => exact assign owner (Result.elim_eq_ok.1 h)
  case apply p => exact apply p
  case write h owner => exact write owner h
  case placeGround h employee g =>
    rcases place_cases (l := l₁) (e := _) rfl (.ofGround employee g) with heq | ⟨e', hp, heq⟩
    · rw [heq]; exact stay
    · rw [heq]; exact plan (Result.elim_eq_ok.1 h) hp
  case placeEmpty h employee day =>
    rcases place_cases (l := l₁) (e := _) rfl (.placeholder employee day) with heq | ⟨e', hp, heq⟩
    · rw [heq]; exact stay
    · rw [heq]; exact plan (Result.elim_eq_ok.1 h) hp
  case ensure h _ => exact plan (Result.elim_eq_ok.1 h) .ensure
  case cover h _ _ => exact plan (Result.elim_eq_ok.1 h) .cover

theorem blank_of_wellFormed (s : Step l₁ l₂) (h : l₁.roster.WellFormed) :
    l₂.roster.blank = l₁.roster.blank :=
  s.elim (P := fun l₁ l₂ => l₂.roster.blank = l₁.roster.blank)
    (fun _ => blank_release) (fun _ => blank_settle) (fun _ _ => blank_assign) (fun _ => blank_apply)
    (fun owner _ => Roster.blank_setOwner owner) (fun he hp => blank_replace_planned h he hp) rfl

theorem blank (s : Step l₁ l₂) (h : l₁.Consistent) : l₂.roster.blank = l₁.roster.blank :=
  s.blank_of_wellFormed h.toWellFormed

-- Whatever the ledger is like, its seats stay.
theorem seats_eq (s : Step l₁ l₂) : l₂.roster.seats = l₁.roster.seats :=
  s.elim (P := fun l₁ l₂ => l₂.roster.seats = l₁.roster.seats)
    (fun _ => Roster.seats_of_blank_eq blank_release) (fun _ => Roster.seats_of_blank_eq blank_settle)
    (fun _ _ => Roster.seats_of_blank_eq blank_assign) (fun _ => Roster.seats_of_blank_eq blank_apply)
    (fun owner _ => Roster.seats_of_blank_eq (Roster.blank_setOwner owner)) (fun _ _ => rfl) rfl

-- What changes of owners and planning keep, a step keeps.
theorem kept {P : Ledger → Prop} (hk : Kept P)
    (hplan : ∀ {l id e e'}, P l → l.roster.employees.get? id = some e → e.Planned e' →
      P { l with roster := l.roster.replace e' })
    (s : Step l₁ l₂) (h : P l₁) : P l₂ :=
  s.elim (P := fun _ l₂ => P l₂) (hk.release h) (hk.settle h) (fun _ => hk.assign h)
    (fun _ => hk.apply h) (fun owner => hk.setOwner owner h) (hplan h) h

theorem consistent (s : Step l₁ l₂) (h : l₁.Consistent) (hp : l₁.roster.Plain) : l₂.Consistent :=
  (s.kept Consistent.kept (fun h he hplan => ⟨h.1.replace he hplan,
    h.2.of_blank_eq (blank_replace_planned h.1.toWellFormed he hplan).symm⟩) ⟨h, hp⟩).1

theorem listing (s : Step l₁ l₂) (h : l₁.Listing ∧ l₁.roster.Naive) :
    l₂.Listing ∧ l₂.roster.Naive :=
  s.kept Listing.kept (fun h he hp => ⟨h.1.replace he hp,
    h.2.of_blank_eq (blank_replace_planned h.1.toWellFormed he hp).symm⟩) h

end Step

namespace Steps

theorem trans (h : Steps l₁ l₂) (h' : Steps l₂ l₃) : Steps l₁ l₃ := by
  induction h
  case refl => exact h'
  case step s _ ih => exact .step s (ih h')

theorem seats_eq (h : Steps l₁ l₂) : l₂.roster.seats = l₁.roster.seats := by
  induction h
  case refl => rfl
  case step s _ ih => exact ih.trans s.seats_eq

-- Consistency goes along with the seats, which a run leaves alone.
theorem consistent_and_blank (h : Steps l₁ l₂) (hc : l₁.Consistent) (hp : l₁.roster.Plain) :
    l₂.Consistent ∧ l₂.roster.blank = l₁.roster.blank := by
  induction h
  case refl => exact ⟨hc, rfl⟩
  case step s _ ih =>
    have hb := s.blank hc
    obtain ⟨hc', hb'⟩ := ih (s.consistent hc hp) (hp.of_blank_eq hb.symm)
    exact ⟨hc', hb'.trans hb⟩

theorem listing (h : Steps l₁ l₂) (hl : l₁.Listing ∧ l₁.roster.Naive) :
    l₂.Listing ∧ l₂.roster.Naive := by
  induction h
  case refl => exact hl
  case step s _ ih => exact ih (s.listing hl)

theorem blank_of_listing (h : Steps l₁ l₂) (hl : l₁.Listing ∧ l₁.roster.Naive) :
    l₂.roster.blank = l₁.roster.blank := by
  induction h
  case refl => rfl
  case step s _ ih => exact (ih (s.listing hl)).trans (s.blank_of_wellFormed hl.1.toWellFormed)

-- Whatever is done to the roster of an instance, in whatever order, its duties and owners agree.
theorem consistent_of_load (hload : loadInstance folder false = .ok (scenario, r)) (hp : r.Plain)
    (hs : Steps (.ofRoster r) l) : l.Consistent :=
  (hs.consistent_and_blank ((fresh_of_loadInstance hload).consistent hp) hp).1

-- The one employee of an instance gets its one seat and is about to lose it again.
theorem consistent_of_load_smallest : ∃ scenario r a l,
    loadInstance .smallest false = .ok (scenario, r) ∧ r.Plain ∧
    r.assignment "1@2024-06-03#0" = .ok a ∧ Steps (.ofRoster r) l ∧
    l.roster.assignment "1@2024-06-03#0" = .ok { a with owner := some "E" } ∧
    l.pending = some "1@2024-06-03#0" ∧ l.Consistent := by
  obtain ⟨scenario, r, s, e, hload, hp, hs, he, -⟩ := loads_smallest
  obtain ⟨a, ha⟩ : ∃ a, r.assignments.get? "1@2024-06-03#0" = some a := by simp [Registry.get?, hs]
  have he : r.employees.get? "E" = some e := by simp [Registry.get?, he]
  have hc := (fresh_of_loadInstance hload).consistent hp
  obtain ⟨l₁, h₁, hn₁, hc₁, ha₁⟩ := hc.assign_ok hp ha (some "E") rfl fun id hid => by
    obtain rfl := Option.some.inj hid
    exact ⟨e, he⟩
  have s₁ : Step (.ofRoster r) l₁ := by
    have := Step.assign (l := .ofRoster r) (Result.elim_eq_ok.2 ha) (some "E")
    rwa [h₁] at this
  have ha₁ : l₁.roster.assignments.get? "1@2024-06-03#0" = some { a with owner := some "E" } := by
    rw [ha₁]
    exact Roster.get?_setOwner_of_some ha
  obtain ⟨l₂, h₂, hn₂, -, ha₂⟩ := hc₁.release_ok (hp.of_blank_eq (s₁.blank hc).symm) hn₁ ha₁
  have s₂ : Step l₁ l₂ := by
    have := Step.release (l := l₁) (Result.elim_eq_ok.2 ha₁)
    rwa [h₂] at this
  have hs : Steps (.ofRoster r) l₂ := .step s₁ (.step s₂ .refl)
  exact ⟨scenario, r, a, l₂, hload, hp, Result.elim_eq_ok.2 ha, hs,
    Result.elim_eq_ok.2 (ha₂ ▸ ha₁), hn₂, consistent_of_load hload hp hs⟩

end Steps

end CrewRoster.Ledger
