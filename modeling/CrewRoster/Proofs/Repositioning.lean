import CrewRoster.Proofs.Figures
import CrewRoster.Proofs.Neighbours

namespace CrewRoster

variable {s t : Seat} {p n : Option Seat} {g : Gap} {xs ys seats : List Seat} {gaps : List Gap}

namespace Gap

variable (r : Reference)

-- The gap between two neighbours, if there are two and they have one.
def across (p n : Option Seat) : List Gap := (p.bind fun s => n.bind fun t => between? r s t).toList

-- The gaps between legs that follow each other.
def along (seats : List Seat) : List Gap := (consecutive seats).filterMap fun p => between? r p.1 p.2

-- The gaps that are over when a leg departs, or none where there is no leg.
def upTo (p : Option Seat) (gaps : List Gap) : List Gap :=
  p.elim [] fun s => gaps.filter (·.following.key.le s.key)

-- The gaps that begin with a leg or after it, or none where there is no leg.
def fromOn (n : Option Seat) (gaps : List Gap) : List Gap :=
  n.elim [] fun t => gaps.filter (t.key.le ·.previous.key)

variable {r}

theorem ends_of_between? (h : between? r s t = some g) : g.previous = s ∧ g.following = t := by
  simp only [between?, Option.bind_eq_bind, Option.bind_eq_some_iff, Option.pure_def] at h
  obtain ⟨-, -, -, -, day, -, h⟩ := h
  cases h
  exact ⟨rfl, rfl⟩

theorem ends_of_across (h : g ∈ across r p n) : p = some g.previous ∧ n = some g.following := by
  rw [across, Option.mem_toList, Option.bind_eq_some_iff] at h
  obtain ⟨s, rfl, h⟩ := h
  obtain ⟨t, rfl, h⟩ := Option.bind_eq_some_iff.1 h
  obtain ⟨rfl, rfl⟩ := ends_of_between? h
  exact ⟨rfl, rfl⟩

theorem ends_of_along (h : g ∈ along r seats) : g.previous ∈ seats ∧ g.following ∈ seats := by
  obtain ⟨⟨s, t⟩, hp, h⟩ := List.mem_filterMap.1 h
  obtain ⟨rfl, rfl⟩ := ends_of_between? h
  obtain ⟨hs, ht⟩ := List.of_mem_zip hp
  exact ⟨hs, List.mem_of_mem_tail ht⟩

theorem along_cons (s : Seat) (seats : List Seat) :
    along r (s :: seats) = across r (some s) seats.head? ++ along r seats := by
  cases seats with
  | nil => rfl
  | cons t seats =>
    change ((s, t) :: consecutive (t :: seats)).filterMap _ = (between? r s t).toList ++ _
    rw [List.filterMap_cons]
    cases between? r s t <;> rfl

theorem along_append (xs ys : List Seat) :
    along r (xs ++ ys) = along r xs ++ across r xs.getLast? ys.head? ++ along r ys := by
  induction xs with
  | nil => rfl
  | cons x xs ih =>
    rw [List.cons_append, along_cons, along_cons, ih]
    cases xs with
    | nil => simp [along, across, consecutive]
    | cons x' xs => simp [List.getLast?_cons_cons]

-- What becomes of the gaps of an employee who takes a leg `s` between the legs `p` and `n`:
-- 1. those up to `p` and those from `n` on stay, and the ones around the leg come between them
-- 2. of those that were there, only the one from `p` to `n` goes
-- 3. the ones around the leg are all that have the leg at one end
structure Spliced (r : Reference) (s : Seat) (p n : Option Seat) (gaps new gaps' : List Gap) : Prop where
  after : gaps' = upTo p gaps ++ new ++ fromOn n gaps
  before : gaps = upTo p gaps ++ across r p n ++ fromOn n gaps
  around : new = gaps'.filter fun g => g.previous = s ∨ g.following = s

section Splice

variable (h : Seat.Ordered (xs ++ s :: ys))
include h

theorem upTo_along : upTo xs.getLast? (along r (xs ++ ys)) = along r xs := by
  have hxs : Seat.Ordered xs := (List.pairwise_append.1 h).1
  obtain ⟨hbefore, hafter⟩ := h.lt_of_split
  rw [along_append]
  cases hp : xs.getLast? with
  | none =>
    obtain rfl := List.getLast?_eq_none_iff.1 hp
    rfl
  | some p =>
    obtain ⟨hp, hle⟩ := hxs.getLast?_eq_some_iff.1 hp
    have hlater : ∀ t ∈ ys, ¬t.key.le p.key := fun t ht hle => by
      have hlt := Seat.Key.trans (hbefore p hp) (hafter t ht)
      simp [Seat.Key.le, hlt] at hle
    have hkept : (along r xs).filter (·.following.key.le p.key) = along r xs :=
      List.filter_eq_self.2 fun g hg => hle _ (ends_of_along hg).2
    have hacross : (across r (some p) ys.head?).filter (·.following.key.le p.key) = [] :=
      List.filter_eq_nil_iff.2 fun g hg => hlater _ (List.mem_of_mem_head? (ends_of_across hg).2)
    have hdropped : (along r ys).filter (·.following.key.le p.key) = [] :=
      List.filter_eq_nil_iff.2 fun g hg => hlater _ (ends_of_along hg).2
    rw [upTo, Option.elim_some, List.filter_append, List.filter_append, hkept, hacross, hdropped,
      List.append_nil, List.append_nil]

theorem fromOn_along : fromOn ys.head? (along r (xs ++ ys)) = along r ys := by
  have hys : Seat.Ordered ys := (List.pairwise_cons.1 (List.pairwise_append.1 h).2.1).2
  obtain ⟨hbefore, hafter⟩ := h.lt_of_split
  rw [along_append]
  cases hn : ys.head? with
  | none =>
    obtain rfl := List.head?_eq_none_iff.1 hn
    rfl
  | some n =>
    obtain ⟨hn, hle⟩ := hys.head?_eq_some_iff.1 hn
    have hearlier : ∀ t ∈ xs, ¬n.key.le t.key := fun t ht hle => by
      have hlt := Seat.Key.trans (hbefore t ht) (hafter n hn)
      simp [Seat.Key.le, hlt] at hle
    have hkept : (along r ys).filter (n.key.le ·.previous.key) = along r ys :=
      List.filter_eq_self.2 fun g hg => hle _ (ends_of_along hg).1
    have hacross : (across r xs.getLast? (some n)).filter (n.key.le ·.previous.key) = [] :=
      List.filter_eq_nil_iff.2 fun g hg => hearlier _ (List.mem_of_getLast? (ends_of_across hg).1)
    have hdropped : (along r xs).filter (n.key.le ·.previous.key) = [] :=
      List.filter_eq_nil_iff.2 fun g hg => hearlier _ (ends_of_along hg).1
    rw [fromOn, Option.elim_some, List.filter_append, List.filter_append, hkept, hacross, hdropped,
      List.nil_append, List.nil_append]

theorem spliced : Spliced r s xs.getLast? ys.head? (along r (xs ++ ys))
    (across r xs.getLast? (some s) ++ across r (some s) ys.head?) (along r (xs ++ s :: ys)) := by
  have hall : along r (xs ++ s :: ys) = along r xs ++
      (across r xs.getLast? (some s) ++ across r (some s) ys.head?) ++ along r ys := by
    rw [along_append, along_cons, List.head?_cons]
    simp only [List.append_assoc]
  constructor
  case after => rw [upTo_along h, fromOn_along h, hall]
  case before => rw [upTo_along h, fromOn_along h, along_append]
  case around =>
    obtain ⟨hbefore, hafter⟩ := h.lt_of_split
    have hxs : s ∉ xs := fun hs => Seat.Key.irrefl _ (hbefore s hs)
    have hys : s ∉ ys := fun hs => Seat.Key.irrefl _ (hafter s hs)
    have hapart : ∀ {zs}, s ∉ zs →
        (along r zs).filter (fun g => g.previous = s ∨ g.following = s) = [] := fun hzs => by
      refine List.filter_eq_nil_iff.2 fun g hg => ?_
      obtain ⟨hprevious, hfollowing⟩ := ends_of_along hg
      simpa using ⟨fun he => hzs (he ▸ hprevious), fun he => hzs (he ▸ hfollowing)⟩
    have hends : (across r xs.getLast? (some s) ++ across r (some s) ys.head?).filter
        (fun g => g.previous = s ∨ g.following = s) =
        across r xs.getLast? (some s) ++ across r (some s) ys.head? := by
      refine List.filter_eq_self.2 fun g hg => ?_
      rcases List.mem_append.1 hg with hg | hg
      · simp [Option.some.inj (ends_of_across hg).2]
      · simp [Option.some.inj (ends_of_across hg).1]
    rw [hall, List.filter_append, List.filter_append, hapart hxs, hapart hys, hends, List.nil_append,
      List.append_nil]

end Splice

end Gap

-- The airports of a flight can be looked up.
structure Flight.Charted (f : Flight) : Prop where
  origin : f.origin.isScalar = true
  destination : f.destination.isScalar = true

namespace Employee

variable {e : Employee} {r : Reference}

theorem gaps_eq (h : ∀ s ∈ e.seats, s.flight.Charted) : e.gaps r = .ok (Gap.along r e.seats) := by
  have hfind : (consecutive e.seats).mapM (fun p => Gap.find r p.1 p.2) =
      .ok ((consecutive e.seats).map fun p => Gap.between? r p.1 p.2) := by
    refine Result.mapM_eq_ok.2 (List.forall₂_map_right_iff.2 (List.forall₂_same.2 fun p hp => ?_))
    obtain ⟨hs, ht⟩ := List.of_mem_zip hp
    exact Gap.find_eq (h _ hs).destination (h _ (List.mem_of_mem_tail ht)).origin
  rw [gaps, hfind, Result.ok_bind, List.filterMap_map]
  rfl

theorem gapsAround_eq (hs : s.flight.Charted) (hprevious : e.calendar.previousSeat s = .ok p)
    (hp : ∀ t ∈ p, t.flight.Charted) (hnext : e.calendar.nextSeat s = .ok n)
    (hn : ∀ t ∈ n, t.flight.Charted) :
    e.gapsAround r s = .ok (Gap.across r p (some s) ++ Gap.across r (some s) n) := by
  have hbefore : p.mapM (Gap.find r · s) = .ok (p.map (Gap.between? r · s)) := by
    cases p with
    | none => rfl
    | some t => simp [Gap.find_eq (hp t rfl).destination hs.origin]
  have hafter : n.mapM (Gap.find r s) = .ok (n.map (Gap.between? r s)) := by
    cases n with
    | none => rfl
    | some t => simp [Gap.find_eq hs.destination (hn t rfl).origin]
  rw [gapsAround, hprevious, Result.ok_bind, hnext, Result.ok_bind, hbefore, Result.ok_bind, hafter,
    Result.ok_bind]
  simp only [Gap.across, Option.bind_some]
  cases p <;> cases n <;> rfl

end Employee

namespace Roster

variable {r r' : Roster}

-- The airports of every flight can be looked up.
def Charted (r : Roster) : Prop := ∀ k a, r.assignments.get? k = some a → a.seat.flight.Charted

theorem Charted.of_owns {id : String} (h : r.Charted) (hs : r.Owns id s) : s.flight.Charted := by
  obtain ⟨k, hk⟩ := hs
  exact h k _ hk

theorem Charted.of_blank_eq (hc : r.Charted) (h : r.blank = r'.blank) : r'.Charted := by
  intro k a ha
  obtain ⟨a', ha', he⟩ := exists_of_blank_eq h.symm ha
  exact he ▸ hc k a' ha'

-- The home airport of every employee can be looked up.
def Homed (r : Roster) : Prop := ∀ id e, r.employees.get? id = some e → e.home.isScalar = true

theorem Homed.of_blank_eq (hh : r.Homed) (h : r.blank = r'.blank) : r'.Homed := by
  intro id e he
  obtain ⟨e', he', hsame⟩ := exists_employee_of_blank_eq h.symm he
  have hhome := congrArg Employee.home hsame
  exact (hhome : e'.home = e.home) ▸ hh id e' he'

end Roster

theorem Reference.isScalar_of_checkAirport {r : Reference} {place : String} {code : Label}
    (h : r.checkAirport place code = .ok ()) : code.isScalar = true := by
  obtain ⟨_, hkey, -⟩ := Result.bind_eq_ok.1 h
  unfold Document.lookupKey at hkey
  split at hkey
  case isTrue hscalar => exact hscalar
  case isFalse => cases hkey

theorem Flight.charted_of_check {r : Reference} {f : Flight} (h : f.check r = .ok ()) : f.Charted := by
  simp only [check, Result.bind_eq_ok] at h
  obtain ⟨⟨⟩, horigin, ⟨⟩, hdestination, -⟩ := h
  exact ⟨r.isScalar_of_checkAirport horigin, r.isScalar_of_checkAirport hdestination⟩

theorem Employee.isScalar_home_of_check {r : Reference} {e : Employee} (h : e.check r = .ok ()) :
    e.home.isScalar = true := by
  obtain ⟨⟨⟩, hhome, -⟩ := Result.bind_eq_ok.1 h
  exact r.isScalar_of_checkAirport hhome

theorem check_of_checkEmployees {r : Reference} {crew : List Employee}
    (h : checkEmployees r crew = .ok ()) : ∀ e ∈ crew, e.check r = .ok () := by
  unfold checkEmployees at h
  dsimp only at h
  split at h
  case isTrue => cases h
  case isFalse => exact Result.forM_eq_ok.1 h

theorem Roster.charted_of_load {r : Roster} {folder : Folder} {scenario : Scenario}
    (h : load folder scenario = .ok r) : r.Charted := by
  obtain ⟨_, _, flights, _, _, _, -, hflights, -, -, hchecked, -, -, hbuild⟩ := load_eq_ok h
  intro k a ha
  obtain ⟨-, -, p, hp, hpa, -⟩ := seat_of_build (Flight.seats_of_mapM hflights) hbuild ha
  exact hpa ▸ Flight.charted_of_check ((checkFlights_eq_ok hchecked).2 p.1 (List.mem_map_of_mem hp))

theorem Roster.homed_of_load {r : Roster} {folder : Folder} {scenario : Scenario}
    (h : load folder scenario = .ok r) : r.Homed := by
  obtain ⟨_, _, _, _, crew, employees, -, -, -, -, -, hchecked, hplaced, hbuild⟩ := load_eq_ok h
  intro id e he
  obtain ⟨e₀, he₀, -, rfl⟩ := employee_of_build hbuild he
  obtain ⟨p, hp, hplace⟩ := (Result.mem_of_mapM hplaced).1 he₀
  have hhome := congrArg Employee.home (Employee.placeAll_eq_ok hplace).1
  have hcheck := check_of_checkEmployees hchecked p.1 (List.mem_map_of_mem hp)
  exact (hhome : e₀.home = p.1.home) ▸ Employee.isScalar_home_of_check hcheck

namespace Seat.Ordered

-- Where a seat belongs among others.
theorem insert (h : Ordered seats) (s : Seat) :
    Ordered (seats.filter (·.key.lt s.key) ++ s :: seats.filter (s.key.lt ·.key)) := by
  refine List.pairwise_append.2 ⟨h.filter _, List.pairwise_cons.2 ⟨?_, h.filter _⟩, ?_⟩
  · exact fun t ht => (List.mem_filter.1 ht).2
  · intro t ht u hu
    have ht := (List.mem_filter.1 ht).2
    rcases List.mem_cons.1 hu with rfl | hu
    · exact ht
    · exact Key.trans ht (List.mem_filter.1 hu).2

theorem eq_append (h : Ordered seats) (hk : ∀ t ∈ seats, t.key ≠ s.key) :
    seats = seats.filter (·.key.lt s.key) ++ seats.filter (s.key.lt ·.key) := by
  refine h.eq_of_mem_iff ?_ fun t => ?_
  · exact List.Pairwise.sublist (List.sublist_cons_self _ _ |>.append_left _) (h.insert s)
  · simp only [List.mem_append, List.mem_filter, ← and_or_left]
    refine (and_iff_left_of_imp fun ht => ?_).symm
    by_cases hlt : t.key.lt s.key
    · exact .inl hlt
    · exact .inr (Key.lt_of_not_lt_of_ne hlt (hk t ht))

theorem filter_lt_split (h : Ordered (xs ++ s :: ys)) :
    (xs ++ s :: ys).filter (·.key.lt s.key) = xs := by
  rw [← h.takeWhile_lt, h.takeWhile_split]

theorem filter_gt_split (h : Ordered (xs ++ s :: ys)) :
    (xs ++ s :: ys).filter (s.key.lt ·.key) = ys := by
  obtain ⟨hbefore, hafter⟩ := h.lt_of_split
  have hxs : xs.filter (s.key.lt ·.key) = [] :=
    List.filter_eq_nil_iff.2 fun t ht => Key.asymm (hbefore t ht)
  rw [List.filter_append, hxs, List.filter_cons, if_neg (Key.irrefl _), List.filter_eq_self.2 hafter,
    List.nil_append]

end Seat.Ordered

section Load

variable {r : Roster} {folder : Folder} {scenario : Scenario} {solved : Bool}

theorem charted_of_loadInstance (h : loadInstance folder solved = .ok (scenario, r)) : r.Charted := by
  obtain ⟨r₀, plan, l, n, hload, hl, rfl⟩ := exists_apply_of_loadInstance h
  exact (Roster.charted_of_load (load_of_loadInstance hload)).of_blank_eq (Ledger.blank_of_apply hl).symm

theorem homed_of_loadInstance (h : loadInstance folder solved = .ok (scenario, r)) : r.Homed := by
  obtain ⟨r₀, plan, l, n, hload, hl, rfl⟩ := exists_apply_of_loadInstance h
  exact (Roster.homed_of_load (load_of_loadInstance hload)).of_blank_eq (Ledger.blank_of_apply hl).symm

namespace Ledger

variable {l l' : Ledger} {e : Employee} {a : Assignment} {id k : String}

-- Whoever gets a seat has it along with the seats of before.
theorem owns_of_assigned (ha : l.roster.assignments.get? k = some a)
    (h : l'.roster.assignments = (l.roster.setOwner k (some id)).assignments) :
    l'.roster.Owns id s ↔ s = a.seat ∨ l.roster.Owns id s := by
  simp only [Roster.Owns, h, Roster.get?_setOwner, Option.map_eq_some_iff, Assignment.mk.injEq]
  constructor
  · rintro ⟨j, b, hb, rfl, ho⟩
    split at ho
    case isTrue hj =>
      subst hj
      exact .inl (congrArg Assignment.seat (Option.some.inj (hb.symm.trans ha)))
    case isFalse => exact .inr ⟨j, ho ▸ hb⟩
  · rintro (rfl | ⟨j, hj⟩)
    · exact ⟨k, a, ha, rfl, if_pos rfl⟩
    · exact ⟨j, _, hj, rfl, by split <;> rfl⟩

namespace Steps

-- Whatever was done to a roster that was loaded, once nothing is pending, an employee can be given a seat
-- that is not the employee's own yet. The gaps from then on are those of before with the ones around the
-- seat in the place of the one between its neighbours.
theorem gaps_of_load (hload : loadInstance folder solved = .ok (scenario, r)) (hp : r.Plain)
    (hs : Steps (.ofRoster r) l) (hn : l.pending = none) (he : l.roster.employees.get? id = some e)
    (ha : l.roster.assignments.get? k = some a) (hne : a.owner ≠ some id) (reference : Reference) :
    ∃ p n gaps l' e' gaps' new, e.calendar.previousSeat a.seat = .ok p ∧
      e.calendar.nextSeat a.seat = .ok n ∧ e.gaps reference = .ok gaps ∧
      l.assign a (some id) = (l', .ok ()) ∧ l'.roster.employees.get? id = some e' ∧
      e'.gaps reference = .ok gaps' ∧ e'.gapsAround reference a.seat = .ok new ∧
      Gap.Spliced reference a.seat p n gaps new gaps' := by
  obtain ⟨hc, hb⟩ := hs.consistent_and_blank (consistent_of_loadInstance hload hp).1 hp
  have hp : l.roster.Plain := hp.of_blank_eq hb.symm
  obtain ⟨l', hl', hn', hc', ha'⟩ := hc.assign_ok hp ha (some id) hn fun i hi =>
    ⟨e, Option.some.inj hi ▸ he⟩
  have hb' : l'.roster.blank = l.roster.blank := blank_of_assign hl'
  have hp' : l'.roster.Plain := hp.of_blank_eq hb'.symm
  obtain ⟨e', he', -⟩ := Roster.exists_employee_of_blank_eq hb'.symm he
  have hmem : ∀ t, t ∈ e.seats ↔ l.roster.Owns id t := fun t => hc.listing.mem_seats hn he
  have hmem' : ∀ t, t ∈ e'.seats ↔ t = a.seat ∨ t ∈ e.seats := fun t => by
    rw [hc'.listing.mem_seats hn' he', hmem, owns_of_assigned ha ha']
  -- the seat falls between those before it and those after it
  have ho := hc.listing.seats_ordered hp.naive he
  have ho' := hc'.listing.seats_ordered hp'.naive he'
  have hnew : ∀ t ∈ e.seats, t.key ≠ a.seat.key := by
    intro t ht hk
    obtain ⟨j, hj⟩ := (hmem t).1 ht
    have heq : t = a.seat := hc.key hj ha hk
    rw [← hc.seatId hj, heq, hc.seatId ha, ha] at hj
    exact hne (congrArg Assignment.owner (Option.some.inj hj))
  have hsplit := ho.insert a.seat
  have hseats := ho.eq_append hnew
  have hseats' : e'.seats = e.seats.filter (·.key.lt a.seat.key) ++
      a.seat :: e.seats.filter (a.seat.key.lt ·.key) := by
    refine ho'.eq_of_mem_iff hsplit fun t => ?_
    rw [hmem', List.perm_middle.mem_iff, ← hseats, List.mem_cons]
  have hcharted : l.roster.Charted := (charted_of_loadInstance hload).of_blank_eq hb.symm
  have hchart : ∀ t ∈ e.seats, t.flight.Charted := fun t ht => hcharted.of_owns ((hmem t).1 ht)
  have hchart' : ∀ t ∈ e'.seats, t.flight.Charted := fun t ht => by
    rcases (hmem' t).1 ht with rfl | ht
    · exact hcharted k a ha
    · exact hchart t ht
  have hline := (hp k a ha).onLine
  have hprevious := hc'.listing.previousSeat_eq hp'.naive he' hline
  have hnext := hc'.listing.nextSeat_eq hp'.naive he' hline
  rw [hseats', hsplit.filter_lt_split] at hprevious
  rw [hseats', hsplit.filter_gt_split] at hnext
  refine ⟨_, _, _, l', e', _, _, hc.listing.previousSeat_eq hp.naive he hline,
    hc.listing.nextSeat_eq hp.naive he hline, Employee.gaps_eq hchart, hl', he',
    Employee.gaps_eq hchart', Employee.gapsAround_eq (hcharted k a ha) hprevious ?_ hnext ?_, ?_⟩
  · exact fun t ht => hchart t (List.mem_filter.1 (List.mem_of_getLast? ht)).1
  · exact fun t ht => hchart t (List.mem_filter.1 (List.mem_of_mem_head? ht)).1
  · have := Gap.spliced (r := reference) hsplit
    rwa [← hseats, ← hseats'] at this

-- The one gap of the employee, between Monday and Thursday, goes with the seat on Tuesday. All gaps that
-- there are then have that seat at one end.
theorem gaps_of_load_journey : ∃ scenario r l l' e e' reference gaps gaps',
    loadInstance .journey false = .ok (scenario, r) ∧ r.Plain ∧ Steps (.ofRoster r) l ∧
    l.pending = none ∧ l.roster.employees.get? "E" = some e ∧
    l.roster.assignments.get? "2@2024-06-04#0" = some ⟨Contents.tuesday.seat, none⟩ ∧
    e.gaps reference = .ok gaps ∧ gaps.map (fun g => (g.previous, g.following)) =
      [(Contents.monday.seat, Contents.thursday.seat)] ∧
    l.assign ⟨Contents.tuesday.seat, none⟩ (some "E") = (l', .ok ()) ∧
    l'.roster.employees.get? "E" = some e' ∧ e'.gaps reference = .ok gaps' ∧
    e'.gapsAround reference Contents.tuesday.seat = .ok gaps' ∧
    ∀ g ∈ gaps', g.previous = Contents.tuesday.seat ∨ g.following = Contents.tuesday.seat := by
  obtain ⟨scenario, r, l, e, hload, hp, -, hre, hremains, hn, he, ha, -, hseats⟩ := travels_journey
  have hs : Steps (.ofRoster r) l := hre.steps
  obtain ⟨p, n, gaps, l', e', gaps', new, hprevious, hnext, hgaps, hassign, he', hgaps', hnew, hspliced⟩ :=
    gaps_of_load hload hp hs hn he ha (by simp) (Contents.journey.reference [])
  have hc := hremains.consistent.listing
  have hline : Contents.tuesday.seat.flight.OnLine false := ⟨by decide, by decide⟩
  have hp₁ : p = some Contents.monday.seat := by
    refine Except.ok.inj (hprevious.symm.trans ((hc.previousSeat_eq hremains.plain.naive he hline).trans ?_))
    rw [hseats]
    exact congrArg _ (by decide +kernel)
  have hn₁ : n = some Contents.thursday.seat := by
    refine Except.ok.inj (hnext.symm.trans ((hc.nextSeat_eq hremains.plain.naive he hline).trans ?_))
    rw [hseats]
    exact congrArg _ (by decide +kernel)
  have hgaps₁ : gaps = Gap.along (Contents.journey.reference [])
      [Contents.monday.seat, Contents.thursday.seat] := by
    refine Except.ok.inj (hgaps.symm.trans (hseats ▸ Employee.gaps_eq ?_))
    simp only [hseats, List.forall_mem_cons]
    exact ⟨⟨rfl, rfl⟩, ⟨rfl, rfl⟩, List.forall_mem_nil _⟩
  have hupTo : Gap.upTo p gaps = [] := by
    rw [hp₁, hgaps₁, ← List.isEmpty_iff]
    decide +kernel
  have hfromOn : Gap.fromOn n gaps = [] := by
    rw [hn₁, hgaps₁, ← List.isEmpty_iff]
    decide +kernel
  have hall : gaps' = new := by
    rw [hspliced.after, hupTo, hfromOn, List.nil_append, List.append_nil]
  refine ⟨scenario, r, l, l', e, e', _, gaps, gaps', hload, hp, hs, hn, he, ha, hgaps, ?_, hassign, he',
    hgaps', hall ▸ hnew, fun g hg => ?_⟩
  · rw [hgaps₁]
    decide +kernel
  · rw [hall, hspliced.around] at hg
    simpa using (List.mem_filter.1 hg).2

end Steps

end Ledger

end Load

end CrewRoster
