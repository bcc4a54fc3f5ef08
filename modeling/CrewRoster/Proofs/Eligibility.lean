import CrewRoster.Eligibility
import CrewRoster.Proofs.Overlap
import CrewRoster.Proofs.Roster

namespace CrewRoster

-- An employee may take a seat: there is the skill, there is the aircraft type, and the day is free.
structure Employee.Qualified (e : Employee) (s : Seat) : Prop where
  skill : e.hasSkill s.skill = .ok true
  aircraft : e.isQualifiedFor s.flight.aircraft = .ok true
  available : e.isAvailable s.departureDate = true

namespace Roster

variable {r : Roster} {k e : String} {a : Assignment} {s t : Seat} {zoned : Bool}

def seats (r : Roster) : List Seat := r.assignments.values.map (·.seat)

-- A seat that nobody holds.
def Open (r : Roster) (s : Seat) : Prop := ∃ k, r.assignments.get? k = some ⟨s, none⟩

-- A seat that an employee holds.
def Owns (r : Roster) (e : String) (s : Seat) : Prop := ∃ k, r.assignments.get? k = some ⟨s, some e⟩

def ownerOf (r : Roster) (seat : String) : Option String := (r.assignments.get? seat).bind (·.owner)

theorem seats_of_blank_eq {r' : Roster} (h : r.blank = r'.blank) : r.seats = r'.seats := by
  have hseats : ∀ r : Roster, r.seats = r.blank.assignments.values.map (·.seat) := fun r => by
    simp [seats, blank, Registry.values_mapValues, Function.comp_def]
  rw [hseats, h, ← hseats]

theorem mem_seats : s ∈ r.seats ↔ ∃ k a, r.assignments.get? k = some a ∧ a.seat = s := by
  simp only [seats, List.mem_map, Registry.mem_values]
  constructor
  · rintro ⟨a, ⟨k, ha⟩, hs⟩
    exact ⟨k, a, ha, hs⟩
  · rintro ⟨k, a, ha, hs⟩
    exact ⟨a, ⟨k, ha⟩, hs⟩

theorem Open.mem_seats (h : r.Open s) : s ∈ r.seats := by
  obtain ⟨k, hk⟩ := h
  exact Roster.mem_seats.2 ⟨k, _, hk, rfl⟩

theorem Owns.mem_seats (h : r.Owns e s) : s ∈ r.seats := by
  obtain ⟨k, hk⟩ := h
  exact Roster.mem_seats.2 ⟨k, _, hk, rfl⟩

-- A seat is held by somebody or open.
theorem open_or_owns (h : s ∈ r.seats) : r.Open s ∨ ∃ e, r.Owns e s := by
  obtain ⟨k, ⟨s, owner⟩, ha, rfl⟩ := mem_seats.1 h
  cases owner with
  | none => exact .inl ⟨k, ha⟩
  | some e => exact .inr ⟨e, k, ha⟩

namespace WellFormed

variable (h : r.WellFormed)
include h

theorem open_iff : r.Open s ↔ r.assignments.get? s.id = some ⟨s, none⟩ :=
  ⟨fun ⟨_, hk⟩ => h.seatId hk ▸ hk, fun hk => ⟨_, hk⟩⟩

theorem owns_iff : r.Owns e s ↔ r.assignments.get? s.id = some ⟨s, some e⟩ :=
  ⟨fun ⟨_, hk⟩ => h.seatId hk ▸ hk, fun hk => ⟨_, hk⟩⟩

theorem eq_of_owns {e' : String} (hs : r.Owns e s) (hs' : r.Owns e' s) : e = e' := by
  have := (h.owns_iff.1 hs).symm.trans (h.owns_iff.1 hs')
  simpa using this

theorem not_open_of_owns (hs : r.Owns e s) : ¬r.Open s := by
  intro hs'
  have := (h.owns_iff.1 hs).symm.trans (h.open_iff.1 hs')
  simp at this

theorem eq_of_seatId (hs : s ∈ r.seats) (ht : t ∈ r.seats) (hid : s.id = t.id) : s = t := by
  obtain ⟨j, a, ha, rfl⟩ := mem_seats.1 hs
  obtain ⟨k, b, hb, rfl⟩ := mem_seats.1 ht
  rw [← h.seatId ha, hid, h.seatId hb, hb] at ha
  rw [Option.some.inj ha]

theorem eq_of_seatKey (hs : s ∈ r.seats) (ht : t ∈ r.seats) (hk : s.key = t.key) : s = t := by
  obtain ⟨j, a, ha, rfl⟩ := mem_seats.1 hs
  obtain ⟨k, b, hb, rfl⟩ := mem_seats.1 ht
  exact h.key ha hb hk

-- The owner of a seat is what the seat is asked about under its id.
theorem ownerOf_eq_some (hs : s ∈ r.seats) : r.ownerOf s.id = some e ↔ r.Owns e s := by
  obtain ⟨k, ⟨t, owner⟩, ha, rfl⟩ := mem_seats.1 hs
  obtain rfl := h.seatId ha
  rw [h.owns_iff, ownerOf, ha]
  simp

theorem ownerOf_eq_none (hs : s ∈ r.seats) : r.ownerOf s.id = none ↔ r.Open s := by
  obtain ⟨k, ⟨t, owner⟩, ha, rfl⟩ := mem_seats.1 hs
  obtain rfl := h.seatId ha
  rw [h.open_iff, ownerOf, ha]
  simp

theorem pairwise_seat : r.assignments.values.Pairwise fun a b => a.seat ≠ b.seat := by
  rw [Registry.values, List.pairwise_map]
  have hn : r.assignments.entries.Pairwise fun p q => p.1 ≠ q.1 :=
    List.pairwise_map.1 r.assignments.nodup
  refine hn.imp_of_mem fun hp hq hne hs => hne ?_
  rw [← h.seatId (Registry.get?_eq_some.2 hp), ← h.seatId (Registry.get?_eq_some.2 hq), hs]

theorem pairwise_key : r.assignments.values.Pairwise fun a b => a.seat.key ≠ b.seat.key := by
  refine h.pairwise_seat.imp_of_mem fun ha hb hne hk => hne ?_
  obtain ⟨j, ha⟩ := Registry.mem_values.1 ha
  obtain ⟨k, hb⟩ := Registry.mem_values.1 hb
  exact h.key ha hb hk

end WellFormed
end Roster

namespace Eligibility

open Roster

variable {r : Roster} {el el' : Eligibility} {employees : List Employee} {seats : List Seat}
  {emp emp' : Employee} {s : Seat} {e seat : String} {p : String × String} {b zoned : Bool}

theorem isEligible_eq_true : isEligible emp s = .ok true ↔ emp.Qualified s := by
  constructor
  · intro h
    simp only [isEligible, Result.bind_eq_ok] at h
    obtain ⟨skill, hskill, h⟩ := h
    cases skill with
    | false => cases h
    | true =>
      obtain ⟨aircraft, haircraft, h⟩ := Result.bind_eq_ok.1 h
      cases aircraft with
      | false => cases h
      | true => exact ⟨hskill, haircraft, Result.pure_eq_ok.1 h⟩
  · intro h
    simp [isEligible, h.skill, h.aircraft, h.available, bind, Except.bind, pure, Except.pure]

instance : Decidable (emp.Qualified s) :=
  decidable_of_iff ((isEligible emp s).toOption = some true)
    (Result.toOption_eq_some.trans isEligible_eq_true)

-- Whether a label can be looked up does not depend on where.
theorem exists_holds {labels : List Label} {l : Label} (h : Employee.holds labels l = .ok b)
    (labels' : List Label) : ∃ b', Employee.holds labels' l = .ok b' := by
  obtain ⟨k, hk, -⟩ := Result.bind_eq_ok.1 h
  exact ⟨_, Result.bind_eq_ok.2 ⟨k, hk, rfl⟩⟩

-- A seat that somebody may take can be asked about for everybody.
theorem exists_isEligible (h : emp.Qualified s) (emp' : Employee) : ∃ b, isEligible emp' s = .ok b := by
  obtain ⟨skill, hskill⟩ := exists_holds h.skill emp'.skills
  obtain ⟨aircraft, haircraft⟩ := exists_holds h.aircraft emp'.aircraft
  cases skill with
  | false => exact ⟨false, Result.bind_eq_ok.2 ⟨false, hskill, rfl⟩⟩
  | true =>
    cases aircraft with
    | false =>
      exact ⟨false, Result.bind_eq_ok.2 ⟨true, hskill, Result.bind_eq_ok.2 ⟨false, haircraft, rfl⟩⟩⟩
    | true => exact ⟨_, Result.bind_eq_ok.2 ⟨true, hskill, Result.bind_eq_ok.2 ⟨true, haircraft, rfl⟩⟩⟩

theorem exists_ofPairs (h : ∀ s ∈ seats, ∃ emp, Employee.Qualified emp s) :
    ∃ el, ofPairs employees seats = .ok el := by
  have hrow : ∀ emp ∈ employees, ∃ row, (seats.mapM fun s => do
      return ((emp.id, s.id), ← isEligible emp s)) = .ok row := by
    intro emp _
    refine Result.mapM_ok_of_forall fun s hs => ?_
    obtain ⟨emp', hq⟩ := h s hs
    obtain ⟨b, hb⟩ := exists_isEligible hq emp
    exact ⟨_, Result.bind_eq_ok.2 ⟨b, hb, rfl⟩⟩
  obtain ⟨rows, hrows⟩ := Result.mapM_ok_of_forall hrow
  exact ⟨_, Result.bind_eq_ok.2 ⟨rows, hrows, rfl⟩⟩

-- Employees and seats that are told apart by their ids are eligible by themselves.
theorem allows_ofPairs (h : ofPairs employees seats = .ok el)
    (hemployees : ∀ a ∈ employees, ∀ b ∈ employees, a.id = b.id → a = b)
    (hseats : ∀ s ∈ seats, ∀ t ∈ seats, s.id = t.id → s = t) (he : emp ∈ employees) (hs : s ∈ seats) :
    el.allows emp.id s.id = true ↔ emp.Qualified s := by
  obtain ⟨rows, hrows, h⟩ := Result.bind_eq_ok.1 h
  obtain rfl := Result.pure_eq_ok.1 h
  have hmem : ∀ {entry}, entry ∈ rows.flatten ↔ ∃ emp ∈ employees, ∃ s ∈ seats, ∃ b,
      isEligible emp s = .ok b ∧ ((emp.id, s.id), b) = entry := by
    intro entry
    rw [List.mem_flatten]
    constructor
    · rintro ⟨row, hrow, hentry⟩
      obtain ⟨emp, he, hrow⟩ := (Result.mem_of_mapM hrows).1 hrow
      obtain ⟨s, hs, hentry⟩ := (Result.mem_of_mapM hrow).1 hentry
      obtain ⟨b, hb, hentry⟩ := Result.bind_eq_ok.1 hentry
      exact ⟨emp, he, s, hs, b, hb, Result.pure_eq_ok.1 hentry⟩
    · rintro ⟨emp, he, s, hs, b, hb, rfl⟩
      obtain ⟨row, hrow, hr⟩ := Result.exists_of_mapM hrows he
      exact ⟨row, hrow, (Result.mem_of_mapM hr).2 ⟨s, hs, Result.bind_eq_ok.2 ⟨b, hb, rfl⟩⟩⟩
  have hunique : ∀ {b}, isEligible emp s = .ok b →
      (Registry.ofList rows.flatten).get? (emp.id, s.id) = some b := by
    intro b hb
    refine Registry.get?_ofList (hmem.2 ⟨emp, he, s, hs, b, hb, rfl⟩) fun b' hb' => ?_
    obtain ⟨emp', he', s', hs', b₁, hb₁, heq⟩ := hmem.1 hb'
    simp only [Prod.mk.injEq] at heq
    obtain ⟨⟨hid, hsid⟩, rfl⟩ := heq
    obtain rfl := hemployees emp' he' emp he hid
    obtain rfl := hseats s' hs' s hs hsid
    exact Except.ok.inj (hb₁.symm.trans hb)
  obtain ⟨row, -, hrow⟩ := Result.exists_of_mapM hrows he
  obtain ⟨_, -, hentry⟩ := Result.exists_of_mapM hrow hs
  obtain ⟨b, hb, -⟩ := Result.bind_eq_ok.1 hentry
  rw [← isEligible_eq_true, allows, hunique hb, hb, Option.getD_some, Except.ok.injEq]

section Block

-- A pair of clashing seats, one held by `e` and the other one open, keeps `e` from the other one.
def Blocks (r : Roster) (e seat : String) (p : String × String) : Prop :=
  r.ownerOf p.1 = some e ∧ r.ownerOf p.2 = none ∧ seat = p.2 ∨
    r.ownerOf p.1 = none ∧ r.ownerOf p.2 = some e ∧ seat = p.1

theorem allows_insert {e' seat' : String} :
    Eligibility.allows (Registry.insert el (e', seat') false) e seat = true ↔
      el.allows e seat = true ∧ ¬(e = e' ∧ seat = seat') := by
  unfold allows
  rw [Registry.get?_insert]
  by_cases h : e = e' ∧ seat = seat'
  · simp [h]
  · have hne : (e, seat) ≠ (e', seat') := by simpa using h
    simp [hne, h]

theorem allows_blockPair :
    (blockPair r el p).allows e seat = true ↔ el.allows e seat = true ∧ ¬Blocks r e seat p := by
  unfold blockPair Blocks
  dsimp only
  split
  case h_1 e' h₁ h₂ =>
    have h₁ : r.ownerOf p.1 = some e' := h₁
    have h₂ : r.ownerOf p.2 = none := h₂
    rw [allows_insert, h₁, h₂]
    refine and_congr_right fun _ => not_congr ⟨?_, ?_⟩
    · rintro ⟨rfl, rfl⟩
      exact .inl ⟨rfl, rfl, rfl⟩
    · rintro (⟨he, -, hs⟩ | ⟨he, -⟩)
      · exact ⟨(Option.some.inj he).symm, hs⟩
      · cases he
  case h_2 e' h₁ h₂ =>
    have h₁ : r.ownerOf p.1 = none := h₁
    have h₂ : r.ownerOf p.2 = some e' := h₂
    rw [allows_insert, h₁, h₂]
    refine and_congr_right fun _ => not_congr ⟨?_, ?_⟩
    · rintro ⟨rfl, rfl⟩
      exact .inr ⟨rfl, rfl, rfl⟩
    · rintro (⟨he, -⟩ | ⟨-, he, hs⟩)
      · cases he
      · exact ⟨(Option.some.inj he).symm, hs⟩
  case h_3 h₁ h₂ =>
    have hnot : ¬Blocks r e seat p := by
      rintro (⟨ha, hb, -⟩ | ⟨ha, hb, -⟩)
      · exact h₁ e ha hb
      · exact h₂ e ha hb
    exact (and_iff_left hnot).symm

theorem allows_foldl {ps : List (String × String)} :
    (ps.foldl (blockPair r) el).allows e seat = true ↔
      el.allows e seat = true ∧ ∀ p ∈ ps, ¬Blocks r e seat p := by
  induction ps generalizing el with
  | nil => simp
  | cons p ps ih =>
    rw [List.foldl_cons, ih, allows_blockPair, List.forall_mem_cons, and_assoc]

-- An open seat is kept from an employee by the pairs of clashing seats of which the employee holds the
-- other one.
theorem not_blocks_iff {sorted : List Seat} (h : r.WellFormed) (ho : Seat.Ordered sorted)
    (hperm : sorted.Perm r.seats) (hs : r.Open s) :
    (∀ p ∈ (Seat.clashing sorted).map fun p => (p.1.id, p.2.id), ¬Blocks r e s.id p) ↔
      ∀ t, r.Owns e t → s.clashes t = false := by
  have hsorted : ∀ {t}, t ∈ sorted ↔ t ∈ r.seats := hperm.mem_iff
  constructor
  · intro hnone t hown
    rw [Bool.eq_false_iff]
    intro hclash
    have hne : s.key ≠ t.key := by
      intro hk
      obtain rfl := h.eq_of_seatKey hs.mem_seats hown.mem_seats hk
      exact h.not_open_of_owns hown hs
    have hos := (h.ownerOf_eq_none hs.mem_seats).2 hs
    have hot := (h.ownerOf_eq_some hown.mem_seats).2 hown
    -- the pair is found whichever of the two seats comes first
    by_cases hlt : s.key.lt t.key
    · have hpair : (s, t) ∈ Seat.clashing sorted := (Seat.mem_clashing ho).2
        ⟨hsorted.2 hs.mem_seats, hsorted.2 hown.mem_seats, hlt, hclash⟩
      exact hnone _ (List.mem_map_of_mem hpair) (.inr ⟨hos, hot, rfl⟩)
    · have hpair : (t, s) ∈ Seat.clashing sorted := (Seat.mem_clashing ho).2
        ⟨hsorted.2 hown.mem_seats, hsorted.2 hs.mem_seats, Seat.Key.lt_of_not_lt_of_ne hlt hne,
          Seat.clashes_comm s t ▸ hclash⟩
      exact hnone _ (List.mem_map_of_mem hpair) (.inl ⟨hot, hos, rfl⟩)
  · intro hnone p hp hblocks
    obtain ⟨⟨a, b⟩, hab, rfl⟩ := List.mem_map.1 hp
    obtain ⟨ha, hb, -, hclash⟩ := (Seat.mem_clashing ho).1 hab
    have ha := hsorted.1 ha
    have hb := hsorted.1 hb
    rcases hblocks with ⟨hown, -, hid⟩ | ⟨-, hown, hid⟩
    · obtain rfl := h.eq_of_seatId hs.mem_seats hb hid
      have hfree := hnone a ((h.ownerOf_eq_some ha).1 hown)
      rw [Seat.clashes_comm, hclash] at hfree
      cases hfree
    · obtain rfl := h.eq_of_seatId hs.mem_seats ha hid
      have hfree := hnone b ((h.ownerOf_eq_some hb).1 hown)
      rw [hclash] at hfree
      cases hfree

-- What an employee holds already keeps the open seats that clash with it from that employee, and nothing
-- else does.
theorem block_eq (el : Eligibility) (h : r.WellFormed) (ht : Seat.Timetable zoned r.seats) :
    ∃ el', block r el = .ok el' ∧ ∀ e s, r.Open s →
      (el'.allows e s.id = true ↔
        el.allows e s.id = true ∧ ∀ t, r.Owns e t → s.clashes t = false) := by
  unfold block
  split
  case isTrue hall =>
    refine ⟨el, rfl, fun e s _ => (and_iff_left ?_).symm⟩
    rintro t ⟨k, hk⟩
    have := List.all_eq_true.1 hall _ (Registry.mem_values.2 ⟨k, hk⟩)
    simp at this
  case isFalse =>
    obtain ⟨sorted, ho, hperm, hpairs⟩ := conflictPairs_eq ht h.pairwise_key
    rw [hpairs]
    refine ⟨_, rfl, fun e s hs => ?_⟩
    rw [allows_foldl]
    exact and_congr_right fun _ => not_blocks_iff h ho hperm hs

end Block

end Eligibility
end CrewRoster
