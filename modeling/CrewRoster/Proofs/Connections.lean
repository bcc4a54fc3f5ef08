import CrewRoster.Proofs.Repositioning

namespace CrewRoster

variable {r : Reference} {m m₁ m₂ : ℤ} {p : Seat × Seat} {s t : Seat}

namespace Connections

-- The ways on from a leg to the one that follows it, where the two do not meet at an airport:
-- 1. there is none by ground
-- 2. the one by ground takes more than `m` minutes
-- 3. the one by ground takes more than `m₁` minutes and at most `m₂`
-- A connection is possible in none of the first two cases, and then it takes the minutes by ground.
def isCut (r : Reference) (p : Seat × Seat) : Bool :=
  !p.1.flight.destination.same p.2.flight.origin &&
    (r.taxi p.1.flight.destination p.2.flight.origin).isNone

def isLonger (r : Reference) (m : ℤ) (p : Seat × Seat) : Bool :=
  !p.1.flight.destination.same p.2.flight.origin &&
    (r.taxi p.1.flight.destination p.2.flight.origin).any (m < ·)

def isBetween (r : Reference) (m₁ m₂ : ℤ) (p : Seat × Seat) : Bool :=
  !p.1.flight.destination.same p.2.flight.origin &&
    (r.taxi p.1.flight.destination p.2.flight.origin).any fun n => m₁ < n && n ≤ m₂

def isInvalid (r : Reference) (m : ℤ) (p : Seat × Seat) : Bool := isCut r p || isLonger r m p

def minutes (r : Reference) (m : ℤ) (p : Seat × Seat) : ℤ :=
  if isInvalid r m p then 0 else (r.taxi p.1.flight.destination p.2.flight.origin).getD 0

-- The second leg departs on a later day.
def isLater (p : Seat × Seat) : Bool := p.1.departureDate < p.2.departureDate

theorem add_eq (c : Connections) :
    add r m c p = ⟨c.invalid + (isInvalid r m p).toNat, c.taxiMinutes + minutes r m p⟩ := by
  simp only [add, minutes, isInvalid, isCut, isLonger, Reference.taxi]
  split
  case isTrue hsame => simp [hsame]
  case isFalse hsame =>
    simp only [Bool.not_eq_true] at hsame
    simp only [hsame, Bool.not_false, Bool.true_and]
    split
    case h_1 n hn =>
      by_cases hm : m < n <;> simp [hn, hm]
    case h_2 hn => simp [hn]

theorem add_of_isInvalid (h : isInvalid r m p) (c : Connections) :
    add r m c p = { c with invalid := c.invalid + 1 } := by
  simp [add_eq, minutes, h]

theorem foldl_add_eq (legs : List (Seat × Seat)) (c : Connections) :
    legs.foldl (add r m) c =
      ⟨c.invalid + legs.countP (isInvalid r m), c.taxiMinutes + (legs.map (minutes r m)).sum⟩ := by
  induction legs generalizing c with
  | nil => simp
  | cons p legs ih =>
    rw [List.foldl_cons, ih, add_eq, List.countP_cons, List.map_cons, List.sum_cons]
    have htoNat : (isInvalid r m p).toNat = if isInvalid r m p then 1 else 0 := by
      cases isInvalid r m p <;> rfl
    rw [htoNat]
    congr 1
    · push_cast
      ring
    · ring

theorem ofLegs_eq (r : Reference) (m : ℤ) (seats : List Seat) : ofLegs r m seats =
    ⟨(consecutive seats).countP (isInvalid r m), ((consecutive seats).map (minutes r m)).sum⟩ := by
  rw [ofLegs, foldl_add_eq, zero_add, zero_add]

theorem isInvalid_anti (h : m₁ ≤ m₂) (hi : isInvalid r m₂ p) : isInvalid r m₁ p := by
  simp only [isInvalid, isLonger, Bool.or_eq_true, Bool.and_eq_true, Option.any_eq_true,
    decide_eq_true_eq] at hi ⊢
  exact hi.imp_right fun ⟨hapart, n, hn, hlt⟩ => ⟨hapart, n, hn, lt_of_le_of_lt h hlt⟩

theorem minutes_mono (h : m₁ ≤ m₂)
    (hr : ∀ {origin destination n}, r.taxi origin destination = some n → 0 ≤ n) :
    minutes r m₁ p ≤ minutes r m₂ p := by
  by_cases h₂ : isInvalid r m₂ p
  case pos => rw [minutes, minutes, if_pos h₂, if_pos (isInvalid_anti h h₂)]
  case neg =>
    have hnonneg : 0 ≤ (r.taxi p.1.flight.destination p.2.flight.origin).getD 0 := by
      cases hway : r.taxi p.1.flight.destination p.2.flight.origin with
      | none => exact le_rfl
      | some n => exact hr hway
    rw [minutes, minutes, if_neg h₂]
    split
    case isTrue => exact hnonneg
    case isFalse => exact le_rfl

-- The connections that are possible only with the higher of two limits.
theorem countP_isInvalid_relax (h : m₁ ≤ m₂) (legs : List (Seat × Seat)) :
    legs.countP (isInvalid r m₁) = legs.countP (isInvalid r m₂) + legs.countP (isBetween r m₁ m₂) := by
  refine Lists.countP_add fun p _ => ?_
  simp only [isInvalid, isCut, isLonger, isBetween]
  cases p.1.flight.destination.same p.2.flight.origin
  case true => rfl
  case false =>
    cases r.taxi p.1.flight.destination p.2.flight.origin with
    | none => rfl
    | some n =>
      rcases lt_or_ge m₂ n with h₂ | h₂
      · simp [h₂, lt_of_le_of_lt h h₂, not_le.2 h₂]
      · simp [h₂, not_lt.2 h₂]

-- A connection is a gap, or it is cut and goes on no later day, or it takes too long.
theorem countP_isInvalid (legs : List (Seat × Seat)) : legs.countP (isInvalid r m) =
    (legs.filter fun p => isCut r p && isLater p).length +
      legs.countP (fun p => isCut r p && !isLater p) + legs.countP (isLonger r m) := by
  have hcut : legs.countP (isCut r) = (legs.filter fun p => isCut r p && isLater p).length +
      legs.countP fun p => isCut r p && !isLater p := by
    rw [← List.countP_eq_length_filter]
    refine Lists.countP_add fun p _ => ?_
    cases isCut r p <;> cases isLater p <;> rfl
  rw [← hcut]
  refine Lists.countP_add fun p _ => ?_
  simp only [isInvalid, isCut, isLonger]
  cases r.taxi p.1.flight.destination p.2.flight.origin <;> simp

-- The connections with transfers of at most `m` minutes, next to the gaps between the same legs. The
-- ones that are not possible are
-- 1. the gaps
-- 2. those where there is no way by ground and the day is the same or an earlier one
-- 3. those where the way by ground is too long
def Covers (r : Reference) (seats : List Seat) (gaps : List Gap) (m : ℤ) (c : Connections) : Prop :=
  c.invalid = gaps.length + (consecutive seats).countP (fun p => isCut r p && !isLater p) +
    (consecutive seats).countP (isLonger r m)

-- What becomes of the connections when transfers of up to `m₂` minutes are allowed, after `m₁`.
structure Relaxed (r : Reference) (seats : List Seat) (m₁ m₂ : ℤ) (c₁ c₂ : Connections) : Prop where
  invalid : c₂.invalid ≤ c₁.invalid
  taxiMinutes : c₁.taxiMinutes ≤ c₂.taxiMinutes
  dropped : c₁.invalid - c₂.invalid = (consecutive seats).countP (isBetween r m₁ m₂)

theorem relaxed_ofLegs (h : m₁ ≤ m₂)
    (hr : ∀ {origin destination n}, r.taxi origin destination = some n → 0 ≤ n) (seats : List Seat) :
    Relaxed r seats m₁ m₂ (ofLegs r m₁ seats) (ofLegs r m₂ seats) := by
  have hcount := countP_isInvalid_relax (r := r) h (consecutive seats)
  rw [ofLegs_eq, ofLegs_eq]
  constructor
  case invalid =>
    dsimp only
    omega
  case taxiMinutes => exact List.sum_le_sum fun p _ => minutes_mono h hr
  case dropped =>
    dsimp only
    omega

end Connections

namespace Gap

-- The legs that a gap is between.
def ends (g : Gap) : Seat × Seat := (g.previous, g.following)

open Connections (isCut isLater)

-- A later leg is on another day, so that there is a day after the first.
theorem map_ends_between? (r : Reference) (s t : Seat) :
    (between? r s t).map ends = if isCut r (s, t) && isLater (s, t) then some (s, t) else none := by
  by_cases hlater : s.departureDate < t.departureDate
  case neg => simp [between?, isLater, hlater]
  case pos =>
    have hnumber : s.departureDate.number < 3652059 :=
      (Date.lt_def.1 hlater).trans_le t.departureDate.le_last
    obtain ⟨day, hday, -⟩ := Date.next_yields hnumber
    simp only [between?, isCut, isLater, hlater, hday]
    split_ifs with hcut <;> simp_all [Except.toOption, ends]

theorem map_ends_along (r : Reference) (seats : List Seat) :
    (along r seats).map ends = (consecutive seats).filter fun p => isCut r p && isLater p := by
  rw [along, List.map_filterMap, ← List.filterMap_eq_filter]
  refine List.filterMap_congr fun p _ => ?_
  rw [map_ends_between?]
  rfl

end Gap

namespace Employee

variable {e : Employee}

theorem connections_eq (h : ∀ s ∈ e.seats, s.flight.Charted) (r : Reference) (m : ℤ) :
    e.connections r m = .ok (.ofLegs r m e.seats) := by
  have hways : (consecutive e.seats).forM
      (fun p => r.checkWay p.1.flight.destination p.2.flight.origin) = .ok () := by
    refine Result.forM_eq_ok.2 fun p hp => ?_
    obtain ⟨hs, ht⟩ := List.of_mem_zip hp
    exact r.checkWay_of_isScalar (h _ hs).destination (h _ (List.mem_of_mem_tail ht)).origin
  rw [connections, hways, Result.ok_bind]
  rfl

section Scans

variable (h : ∀ s ∈ e.seats, s.flight.Charted)
  (hr : ∀ {origin destination n}, r.taxi origin destination = some n → 0 ≤ n)
include h hr

-- Both scans of an employee's legs come to an end, where the airports can be looked up.
-- 1. The gaps are the connections without a way by ground whose second leg is on a later day.
-- 2. Each is between legs that follow each other, and their connection is counted as one that is not
--    possible, whatever the longest transfer is.
-- 3. With them, every connection that is not possible is told.
-- 4. Where no transfer takes negative time, longer ones make connections possible and no others.
theorem connections_and_gaps : ∃ gaps, e.gaps r = .ok gaps ∧
    gaps.map Gap.ends =
      (consecutive e.seats).filter (fun p => Connections.isCut r p && Connections.isLater p) ∧
    (∀ g ∈ gaps, g.ends ∈ consecutive e.seats ∧
      ∀ m c, Connections.add r m c g.ends = { c with invalid := c.invalid + 1 }) ∧
    (∀ m, ∃ c, e.connections r m = .ok c ∧ c.Covers r e.seats gaps m) ∧
    ∀ m₁ m₂ c₁ c₂, m₁ ≤ m₂ → e.connections r m₁ = .ok c₁ → e.connections r m₂ = .ok c₂ →
      Connections.Relaxed r e.seats m₁ m₂ c₁ c₂ := by
  have hends := Gap.map_ends_along r e.seats
  refine ⟨_, gaps_eq h, hends, fun g hg => ?_, fun m => ⟨_, connections_eq h r m, ?_⟩, ?_⟩
  · have hg : g.ends ∈ (consecutive e.seats).filter _ := hends ▸ List.mem_map_of_mem hg
    obtain ⟨hmem, hgap⟩ := List.mem_filter.1 hg
    have hcut := (Bool.and_eq_true_iff.1 hgap).1
    exact ⟨hmem, fun m c => Connections.add_of_isInvalid (by rw [Connections.isInvalid, hcut]; rfl) c⟩
  · have hlength := congrArg List.length hends
    rw [List.length_map] at hlength
    rw [Connections.Covers, Connections.ofLegs_eq, Connections.countP_isInvalid, hlength]
    push_cast
    rfl
  · intro m₁ m₂ c₁ c₂ hm h₁ h₂
    obtain rfl := Except.ok.inj ((connections_eq h r m₁).symm.trans h₁)
    obtain rfl := Except.ok.inj ((connections_eq h r m₂).symm.trans h₂)
    exact Connections.relaxed_ofLegs hm hr e.seats

end Scans

end Employee

theorem Reference.taxi_nonneg (h : ∀ x ∈ r.airports.values, ∀ way ∈ x.airport.taxi, 0 ≤ way.2)
    {origin destination : Label} {n : ℤ} (hn : r.taxi origin destination = some n) : 0 ≤ n := by
  rw [taxi] at hn
  split at hn
  case isTrue => exact (Option.some.inj hn).le
  case isFalse =>
    obtain ⟨a, ha, hn⟩ := Option.bind_eq_some_iff.1 hn
    obtain ⟨x, hx, rfl⟩ := Option.map_eq_some_iff.1 ha
    rw [Airport.taxiTo] at hn
    split at hn
    case isTrue => exact (Option.some.inj hn).le
    case isFalse =>
      obtain ⟨way, hway, rfl⟩ := Option.map_eq_some_iff.1 hn
      exact h x (Registry.mem_values.2 ⟨_, hx⟩) way (List.mem_of_find?_eq_some hway)

namespace Contents

-- From B it takes 300 minutes by ground to A, and there is no other way by ground.
def detour : Contents :=
  { journey with
    airports := [⟨"B", "B", .zero, .zero⟩]
    transfers := [⟨"B", "A", 300⟩] }

-- On Monday from A to B and then from C to D, on Tuesday from E to B, on Thursday from A.
def detourer : Employee where
  id := "E"
  name := .text "E"
  home := .text "A"
  skills := []
  aircraft := []
  extras := []
  daysOff := []
  calendar := .ofDuties [
    { Duty.placeholder "E" (.after 739039) with seats := [monday.seat,
      { monday with
        number := "4", origin := "C", destination := "D"
        departure := .ofDate (.after 739039) (.after 19 0 0)
        arrival := .ofDate (.after 739039) (.after 20 0 0) : Leg }.seat] },
    { Duty.placeholder "E" (.after 739040) with seats := [{ tuesday with origin := "E" : Leg }.seat] },
    { Duty.placeholder "E" (.after 739042) with seats := [thursday.seat] }]

end Contents

-- Nothing leads from B to C, on one day, and nothing from D to E, which is a gap. The way to the last
-- leg is possible if transfers may take 300 minutes, but not if they may take 240.
theorem Employee.connections_and_gaps_detour : ∃ (e : Employee) (r : Reference) (gaps : List Gap)
    (c₁ c₂ : Connections), (∀ s ∈ e.seats, s.flight.Charted) ∧
    (∀ {origin destination n}, r.taxi origin destination = some n → 0 ≤ n) ∧ e.seats.length = 4 ∧
    e.gaps r = .ok gaps ∧ gaps.length = 1 ∧
    e.connections r 240 = .ok c₁ ∧ c₁.invalid = 1 + 1 + 1 ∧
    e.connections r 300 = .ok c₂ ∧ c₁.invalid - c₂.invalid = 1 ∧ c₁.taxiMinutes ≤ c₂.taxiMinutes := by
  have hcharted : ∀ s ∈ Contents.detourer.seats, s.flight.Charted := by
    have h : ∀ s ∈ Contents.detourer.seats,
        s.flight.origin.isScalar = true ∧ s.flight.destination.isScalar = true := by decide +kernel
    exact fun s hs => ⟨(h s hs).1, (h s hs).2⟩
  have hr : ∀ {origin destination n}, (Contents.detour.reference []).taxi origin destination = some n →
      0 ≤ n := Reference.taxi_nonneg (by decide +kernel)
  obtain ⟨gaps, hgaps, hends, -, hconnections, hrelaxed⟩ := connections_and_gaps hcharted hr
  obtain ⟨c₁, hc₁, hcovers⟩ := hconnections 240
  obtain ⟨c₂, hc₂, -⟩ := hconnections 300
  have hr' := hrelaxed 240 300 c₁ c₂ (by decide) hc₁ hc₂
  have hlength : gaps.length = 1 := by
    rw [← List.length_map Gap.ends, hends]
    decide +kernel
  refine ⟨_, _, gaps, c₁, c₂, hcharted, @hr, by decide +kernel, hgaps, hlength, hc₁, ?_, hc₂, ?_,
    hr'.taxiMinutes⟩
  · rw [hcovers, hlength]
    decide +kernel
  · rw [hr'.dropped]
    decide +kernel

end CrewRoster
