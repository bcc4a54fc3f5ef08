import CrewRoster.Proofs.RestAhead

namespace CrewRoster

namespace Span

variable {s : ℤ}

-- Whole minutes up to the end of the calendar are counted without loss.
theorem minutes_eq_ediv_of_dvd (h : minute ∣ s) (hlow : 0 ≤ s) (hhigh : s ≤ calendar) :
    minutes s = s / minute := by
  obtain ⟨k, rfl⟩ := h
  rw [minute_eq, calendar_eq] at *
  rw [Int.mul_ediv_cancel_left _ (by norm_num), mul_comm, ← minute_eq,
    minutes_mul (abs_le.2 ⟨by omega, by omega⟩)]

end Span

namespace Interval

variable {a b f g t first last : Interval} {bs legs : List Interval} {x y z : Instant}

-- The ends are without zones, and the interval does not end before it starts.
structure Plain (a : Interval) : Prop where
  start : a.start.zone = none
  finish : a.finish.zone = none
  le : a.start.wall ≤ a.finish.wall

def length (a : Interval) : Int := a.finish.wall - a.start.wall

-- The time that both intervals hold.
def sharedTime (a b : Interval) : Int :=
  max 0 (min a.finish.wall b.finish.wall - max a.start.wall b.start.wall)

-- At some moment both intervals are under way: each has started by then and is not over yet.
def Meets (a b : Interval) : Prop :=
  ∃ t : ℤ, (a.start.wall ≤ t ∧ t < a.finish.wall) ∧ b.start.wall ≤ t ∧ t < b.finish.wall

structure Inside (a b : Interval) : Prop where
  start : b.start.wall ≤ a.start.wall
  finish : a.finish.wall ≤ b.finish.wall

theorem Inside.trans {c : Interval} (h : a.Inside b) (h' : b.Inside c) : a.Inside c :=
  ⟨h'.start.trans h.start, h.finish.trans h'.finish⟩

instance : Decidable (a.Inside b) :=
  decidable_of_iff (b.start.wall ≤ a.start.wall ∧ a.finish.wall ≤ b.finish.wall)
    ⟨fun ⟨hs, hf⟩ => ⟨hs, hf⟩, fun h => ⟨h.start, h.finish⟩⟩

structure OnMinute (a : Interval) : Prop where
  start : a.start.OnMinute
  finish : a.finish.OnMinute

instance : Decidable a.OnMinute :=
  decidable_of_iff (a.start.OnMinute ∧ a.finish.OnMinute)
    ⟨fun ⟨hs, hf⟩ => ⟨hs, hf⟩, fun h => ⟨h.start, h.finish⟩⟩

theorem meets_iff : a.Meets b ↔ 0 < a.sharedTime b := by
  unfold sharedTime
  constructor
  · rintro ⟨t, ha, hb⟩
    omega
  · intro h
    exact ⟨max a.start.wall b.start.wall, by omega, by omega⟩

instance : Decidable (a.Meets b) := decidable_of_iff _ meets_iff.symm

theorem sharedTime_comm : a.sharedTime b = b.sharedTime a := by
  rw [sharedTime, sharedTime, min_comm, max_comm a.start.wall]

theorem sharedTime_nonneg : 0 ≤ a.sharedTime b := le_max_left _ _

theorem sharedTime_eq_zero_iff : a.sharedTime b = 0 ↔ ¬a.Meets b := by
  rw [meets_iff, not_lt]
  exact ⟨le_of_eq, fun h => h.antisymm sharedTime_nonneg⟩

theorem Plain.sharedTime_le_length (h : a.Plain) : a.sharedTime b ≤ a.length := by
  have := h.le
  unfold sharedTime length
  omega

-- All of an interval is shared with one that holds it.
theorem Inside.sharedTime_eq (h : a.Inside b) (ha : a.Plain) : a.sharedTime b = a.length := by
  have := ha.le
  have := h.start
  have := h.finish
  unfold sharedTime length
  omega

-- Cut at a moment, an interval shares in two parts what it shares.
theorem sharedTime_split (hxy : x.wall ≤ y.wall) (hyz : y.wall ≤ z.wall) :
    a.sharedTime ⟨x, y⟩ + a.sharedTime ⟨y, z⟩ = a.sharedTime ⟨x, z⟩ := by
  unfold sharedTime
  dsimp only
  omega

theorem OnMinute.dvd_sharedTime (ha : a.OnMinute) (hb : b.OnMinute) : Span.minute ∣ a.sharedTime b := by
  have hmin : Span.minute ∣ min a.finish.wall b.finish.wall := by
    rcases min_choice a.finish.wall b.finish.wall with h | h <;> rw [h]
    exacts [ha.finish, hb.finish]
  have hmax : Span.minute ∣ max a.start.wall b.start.wall := by
    rcases max_choice a.start.wall b.start.wall with h | h <;> rw [h]
    exacts [ha.start, hb.start]
  rcases max_choice 0 (min a.finish.wall b.finish.wall - max a.start.wall b.start.wall) with h | h
  · exact (show a.sharedTime b = 0 from h) ▸ dvd_zero _
  · exact (show a.sharedTime b = _ from h) ▸ dvd_sub hmin hmax

theorem Plain.onLine (h : a.Plain) : a.OnLine false := onLine_of_naive h.start h.finish

theorem Plain.overlapMinutes_eq (ha : a.Plain) (hb : b.Plain) :
    a.overlapMinutes b = .ok (Span.minutes (a.sharedTime b)) := by
  rw [Interval.overlapMinutes_eq ha.onLine hb.onLine, Instant.position_of_plain ha.start,
    Instant.position_of_plain ha.finish, Instant.position_of_plain hb.start,
    Instant.position_of_plain hb.finish]
  have hle := ha.le
  have hle' := hb.le
  split_ifs with h
  · have hshared : a.sharedTime b =
        min a.finish.wall b.finish.wall - max a.start.wall b.start.wall := max_eq_right (by omega)
    rw [hshared]
  · have hnone : a.sharedTime b = 0 := sharedTime_eq_zero_iff.2 fun ⟨t, ht, ht'⟩ =>
      h ⟨ht.1.trans_lt ht'.2, ht'.1.trans_lt ht.2⟩
    have hzero : Span.minutes 0 = 0 := by decide +kernel
    rw [hnone, hzero]

-- The time that an interval shares with several, those that overlap counted each.
def sharedSum (a : Interval) (bs : List Interval) : Int := (bs.map a.sharedTime).sum

theorem sharedSum_cons : a.sharedSum (b :: bs) = a.sharedTime b + a.sharedSum bs := by
  rw [sharedSum, List.map_cons, List.sum_cons, sharedSum]

theorem sharedSum_nonneg : 0 ≤ a.sharedSum bs := by
  refine List.sum_nonneg fun n hn => ?_
  obtain ⟨b, -, rfl⟩ := List.mem_map.1 hn
  exact sharedTime_nonneg

theorem sharedSum_eq_zero_iff : a.sharedSum bs = 0 ↔ ∀ b ∈ bs, ¬a.Meets b := by
  simp only [← sharedTime_eq_zero_iff]
  induction bs with
  | nil => simp [sharedSum]
  | cons b bs ih =>
    have hb : 0 ≤ a.sharedTime b := sharedTime_nonneg
    have hbs : 0 ≤ a.sharedSum bs := sharedSum_nonneg
    rw [sharedSum_cons, List.forall_mem_cons, ← ih]
    omega

-- The seconds that do not count where the minutes shared with each are counted.
def rest (a : Interval) (bs : List Interval) : Int := (bs.map fun b => a.sharedTime b % Span.minute).sum

theorem rest_nonneg : 0 ≤ a.rest bs := by
  refine List.sum_nonneg fun n hn => ?_
  obtain ⟨b, -, rfl⟩ := List.mem_map.1 hn
  exact Int.emod_nonneg _ (by decide)

theorem rest_eq_zero (h : ∀ b ∈ bs, Span.minute ∣ a.sharedTime b) : a.rest bs = 0 := by
  refine List.sum_eq_zero fun n hn => ?_
  obtain ⟨b, hb, rfl⟩ := List.mem_map.1 hn
  exact Int.emod_eq_zero_of_dvd (h b hb)

theorem dvd_sharedSum (h : ∀ b ∈ bs, Span.minute ∣ a.sharedTime b) : Span.minute ∣ a.sharedSum bs :=
  List.dvd_sum fun n hn => by
    obtain ⟨b, hb, rfl⟩ := List.mem_map.1 hn
    exact h b hb

theorem sum_minutes (h : ∀ b ∈ bs, Span.minutes (a.sharedTime b) = a.sharedTime b / Span.minute) :
    Span.minute * (bs.map fun b => Span.minutes (a.sharedTime b)).sum + a.rest bs = a.sharedSum bs := by
  induction bs with
  | nil => rfl
  | cons b bs ih =>
    obtain ⟨hb, hbs⟩ := List.forall_mem_cons.1 h
    have hdiv := Int.mul_ediv_add_emod (a.sharedTime b) Span.minute
    have hrest := ih hbs
    simp only [rest, List.map_cons, List.sum_cons, sharedSum_cons, hb, mul_add] at hrest ⊢
    linarith

theorem mapM_overlapMinutes (ha : a.Plain) (hbs : ∀ b ∈ bs, b.Plain) :
    bs.mapM (·.overlapMinutes a) = .ok (bs.map fun b => Span.minutes (a.sharedTime b)) := by
  rw [Result.mapM_eq_ok, List.forall₂_map_right_iff, List.forall₂_same]
  exact fun b hb => by rw [(hbs b hb).overlapMinutes_eq ha, sharedTime_comm]

-- The minutes of the whole are those of the parts if the time between the parts, with the seconds that do
-- not count, is less than a minute, and only then.
theorem minutes_eq_sum_iff {n : ℤ} (hn : 0 ≤ n)
    (htotal : Span.minutes (a.sharedSum bs + n) = (a.sharedSum bs + n) / Span.minute)
    (h : ∀ b ∈ bs, Span.minutes (a.sharedTime b) = a.sharedTime b / Span.minute) :
    Span.minutes (a.sharedSum bs + n) = (bs.map fun b => Span.minutes (a.sharedTime b)).sum ↔
      n + a.rest bs < Span.minute := by
  have hrest : 0 ≤ a.rest bs := rest_nonneg
  rw [htotal, ← sum_minutes h]
  simp only [Span.minute_eq]
  omega

-- The times between one interval and the next.
def between (legs : List Interval) : List Interval :=
  (consecutive legs).map fun (f, g) => ⟨f.finish, g.start⟩

theorem between_cons_cons : between (f :: g :: legs) = ⟨f.finish, g.start⟩ :: between (g :: legs) := rfl

theorem between_onMinute (h : ∀ f ∈ legs, f.OnMinute) : ∀ t ∈ between legs, t.OnMinute := by
  rintro t ht
  obtain ⟨⟨f, g⟩, hp, rfl⟩ := List.mem_map.1 ht
  obtain ⟨hf, hg⟩ := List.of_mem_zip hp
  exact ⟨(h f hf).finish, (h g (List.mem_of_mem_tail hg)).start⟩

-- Each interval is over when the next one starts.
def Apart (legs : List Interval) : Prop := ∀ t ∈ between legs, t.start.wall ≤ t.finish.wall

theorem apart_cons_cons : Apart (f :: g :: legs) ↔ f.finish.wall ≤ g.start.wall ∧ Apart (g :: legs) := by
  rw [Apart, between_cons_cons, List.forall_mem_cons]
  rfl

-- Intervals that last for a time, in the order in which they start.
structure Route (legs : List Interval) : Prop where
  plain : ∀ f ∈ legs, f.Plain
  lasting : ∀ f ∈ legs, f.start.wall < f.finish.wall
  ordered : legs.Pairwise fun f g => f.start.wall ≤ g.start.wall

namespace Route

theorem tail (h : Route (f :: legs)) : Route legs where
  plain g hg := h.plain g (List.mem_cons_of_mem _ hg)
  lasting g hg := h.lasting g (List.mem_cons_of_mem _ hg)
  ordered := (List.pairwise_cons.1 h.ordered).2

-- Intervals of which no two meet follow each other.
theorem apart (h : Route legs) (hnot : legs.Pairwise fun f g => ¬f.Meets g) : Apart legs := by
  induction legs with
  | nil => exact fun t ht => nomatch ht
  | cons f legs ih =>
    cases legs with
    | nil => exact fun t ht => nomatch ht
    | cons g legs =>
      obtain ⟨hf, hrest⟩ := List.pairwise_cons.1 hnot
      refine apart_cons_cons.2 ⟨?_, ih h.tail hrest⟩
      by_contra! hover
      exact hf g List.mem_cons_self ⟨g.start.wall,
        ⟨(List.pairwise_cons.1 h.ordered).1 g List.mem_cons_self, hover⟩, le_rfl, h.lasting g (by simp)⟩

-- The whole lasts from the start of the first interval to the finish of the last.
section Whole

variable (h : Route legs) (hfirst : legs.head? = some first) (hlast : legs.getLast? = some last)
include h hlast

theorem start_le_last (hf : f ∈ legs) : f.start.wall ≤ last.start.wall := by
  obtain ⟨before, rfl⟩ := List.getLast?_eq_some_iff.1 hlast
  rcases List.mem_append.1 hf with hf | hf
  · exact (List.pairwise_append.1 h.ordered).2.2 f hf last (List.mem_singleton_self _)
  · rw [List.mem_singleton.1 hf]

include hfirst

theorem first_start_le (hf : f ∈ legs) : first.start.wall ≤ f.start.wall := by
  obtain ⟨after, rfl⟩ := List.head?_eq_some_iff.1 hfirst
  rcases List.mem_cons.1 hf with rfl | hf
  · exact le_rfl
  · exact (List.pairwise_cons.1 h.ordered).1 f hf

theorem plain_whole : Plain ⟨first.start, last.finish⟩ where
  start := (h.plain first (List.mem_of_mem_head? hfirst)).start
  finish := (h.plain last (List.mem_of_mem_getLast? hlast)).finish
  le := (h.start_le_last hlast (List.mem_of_mem_head? hfirst)).trans
    (h.lasting last (List.mem_of_mem_getLast? hlast)).le

-- No time is lost: the whole is the intervals and the times between them.
theorem sharedSum_add (hapart : Apart legs) :
    a.sharedSum legs + a.sharedSum (between legs) = a.sharedTime ⟨first.start, last.finish⟩ := by
  induction legs generalizing first with
  | nil => cases hfirst
  | cons f legs ih =>
    obtain rfl := Option.some.inj hfirst
    cases legs with
    | nil =>
      obtain rfl := Option.some.inj hlast
      simp [sharedSum, between, consecutive]
    | cons g legs =>
      obtain ⟨hfg, hapart⟩ := apart_cons_cons.1 hapart
      have hlast : (g :: legs).getLast? = some last := by simpa using hlast
      have hle := (h.tail.plain_whole rfl hlast).le
      have hbetween : a.sharedSum (between (f :: g :: legs)) =
          a.sharedTime ⟨f.finish, g.start⟩ + a.sharedSum (between (g :: legs)) := sharedSum_cons
      calc a.sharedSum (f :: g :: legs) + a.sharedSum (between (f :: g :: legs))
          = a.sharedTime ⟨f.start, f.finish⟩ + (a.sharedTime ⟨f.finish, g.start⟩ +
            (a.sharedSum (g :: legs) + a.sharedSum (between (g :: legs)))) := by
            rw [sharedSum_cons, hbetween]
            ring
        _ = a.sharedTime ⟨f.start, f.finish⟩ + a.sharedTime ⟨f.finish, last.finish⟩ := by
            rw [ih h.tail rfl hlast hapart, sharedTime_split hfg hle]
        _ = a.sharedTime ⟨f.start, last.finish⟩ :=
            sharedTime_split (h.lasting f List.mem_cons_self).le (hfg.trans hle)

theorem between_inside (ht : t ∈ between legs) : t.Inside ⟨first.start, last.finish⟩ := by
  obtain ⟨⟨f, g⟩, hp, rfl⟩ := List.mem_map.1 ht
  obtain ⟨hf, hg⟩ := List.of_mem_zip hp
  exact ⟨(h.first_start_le hfirst hlast hf).trans (h.lasting f hf).le,
    (h.start_le_last hlast (List.mem_of_mem_tail hg)).trans
      (h.lasting last (List.mem_of_mem_getLast? hlast)).le⟩

-- What follows the first interval and precedes the last, and meets none, lies between two neighbours.
theorem exists_between (hpos : a.start.wall < a.finish.wall) (hafter : first.finish.wall ≤ a.start.wall)
    (hbefore : a.finish.wall ≤ last.start.wall) (hnone : ∀ f ∈ legs, ¬a.Meets f) :
    ∃ t ∈ between legs, a.Inside t := by
  induction legs generalizing first with
  | nil => cases hfirst
  | cons f legs ih =>
    obtain rfl := Option.some.inj hfirst
    cases legs with
    | nil =>
      obtain rfl : f = last := Option.some.inj hlast
      have := h.lasting f List.mem_cons_self
      omega
    | cons g legs =>
      rw [between_cons_cons]
      by_cases hg : a.finish.wall ≤ g.start.wall
      case pos => exact ⟨_, List.mem_cons_self, hafter, hg⟩
      case neg =>
        have hg' := h.lasting g (by simp)
        have hover : g.finish.wall ≤ a.start.wall := by
          by_contra! hlt
          exact hnone g (by simp) ⟨max a.start.wall g.start.wall, by omega, by omega⟩
        obtain ⟨t, ht, hin⟩ := ih h.tail rfl (by simpa using hlast) hover
          fun f hf => hnone f (List.mem_cons_of_mem _ hf)
        exact ⟨t, List.mem_cons_of_mem _ ht, hin⟩

-- What meets no interval meets the whole only between two neighbours, and there it lies entirely.
theorem sharedTime_of_none (ha : a.Plain) (hnone : ∀ f ∈ legs, ¬a.Meets f) :
    a.sharedTime ⟨first.start, last.finish⟩ =
      if ∃ t ∈ between legs, a.Inside t then a.length else 0 := by
  split_ifs with hin
  case pos =>
    obtain ⟨t, ht, hin⟩ := hin
    exact (hin.trans (h.between_inside hfirst hlast ht)).sharedTime_eq ha
  case neg =>
    rw [sharedTime_eq_zero_iff]
    rintro ⟨u, hu, hu'⟩
    have hnone₁ := hnone first (List.mem_of_mem_head? hfirst)
    have hnone₂ := hnone last (List.mem_of_mem_getLast? hlast)
    have hlasting₁ := h.lasting first (List.mem_of_mem_head? hfirst)
    have hlasting₂ := h.lasting last (List.mem_of_mem_getLast? hlast)
    rw [meets_iff, sharedTime] at hnone₁ hnone₂
    dsimp only at hu'
    exact hin (h.exists_between hfirst hlast (hu.1.trans_lt hu.2) (by omega) (by omega) hnone)

-- In minutes, what meets no interval counts in full between two neighbours, and not at all anywhere else.
theorem minutes_of_none (ha : a.Plain) (hnone : ∀ f ∈ legs, ¬a.Meets f) :
    Span.minutes (a.sharedTime ⟨first.start, last.finish⟩) =
      if ∃ t ∈ between legs, a.Inside t then Span.minutes a.length else 0 := by
  have hzero : Span.minutes 0 = 0 := by decide +kernel
  rw [h.sharedTime_of_none hfirst hlast ha hnone, apply_ite Span.minutes, hzero]

section Minutes

variable (ha : a.Plain) (hapart : Apart legs)
include ha hapart

theorem sharedSum_add_le_length : a.sharedSum legs + a.sharedSum (between legs) ≤ a.length := by
  rw [h.sharedSum_add hfirst hlast hapart]
  exact ha.sharedTime_le_length

-- For no more than centuries the minutes of the whole are those of the intervals, if with the seconds that
-- do not count there is less than a minute between them.
theorem minutes_eq_sum_iff (hlength : a.length < 2 ^ 53) :
    Span.minutes (a.sharedTime ⟨first.start, last.finish⟩) =
        (legs.map fun f => Span.minutes (a.sharedTime f)).sum ↔
      a.sharedSum (between legs) + a.rest legs < Span.minute := by
  rw [← h.sharedSum_add hfirst hlast hapart]
  have hle := h.sharedSum_add_le_length hfirst hlast ha hapart
  refine Interval.minutes_eq_sum_iff sharedSum_nonneg (Span.minutes_eq_ediv ?_ (hle.trans_lt hlength))
    fun f _ => Span.minutes_eq_ediv sharedTime_nonneg (ha.sharedTime_le_length.trans_lt hlength)
  exact Int.add_nonneg sharedSum_nonneg sharedSum_nonneg

-- In whole minutes they are if none are between them.
theorem minutes_eq_sum_iff_of_onMinute (hm : a.OnMinute) (hlegs : ∀ f ∈ legs, f.OnMinute) :
    Span.minutes (a.sharedTime ⟨first.start, last.finish⟩) =
        (legs.map fun f => Span.minutes (a.sharedTime f)).sum ↔ ∀ t ∈ between legs, ¬a.Meets t := by
  have hdvd : ∀ f ∈ legs, Span.minute ∣ a.sharedTime f := fun f hf => hm.dvd_sharedTime (hlegs f hf)
  have hdvd' : Span.minute ∣ a.sharedSum (between legs) :=
    dvd_sharedSum fun t ht => hm.dvd_sharedTime (between_onMinute hlegs t ht)
  have hcalendar : a.length ≤ Span.calendar := (le_abs_self _).trans (Instant.abs_wall_sub_le _ _)
  have hle := h.sharedSum_add_le_length hfirst hlast ha hapart
  rw [← h.sharedSum_add hfirst hlast hapart, Interval.minutes_eq_sum_iff sharedSum_nonneg
    (Span.minutes_eq_ediv_of_dvd (dvd_add (dvd_sharedSum hdvd) hdvd')
      (Int.add_nonneg sharedSum_nonneg sharedSum_nonneg) (hle.trans hcalendar))
    fun f hf => Span.minutes_eq_ediv_of_dvd (hdvd f hf) sharedTime_nonneg
      (ha.sharedTime_le_length.trans hcalendar)]
  rw [rest_eq_zero hdvd, add_zero, ← sharedSum_eq_zero_iff]
  constructor
  · exact fun hlt => Int.eq_zero_of_dvd_of_nonneg_of_lt sharedSum_nonneg hlt hdvd'
  · intro hzero
    rw [hzero]
    decide

end Minutes

end Whole

end Route

end Interval

def Ground.interval (g : Ground) : Interval := ⟨g.start, g.finish⟩

namespace Duty

-- The flights of a duty, and the times on the ground between one flight and the next.
def flights (d : Duty) : List Interval := d.seats.map (·.flight.airborne)

def turnarounds (d : Duty) : List Interval := Interval.between d.flights

variable {d : Duty} {g : Ground} {first last : Interval}

-- Seats of a timetable, in order, are flown one after the other.
theorem route (ht : Seat.Timetable false d.seats) (ho : Seat.Ordered d.seats) :
    Interval.Route d.flights := by
  have hplain : ∀ s ∈ d.seats, s.flight.departure.zone = none ∧ s.flight.arrival.zone = none :=
    fun s hs => ⟨by simpa using (ht.line s hs).departure, by simpa using (ht.line s hs).arrival⟩
  have hair : ∀ s ∈ d.seats, s.flight.departure.wall < s.flight.arrival.wall := fun s hs => by
    rw [← Instant.position_of_plain (hplain s hs).1, ← Instant.position_of_plain (hplain s hs).2]
    exact ht.airborne s hs
  constructor
  case plain =>
    exact List.forall_mem_map.2 fun s hs => ⟨(hplain s hs).1, (hplain s hs).2, (hair s hs).le⟩
  case lasting => exact List.forall_mem_map.2 hair
  case ordered =>
    refine List.pairwise_map.2 (ho.imp_of_mem fun {s t} hs ht hlt => ?_)
    have hle : s.flight.departure.position ≤ t.flight.departure.position :=
      Seat.Key.departure_le_of_lt hlt
    rwa [Instant.position_of_plain (hplain s hs).1, Instant.position_of_plain (hplain t ht).1] at hle

section Ground

variable (hroute : Interval.Route d.flights) (hg : d.ground = some g) (hplain : g.interval.Plain)
  (hfirst : d.flights.head? = some first) (hlast : d.flights.getLast? = some last)
include hroute hg hplain hfirst hlast

-- What counts is the time from the first departure to the last arrival.
theorem groundOverlapMinutes_eq : d.groundOverlapMinutes =
    .ok (Span.minutes (g.interval.sharedTime ⟨first.start, last.finish⟩)) := by
  have hwhole := hroute.plain_whole hfirst hlast
  rw [flights, List.head?_map, Option.map_eq_some_iff] at hfirst
  rw [flights, List.getLast?_map, Option.map_eq_some_iff] at hlast
  obtain ⟨s, hs, rfl⟩ := hfirst
  obtain ⟨t, ht, rfl⟩ := hlast
  rw [groundOverlapMinutes, hg, first?, hs, last?, ht]
  exact hplain.overlapMinutes_eq hwhole

end Ground

end Duty

namespace Ledger.Steps

variable {l : Ledger} {r : Roster} {folder : Folder} {scenario : Scenario} {solved : Bool} {id : String}
  {day : Date} {d : Duty} {g : Ground}

theorem route_of_load (hload : loadInstance folder solved = .ok (scenario, r)) (hn : r.Naive)
    (hs : Steps (.ofRoster r) l) (hd : l.roster.dutyAt id day = some d) : Interval.Route d.flights := by
  have hstart := And.intro (listing_of_loadInstance hload hn) hn
  obtain ⟨hl, -⟩ := hs.listing hstart
  have hseats : l.roster.seats = r.seats := Roster.seats_of_blank_eq (hs.blank_of_listing hstart)
  refine Duty.route ((timetable_of_loadInstance hload hn).sub fun s hm => ?_) (hl.ordered hd)
  obtain ⟨a, ha, rfl⟩ := hl.known ⟨d, hd, hm⟩
  exact hseats ▸ Roster.mem_seats.2 ⟨_, a, ha, rfl⟩

-- Whatever was done to a roster without zones that was loaded, a duty with flights counts of an activity
-- on the ground
-- 1. where no flight meets the activity: all of it if it lies in a turnaround, and else nothing
-- 2. where no two flights meet: the time it shares with the flights and with the turnarounds
-- 3. so what it shares with the flights, each counted in minutes, if the time it shares with the
--    turnarounds, and the seconds that do not count, are less than a minute together, and only then
-- 4. in whole minutes: if it meets no turnaround, and only then
theorem groundOverlap_of_load (hload : loadInstance folder solved = .ok (scenario, r)) (hn : r.Naive)
    (hs : Steps (.ofRoster r) l) (hd : l.roster.dutyAt id day = some d) (hf : d.isFlightDuty = true)
    (hg : d.ground = some g) (hplain : g.interval.Plain) :
    ∃ n, d.groundOverlapMinutes = .ok n ∧
      ((∀ f ∈ d.flights, ¬g.interval.Meets f) →
        n = if ∃ t ∈ d.turnarounds, g.interval.Inside t then Span.minutes g.interval.length else 0) ∧
      (d.flights.Pairwise (fun f f' => ¬f.Meets f') →
        ∃ ns, d.flights.mapM (·.overlapMinutes g.interval) = .ok ns ∧
          n = Span.minutes (g.interval.sharedSum d.flights + g.interval.sharedSum d.turnarounds) ∧
          (g.interval.length < 2 ^ 53 → (n = ns.sum ↔
            g.interval.sharedSum d.turnarounds + g.interval.rest d.flights < Span.minute)) ∧
          ((∀ f ∈ d.flights, f.OnMinute) → g.interval.OnMinute →
            (n = ns.sum ↔ ∀ t ∈ d.turnarounds, ¬g.interval.Meets t))) := by
  have hroute := route_of_load hload hn hs hd
  have hne : d.flights ≠ [] := by simpa [Duty.flights, Duty.isFlightDuty] using hf
  obtain ⟨first, hfirst⟩ : ∃ first, d.flights.head? = some first :=
    ⟨_, List.head?_eq_some_head hne⟩
  obtain ⟨last, hlast⟩ : ∃ last, d.flights.getLast? = some last :=
    ⟨_, List.getLast?_eq_some_getLast hne⟩
  refine ⟨_, Duty.groundOverlapMinutes_eq hroute hg hplain hfirst hlast,
    hroute.minutes_of_none hfirst hlast hplain, fun hnot => ?_⟩
  have hapart := hroute.apart hnot
  refine ⟨_, Interval.mapM_overlapMinutes hplain hroute.plain, ?_,
    hroute.minutes_eq_sum_iff hfirst hlast hplain hapart, fun hflights hm =>
    hroute.minutes_eq_sum_iff_of_onMinute hfirst hlast hplain hapart hm hflights⟩
  rw [Duty.turnarounds, hroute.sharedSum_add hfirst hlast hapart]

end Ledger.Steps

-- Two flights on the day of the work on the ground, one before it and one after it.
def Folder.commuting : Folder :=
  .withFlights .varied
    "\x7b\"flights\": [\x7b\"flight_number\": \"1\", \"departure_airport\": \"A\",
      \"arrival_airport\": \"B\", \"departure_utc\": \"2024-06-04T06:00\",
      \"arrival_utc\": \"2024-06-04T07:00\", \"required_skills\": [\"P\"]\x7d,
      \x7b\"flight_number\": \"2\", \"departure_airport\": \"B\",
      \"arrival_airport\": \"A\", \"departure_utc\": \"2024-06-04T17:00\",
      \"arrival_utc\": \"2024-06-04T18:00\", \"required_skills\": [\"P\"]\x7d]\x7d"

namespace Contents

def outward : Leg :=
  ⟨"1", "A", "B", .ofDate (.after 739040) (.after 6 0 0), .ofDate (.after 739040) (.after 7 0 0), "", "",
    ["P"]⟩

def homeward : Leg :=
  ⟨"2", "B", "A", .ofDate (.after 739040) (.after 17 0 0), .ofDate (.after 739040) (.after 18 0 0), "", "",
    ["P"]⟩

def commuting : Contents := { varied with legs := [outward, homeward] }

def bothWays : Ledger.Plan := [("1@2024-06-04#0", some "E"), ("2@2024-06-04#0", some "E")]

def work : Ground :=
  ⟨some (.text "GND"), .ofDate (.after 739040) (.after 8 0 0), .ofDate (.after 739040) (.after 16 0 0)⟩

set_option maxRecDepth 10000 in
theorem spelledBy_commuting : commuting.SpelledBy .commuting :=
  spelledBy_varied.withFlights (t := [("2024-06-04T06:00", "2024-06-04T07:00"),
      ("2024-06-04T17:00", "2024-06-04T18:00")])
    rfl (by decide +kernel) (by decide +kernel)

end Contents

namespace Ledger

theorem loads_commuting : ∃ scenario r e, loadInstance .commuting false = .ok (scenario, r) ∧ r.Plain ∧
    r.assignments.entries = [("1@2024-06-04#0", ⟨Contents.outward.seat, none⟩),
      ("2@2024-06-04#0", ⟨Contents.homeward.seat, none⟩)] ∧
    r.employees.entries = [("E", e)] ∧ r.groundAt "E" (.after 739040) = some Contents.work := by
  obtain ⟨scenario, r, hload, hp, hs, hcrew⟩ := Contents.spelledBy_commuting.exists_of_load
    (P := fun r => r.Plain ∧
      r.assignments.entries = [("1@2024-06-04#0", ⟨Contents.outward.seat, none⟩),
        ("2@2024-06-04#0", ⟨Contents.homeward.seat, none⟩)] ∧
      r.employees.keys = ["E"])
    (by decide +kernel)
  obtain ⟨⟨_, e⟩, he, rfl⟩ := List.map_eq_singleton_iff.1 hcrew
  refine ⟨scenario, r, e, hload, hp, hs, he, ?_⟩
  obtain ⟨m, hm, hday⟩ := Contents.dutyAt_of_load (Contents.spelledBy_commuting.loadInstance_eq ▸ hload)
    (Registry.get?_eq_some.2 (by simp [he]) : r.employees.get? "E" = some e)
  obtain rfl := List.mem_singleton.1 hm
  have hdate : (Instant.ofDate (.after 739040) (.after 8 0 0)).date = .after 739040 := by decide +kernel
  have hduty := hday _ (List.mem_singleton_self _)
  rw [hdate] at hduty
  rw [Roster.groundAt, hduty]
  rfl

-- The one employee flies and works on one day.
theorem works_commuting : ∃ scenario r l d, loadInstance .commuting false = .ok (scenario, r) ∧ r.Naive ∧
    Steps (.ofRoster r) l ∧ l.roster.dutyAt "E" (.after 739040) = some d ∧
    d.seats = [Contents.outward.seat, Contents.homeward.seat] ∧ d.ground = some Contents.work := by
  obtain ⟨scenario, r, e, hload, hp, hs, he, hground⟩ := loads_commuting
  have he : r.employees.get? "E" = some e := Registry.get?_eq_some.2 (by simp [he])
  have houtward : r.assignments.get? "1@2024-06-04#0" = some ⟨Contents.outward.seat, none⟩ :=
    Registry.get?_eq_some.2 (by simp [hs])
  have hhomeward : r.assignments.get? "2@2024-06-04#0" = some ⟨Contents.homeward.seat, none⟩ :=
    Registry.get?_eq_some.2 (by simp [hs])
  have hplan : Plan.Possible r Contents.bothWays := by
    simp only [Contents.bothWays, Plan.Possible, List.forall_mem_cons]
    exact ⟨⟨⟨_, houtward⟩, fun id hid => ⟨e, Option.some.inj hid ▸ he⟩⟩,
      ⟨⟨_, hhomeward⟩, fun id hid => ⟨e, Option.some.inj hid ▸ he⟩⟩, by simp⟩
  obtain ⟨l, happly, hfollowed, hremains, -⟩ :=
    ((fresh_of_loadInstance hload).consistent hp).apply_ok hp rfl (by decide) hplan
  obtain ⟨d, hd, hm⟩ := hfollowed.lists List.mem_cons_self houtward
  obtain ⟨d', hd', hm'⟩ := hfollowed.lists (List.mem_cons_of_mem _ List.mem_cons_self)
    hhomeward
  have hday : Contents.outward.seat.departureDate = .after 739040 := by decide +kernel
  have hday' : Contents.homeward.seat.departureDate = .after 739040 := by decide +kernel
  rw [hday] at hd
  rw [hday'] at hd'
  obtain rfl := Option.some.inj (hd.symm.trans hd')
  have hordered : Seat.Ordered [Contents.outward.seat, Contents.homeward.seat] :=
    List.pairwise_pair.2 (by decide +kernel)
  have hseats : d.seats = [Contents.outward.seat, Contents.homeward.seat] := by
    refine (hremains.consistent.ordered hd).eq_of_mem_iff hordered fun s => ⟨fun hs' => ?_, ?_⟩
    · obtain ⟨a, ha, rfl⟩ := hremains.consistent.known ⟨d, hd, hs'⟩
      have hmem : a.seat ∈ r.seats :=
        Roster.seats_of_blank_eq hremains.blank ▸ Roster.mem_seats.2 ⟨_, a, ha, rfl⟩
      simpa [Roster.seats, Registry.values, hs] using hmem
    · simp only [List.mem_cons, List.not_mem_nil, or_false]
      rintro (rfl | rfl)
      · exact hm
      · exact hm'
  refine ⟨scenario, r, l, d, hload, hp.naive, .step (Call.Succeeds.apply happly).step .refl, hd, hseats, ?_⟩
  have hkept := (hremains.ground "E" (.after 739040)).trans hground
  rwa [Roster.groundAt, hd, Option.bind_some] at hkept

theorem flights_commuting {d : Duty} (h : d.seats = [Contents.outward.seat, Contents.homeward.seat]) :
    d.flights = [Contents.outward.flight.airborne, Contents.homeward.flight.airborne] := by
  rw [Duty.flights, h]
  rfl

namespace Steps

-- No flight meets the work, and all eight hours of it count.
theorem groundOverlap_commuting : ∃ scenario r l d g, loadInstance .commuting false = .ok (scenario, r) ∧
    r.Naive ∧ Steps (.ofRoster r) l ∧ l.roster.dutyAt "E" (.after 739040) = some d ∧
    d.isFlightDuty = true ∧ d.ground = some g ∧ g.interval.Plain ∧
    (∀ f ∈ d.flights, ¬g.interval.Meets f ∧ f.OnMinute) ∧ g.interval.OnMinute ∧
    d.flights.Pairwise (fun f f' => ¬f.Meets f') ∧ d.groundOverlapMinutes = .ok 480 ∧
    d.flights.mapM (·.overlapMinutes g.interval) = .ok [0, 0] := by
  obtain ⟨scenario, r, l, d, hload, hn, hs, hd, hseats, hground⟩ := works_commuting
  have hflights := flights_commuting hseats
  refine ⟨scenario, r, l, d, _, hload, hn, hs, hd, by simp [Duty.isFlightDuty, hseats], hground,
    ⟨rfl, rfl, by decide +kernel⟩, ?_⟩
  rw [hflights, Duty.groundOverlapMinutes, hground, Duty.first?, Duty.last?, hseats]
  decide +kernel

-- The turnaround holds the work.
theorem groundOverlap_of_load_commuting : ∃ scenario r l d g n ns,
    loadInstance .commuting false = .ok (scenario, r) ∧ r.Naive ∧ Steps (.ofRoster r) l ∧
    l.roster.dutyAt "E" (.after 739040) = some d ∧ d.isFlightDuty = true ∧ d.ground = some g ∧
    g.interval.Plain ∧ d.groundOverlapMinutes = .ok n ∧ n = Span.minutes g.interval.length ∧
    d.flights.mapM (·.overlapMinutes g.interval) = .ok ns ∧
    (n = ns.sum ↔ ∀ t ∈ d.turnarounds, ¬g.interval.Meets t) ∧
    ∃ t ∈ d.turnarounds, g.interval.Meets t := by
  obtain ⟨scenario, r, l, d, hload, hn, hs, hd, hseats, hground⟩ := works_commuting
  have hflights := flights_commuting hseats
  have hf : d.isFlightDuty = true := by simp [Duty.isFlightDuty, hseats]
  have hplain : Contents.work.interval.Plain := ⟨rfl, rfl, by decide +kernel⟩
  obtain ⟨n, hcount, hnone, hapart⟩ := groundOverlap_of_load hload hn hs hd hf hground hplain
  simp only [Duty.turnarounds, hflights] at hnone hapart
  obtain ⟨ns, hns, -, -, hiff⟩ := hapart (by decide +kernel)
  refine ⟨scenario, r, l, d, _, n, ns, hload, hn, hs, hd, hf, hground, hplain, hcount, ?_, ?_, ?_, ?_⟩
  · rw [hnone (by decide +kernel), if_pos (by decide +kernel)]
  · rw [hflights, hns]
  · rw [Duty.turnarounds, hflights]
    exact hiff (by decide +kernel) (by decide +kernel)
  · rw [Duty.turnarounds, hflights]
    decide +kernel

end Steps

end Ledger

end CrewRoster
