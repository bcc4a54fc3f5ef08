import CrewRoster.Proofs.Acceptance
import Mathlib.Data.Set.Card
import Mathlib.Order.Interval.Finset.Nat

namespace CrewRoster

namespace Date

variable {first last day : Date}

-- In seven days in a row each day of the week comes once.
theorem weekday_bijOn (h : last.number = first.number + 6) :
    Set.BijOn weekday {day | first ≤ day ∧ day ≤ last} (Set.Icc 1 7) := by
  refine ⟨fun day _ => ?_, fun a ha b hb heq => ?_, fun w hw => ?_⟩
  · rw [weekday, Set.mem_Icc]
    omega
  · obtain ⟨hfirst, hlast⟩ : first ≤ a ∧ a ≤ last := ha
    obtain ⟨hfirst', hlast'⟩ : first ≤ b ∧ b ≤ last := hb
    rw [le_def] at hfirst hlast hfirst' hlast'
    rw [weekday, weekday] at heq
    exact Date.ext (by omega)
  · rw [Set.mem_Icc] at hw
    -- as many days after the first as the weekday is after the first's
    obtain ⟨n, hn⟩ : ∃ n, n = first.number + (w - first.number) % 7 := ⟨_, rfl⟩
    have hbounds : first.number ≤ n ∧ n ≤ last.number := by omega
    refine ⟨⟨n, first.one_le.trans hbounds.1, hbounds.2.trans last.le_last⟩, hbounds, ?_⟩
    rw [weekday]
    dsimp only
    omega

-- February 29, 2024 was a Thursday.
example : (Date.ofCivil? 2024 2 29).map weekday = some 4 := by decide

theorem ncard_days (h : last.number = first.number + 6) (weekdays : Finset ℕ) :
    {day | first ≤ day ∧ day ≤ last ∧ day.weekday ∈ weekdays}.ncard =
      (weekdays ∩ Finset.Icc 1 7).card := by
  have hb := weekday_bijOn h
  have hsub : {day | first ≤ day ∧ day ≤ last ∧ day.weekday ∈ weekdays} ⊆
      {day | first ≤ day ∧ day ≤ last} := fun _ ⟨hf, hl, _⟩ => ⟨hf, hl⟩
  have himage : weekday '' {day | first ≤ day ∧ day ≤ last ∧ day.weekday ∈ weekdays} =
      (weekdays ∩ Finset.Icc 1 7 : Finset ℕ) := by
    ext w
    rw [Finset.coe_inter, Finset.coe_Icc]
    constructor
    · rintro ⟨day, ⟨hf, hl, hw⟩, rfl⟩
      exact ⟨hw, hb.mapsTo ⟨hf, hl⟩⟩
    · rintro ⟨hw, hin⟩
      obtain ⟨day, ⟨hf, hl⟩, rfl⟩ := hb.surjOn hin
      exact ⟨day, ⟨hf, hl, hw⟩, rfl⟩
  rw [← (hb.injOn.mono hsub).ncard_image, himage, Set.ncard_coe_finset]

end Date

-- The weekdays of a flight are the digits from 1 to 7 in a text.
theorem PositioningFlight.mem_weekdaysOf {cs : List Char} {w : ℕ} :
    w ∈ weekdaysOf cs ↔ w ∈ Finset.Icc 1 7 ∧ Nat.digitChar w ∈ cs := by
  have hlist : w ∈ [1, 2, 3, 4, 5, 6, 7] ↔ w ∈ Finset.Icc 1 7 := by
    simp only [List.mem_cons, List.not_mem_nil, or_false, Finset.mem_Icc]
    omega
  have hdigit : ∀ w ∈ [1, 2, 3, 4, 5, 6, 7], Char.ofNat ('0'.toNat + w) = Nat.digitChar w := by decide
  rw [weekdaysOf, List.mem_filter, List.contains_iff_mem, hlist]
  refine and_congr_right fun hw => ?_
  rw [hdigit w (hlist.2 hw)]

-- The record of a flight, which operates on the weekdays whose digits are in the text of the record.
def PositioningFlight.ReadFrom (d : Document) (f : PositioningFlight) : Prop :=
  PositioningFlight.ofDocument d = .ok f ∧
    ∃ x, d.fieldOr "days_of_week" (.text "1234567") = .ok x ∧
      ∀ w, w ∈ f.weekdays ↔ w ∈ Finset.Icc 1 7 ∧ Nat.digitChar w ∈ x.display.toList

theorem PositioningFlight.readFrom_of_ofDocument {d : Document} {f : PositioningFlight}
    (h : PositioningFlight.ofDocument d = .ok f) : ReadFrom d f := by
  have hread := h
  simp only [ofDocument, Result.bind_eq_ok, Result.pure_eq_ok] at h
  obtain ⟨_, -, _, -, _, -, _, -, _, -, _, -, x, hx, rfl⟩ := h
  exact ⟨hread, x, hx, fun _ => mem_weekdaysOf⟩

theorem Roster.reference_of_loadInstance {r : Roster} {folder : Folder} {scenario : Scenario} {solved : Bool}
    (h : loadInstance folder solved = .ok (scenario, r)) : Reference.load folder = .ok r.reference := by
  obtain ⟨r₀, plan, l, n, hload, hl, rfl⟩ := exists_apply_of_loadInstance h
  have hr := load_of_loadInstance hload
  simp only [Roster.load, Result.bind_eq_ok] at hr
  obtain ⟨reference, hreference, _, -, _, -, _, -, _, -, _, -, _, -, _, -, _, -, ⟨⟩, -, ⟨⟩, -, ⟨⟩, -, _, -,
    hbuild⟩ := hr
  rw [Roster.reference_of_blank_eq (Ledger.blank_of_apply hl)]
  exact hreference.trans (congrArg _ (Roster.build_eq_ok hbuild).2.2.2.symm)

namespace Reference

variable {r : Reference} {d : Document} {folder : Folder} {flights : List PositioningFlight}
  {f : PositioningFlight} {first last : Date}

-- What a reference offers of some flights:
-- 1. without a day, all between two airports, in the order in which they were given
-- 2. on a day, those of them that operate on its weekday
-- 3. in seven days in a row, each flight on as many days as it has weekdays
structure Offers (r : Reference) (flights : List PositioningFlight) : Prop where
  always : ∀ origin destination, r.options origin destination none =
    flights.filter fun f => f.origin.sameKey origin ∧ f.destination.sameKey destination
  daily : ∀ origin destination day, r.options origin destination (some day) =
    flights.filter fun f =>
      (f.origin.sameKey origin ∧ f.destination.sameKey destination) ∧ day.weekday ∈ f.weekdays
  weekly : ∀ origin destination, ∀ f ∈ r.options origin destination none,
    ∀ first last : Date, last.number = first.number + 6 →
      {day | first ≤ day ∧ day ≤ last ∧ f ∈ r.options origin destination (some day)}.ncard =
        (f.weekdays.toFinset ∩ Finset.Icc 1 7).card

theorem options_none (airports : List Airport) (limits : DutyLimits) (origin destination : Label) :
    (build airports limits flights).options origin destination none =
      flights.filter fun f => f.origin.sameKey origin ∧ f.destination.sameKey destination := by
  have hbetween : between flights (origin.key, destination.key) =
      flights.filter fun f => f.origin.sameKey origin ∧ f.destination.sameKey destination := by
    simp [between, Document.sameKey]
  rw [options, build, get?_positioning, ← hbetween]
  split
  case isTrue hnil => rw [hnil]; rfl
  case isFalse => rfl

theorem options_some {origin destination : Label} {day : Date} : r.options origin destination (some day) =
    (r.options origin destination none).filter fun f => day.weekday ∈ f.weekdays := by
  simp only [options, Option.elim, PositioningFlight.operatesOn, List.contains_eq_mem]

theorem offers_build (airports : List Airport) (limits : DutyLimits) (flights : List PositioningFlight) :
    (build airports limits flights).Offers flights where
  always := options_none airports limits
  daily origin destination day := by
    rw [options_some, options_none, List.filter_filter]
    simp only [Bool.decide_and, Bool.decide_eq_true, Bool.and_comm]
  weekly origin destination f hf first last h := by
    rw [← Date.ncard_days h]
    congr 1
    ext day
    simp [options_some, hf]

theorem weekdays_of_checkRoute (h : r.checkRoute flights = .ok ()) (hf : f ∈ flights) : f.weekdays ≠ [] := by
  cases flights with
  | nil => cases hf
  | cons g flights =>
    simp only [checkRoute, Result.bind_eq_ok] at h
    obtain ⟨⟨⟩, -, ⟨⟩, -, h⟩ := h
    split at h
    case isTrue => cases h
    case isFalse hnone =>
      exact fun hempty => hnone (List.any_eq_true.2 ⟨f, hf, List.isEmpty_iff.2 hempty⟩)

-- A flight is checked along with those of its route.
theorem weekdays_of_check {airports : List Airport} {limits : DutyLimits} {table : TaxiTable}
    (h : (build airports limits flights).check table = .ok ()) (hf : f ∈ flights) : f.weekdays ≠ [] := by
  rw [check] at h
  split at h
  case isTrue => cases h
  case isFalse =>
    simp only [Result.bind_eq_ok] at h
    obtain ⟨⟨⟩, -, hroutes⟩ := h
    have hroute : f ∈ between flights (f.origin.key, f.destination.key) := by simp [between, hf]
    exact weekdays_of_checkRoute
      (Result.forM_eq_ok.1 hroutes _ (mem_positioning.2 ⟨_, rfl, List.ne_nil_of_mem hroute⟩)) hroute

theorem offers_of_load (h : load folder = .ok r) : ∃ records flights,
    folder.Records "airports.json" "repositioning_flights" records ∧
    List.Forall₂ PositioningFlight.ReadFrom records flights ∧ r.Offers flights ∧
    ∀ f ∈ flights, f.weekdays ≠ [] := by
  simp only [load, Result.bind_eq_ok, Result.pure_eq_ok] at h
  obtain ⟨d, hd, table, -, x, -, xs, -, airports, -, y, hy, records, hrecords, flights, hflights, h⟩ := h
  obtain ⟨d', -, limits, -, ⟨⟩, -, ⟨⟩, hcheck, rfl⟩ := h
  exact ⟨records, flights, ⟨d, y, hd, hy, hrecords⟩,
    (Result.mapM_eq_ok.1 hflights).imp fun _ _ hf => PositioningFlight.readFrom_of_ofDocument hf,
    offers_build airports limits flights, fun f hf => weekdays_of_check hcheck hf⟩

-- A flight that operates at all is offered once a week at least.
theorem Offers.exists_day (h : r.Offers flights) (hf : f ∈ flights) (hread : PositioningFlight.ReadFrom d f)
    (hne : f.weekdays ≠ []) (hweek : last.number = first.number + 6) :
    ∃ day, first ≤ day ∧ day ≤ last ∧ f ∈ r.options f.origin f.destination (some day) := by
  obtain ⟨w, hw⟩ := List.exists_mem_of_ne_nil _ hne
  obtain ⟨-, x, -, hdigits⟩ := hread
  have hmem : w ∈ f.weekdays.toFinset ∩ Finset.Icc 1 7 :=
    Finset.mem_inter.2 ⟨List.mem_toFinset.2 hw, ((hdigits w).1 hw).1⟩
  have hall : f ∈ r.options f.origin f.destination none := by
    rw [h.always]
    simp [hf, Document.sameKey]
  have hpos := Finset.card_pos.2 ⟨w, hmem⟩
  rw [← h.weekly _ _ f hall first last hweek] at hpos
  exact Set.nonempty_of_ncard_ne_zero hpos.ne'

-- Nothing is lost of the flights that a reference is built from, nor of those of an instance that is loaded.
-- Each of those operates, on the weekdays that its record names, so it is offered in any seven days in a row.
theorem offers_of_loadInstance :
    (∀ airports limits flights, (build airports limits flights).Offers flights) ∧
    ∀ folder solved scenario (r : Roster), loadInstance folder solved = .ok (scenario, r) →
      ∃ records flights, folder.Records "airports.json" "repositioning_flights" records ∧
        List.Forall₂ PositioningFlight.ReadFrom records flights ∧ r.reference.Offers flights ∧
        ∀ f ∈ flights, ∀ first last : Date, last.number = first.number + 6 →
          ∃ day, first ≤ day ∧ day ≤ last ∧
            f ∈ r.reference.options f.origin f.destination (some day) := by
  refine ⟨offers_build, fun folder solved scenario r hload => ?_⟩
  obtain ⟨records, flights, hrecords, hread, hoffers, hne⟩ :=
    offers_of_load (Roster.reference_of_loadInstance hload)
  refine ⟨records, flights, hrecords, hread, hoffers, fun f hf first last hweek => ?_⟩
  obtain ⟨d, -, hd⟩ := Lists.exists_of_forall₂ hread hf
  exact hoffers.exists_day hf hd (hne f hf) hweek

end Reference

theorem Contents.SpelledBy.flights_eq {c : Contents} {folder : Folder} {records : List Document}
    {flights : List PositioningFlight} (h : c.SpelledBy folder)
    (hrecords : folder.Records "airports.json" "repositioning_flights" records)
    (hread : List.Forall₂ PositioningFlight.ReadFrom records flights) :
    flights = c.positioning.map (·.flight) := by
  obtain ⟨d, x, hd, hx, hitems⟩ := hrecords
  obtain ⟨d', hd', hnetwork⟩ := h.network
  obtain rfl := Except.ok.inj (hd.symm.trans hd')
  obtain ⟨x', records', hx', hitems', hspelled⟩ := items_of_listOf hnetwork.positioning
  obtain rfl := Except.ok.inj (hx.symm.trans hx')
  obtain rfl := Except.ok.inj (hitems.symm.trans hitems')
  have hread := Result.mapM_eq_ok.2 (hread.imp fun _ _ => And.left)
  exact Except.ok.inj (hread.symm.trans (Result.mapM_of_forall₂ hspelled fun _ _ hs => hs.ofDocument))

-- The one flight goes on Wednesdays and on Sundays, so on two days of the week that starts on Monday.
theorem Reference.offers_of_loadInstance_varied : ∃ scenario r f,
    loadInstance .varied false = .ok (scenario, r) ∧ r.reference.Offers [f] ∧ f.weekdays = [3, 7] ∧
    r.reference.options (.text "B") (.text "A") none = [f] ∧
    {day | .after 739039 ≤ day ∧ day ≤ .after 739045 ∧
      f ∈ r.reference.options (.text "B") (.text "A") (some day)}.ncard = 2 ∧
    ∃ day, .after 739039 ≤ day ∧ day ≤ .after 739045 ∧
      f ∈ r.reference.options f.origin f.destination (some day) := by
  obtain ⟨scenario, r, hload, -⟩ := Contents.spelledBy_varied.exists_of_load (P := fun _ => True)
    (by decide +kernel)
  obtain ⟨records, flights, hrecords, hread, hoffers, hall⟩ := offers_of_loadInstance.2 _ _ _ _ hload
  obtain rfl := Contents.spelledBy_varied.flights_eq hrecords hread
  have hone : r.reference.options (.text "B") (.text "A") none =
      Contents.varied.positioning.map (·.flight) := by
    rw [hoffers.always]
    exact List.filter_eq_self.2 (by decide +kernel)
  refine ⟨scenario, r, _, hload, hoffers, by decide, hone, ?_, hall _ List.mem_cons_self _ _ (by decide)⟩
  exact (hoffers.weekly _ _ _ (hone ▸ List.mem_cons_self) _ _ (by decide)).trans (by decide +kernel)

end CrewRoster
