import CrewRoster.Proofs.Contents
import CrewRoster.Proofs.Registry

namespace CrewRoster

namespace Reference

variable {airports : List Airport} {positioning : List PositioningFlight} {k : Label} {l : Listing}
  {route : Label × Label}

theorem foldl_addAirport_append (a : Airport) : (airports ++ [a]).foldl addAirport .empty =
    addAirport (airports.foldl addAirport .empty) a := by
  simp

theorem contains_airports :
    (airports.foldl addAirport .empty).contains k = true ↔ ∃ a ∈ airports, a.code.key = k := by
  rw [Registry.contains_iff]
  induction airports using List.reverseRecOn with
  | nil => simp [Registry.empty, Registry.get?]
  | append_singleton airports a ih =>
    rw [foldl_addAirport_append, addAirport]
    simp only [Registry.get?_insert, List.mem_append, List.mem_singleton]
    by_cases hk : k = a.code.key
    · simp only [hk, if_true]
      exact iff_of_true ⟨_, rfl⟩ ⟨a, .inr rfl, rfl⟩
    · simp only [hk, if_false, ih]
      constructor
      · rintro ⟨b, hb, he⟩
        exact ⟨b, .inl hb, he⟩
      · rintro ⟨b, hb | rfl, he⟩
        · exact ⟨b, hb, he⟩
        · exact absurd he.symm hk

-- An airport is listed under a code that it or an earlier one was given with.
theorem code_of_get? (h : (airports.foldl addAirport .empty).get? k = some l) :
    ∃ a ∈ airports, l.code = a.code := by
  induction airports using List.reverseRecOn generalizing k l with
  | nil => cases h
  | append_singleton airports a ih =>
    rw [foldl_addAirport_append, addAirport, Registry.get?_insert] at h
    split at h
    case isTrue =>
      obtain rfl := Option.some.inj h
      cases hold : (airports.foldl addAirport .empty).get? a.code.key with
      | none => exact ⟨a, by simp, by simp⟩
      | some old =>
        obtain ⟨b, hb, he⟩ := ih hold
        exact ⟨b, List.mem_append_left _ hb, by simpa using he⟩
    case isFalse =>
      obtain ⟨b, hb, he⟩ := ih h
      exact ⟨b, List.mem_append_left _ hb, he⟩

theorem airport_of_get? (h : (airports.foldl addAirport .empty).get? k = some l) :
    l.airport ∈ airports := by
  induction airports using List.reverseRecOn generalizing k l with
  | nil => cases h
  | append_singleton airports a ih =>
    rw [foldl_addAirport_append, addAirport, Registry.get?_insert] at h
    split at h
    case isTrue =>
      obtain rfl := Option.some.inj h
      simp
    case isFalse => exact List.mem_append_left _ (ih h)

def between (positioning : List PositioningFlight) (route : Label × Label) : List PositioningFlight :=
  positioning.filter fun f => (f.origin.key, f.destination.key) = route

-- The flights of a route are those between its airports, in the order in which they were given.
theorem get?_positioning : (positioning.foldl addPositioning .empty).get? route =
    if between positioning route = [] then none else some (between positioning route) := by
  induction positioning using List.reverseRecOn generalizing route with
  | nil => rfl
  | append_singleton positioning f ih =>
    have hfold : (positioning ++ [f]).foldl addPositioning .empty =
        addPositioning (positioning.foldl addPositioning .empty) f := by simp
    have hbetween : between (positioning ++ [f]) route = between positioning route ++
        if (f.origin.key, f.destination.key) = route then [f] else [] := by
      simp only [between, List.filter_append, List.filter_singleton, Bool.cond_decide]
    rw [hfold, addPositioning, Registry.get?_insert, ih, ih, hbetween]
    by_cases hr : route = (f.origin.key, f.destination.key)
    · subst hr
      by_cases hnil : between positioning (f.origin.key, f.destination.key) = [] <;> simp [hnil]
    · simp [hr, Ne.symm hr]

theorem mem_positioning {fs : List PositioningFlight} :
    fs ∈ (positioning.foldl addPositioning .empty).values ↔
      ∃ route, between positioning route = fs ∧ fs ≠ [] := by
  simp only [Registry.mem_values, get?_positioning]
  constructor
  · rintro ⟨route, h⟩
    split at h
    case isTrue => cases h
    case isFalse hne =>
      obtain rfl := Option.some.inj h
      exact ⟨route, rfl, hne⟩
  · rintro ⟨route, rfl, hne⟩
    exact ⟨route, by rw [if_neg hne]⟩

end Reference

namespace Contents

variable {c : Contents} {ts : List Transfer} {t u : Transfer}

def Transfer.pair (t : Transfer) : String × String := (t.origin, t.destination)

-- A transfer that is not replaced by a later one between the same airports.
def Standing (ts : List Transfer) (t : Transfer) : Prop :=
  ∃ before after, ts = before ++ t :: after ∧ ∀ u ∈ after, u.pair ≠ t.pair

theorem Standing.mem (h : Standing ts t) : t ∈ ts := by
  obtain ⟨before, after, rfl, -⟩ := h
  simp

theorem standing_append : Standing (ts ++ [u]) t ↔ t = u ∨ Standing ts t ∧ u.pair ≠ t.pair := by
  constructor
  · rintro ⟨before, after, he, hafter⟩
    rcases List.eq_nil_or_concat after with rfl | ⟨after, v, rfl⟩
    · exact .inl (List.singleton_inj.1 (List.append_inj' he rfl).2.symm)
    · have he : ts ++ [u] = (before ++ t :: after) ++ [v] := by simp [he]
      obtain ⟨rfl, hv⟩ := List.append_inj' he rfl
      obtain rfl := List.singleton_inj.1 hv
      exact .inr ⟨⟨before, after, rfl, fun w hw => hafter w (by simp [hw])⟩, hafter u (by simp)⟩
  · rintro (rfl | ⟨⟨before, after, rfl, hafter⟩, hne⟩)
    · exact ⟨ts, [], rfl, by simp⟩
    · refine ⟨before, after ++ [u], by simp, fun w hw => ?_⟩
      rcases List.mem_append.1 hw with hw | hw
      · exact hafter w hw
      · exact List.mem_singleton.1 hw ▸ hne

theorem exists_standing (h : t ∈ ts) : ∃ u, Standing ts u ∧ u.pair = t.pair := by
  induction ts using List.reverseRecOn with
  | nil => cases h
  | append_singleton ts v ih =>
    by_cases hv : v.pair = t.pair
    · exact ⟨v, standing_append.2 (.inl rfl), hv⟩
    · rcases List.mem_append.1 h with h | h
      · obtain ⟨u, hu, he⟩ := ih h
        exact ⟨u, standing_append.2 (.inr ⟨hu, he ▸ hv⟩), he⟩
      · exact absurd (congrArg Transfer.pair (List.mem_singleton.1 h)).symm hv

section Table

theorem sameKey_text (s s' : String) : (Document.text s).sameKey (.text s') = decide (s = s') := by
  simp [Document.sameKey, Document.key]

theorem any_entry (ts : List Transfer) (s : String) :
    (ts.map (·.entry)).any (·.origin.sameKey (.text s)) = ts.any (·.origin = s) := by
  simp [Transfer.entry, sameKey_text, Function.comp_def]

-- Entering a transfer replaces the one between the same airports.
theorem insert_entry (hu : ts.Pairwise fun u v => u.pair ≠ v.pair) :
    ∃ us : List Transfer, TaxiTable.insert t.entry (ts.map (·.entry)) = us.map (·.entry) ∧
      us.Perm (t :: ts.filter (·.pair ≠ t.pair)) := by
  induction ts with
  | nil => exact ⟨[t], rfl, .refl _⟩
  | cons u ts ih =>
    obtain ⟨hu, hts⟩ := List.pairwise_cons.1 hu
    obtain ⟨us, hus, hperm⟩ := ih hts
    have hinsert : TaxiTable.insert t.entry ((u :: ts).map (·.entry)) =
        if u.origin ≠ t.origin then u.entry :: us.map (·.entry)
        else if u.destination = t.destination then { u.entry with minutes := t.minutes } :: ts.map (·.entry)
        else if ts.any (·.origin = t.origin) then u.entry :: us.map (·.entry)
        else u.entry :: { t.entry with origin := u.entry.origin } :: ts.map (·.entry) := by
      rw [List.map_cons, TaxiTable.insert, hus, ← any_entry]
      simp [Transfer.entry, sameKey_text]
    have hskip (hne : u.pair ≠ t.pair) :
        (u :: us).Perm (t :: (u :: ts).filter (·.pair ≠ t.pair)) := by
      rw [List.filter_cons_of_pos (by simpa using hne)]
      exact (hperm.cons u).trans (.swap t u _)
    rw [hinsert]
    split_ifs with ho hd hany
    case pos => exact ⟨u :: us, rfl, hskip fun he => ho (congrArg Prod.fst he)⟩
    case pos =>
      have hpair : u.pair = t.pair := Prod.ext (not_not.1 ho) hd
      refine ⟨t :: ts, by simp [Transfer.entry, not_not.1 ho, hd], ?_⟩
      rw [List.filter_cons_of_neg (by simpa using hpair), List.filter_eq_self.2]
      exact fun v hv => by simpa using hpair ▸ (hu v hv).symm
    case pos => exact ⟨u :: us, rfl, hskip fun he => hd (congrArg Prod.snd he)⟩
    case neg =>
      refine ⟨u :: t :: ts, by simp [Transfer.entry, not_not.1 ho], ?_⟩
      have hne : u.pair ≠ t.pair := fun he => hd (congrArg Prod.snd he)
      rw [List.filter_cons_of_pos (by simpa using hne), List.filter_eq_self.2]
      · exact .swap t u ts
      · -- nothing else leaves from there
        intro v hv
        simp only [List.any_eq_true, decide_eq_true_eq, not_exists, not_and] at hany
        exact decide_eq_true fun he => hany v hv (congrArg Prod.fst he)

-- The table has, for every two airports, the last transfer between them.
theorem exists_table (ts : List Transfer) : ∃ us : List Transfer,
    (ts.map (·.entry)).foldl (fun table t => TaxiTable.insert t table) [] = us.map (·.entry) ∧
    (us.Pairwise fun u v => u.pair ≠ v.pair) ∧ ∀ t, t ∈ us ↔ Standing ts t := by
  induction ts using List.reverseRecOn with
  | nil =>
    refine ⟨[], rfl, .nil, fun t => iff_of_false List.not_mem_nil fun h => ?_⟩
    exact List.not_mem_nil h.mem
  | append_singleton ts v ih =>
    obtain ⟨us, hus, hu, hmem⟩ := ih
    obtain ⟨ws, hws, hperm⟩ := insert_entry (t := v) hu
    refine ⟨ws, ?_, ?_, fun t => ?_⟩
    · rw [List.map_append, List.foldl_append, hus]
      exact hws
    · rw [hperm.pairwise_iff fun h => Ne.symm h, List.pairwise_cons]
      refine ⟨fun w hw => ?_, hu.filter _⟩
      exact (of_decide_eq_true (List.mem_filter.1 hw).2).symm
    · rw [hperm.mem_iff, standing_append, List.mem_cons, List.mem_filter, hmem, decide_eq_true_iff,
        ne_comm]

end Table

end Contents
end CrewRoster
