import CrewRoster.Proofs.Calls
import CrewRoster.Proofs.Ids
import CrewRoster.Proofs.Reload

namespace CrewRoster.Ledger

variable {l l' l₁ : Ledger} {a : Assignment} {i id : String} {day : Date} {fs : List Field}
  {owner : Option String} {plan plan' : Plan} {r r' : Roster} {count : ℕ}

namespace Plan

-- A plan that is refused names a seat that the roster does not have, or somebody who is not employed.
inductive Blames (r : Roster) (plan : Plan) : Rejection → Prop
  | seat {seat owner} (hm : (seat, owner) ∈ plan) (hs : r.assignments.get? seat = none) :
    Blames r plan (.unknownSeat seat)
  | owner {seat id} (hm : (seat, some id) ∈ plan) (he : r.employees.get? id = none) :
    Blames r plan (.unknownOwner seat id)

theorem Blames.cons {why : Rejection} (h : Blames r plan why) (p : String × Option String) :
    Blames r (p :: plan) why := by
  cases h
  case seat hm hs => exact .seat (List.mem_cons_of_mem p hm) hs
  case owner hm he => exact .owner (List.mem_cons_of_mem p hm) he

theorem checkPlan_of_not_possible (h : ¬Possible r plan) :
    ∃ why, checkPlan r plan = .error (.rejected why) ∧ Blames r plan why := by
  induction plan with
  | nil => exact absurd (List.forall_mem_nil _) h
  | cons p plan ih =>
    obtain ⟨seat, owner⟩ := p
    have hrest : (∃ a, r.assignments.get? seat = some a) →
        (∀ id ∈ owner, ∃ e, r.employees.get? id = some e) →
        ∃ why, checkPlan r plan = .error (.rejected why) ∧ Blames r ((seat, owner) :: plan) why := by
      intro hseat howner
      obtain ⟨why, hwhy, hblames⟩ := ih fun hplan =>
        h (List.forall_mem_cons.2 ⟨⟨hseat, howner⟩, hplan⟩)
      exact ⟨why, hwhy, hblames.cons _⟩
    unfold Ledger.checkPlan
    split
    case isTrue hnone =>
      exact ⟨_, rfl, .seat List.mem_cons_self (by simpa [Registry.contains] using hnone)⟩
    case isFalse hseat =>
      have hseat := Registry.contains_iff.1 (by simpa using hseat)
      cases owner with
      | none => exact hrest hseat (by simp)
      | some id =>
        dsimp only
        split
        case isTrue hid =>
          refine hrest hseat fun _ heq => ?_
          obtain rfl := Option.some.inj heq
          exact Registry.contains_iff.1 hid
        case isFalse hid =>
          exact ⟨_, rfl, .owner List.mem_cons_self (by simpa [Registry.contains] using hid)⟩

section Lookup

variable (hkeys : (plan.map (·.1)).Nodup)
include hkeys

theorem lookup_eq_some : plan.lookup i = some owner ↔ (i, owner) ∈ plan :=
  Registry.get?_eq_some (r := ⟨plan, hkeys⟩)

-- A plan says the same about every seat in whatever order.
theorem lookup_of_perm (hperm : plan'.Perm plan) (seat : String) : plan'.lookup seat = plan.lookup seat := by
  ext owner
  rw [lookup_eq_some hkeys, lookup_eq_some ((hperm.map _).nodup_iff.2 hkeys), hperm.mem_iff]

end Lookup

theorem Possible.of_perm (h : Possible r plan) (hperm : plan'.Perm plan) : Possible r plan' :=
  fun p hp => h p (hperm.mem_iff.1 hp)

-- The plan gives an employee a seat on a day.
def Reaches (r : Roster) (plan : Plan) (id : String) (day : Date) : Prop :=
  ∃ p ∈ plan, p.2 = some id ∧ (r.assignments.get? p.1).map (·.seat.departureDate) = some day

theorem reaches_of_blank_eq (hb : r.blank = r'.blank) : Reaches r plan id day ↔ Reaches r' plan id day := by
  have hdate : ∀ k, (r.assignments.get? k).map (·.seat.departureDate) =
      (r'.assignments.get? k).map (·.seat.departureDate) := fun k => by
    simpa [Function.comp_def] using
      congrArg (Option.map Seat.departureDate) (Roster.seat_of_blank_eq (k := k) hb)
  simp only [Reaches, hdate]

end Plan

section Duties

variable {day' : Date}

-- A duty is entered where there was none only because a seat comes there.
theorem Writes.isSome_dutyAt (hw : Writes l id day fs l') : (l'.roster.dutyAt i day').isSome ↔
    (l.roster.dutyAt i day').isSome ∨ i = id ∧ day' = day := by
  by_cases hi : i = id ∧ day' = day
  · obtain ⟨_, d', _, -, -, -, -, -, hd'⟩ := hw.told
    simp [hi, hd']
  · simp [hw.others i day' hi, hi]

theorem Enters.isSome_dutyAt (h : Enters l a l') : (l'.roster.dutyAt i day').isSome ↔
    (l.roster.dutyAt i day').isSome ∨ a.owner = some i ∧ day' = a.seat.departureDate := by
  unfold Enters at h
  cases ho : a.owner with
  | none =>
    rw [ho] at h
    simp [h.others]
  | some id =>
    rw [ho] at h
    rw [h.2.isSome_dutyAt, Option.some.injEq, eq_comm (a := i)]

theorem Leaves.isSome_dutyAt (h : Leaves l a l') : (l'.roster.dutyAt i day').isSome ↔
    (l.roster.dutyAt i day').isSome ∨ a.owner = some i ∧ day' = a.seat.departureDate := by
  unfold Leaves at h
  cases ho : a.owner with
  | none =>
    rw [ho] at h
    simp [h.others]
  | some id =>
    rw [ho] at h
    obtain ⟨_, -, hw⟩ := h
    rw [hw.isSome_dutyAt, Option.some.injEq, eq_comm (a := i)]

end Duties

section Consistent

variable {seat : String} (h : l.Consistent) (hn : l.pending = none)
include h hn

theorem Consistent.isSome_dutyAt (ha : l.roster.assignments.get? seat = some a) (ho : a.owner = some id) :
    (l.roster.dutyAt id a.seat.departureDate).isSome := by
  obtain ⟨d, hd, -⟩ := (h.listed ha id a.seat.departureDate).2 ⟨by simp [hn], ho, rfl⟩
  simp [hd]

-- The owner had a duty on the day of the seat already, so that only the new owner may get one.
theorem Changes.isSome_dutyAt (hc : Changes l a owner l') (ha : l.roster.assignments.get? seat = some a) :
    (l'.roster.dutyAt id day).isSome ↔
      (l.roster.dutyAt id day).isSome ∨ owner = some id ∧ day = a.seat.departureDate := by
  obtain ⟨l₁, hl, he⟩ := hc
  have hold : a.owner = some id ∧ day = a.seat.departureDate → (l.roster.dutyAt id day).isSome := by
    rintro ⟨ho, rfl⟩
    exact h.isSome_dutyAt hn ha ho
  rw [he.isSome_dutyAt, hl.isSome_dutyAt, or_iff_left_of_imp hold]

variable (hp : l.roster.Plain)
include hp

-- After a plan there is a duty where there was one, and where the plan gives somebody a seat.
theorem Applied.isSome_dutyAt (hs : Applied plan l l') : (l'.roster.dutyAt id day).isSome ↔
    (l.roster.dutyAt id day).isSome ∨ plan.Reaches l.roster id day := by
  induction hs
  case nil => simp [Plan.Reaches]
  case skip seat owner plan l l' a ha ho _ ih =>
    have ha := Result.elim_eq_ok.1 ha
    have hold : owner = some id ∧ a.seat.departureDate = day → (l.roster.dutyAt id day).isSome := by
      rintro ⟨hid, rfl⟩
      exact h.isSome_dutyAt hn ha (ho.trans hid)
    rw [ih h hn hp]
    simp only [Plan.Reaches, List.exists_mem_cons_iff, ha, Option.map_some, Option.some.injEq]
    rw [← or_assoc, or_iff_left_of_imp hold]
  case change seat owner plan l l₁ l' a ha ho h₁ hc _ ih =>
    have ha := Result.elim_eq_ok.1 ha
    have hb : l₁.roster.blank = l.roster.blank := blank_of_assign h₁
    have hc₁ : (l.assign a owner).1.Consistent := h.assign hp ha
    rw [h₁] at hc₁
    rw [ih hc₁ (pending_of_assign h₁) (hp.of_blank_eq hb.symm), Plan.reaches_of_blank_eq hb,
      Changes.isSome_dutyAt h hn hc ha]
    simp only [Plan.Reaches, List.exists_mem_cons_iff, ha, Option.map_some, Option.some.injEq,
      eq_comm (a := day), or_assoc]

end Consistent

-- What a plan leaves that was carried out:
-- 1. nothing pending
-- 2. the seats that it names have the owners that it gives them, and the others those that they had
-- 3. nothing but owners and duties is touched
-- 4. the duties list what their employees own now, and their fields follow from it
structure Followed (plan : Plan) (l l' : Ledger) : Prop where
  pending : l'.pending = none
  named : ∀ p ∈ plan, l'.roster.ownerOf p.1 = p.2
  others : ∀ k ∉ plan.map (·.1), l'.roster.assignments.get? k = l.roster.assignments.get? k
  blank : l'.roster.blank = l.roster.blank
  consistent : l'.Consistent

-- A seat that the plan gives to somebody is listed there.
theorem Followed.lists {k : String} (hf : Followed plan l l')
    (hm : (k, some id) ∈ plan) (ha : l.roster.assignments.get? k = some a) :
    l'.roster.Lists id a.seat.departureDate a.seat := by
  obtain ⟨a', ha', hs⟩ := Roster.exists_of_blank_eq hf.blank.symm ha
  have ho : a'.owner = some id := by simpa [Roster.ownerOf, ha'] using hf.named _ hm
  rw [← hs]
  exact (hf.consistent.listed ha' id _).2 ⟨by simp [hf.pending], ho, rfl⟩

-- Where every seat has its owner already, nothing happens.
theorem follow_of_owned (hplan : plan.Possible l.roster)
    (h : ∀ p ∈ plan, l.roster.ownerOf p.1 = p.2) : l.follow count plan = (l, .ok count) := by
  induction plan with
  | nil => rfl
  | cons p plan ih =>
    obtain ⟨seat, owner⟩ := p
    obtain ⟨⟨⟨a, ha⟩, -⟩, hplan⟩ := List.forall_mem_cons.1 hplan
    obtain ⟨ho, h⟩ := List.forall_mem_cons.1 h
    have ho : a.owner = owner := by simpa [Roster.ownerOf, ha] using ho
    have hget : l.roster.assignment seat = .ok a := Result.elim_eq_ok.2 ha
    rw [follow, hget]
    simpa [ho] using ih hplan h

section Apply

variable (h : l.Consistent) (hp : l.roster.Plain) (hn : l.pending = none)
  (hkeys : (plan.map (·.1)).Nodup)
include h hp hn hkeys

theorem Consistent.apply_ok (hplan : plan.Possible l.roster) :
    ∃ l', l.apply plan = (l', .ok (plan.countP fun p => l.roster.ownerOf p.1 ≠ p.2)) ∧
      Followed plan l l' ∧ Remains l.roster l' ∧
      (∀ k, l'.roster.assignments.get? k = (l.roster.assignments.get? k).map fun a =>
        { a with owner := (plan.lookup k).getD a.owner }) ∧
      ∀ id day, (l'.roster.dutyAt id day).isSome ↔
        (l.roster.dutyAt id day).isSome ∨ plan.Reaches l.roster id day := by
  obtain ⟨l', hl', howners⟩ := h.follow_ok 0 hp hn hplan hkeys
  rw [Nat.zero_add] at hl'
  have happly := (apply_of_possible hplan).trans hl'
  have hremains : Remains l.roster (l.apply plan).1 :=
    (Remains.kept l.roster).apply ⟨h, hp, rfl, fun _ _ => rfl⟩
  rw [happly] at hremains
  refine ⟨l', happly, ⟨pending_of_apply hn happly, fun p hm => ?_, fun k hk => ?_, blank_of_apply happly,
      hremains.consistent⟩, hremains, howners, fun id day => (h.applied hp hl').isSome_dutyAt h hn hp⟩
  · obtain ⟨⟨a, ha⟩, -⟩ := hplan p hm
    rw [Roster.ownerOf, howners, ha, (Plan.lookup_eq_some hkeys).2 hm]
    rfl
  · have hnone : plan.lookup k = none := List.lookup_eq_none_iff.2 fun p hm => by
      simpa using fun he => hk (List.mem_map.2 ⟨p, hm, he.symm⟩)
    rw [howners, hnone]
    simp

-- A plan that names no seat twice is refused as a whole, with nothing changed, or carried out as a whole:
-- 1. it is refused if it names a seat that is not there or somebody who is not employed
-- 2. otherwise the seats that change hands are counted, and every seat gets its owner
-- 3. doing it again changes and tells nothing
-- 4. in another order it comes to the same owners and duties
theorem Consistent.apply_exact :
    (¬plan.Possible l.roster → ∃ why, l.apply plan = (l, .error (.rejected why)) ∧
      plan.Blames l.roster why) ∧
    (plan.Possible l.roster → ∃ l',
      l.apply plan = (l', .ok (plan.countP fun p => l.roster.ownerOf p.1 ≠ p.2)) ∧
      Followed plan l l' ∧ l'.apply plan = (l', .ok 0) ∧
      ∀ plan', plan'.Perm plan → ∃ l'',
        l.apply plan' = (l'', .ok (plan.countP fun p => l.roster.ownerOf p.1 ≠ p.2)) ∧
        (∀ k, l''.roster.assignments.get? k = l'.roster.assignments.get? k) ∧
        ∀ id day, l''.roster.dutyAt id day = l'.roster.dutyAt id day) := by
  refine ⟨fun hplan => ?_, fun hplan => ?_⟩
  · obtain ⟨why, hwhy, hblames⟩ := Plan.checkPlan_of_not_possible hplan
    exact ⟨why, by rw [apply, hwhy], hblames⟩
  obtain ⟨l', happly, hfollowed, hremains, howners, hduties⟩ := h.apply_ok hp hn hkeys hplan
  have hplan' : plan.Possible l'.roster := hplan.of_blank_eq hremains.blank.symm
  refine ⟨l', happly, hfollowed, ?_, fun plan' hperm => ?_⟩
  · rw [apply_of_possible hplan', follow_of_owned hplan' hfollowed.named]
  obtain ⟨l'', happly', hfollowed', hremains', howners', hduties'⟩ :=
    h.apply_ok hp hn ((hperm.map _).nodup_iff.2 hkeys) (hplan.of_perm hperm)
  have hsame : ∀ k, l''.roster.assignments.get? k = l'.roster.assignments.get? k := fun k => by
    rw [howners, howners', Plan.lookup_of_perm hkeys hperm]
  refine ⟨l'', by rw [happly', hperm.countP_eq], hsame, fun id day => ?_⟩
  have hthere : (l''.roster.dutyAt id day).isSome ↔ (l'.roster.dutyAt id day).isSome := by
    simp only [hduties, hduties', Plan.Reaches, hperm.mem_iff]
  cases hd : l'.roster.dutyAt id day with
  | none => simpa [hd] using hthere
  | some d =>
    obtain ⟨d', hd'⟩ := Option.isSome_iff_exists.1 (hthere.2 (by rw [hd, Option.isSome_some]))
    rw [hd', hremains.eq_of_dutyAt hremains' hfollowed.pending hfollowed'.pending hsame hd hd']

end Apply

-- Two of the three seats are given to the one employee, in one order and in the other; nobody else can get
-- one.
theorem Consistent.apply_exact_lookalike : ∃ scenario r plan l l' why,
    loadInstance .lookalike false = .ok (scenario, r) ∧
    plan = [("1@2024-06-03#0", some "E"), ("1@2024-06-03#0@2024-06-03#0", some "E")] ∧
    (Ledger.ofRoster r).apply plan = (l, .ok 2) ∧ Followed plan (.ofRoster r) l ∧
    l.apply plan = (l, .ok 0) ∧ (Ledger.ofRoster r).apply plan.reverse = (l', .ok 2) ∧
    (∀ id day, l'.roster.dutyAt id day = l.roster.dutyAt id day) ∧
    (Ledger.ofRoster r).apply [("1@2024-06-03#0", some "F")] = (.ofRoster r, .error (.rejected why)) := by
  obtain ⟨scenario, r, hload, hp, hseats, hcrew, hopen⟩ := Contents.spelledBy_lookalike.exists_of_load
    (P := fun r => r.Plain ∧ r.assignments.keys =
        ["1@2024-06-03#0", "1@2024-06-03#1", "1@2024-06-03#0@2024-06-03#0"] ∧
      r.employees.keys = ["E"] ∧ ∀ a ∈ r.assignments.values, a.owner = none)
    (by decide +kernel)
  have hc := (fresh_of_loadInstance hload).consistent hp
  have hopen : ∀ k, r.ownerOf k = none := fun k => by
    rw [Roster.ownerOf, Option.bind_eq_none_iff]
    exact fun a ha => hopen a (Registry.mem_values.2 ⟨k, ha⟩)
  have hthere : ∀ k ∈ r.assignments.keys, ∃ a, r.assignments.get? k = some a := fun k hk => by
    obtain ⟨⟨_, a⟩, ha, rfl⟩ := List.mem_map.1 hk
    exact ⟨a, Registry.get?_eq_some.2 ha⟩
  obtain ⟨⟨_, e⟩, he, rfl⟩ := List.map_eq_singleton_iff.1 hcrew
  have he : r.employees.get? "E" = some e := Registry.get?_eq_some.2 (by simp [he])
  have hpossible : Plan.Possible r [("1@2024-06-03#0", some "E"),
      ("1@2024-06-03#0@2024-06-03#0", some "E")] := by
    simp only [Plan.Possible, List.forall_mem_cons]
    exact ⟨⟨hthere _ (by simp [hseats]), fun id hid => ⟨e, Option.some.inj hid ▸ he⟩⟩,
      ⟨hthere _ (by simp [hseats]), fun id hid => ⟨e, Option.some.inj hid ▸ he⟩⟩, by simp⟩
  have himpossible : ¬Plan.Possible r [("1@2024-06-03#0", some "F")] := fun hplan => by
    obtain ⟨e', he'⟩ := (hplan _ List.mem_cons_self).2 "F" rfl
    have hmem : "F" ∈ r.employees.keys := List.mem_map.2 ⟨_, Registry.get?_eq_some.1 he', rfl⟩
    simp [hcrew] at hmem
  obtain ⟨l, happly, hfollowed, hagain, horder⟩ := (hc.apply_exact hp rfl (by decide)).2 hpossible
  obtain ⟨l', happly', -, hduties⟩ := horder _ (List.reverse_perm _)
  obtain ⟨why, hrefused, -⟩ := (hc.apply_exact hp rfl (by decide)).1 himpossible
  refine ⟨scenario, r, _, l, l', why, hload, rfl, ?_, hfollowed, hagain, ?_, hduties, hrefused⟩
  · simpa [Ledger.ofRoster, hopen] using happly
  · simpa [Ledger.ofRoster, hopen] using happly'

end CrewRoster.Ledger
