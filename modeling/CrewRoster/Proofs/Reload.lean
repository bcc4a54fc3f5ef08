import CrewRoster.Command
import CrewRoster.Proofs.Grounds
import CrewRoster.Proofs.Steps

namespace CrewRoster

namespace Ledger

-- What comes of a ledger by changes of owners only, in whatever order. A call that fails counts too, with
-- the ledger that it leaves behind. The owner of a seat is written directly only while the seat is pending.
inductive Reassigned (l₀ : Ledger) : Ledger → Prop
  | refl : Reassigned l₀ l₀
  | release {l seat a} (h : Reassigned l₀ l) (ha : l.roster.assignment seat = .ok a) :
    Reassigned l₀ (l.release a).1
  | settle {l seat a} (h : Reassigned l₀ l) (ha : l.roster.assignment seat = .ok a) :
    Reassigned l₀ (l.settle a).1
  | assign {l seat a} (h : Reassigned l₀ l) (ha : l.roster.assignment seat = .ok a)
    (owner : Option String) : Reassigned l₀ (l.assign a owner).1
  | apply {l} (h : Reassigned l₀ l) (plan : Plan) : Reassigned l₀ (l.apply plan).1
  | write {l seat} (h : Reassigned l₀ l) (hn : l.pending = some seat) (owner : Option String) :
    Reassigned l₀ (l.setOwner seat owner)

variable {l l₀ : Ledger} {r r' : Roster} {plan : Plan} {owners : List Assignment}

theorem Reassigned.kept {P : Ledger → Prop} (h : Reassigned l₀ l) (hk : Kept P) (hP : P l₀) : P l := by
  induction h
  case refl => exact hP
  case release ha ih => exact hk.release ih (Result.elim_eq_ok.1 ha)
  case settle ha ih => exact hk.settle ih (Result.elim_eq_ok.1 ha)
  case assign ha _ ih => exact hk.assign ih (Result.elim_eq_ok.1 ha)
  case apply ih => exact hk.apply ih
  case write hn owner ih => exact hk.setOwner owner ih hn

theorem Reassigned.steps (h : Reassigned l₀ l) : Steps l₀ l := by
  induction h
  case refl => exact .refl
  case release ha ih => exact ih.trans (.step (.release ha) .refl)
  case settle ha ih => exact ih.trans (.step (.settle ha) .refl)
  case assign ha owner ih => exact ih.trans (.step (.assign ha owner) .refl)
  case apply plan ih => exact ih.trans (.step (.apply plan) .refl)
  case write hn owner ih => exact ih.trans (.step (.write hn owner) .refl)

namespace Plan

-- The plan is about seats and employees of the roster.
def Possible (r : Roster) (plan : Plan) : Prop :=
  ∀ p ∈ plan, (∃ a, r.assignments.get? p.1 = some a) ∧
    ∀ id ∈ p.2, ∃ e, r.employees.get? id = some e

theorem Possible.of_blank_eq (h : Possible r plan) (hb : r.blank = r'.blank) : Possible r' plan := by
  intro p hp
  obtain ⟨⟨a, ha⟩, hid⟩ := h p hp
  obtain ⟨a', ha', -⟩ := Roster.exists_of_blank_eq hb ha
  refine ⟨⟨a', ha'⟩, fun id hi => ?_⟩
  obtain ⟨e, he⟩ := hid id hi
  obtain ⟨e', he', -⟩ := Roster.exists_employee_of_blank_eq hb he
  exact ⟨e', he'⟩

theorem Possible.checkPlan (h : Possible r plan) : checkPlan r plan = .ok () := by
  induction plan with
  | nil => rfl
  | cons p plan ih =>
    obtain ⟨⟨hseat, howner⟩, hplan⟩ := List.forall_mem_cons.1 h
    obtain ⟨seat, owner⟩ := p
    have hseat := Registry.contains_iff.2 hseat
    cases owner with
    | none => simpa [Ledger.checkPlan, hseat] using ih hplan
    | some id =>
      have hcrew := Registry.contains_iff.2 (howner id rfl)
      simpa [Ledger.checkPlan, hseat, hcrew] using ih hplan

end Plan

theorem apply_of_possible (h : Plan.Possible l.roster plan) : l.apply plan = l.follow 0 plan := by
  rw [Ledger.apply, h.checkPlan]

-- A plan that is possible and names no seat twice is carried out, counting the seats that do not have their
-- owner yet, and leaves the owners that it names.
theorem Consistent.follow_ok (count : Nat) (h : l.Consistent) (hp : l.roster.Plain) (hn : l.pending = none)
    (hplan : Plan.Possible l.roster plan) (hkeys : (plan.map (·.1)).Nodup) :
    ∃ l', l.follow count plan =
        (l', .ok (count + plan.countP fun p => l.roster.ownerOf p.1 ≠ p.2)) ∧
      ∀ k, l'.roster.assignments.get? k =
        (l.roster.assignments.get? k).map fun a => { a with owner := (plan.lookup k).getD a.owner } := by
  induction plan generalizing l count with
  | nil => exact ⟨l, rfl, fun k => by simp⟩
  | cons p plan ih =>
    obtain ⟨seat, owner⟩ := p
    obtain ⟨⟨⟨a, ha⟩, howner⟩, hplan⟩ := List.forall_mem_cons.1 hplan
    obtain ⟨hnew, hkeys⟩ := List.nodup_cons.1 hkeys
    have hne : ∀ p ∈ plan, p.1 ≠ seat := fun p hm he => hnew (List.mem_map.2 ⟨p, hm, he⟩)
    have hlookup : plan.lookup seat = none := List.lookup_eq_none_iff.2 fun p hm => by
      simpa using (hne p hm).symm
    have hget : l.roster.assignment seat = .ok a := Result.elim_eq_ok.2 ha
    have hseat : l.roster.ownerOf seat = a.owner := by rw [Roster.ownerOf, ha, Option.bind_some]
    rw [follow, hget]
    simp only [List.countP_cons, hseat]
    by_cases ho : a.owner = owner
    · obtain ⟨l', hl', howners⟩ := ih count h hp hn hplan hkeys
      refine ⟨l', by simpa [ho] using hl', fun k => ?_⟩
      rw [howners, List.lookup_cons]
      by_cases hk : k = seat
      · subst hk
        simp [ha, hlookup, ho]
      · simp [beq_false_of_ne hk]
    · obtain ⟨l₁, h₁, hn₁, hc₁, ha₁⟩ := h.assign_ok hp ha owner hn howner
      have hb : l₁.roster.blank = l.roster.blank := blank_of_assign h₁
      obtain ⟨l', hl', howners⟩ := ih (count + 1) hc₁ (hp.of_blank_eq hb.symm) hn₁
        (Plan.Possible.of_blank_eq hplan hb.symm) hkeys
      -- the rest of the plan is about other seats
      have hrest : ∀ p ∈ plan, l₁.roster.ownerOf p.1 = l.roster.ownerOf p.1 := fun p hm => by
        rw [Roster.ownerOf, Roster.ownerOf, ha₁, Roster.get?_setOwner]
        simp [hne p hm]
      have hcount : (plan.countP fun p => l₁.roster.ownerOf p.1 ≠ p.2) =
          plan.countP fun p => l.roster.ownerOf p.1 ≠ p.2 :=
        List.countP_congr fun p hm => by rw [hrest p hm]
      rw [hcount, Nat.add_right_comm, Nat.add_assoc] at hl'
      refine ⟨l', by simpa [ho, h₁] using hl', fun k => ?_⟩
      rw [howners, ha₁, Roster.get?_setOwner, List.lookup_cons]
      by_cases hk : k = seat
      · subst hk
        simp [ha, hlookup]
      · simp [hk, beq_false_of_ne hk]

-- The plan that gives every seat to the owner that it has.
def Plan.ofOwners (owners : List Assignment) : Plan := owners.map fun a => (a.seat.id, a.owner)

theorem Plan.ofDocument_solution (path : Path) (status : Status) (owners : List Assignment) :
    Plan.ofDocument (Command.solution path status owners) = .ok (.ofOwners owners) := by
  have howner : ∀ owner : Option String,
      (if (owner.elim .null .text : Document) = .null then none
        else some (owner.elim .null .text : Document).display) = owner := by
    rintro (_ | id)
    · rfl
    · rfl
  simp [ofDocument, ofOwners, Command.solution, Document.fieldOr, Document.entries, List.lookup_cons,
    bind, Except.bind, pure, Except.pure, howner]

end Ledger

namespace Folder

variable {f : Folder} {name text : String}

-- The folder once a solution is written there.
def withSolution (f : Folder) (text : String) : Folder where
  path := f.path
  file? name := if name = "solution.json" then some text else f.file? name

theorem document_withSolution (h : name ≠ "solution.json") :
    (f.withSolution text).document name = f.document name := by
  simp [document, withSolution, h]

theorem load_withSolution (scenario : Scenario) :
    Roster.load (f.withSolution text) scenario = Roster.load f scenario := by
  have hdocument : ∀ name ∈ ["airports.json", "max_fdp.json", "flights.json", "employees.json"],
      (f.withSolution text).document name = f.document name := fun name hm =>
    document_withSolution fun he => by simp [he] at hm
  simp only [List.forall_mem_cons] at hdocument
  obtain ⟨hairports, hlimits, hflights, hcrew, -⟩ := hdocument
  simp only [Roster.load, Reference.load, hairports, hlimits, hflights, hcrew]

end Folder

theorem Ledger.Plan.load_withSolution {folder : Folder} {d : Document}
    (h : Document.parse d.indented = .ok d) :
    Plan.load (folder.withSolution d.indented) = Plan.ofDocument d := by
  simp [load, Folder.document, Folder.withSolution, h, bind, Except.bind]

namespace Ledger

variable {l : Ledger} {r : Roster} {folder : Folder} {scenario : Scenario} {owners : List Assignment}

section OfOwners

variable (h : l.roster.WellFormed) (hperm : owners.Perm l.roster.assignments.values)
include h hperm

theorem Plan.nodup_ofOwners : ((Plan.ofOwners owners).map (·.1)).Nodup := by
  have hids : (l.roster.assignments.values.map (·.seat.id)).Nodup :=
    Registry.map_values_eq_keys h.seatId ▸ l.roster.assignments.nodup
  rw [ofOwners, List.map_map]
  exact (hperm.map _).nodup_iff.2 hids

theorem Plan.lookup_ofOwners {k : String} {a : Assignment}
    (ha : l.roster.assignments.get? k = some a) : (Plan.ofOwners owners).lookup k = some a.owner := by
  refine (Registry.get?_eq_some (r := ⟨_, nodup_ofOwners h hperm⟩)).2 (List.mem_map.2 ⟨a, ?_, ?_⟩)
  · exact hperm.mem_iff.2 (Registry.mem_values.2 ⟨k, ha⟩)
  · rw [h.seatId ha]

end OfOwners

section Remains

variable (h : Remains r l) (hn : l.pending = none) (hperm : owners.Perm l.roster.assignments.values)
include h hn hperm

theorem Remains.possible_ofOwners : (Plan.ofOwners owners).Possible r := by
  refine Plan.Possible.of_blank_eq (r := l.roster) (fun p hm => ?_) h.blank
  obtain ⟨a, ha, rfl⟩ := List.mem_map.1 hm
  obtain ⟨k, ha⟩ := Registry.mem_values.1 (hperm.mem_iff.1 ha)
  obtain rfl := h.consistent.seatId ha
  exact ⟨⟨a, ha⟩, fun id ho => h.consistent.listing.exists_owner hn ha ho⟩

-- Carried out on the roster without owners, it gives every seat the owner that the ledger has for it.
theorem Remains.apply_ofOwners (hr : Remains r (.ofRoster r)) :
    ∃ l' n, (Ledger.ofRoster r).apply (.ofOwners owners) = (l', .ok n) ∧ Remains r l' ∧
      l'.pending = none ∧ ∀ k, l'.roster.assignments.get? k = l.roster.assignments.get? k := by
  have hwell := h.consistent.toWellFormed
  have hplan := h.possible_ofOwners hn hperm
  obtain ⟨l', hl', howners⟩ :=
    hr.consistent.follow_ok 0 hr.plain rfl hplan (Plan.nodup_ofOwners hwell hperm)
  have happly := (apply_of_possible (l := .ofRoster r) hplan).trans hl'
  have hkept : Remains r ((Ledger.ofRoster r).apply (.ofOwners owners)).1 := (kept r).apply hr
  rw [happly] at hkept
  refine ⟨l', _, happly, hkept, pending_of_apply rfl happly, fun k => ?_⟩
  rw [howners, Ledger.ofRoster]
  cases ha : l.roster.assignments.get? k with
  | none =>
    have hseat := Roster.seat_of_blank_eq (k := k) h.blank
    rw [ha, Option.map_none, eq_comm, Option.map_eq_none_iff] at hseat
    rw [hseat, Option.map_none]
  | some a =>
    obtain ⟨a₀, ha₀, hseat⟩ := Roster.exists_of_blank_eq h.blank ha
    rw [ha₀, Option.map_some, Plan.lookup_ofOwners hwell hperm ha, Option.getD_some, hseat]

end Remains

-- Whatever was done about the owners of a roster that was loaded, once nothing is pending its owners can be
-- saved; and if the file reads as what was written, the instance with it is loaded with the same owners and
-- with the same duties, as far as they say something.
theorem Reassigned.reload (h : Reassigned (.ofRoster r) l)
    (hload : loadInstance folder false = .ok (scenario, r)) (hp : r.Plain) (hn : l.pending = none)
    (path : Path) (status : Status) :
    ∃ owners, l.roster.sorted = .ok owners ∧
      (Document.parse (Command.solution path status owners).indented =
          .ok (Command.solution path status owners) →
        ∃ r', loadInstance (folder.withSolution (Command.solution path status owners).indented) true =
            .ok (scenario, r') ∧
          (∀ k, r'.assignments.get? k = l.roster.assignments.get? k) ∧
          ∀ id day, (r'.dutyAt id day).filter (·.isBusy) =
            (l.roster.dutyAt id day).filter (·.isBusy)) := by
  have hr : Remains r (.ofRoster r) :=
    ⟨(fresh_of_loadInstance hload).consistent hp, hp, rfl, fun _ _ => rfl⟩
  have hl := h.kept (Remains.kept r) hr
  obtain ⟨owners, hsorted, hperm, -⟩ := hl.consistent.exists_sorted hl.plain.naive
  refine ⟨owners, hsorted, fun hjson => ?_⟩
  obtain ⟨l', n, happly, hl', hn', howners⟩ := hl.apply_ofOwners hn hperm hr
  refine ⟨l'.roster, ?_, howners, fun id day => hl.dutyAt_eq hl' hn hn' howners id day⟩
  simp only [loadInstance, Result.bind_eq_ok] at hload
  obtain ⟨d, hd, _, hscenario, _, hroster, hload⟩ := hload
  cases hload
  simp only [loadInstance, Folder.document_withSolution (show "scenario.json" ≠ _ by decide), hd,
    hscenario, Folder.load_withSolution, hroster, Plan.load_withSolution hjson,
    Plan.ofDocument_solution, happly, bind, Except.bind, pure, Except.pure, if_true]

set_option maxRecDepth 100000 in
-- The one seat of an instance is given to its one employee, and still is when the instance is loaded again.
theorem Reassigned.reload_smallest : ∃ scenario r l owners r',
    loadInstance .smallest false = .ok (scenario, r) ∧ r.Plain ∧ Reassigned (.ofRoster r) l ∧
    l.pending = none ∧ l.roster.sorted = .ok owners ∧
    loadInstance (Folder.smallest.withSolution
      (Command.solution ⟨"", ["smallest"]⟩ .optimal owners).indented) true = .ok (scenario, r') ∧
    (r'.assignments.get? "1@2024-06-03#0").map (·.owner) = some (some "E") := by
  obtain ⟨scenario, r, s, e, l, hload, hp, hs, -, hl, hn, hs'⟩ := assigns_smallest
  have ha : r.assignments.get? "1@2024-06-03#0" = some ⟨s, none⟩ := by simp [Registry.get?, hs]
  have hid : s.id = "1@2024-06-03#0" := (fresh_of_loadInstance hload).seatId ha
  have h : Reassigned (.ofRoster r) l := by
    have hrefl : Reassigned (.ofRoster r) (.ofRoster r) := .refl
    have := hrefl.assign (Result.elim_eq_ok.2 ha) (some "E")
    rwa [hl] at this
  obtain ⟨owners, hsorted, hreload⟩ := h.reload hload hp hn ⟨"", ["smallest"]⟩ .optimal
  have howners : [⟨s, some "E"⟩] = owners := by
    simpa [Roster.sorted, Roster.sortAssignments, Roster.checkOrder, Registry.values, hs', bind,
      Except.bind, pure, Except.pure] using hsorted
  obtain ⟨r', hr', ho, -⟩ := hreload (by
    rw [← howners, Command.solution, List.map_singleton, hid]
    dsimp only [Option.elim_some]
    decide +kernel)
  refine ⟨scenario, r, l, owners, r', hload, hp, h, hn, hsorted, hr', ?_⟩
  rw [ho, Registry.get?, hs']
  rfl

end Ledger
end CrewRoster
