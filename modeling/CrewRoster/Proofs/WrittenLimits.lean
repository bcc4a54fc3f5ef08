import CrewRoster.Proofs.Acceptance
import CrewRoster.Proofs.Rereading

namespace CrewRoster

namespace DutyLimit

variable {limits limits' : List (Option Span)} {entries : List (Int × Span)} {j k : Int} {i : ℕ}
  {start finish : Clock} {rule : DutyLimit}

-- Counts of legs that share a slot: all up to two do.
def SameSlot (j k : Int) : Prop := j = k ∨ j ≤ 2 ∧ k ≤ 2

instance (j k : Int) : Decidable (SameSlot j k) := inferInstanceAs (Decidable (_ ∨ _))

theorem slot_eq_iff : slot j = slot k ↔ SameSlot j k := by
  simp only [slot, SameSlot]
  split <;> split <;> omega

-- The limit for so many legs is the last one that is given for its slot, if there is one.
def lastFor (entries : List (Int × Span)) (legs : Int) : Option Span :=
  (entries.filter fun p => SameSlot p.1 legs).getLast?.map (·.2)

-- What stands in a slot in the end is what was written there last, or else what stood there before.
theorem join_getElem?_fill (hlength : limits.length = slots) (h : fill limits entries = .ok limits') :
    (limits'[i]?).join =
      ((entries.filter fun p => slot p.1 = i).getLast?.map (·.2)).or (limits[i]?).join := by
  induction entries generalizing limits with
  | nil =>
    cases h
    rfl
  | cons p entries ih =>
    obtain ⟨legs, limit⟩ := p
    rw [fill] at h
    split at h
    case isTrue => cases h
    case isFalse hlt =>
      rw [ih (by rw [List.length_set, hlength]) h]
      by_cases hi : slot legs = i
      · subst hi
        rw [List.filter_cons_of_pos (by simp), List.getLast?_cons, List.getElem?_set_self (by omega)]
        cases (entries.filter fun p => slot p.1 = slot legs).getLast? <;> rfl
      · rw [List.filter_cons_of_neg (by simpa using hi), List.getElem?_set_ne hi]

theorem limitFor_of_ofLegs (h : ofLegs start finish entries = .ok rule) :
    rule.start = start ∧ rule.finish = finish ∧
      ∀ legs, rule.limitFor legs = (lastFor entries legs).getD fallback := by
  simp only [ofLegs, Result.bind_eq_ok, Result.pure_eq_ok] at h
  obtain ⟨limits, hfill, rfl⟩ := h
  refine ⟨rfl, rfl, fun legs => ?_⟩
  have hempty : ((List.replicate slots (none : Option Span))[slot legs]?).join = none := by
    rw [List.getElem?_replicate]
    split <;> rfl
  simp only [limitFor, join_getElem?_fill List.length_replicate hfill, hempty, Option.or_none, lastFor,
    slot_eq_iff]

theorem fill_eq_error {fault : Fault} (h : fill limits entries = .error fault) :
    ∃ legs, 12 ≤ legs ∧ fault = .rejected (.segmentsBeyondTable legs slots) := by
  induction entries generalizing limits with
  | nil => cases h
  | cons p entries ih =>
    obtain ⟨legs, limit⟩ := p
    rw [fill] at h
    split at h
    case isTrue hle =>
      cases h
      refine ⟨legs, ?_, rfl⟩
      simp only [slots, slot] at hle
      split at hle <;> omega
    case isFalse => exact ih h

end DutyLimit

namespace Contents

variable {l : Limit} {d : Document}

-- How limits are written: each for a count of legs in figures, in one of the notations for lengths of time,
-- and no count comes twice.
structure Limit.WrittenAs (l : Limit) (d : Document) : Prop where
  start : ∃ x, d.field "start" = .ok x ∧ Clock.read x = .ok l.start
  finish : ∃ x, d.field "end" = .ok x ∧ Clock.read x = .ok l.finish
  byLegs : ∃ entries, d.field "max_fdp_by_segments" = .ok (.object entries) ∧
    List.Forall₂ (fun e p => e.1 = toString p.1 ∧ p.2.WrittenAs e.2) entries l.byLegs
  distinct : (l.byLegs.map (·.1)).Nodup

-- What comes of limits that are written.
def Limit.loaded (l : Limit) : Result DutyLimit :=
  if ∀ p ∈ l.byLegs, Legible p.1 then DutyLimit.ofLegs l.start l.finish l.byLegs else .error .unreadable

theorem Limit.WrittenAs.ofDocument (h : l.WrittenAs d) : DutyLimit.ofDocument d = l.loaded := by
  obtain ⟨x, hx, hstart⟩ := h.start
  obtain ⟨y, hy, hfinish⟩ := h.finish
  obtain ⟨entries, hentries, hwritten⟩ := h.byLegs
  have hread : (entries.mapM fun e => do
      return (← (Document.text e.1).toWhole, ← Span.read e.2) : Result (List (Int × Span))) =
      if ∀ p ∈ l.byLegs, Legible p.1 then .ok l.byLegs else .error .unreadable := by
    refine Result.mapM_ite_of_forall₂ (P := fun p : Int × Span => Legible p.1) ?_
    refine hwritten.imp fun e p ⟨hlegs, hlimit⟩ => ?_
    simp only [hlegs, hlimit.read, Document.toWhole, readWhole?_toString]
    split <;> rfl
  simp only [DutyLimit.ofDocument, hx, hstart, hy, hfinish, hentries, Document.entries, Result.ok_bind,
    hread, Limit.loaded]
  split
  case isTrue => rw [Result.ok_bind, Registry.entries_ofList h.distinct]
  case isFalse => rfl

-- A count of legs that cannot be entered has no slot, or too many figures to be read.
def Limit.Refused (l : Limit) : Prop := ∃ p ∈ l.byLegs, 12 ≤ p.1 ∨ ¬Legible p.1

instance (l : Limit) : Decidable l.Refused :=
  inferInstanceAs (Decidable (∃ p ∈ l.byLegs, 12 ≤ p.1 ∨ ¬Legible p.1))

theorem Limit.exists_loaded_iff : (∃ rule, l.loaded = .ok rule) ↔ ¬l.Refused := by
  have hfill : (∃ rule, DutyLimit.ofLegs l.start l.finish l.byLegs = .ok rule) ↔
      (∀ p ∈ l.byLegs, p.1 ≤ 11) ∧ True :=
    (judges_fill.bind fun _ _ => .ok trivial).accepts_iff
  have hrefused : ¬l.Refused ↔ (∀ p ∈ l.byLegs, p.1 ≤ 11) ∧ ∀ p ∈ l.byLegs, Legible p.1 := by
    simp only [Refused, not_exists, not_and, not_or, not_not]
    exact (forall₂_congr fun p _ => and_congr_left' (by omega)).trans forall₂_and
  rw [hrefused, loaded]
  split
  case isTrue hlegible => rw [hfill, and_true, and_iff_left hlegible]
  case isFalse hlegible => exact ⟨fun ⟨_, h⟩ => (nomatch h), fun h => absurd h.2 hlegible⟩

-- The rule that comes of limits has the last one of every slot, and nine hours where there is none.
structure Limit.Gives (l : Limit) (rule : DutyLimit) : Prop where
  start : rule.start = l.start
  finish : rule.finish = l.finish
  limitFor : ∀ legs, rule.limitFor legs = (DutyLimit.lastFor l.byLegs legs).getD (9 * Span.hour)

theorem Limit.gives_of_loaded {rule : DutyLimit} (h : l.loaded = .ok rule) : l.Gives rule := by
  rw [loaded] at h
  split at h
  case isTrue =>
    obtain ⟨hstart, hfinish, hlimit⟩ := DutyLimit.limitFor_of_ofLegs h
    exact ⟨hstart, hfinish, hlimit⟩
  case isFalse => cases h

theorem Limit.loaded_eq_error {fault : Fault} (h : l.loaded = .error fault) : fault = .unreadable ∨
    ∃ legs, 12 ≤ legs ∧ fault = .rejected (.segmentsBeyondTable legs DutyLimit.slots) := by
  rw [loaded] at h
  split at h
  case isTrue =>
    rw [DutyLimit.ofLegs] at h
    rcases Result.bind_eq_error.1 h with hfill | ⟨_, -, h⟩
    · exact .inr (DutyLimit.fill_eq_error hfill)
    · cases h
  case isFalse =>
    cases h
    exact .inl rfl

end Contents

namespace DutyLimits

variable {folder : Folder} {d : Document} {ls : List Contents.Limit}

-- The limits in the file of a folder.
def load (folder : Folder) : Result DutyLimits := do
  ofDocument (← folder.document "max_fdp.json")

-- The file of a folder has limits that are written.
def WrittenIn (ls : List Contents.Limit) (folder : Folder) : Prop :=
  ∃ d, folder.document "max_fdp.json" = .ok d ∧ Contents.ListOf d "rules" (fun x l => l.WrittenAs x) ls

theorem WrittenIn.load_eq (h : WrittenIn ls folder) : load folder = ls.mapM (·.loaded) := by
  obtain ⟨d, hd, hrules⟩ := h
  obtain ⟨x, ds, hx, hitems, hwritten⟩ := Contents.items_of_listOf hrules
  rw [load, hd, Result.ok_bind, ofDocument, hx, Result.ok_bind, hitems, Result.ok_bind]
  exact Result.mapM_congr_of_forall₂ hwritten fun _ _ hl => hl.ofDocument

-- Limits are refused if one is for twelve legs or more, or for a count that has too many figures to be read.
-- Otherwise there is a rule for each of the lists, in order, with the last limit that was written for a slot,
-- and nine hours if none was. In which of the notations they are written makes no difference.
theorem load_of_writtenIn (h : WrittenIn ls folder) :
    ((∃ l ∈ ls, l.Refused) → ∃ fault, load folder = .error fault ∧ (fault = .unreadable ∨
      ∃ legs, 12 ≤ legs ∧ fault = .rejected (.segmentsBeyondTable legs DutyLimit.slots))) ∧
    ((¬∃ l ∈ ls, l.Refused) →
      ∃ rules, load folder = .ok rules ∧ List.Forall₂ Contents.Limit.Gives ls rules) ∧
    ∀ folder', WrittenIn ls folder' → load folder' = load folder := by
  rw [h.load_eq]
  refine ⟨fun ⟨l, hl, hrefused⟩ => ?_, fun hnone => ?_, fun folder' h' => h'.load_eq⟩
  · cases hloaded : ls.mapM (·.loaded) with
    | error fault =>
      obtain ⟨l, -, hfault⟩ := Result.exists_of_mapM_eq_error hloaded
      exact ⟨fault, rfl, Contents.Limit.loaded_eq_error hfault⟩
    | ok rules =>
      obtain ⟨rule, -, hrule⟩ := Result.exists_of_mapM hloaded hl
      exact absurd hrefused (Contents.Limit.exists_loaded_iff.1 ⟨rule, hrule⟩)
  · obtain ⟨rules, hrules⟩ := Result.mapM_ok_of_forall fun l hl =>
      Contents.Limit.exists_loaded_iff.2 fun hrefused => hnone ⟨l, hl, hrefused⟩
    exact ⟨rules, hrules, (Result.mapM_eq_ok.1 hrules).imp fun _ _ => Contents.Limit.gives_of_loaded⟩

-- Limits that are written on one line are in the file.
theorem writtenIn_of_compact {depth : ℕ} (hfile : folder.file? "max_fdp.json" = some d.compact)
    (hd : d.Plain depth) (hdepth : depth ≤ Document.Reader.maxDepth)
    (h : Contents.ListOf d "rules" (fun x l => l.WrittenAs x) ls) : WrittenIn ls folder := by
  refine ⟨d, ?_, h⟩
  rw [Folder.document, hfile]
  exact Document.parse_compact hd hdepth

section Morning

variable {byLegs : List (Int × Span)} {fields : List (String × Document)}

-- Limits for duties that start in the morning, alone in their file.
def morning (byLegs : List (Int × Span)) : Contents.Limit := ⟨.after 6 0 0, .after 13 59 0, byLegs⟩

def morningRule (fields : List (String × Document)) : Document := .object [
  ("start", .text "06:00"), ("end", .text "13:59"), ("max_fdp_by_segments", .object fields)]

def morningFolder (fields : List (String × Document)) : Folder where
  path := .ofText "morning"
  file?
    | "max_fdp.json" => some (Document.object [("rules", .array [morningRule fields])]).compact
    | _ => none

theorem writtenIn_morning (hnames : (fields.map (·.1)).Nodup) (hplain : Document.PlainFields fields 0)
    (hnodup : (byLegs.map (·.1)).Nodup)
    (h : List.Forall₂ (fun e p => e.1 = toString p.1 ∧ p.2.WrittenAs e.2) fields byLegs) :
    WrittenIn [morning byLegs] (morningFolder fields) := by
  have hstart : Clock.read (.text "06:00") = .ok (.after 6 0 0) := by decide +kernel
  have hfinish : Clock.read (.text "13:59") = .ok (.after 13 59 0) := by decide +kernel
  have htexts : ∀ s ∈ ["rules", "start", "06:00", "end", "13:59", "max_fdp_by_segments"],
      Document.PlainText s := by decide +kernel
  have hrule : (morningRule fields).Plain 2 :=
    ⟨by simp, htexts "start" (by simp), htexts "06:00" (by simp), htexts "end" (by simp),
      htexts "13:59" (by simp), htexts "max_fdp_by_segments" (by simp), ⟨hnames, hplain⟩, trivial⟩
  have hfile : (Document.object [("rules", .array [morningRule fields])]).Plain 4 :=
    ⟨by simp, htexts "rules" (by simp), ⟨hrule, trivial⟩, trivial⟩
  exact writtenIn_of_compact rfl hfile (by decide)
    ⟨_, rfl, .cons ⟨⟨_, rfl, hstart⟩, ⟨_, rfl, hfinish⟩, ⟨_, rfl, h⟩, hnodup⟩ .nil⟩

-- The limits for one leg and for two are the same, the last that is written. Nine and a half hours are for
-- eleven legs, and for the other counts there are nine. The other file has each limit in the other notation.
theorem load_of_writtenIn_morning : ∃ rule,
    load (morningFolder [("2", .text "13:00"), ("-1", .whole 750), ("11", .text "09:30")]) = .ok [rule] ∧
    load (morningFolder [("2", .whole 780), ("-1", .text "12:30"), ("11", .whole 570)]) = .ok [rule] ∧
    rule.limitFor 1 = .ofMinutes 750 ∧ rule.limitFor 2 = .ofMinutes 750 ∧ rule.limitFor 3 = 9 * Span.hour ∧
    rule.limitFor 11 = .ofMinutes 570 ∧ rule.limitFor 40 = 9 * Span.hour := by
  have hone : WrittenIn [morning [(2, .ofMinutes 780), (-1, .ofMinutes 750), (11, .ofMinutes 570)]]
      (morningFolder [("2", .text "13:00"), ("-1", .whole 750), ("11", .text "09:30")]) :=
    writtenIn_morning (by decide) (by decide +kernel) (by decide)
      (.cons ⟨by decide, 13, 0, by decide, by decide, by decide, .inl (by decide)⟩
      (.cons ⟨by decide, 12, 30, by decide, by decide, by decide, .inr (by decide)⟩
      (.cons ⟨by decide, 9, 30, by decide, by decide, by decide, .inl (by decide)⟩ .nil)))
  have hother : WrittenIn [morning [(2, .ofMinutes 780), (-1, .ofMinutes 750), (11, .ofMinutes 570)]]
      (morningFolder [("2", .whole 780), ("-1", .text "12:30"), ("11", .whole 570)]) :=
    writtenIn_morning (by decide) (by decide +kernel) (by decide)
      (.cons ⟨by decide, 13, 0, by decide, by decide, by decide, .inr (by decide)⟩
      (.cons ⟨by decide, 12, 30, by decide, by decide, by decide, .inl (by decide)⟩
      (.cons ⟨by decide, 9, 30, by decide, by decide, by decide, .inr (by decide)⟩ .nil)))
  obtain ⟨-, haccepted, hsame⟩ := load_of_writtenIn hone
  obtain ⟨rules, hload, hgives⟩ := haccepted (by decide)
  obtain ⟨rule, rest, hrule, hrest, rfl⟩ := List.forall₂_cons_left_iff.1 hgives
  obtain rfl := List.forall₂_nil_left_iff.1 hrest
  exact ⟨rule, hload, (hsame _ hother).trans hload, (hrule.limitFor 1).trans (by decide),
    (hrule.limitFor 2).trans (by decide), (hrule.limitFor 3).trans (by decide),
    (hrule.limitFor 11).trans (by decide), (hrule.limitFor 40).trans (by decide)⟩

theorem writtenIn_morning_of_one (k : Int) :
    WrittenIn [morning [(k, .ofMinutes 600)]] (morningFolder [(toString k, .whole 600)]) := by
  have hlimit : Span.WrittenAs (.ofMinutes 600) (.whole 600) :=
    ⟨10, 0, by decide, by decide, by decide, .inr (by decide)⟩
  exact writtenIn_morning (List.nodup_singleton _) ⟨Document.plainText_toString k, by decide, trivial⟩
    (List.nodup_singleton _) (.cons ⟨rfl, hlimit⟩ .nil)

theorem load_morning_of_not_legible {k : Int} (h : ¬Legible k) :
    load (morningFolder [(toString k, .whole 600)]) = .error .unreadable := by
  have hloaded : (morning [(k, .ofMinutes 600)]).loaded = .error .unreadable :=
    if_neg fun hall => h (hall _ List.mem_cons_self)
  rw [(writtenIn_morning_of_one k).load_eq, List.mapM_cons, hloaded]
  rfl

-- A count of legs of 4301 figures under a minus is far below twelve, and cannot be read.
theorem load_morning_of_manyFigures :
    WrittenIn [morning [(-10 ^ maxWholeDigits, .ofMinutes 600)]]
      (morningFolder [(toString (-10 ^ maxWholeDigits : Int), .whole 600)]) ∧
    (-10 ^ maxWholeDigits : Int) < 12 ∧
    load (morningFolder [(toString (-10 ^ maxWholeDigits : Int), .whole 600)]) = .error .unreadable := by
  have hlong : ¬Legible (-10 ^ maxWholeDigits) := by
    have hten : Int.natAbs 10 = 10 := rfl
    rw [Legible, Nat.length_toDigits_le_iff (by decide) (by decide), Int.natAbs_neg, Int.natAbs_pow, hten]
    exact Nat.lt_irrefl _
  have hbelow : (-10 ^ maxWholeDigits : Int) < 12 :=
    lt_of_le_of_lt (neg_nonpos.2 (pow_nonneg (by decide) _)) (by decide)
  exact ⟨writtenIn_morning_of_one _, hbelow, load_morning_of_not_legible hlong⟩

end Morning

end DutyLimits

end CrewRoster
