import CrewRoster.Proofs.DateText
import CrewRoster.Proofs.Result
import CrewRoster.Time.Notation
import Mathlib.Data.String.Basic

namespace CrewRoster

namespace Text

variable {c : Char} {cs : List Char} {read : List Nat}

theorem toNat_of_isDigit (h : c.isDigit = true) : 48 ≤ c.toNat ∧ c.toNat ≤ 57 := by
  simpa [Char.isDigit, UInt32.le_iff_toNat_le] using h

theorem isDigit_of_mem_toDigits {n : ℕ} (h : c ∈ Nat.toDigits 10 n) : c.isDigit = true :=
  Nat.isDigit_of_mem_toDigits (by decide) (by decide) h

theorem digit?_of_isDigit (h : c.isDigit = true) : digit? c = some (c.toNat - '0'.toNat) := by
  obtain ⟨hlow, hhigh⟩ := toNat_of_isDigit h
  rw [digit?, zeros, List.find?_cons_of_pos]
  · rfl
  · simp only [Bool.and_eq_true, decide_eq_true_eq]
    omega

theorem isBlank_of_isDigit (h : c.isDigit = true) : isBlank c = false := by
  obtain ⟨hlow, hhigh⟩ := toNat_of_isDigit h
  simp only [isBlank, Bool.or_eq_false_iff, Bool.and_eq_false_iff, decide_eq_false_iff_not, beq_eq_false_iff_ne]
  omega

theorem trimBlanks_of_forall (h : ∀ c ∈ cs, isBlank c = false) : trimBlanks cs = cs := by
  have hself : ∀ l : List Char, (∀ c ∈ l, isBlank c = false) → l.dropWhile isBlank = l := fun l hl => by
    cases l with
    | nil => rfl
    | cons c l => rw [List.dropWhile_cons_of_neg (by simp [hl c List.mem_cons_self])]
  rw [trimBlanks, hself cs h, hself _ fun c hc => h c (List.mem_reverse.1 hc), List.reverse_reverse]

theorem rest_of_isDigit (h : ∀ c ∈ cs, c.isDigit = true) :
    groupedDigits?.rest read cs = some (read.reverse ++ cs.map fun c => c.toNat - '0'.toNat) := by
  induction cs generalizing read with
  | nil => simp [groupedDigits?.rest]
  | cons c cs ih =>
    obtain ⟨hc, hcs⟩ := List.forall_mem_cons.1 h
    have hne : c ≠ '_' := by
      rintro rfl
      cases hc
    rw [groupedDigits?.rest, digit?_of_isDigit hc]
    · change groupedDigits?.rest _ cs = _
      rw [ih hcs, List.reverse_cons, List.append_assoc]
      rfl
    · exact fun _ _ he => absurd he hne

theorem groupedDigits?_of_isDigit (hne : cs ≠ []) (h : ∀ c ∈ cs, c.isDigit = true) :
    groupedDigits? cs = some (cs.map fun c => c.toNat - '0'.toNat) := by
  obtain ⟨c, cs, rfl⟩ := List.exists_cons_of_ne_nil hne
  obtain ⟨hc, hcs⟩ := List.forall_mem_cons.1 h
  rw [groupedDigits?, digit?_of_isDigit hc]
  exact rest_of_isDigit hcs

theorem ofDigits_map : ofDigits (cs.map fun c => c.toNat - '0'.toNat) = Nat.ofDigitChars 10 cs 0 :=
  List.foldl_map

theorem atEnd_ofList (l r : List Char) :
    String.Pos.Raw.atEnd (.ofList (l ++ r)) ⟨String.utf8Len l⟩ = true ↔ r = [] := by
  rw [String.atEnd_iff, String.rawEndPos_ofList, String.utf8Len_append, String.Pos.Raw.mk_le_mk,
    ← String.utf8Len_eq_zero]
  omega

theorem extract_ofList (l m r : List Char) : String.Pos.Raw.extract (.ofList (l ++ m ++ r))
    ⟨String.utf8Len l⟩ ⟨String.utf8Len (l ++ m)⟩ = .ofList m := by
  rw [String.utf8Len_append, String.extract_of_valid]

-- The pieces of a text between its colons. Before the place of `r` the text has the pieces found and `m`.
theorem splitOnAux_colon (l m r : List Char) (found : List String) :
    String.splitOnAux (.ofList (l ++ m ++ r)) ":" ⟨String.utf8Len l⟩ ⟨String.utf8Len (l ++ m)⟩ 0 found =
      found.reverse ++ (List.splitOnPPrepend (· == ':') r m.reverse).map String.ofList := by
  have hsize : ∀ c : Char, String.utf8Len [c] = c.utf8Size := fun c => by simp
  induction r generalizing l m found with
  | nil =>
    rw [String.splitOnAux, if_pos ((atEnd_ofList _ _).2 rfl), extract_ofList]
    simp [List.splitOnPPrepend]
  | cons c r ih =>
    rw [String.splitOnAux, if_neg (mt (atEnd_ofList _ _).1 (List.cons_ne_nil c r)), String.get_of_valid,
      String.next_of_valid, List.splitOnPPrepend_cons_eq_if]
    by_cases hc : c = ':'
    · subst hc
      have hmatch : ((':' :: r).headD default == String.Pos.Raw.get ":" 0) = true := rfl
      have hwhole : String.Pos.Raw.atEnd ":" (String.Pos.Raw.next ":" 0) = true := rfl
      have ih := ih (l ++ m ++ [':']) [] (.ofList m :: found)
      rw [List.append_nil, List.append_assoc, List.singleton_append, String.utf8Len_append (l ++ m)] at ih
      rw [if_pos hmatch, if_pos (beq_self_eq_true ':')]
      dsimp only
      rw [if_pos hwhole]
      change String.splitOnAux _ _ ⟨_⟩ ⟨_⟩ 0
        (String.Pos.Raw.extract (.ofList (l ++ m ++ ':' :: r)) ⟨_⟩ ⟨String.utf8Len (l ++ m)⟩ :: found) = _
      rw [extract_ofList]
      exact ih.trans (by simp)
    · have hmatch : ¬((c :: r).headD default == String.Pos.Raw.get ":" 0) = true := mt beq_iff_eq.1 hc
      have ih := ih l (m ++ [c]) found
      rw [← List.append_assoc, List.append_assoc (l ++ m), List.singleton_append,
        String.utf8Len_append (l ++ m), List.reverse_append] at ih
      rw [if_neg hmatch, if_neg (mt beq_iff_eq.1 hc)]
      change String.splitOnAux _ _ ⟨_⟩ (String.Pos.Raw.next (.ofList (l ++ m ++ c :: r))
        ⟨String.utf8Len (l ++ m)⟩) 0 found = _
      rw [String.next_of_valid]
      exact (hsize c ▸ ih :)

theorem splitOn_colon (s : String) :
    s.splitOn ":" = (s.toList.splitOnP (· == ':')).map String.ofList := by
  have h := splitOnAux_colon [] [] s.toList []
  rw [List.nil_append, List.nil_append, String.ofList_toList] at h
  exact h

end Text

section Reading

variable {s : String} {cs : List Char} {k : Int} {w n : ℕ}

theorem splitSign_of_isDigit (hne : cs ≠ []) (h : ∀ c ∈ cs, c.isDigit = true) :
    splitSign cs = (false, cs) := by
  obtain ⟨c, cs, rfl⟩ := List.exists_cons_of_ne_nil hne
  have hc := h c List.mem_cons_self
  rw [splitSign]
  · rintro _ ⟨⟩
    cases hc
  · rintro _ ⟨⟩
    cases hc

-- A row of digits, under a sign or not, is the number that it spells, unless it is too long.
theorem readWhole?_of_isDigit (negative : Bool) (hs : s.toList = (if negative then ['-'] else []) ++ cs)
    (hne : cs ≠ []) (h : ∀ c ∈ cs, c.isDigit = true) :
    readWhole? s = if cs.length ≤ maxWholeDigits then
      some (if negative then -(Nat.ofDigitChars 10 cs 0 : Int) else Nat.ofDigitChars 10 cs 0) else none := by
  have hblank : ∀ c ∈ s.toList, Text.isBlank c = false := by
    rw [hs]
    intro c hc
    rcases List.mem_append.1 hc with hc | hc
    · cases negative with
      | true => rw [List.mem_singleton.1 hc]; rfl
      | false => cases hc
    · exact Text.isBlank_of_isDigit (h c hc)
  have hsign : splitSign s.toList = (negative, cs) := by
    rw [hs]
    cases negative with
    | true => rfl
    | false => exact splitSign_of_isDigit hne h
  rw [readWhole?, Text.trimBlanks_of_forall hblank, hsign]
  dsimp only
  rw [Text.groupedDigits?_of_isDigit hne h]
  simp only [Option.bind_eq_bind, Option.bind_some, List.length_map, Text.ofDigits_map, guard]
  split <;> rfl

-- A number that is short enough to be read.
def Legible (k : Int) : Prop := (Nat.toDigits 10 k.natAbs).length ≤ maxWholeDigits

instance : Decidable (Legible k) := inferInstanceAs (Decidable (_ ≤ _))

theorem legible_of_lt (h : n < 10 ^ 11) : Legible n :=
  le_trans ((Nat.length_toDigits_le_iff (by decide) (by decide)).2 h) (by decide)

theorem toList_toString (k : Int) :
    (toString k).toList = (if decide (k < 0) then ['-'] else []) ++ Nat.toDigits 10 k.natAbs := by
  cases k with
  | ofNat m => exact String.toList_ofList
  | negSucc m =>
    change ("-" ++ (m + 1).repr).toList = _
    rw [String.toList_append, if_pos (decide_eq_true (Int.negSucc_lt_zero m))]
    exact congrArg ('-' :: ·) String.toList_ofList

theorem readWhole?_toString (k : Int) : readWhole? (toString k) = if Legible k then some k else none := by
  rw [readWhole?_of_isDigit _ (toList_toString k) Nat.toDigits_ne_nil fun _ => Text.isDigit_of_mem_toDigits,
    Nat.ofDigitChars_ten_toDigits]
  refine if_congr Iff.rfl (congrArg some ?_) rfl
  simp only [decide_eq_true_eq]
  split <;> omega

theorem readWhole?_padded (hw : w ≤ maxWholeDigits) (hn : Legible n) :
    readWhole? (Date.padded w n) = some ↑n := by
  obtain ⟨cs, hcs⟩ : ∃ cs, cs = (Date.padded w n).toList := ⟨_, rfl⟩
  have hdigits := hcs.trans Date.toList_padded
  have hall : ∀ c ∈ cs, c.isDigit = true := by
    intro c hc
    rcases List.mem_append.1 (hdigits ▸ hc) with hc | hc
    · rw [List.eq_of_mem_replicate hc]
      rfl
    · exact Text.isDigit_of_mem_toDigits hc
  have hlength : cs.length ≤ maxWholeDigits := by
    have : (Nat.toDigits 10 n).length ≤ maxWholeDigits := hn
    rw [hdigits, List.length_append, List.length_replicate]
    omega
  have hne : cs ≠ [] := hdigits ▸ List.append_ne_nil_of_right_ne_nil _ Nat.toDigits_ne_nil
  rw [readWhole?_of_isDigit false hcs.symm hne hall, if_pos hlength, hdigits, Nat.ofDigitChars_append,
    Nat.ofDigitChars_replicate_zero, Nat.mul_zero, Nat.ofDigitChars_ten_toDigits]
  rfl

theorem not_mem_padded : ':' ∉ (Date.padded w n).toList := by
  intro hc
  rw [Date.toList_padded] at hc
  rcases List.mem_append.1 hc with hc | hc
  · cases List.eq_of_mem_replicate hc
  · cases Text.isDigit_of_mem_toDigits hc

end Reading

namespace Span

variable {s : Span} {d : Document}

-- How a length of time of whole minutes is written: as hours and minutes, or as a number of minutes.
def WrittenAs (s : Span) (d : Document) : Prop :=
  ∃ hours minutes : ℕ, minutes < 60 ∧ s = ofMinutes (hours * 60 + minutes) ∧ s < 1000000000 * day ∧
    (d = .text (Date.padded 2 hours ++ ":" ++ Date.padded 2 minutes) ∨ d = .whole (hours * 60 + minutes))

theorem splitOn_written (hours minutes : ℕ) :
    (Date.padded 2 hours ++ ":" ++ Date.padded 2 minutes).splitOn ":" =
      [Date.padded 2 hours, Date.padded 2 minutes] := by
  have hnone : ∀ n, ∀ c ∈ (Date.padded 2 n).toList, (c == ':') = false := fun n c hc =>
    beq_false_of_ne fun he => not_mem_padded (he ▸ hc)
  have hlist : (Date.padded 2 hours ++ ":" ++ Date.padded 2 minutes).toList =
      (Date.padded 2 hours).toList ++ ':' :: (Date.padded 2 minutes).toList := by
    simp [String.toList_append]
  rw [Text.splitOn_colon, hlist, List.splitOnP_append_cons_of_forall_mem (hnone hours) _ rfl,
    List.splitOnP_eq_singleton (hnone minutes)]
  simp

theorem check_of_bounds (hfirst : -999999999 * day ≤ s) (hlast : s < 1000000000 * day) : check s = .ok s :=
  if_pos ⟨hfirst, hlast⟩

theorem read_text {text hours mins : String} {h m : Int} (hsplit : text.splitOn ":" = [hours, mins])
    (hh : readWhole? hours = some h) (hm : readWhole? mins = some m) :
    read (.text text) = check (h * hour + ofMinutes m) := by
  simp only [read, Document.display, hsplit, Document.toWhole, hh, hm, Option.elim_some, Result.ok_bind]

theorem read_whole (n : Int) : read (.whole n) = check (ofMinutes n) :=
  rfl

theorem WrittenAs.read (h : s.WrittenAs d) : read d = .ok s := by
  obtain ⟨hours, minutes, hminutes, rfl, hlast, hd⟩ := h
  have hfirst : -999999999 * day ≤ ofMinutes (hours * 60 + minutes) := by
    dsimp only [Span, ofMinutes, day, hour, minute, second]
    omega
  have hcheck := check_of_bounds hfirst hlast
  rcases hd with rfl | rfl
  · have hhours : hours < 10 ^ 11 := by
      dsimp only [Span, ofMinutes, day, hour, minute, second] at hlast
      omega
    have hsum : (hours : Int) * hour + ofMinutes minutes = ofMinutes (hours * 60 + minutes) := by
      dsimp only [Span, ofMinutes, hour, minute, second]
      omega
    rw [read_text (splitOn_written hours minutes) (readWhole?_padded (by decide) (legible_of_lt hhours))
      (readWhole?_padded (by decide) (legible_of_lt (by omega))), hsum, hcheck]
  · rw [read_whole, hcheck]

end Span

end CrewRoster
